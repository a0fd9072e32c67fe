import Mathlib
import CanonicalText.Proofs.Command.Configuration

/-!
# Requests on the command line

All arguments can be asked for by options, in any order and each of them written in any of its ways. An option that
asks again for what has been asked for is refused.

* `Request`, `Request.Written` : what options ask for, and how they are written;
* `Progress.request` : what an option changes, whichever way it is written;
* `Progress.takeAll_written` : written options, one after another;
* `parse_written` : arguments that are asked for in some order, and options that come twice.
-/

namespace CanonicalText.Arguments

/-- What a single option asks for. -/
inductive Request where
  | output (o : OutputFormat)
  | line (n : UInt64)
  | config (path : Text)
  | positions
deriving DecidableEq

namespace Request

def option : Request → String
  | output _ => "--output"
  | line _ => "--line"
  | config _ => "--config"
  | positions => "--positions"

/-- The values that an option asks for it with. A line can have leading zeros and a plus sign. -/
inductive Takes : Request → Text → Prop
  | output (o : OutputFormat) : Takes (output o) o.spelled
  | line {n : UInt64} {digits value : Text} (hvalue : value = digits ∨ value = '+' :: digits) (hne : digits ≠ [])
      (hdigits : digits.all Char.isDigit = true) (hn : ofDecimal digits = n.toNat) : Takes (line n) value
  | config (path : Text) : Takes (config path) path

/-- How it can be written: with the value after an equals sign, or in the next argument, unless the value begins with
a dash and is more than this dash. The flag has no value. -/
inductive Written (r : Request) : List Text → Prop
  | attached {value : Text} (h : r.Takes value) : Written r [r.option.toList ++ '=' :: value]
  | apart {value : Text} (h : r.Takes value) (hdash : value.head? ≠ some '-' ∨ value = ['-']) :
      Written r [r.option.toList, value]
  | flag (h : r = positions) : Written r [r.option.toList]

end Request

/-- What options have to ask for, so that the arguments are read. -/
def requests (a : Arguments) : List Request :=
  a.output.toList.map .output ++ (a.line.toList.map .line ++
    (a.config.toList.map .config ++ if a.positions then [.positions] else []))

namespace Progress

variable {p q : Progress} {r s : Request}

/-! ## What options change -/

/-- Whether the option has been there. -/
def asked (p : Progress) : Request → Bool
  | .output _ => p.output.isSome
  | .line _ => p.line.isSome
  | .config _ => p.config.isSome
  | .positions => p.positions

def granted (p : Progress) : Request → Progress
  | .output o => { p with output := some o }
  | .line n => { p with line := some n }
  | .config path => { p with config := some path }
  | .positions => { p with positions := true }

def request (p : Progress) (r : Request) : Except Stop Progress :=
  if p.asked r then .error (.usage .argumentConflict) else .ok (p.granted r)

@[simp] theorem granted_input (p : Progress) (r : Request) : (p.granted r).input = p.input := by
  cases r <;> rfl

@[simp] theorem granted_pending (p : Progress) (r : Request) : (p.granted r).pending = p.pending := by
  cases r <;> rfl

theorem asked_granted (p : Progress) (r s : Request) :
    (p.granted r).asked s = (p.asked s || decide (r.option = s.option)) := by
  cases r <;> cases s <;> simp [asked, granted, Request.option]

theorem granted_comm (p : Progress) (h : r.option ≠ s.option) :
    (p.granted r).granted s = (p.granted s).granted r := by
  cases r <;> cases s <;> first | rfl | simp [Request.option] at h

theorem request_request (p : Progress) (r s : Request) :
    (p.request r >>= fun q => q.request s) =
      if p.asked r ∨ p.asked s ∨ r.option = s.option then .error (.usage .argumentConflict)
      else .ok ((p.granted r).granted s) := by
  unfold request
  by_cases hr : p.asked r
  · simp [hr, bind, Except.bind]
  · simp [hr, asked_granted, bind, Except.bind]

theorem request_comm (p : Progress) (r s : Request) :
    (p.request r >>= fun q => q.request s) = p.request s >>= fun q => q.request r := by
  rw [request_request, request_request]
  have hc : (p.asked r ∨ p.asked s ∨ r.option = s.option) ↔ (p.asked s ∨ p.asked r ∨ s.option = r.option) := by
    rw [or_left_comm, @eq_comm _ r.option]
  by_cases h : p.asked r ∨ p.asked s ∨ r.option = s.option
  · rw [if_pos h, if_pos (hc.1 h)]
  · rw [if_neg h, if_neg (mt hc.2 h), granted_comm p fun heq => h (.inr (.inr heq))]

theorem request_twice (p : Progress) (h : r.option = s.option) :
    (p.request r >>= fun q => q.request s) = .error (.usage .argumentConflict) := by
  rw [request_request, if_pos (.inr (.inr h))]

/-- The order of options does not matter. -/
theorem foldlM_request_perm {rs ss : List Request} (h : rs.Perm ss) (p : Progress) :
    rs.foldlM request p = ss.foldlM request p := by
  induction h generalizing p with
  | nil => rfl
  | cons r _ ih => simp only [List.foldlM_cons, ih]
  | swap r s rs => simp only [List.foldlM_cons, ← bind_assoc, request_comm p r s]
  | trans _ _ ih ih' => exact (ih p).trans (ih' p)

theorem foldlM_request_twice {rs ss : List Request} (h : rs.Perm (r :: s :: ss)) (hoption : r.option = s.option)
    (p : Progress) : rs.foldlM request p = .error (.usage .argumentConflict) := by
  rw [foldlM_request_perm h]
  simp only [List.foldlM_cons, ← bind_assoc, request_twice p hoption]
  rfl

theorem foldlM_requests (a : Arguments) :
    a.requests.foldlM request start = .ok ⟨none, a.output, a.positions, a.line, a.config, none⟩ := by
  obtain ⟨input, output, positions, line, config⟩ := a
  cases output <;> cases line <;> cases config <;> cases positions <;> rfl

theorem input_of_request (h : p.request r = .ok q) : q.input = p.input := by
  unfold request at h
  split_ifs at h
  cases h
  exact granted_input p r

theorem settle_of_pending (h : p.pending = none) : p.settle = .ok p := by
  simp only [settle, h]

theorem request_settle (h : p.pending = none) : p.request r >>= settle = p.request r := by
  unfold request
  split_ifs
  · rfl
  · exact settle_of_pending (by simp [h])

/-! ## How options are written -/

theorem assign_output (p : Progress) (o : OutputFormat) : p.assign .output o.spelled = p.request (.output o) := by
  cases o <;> rfl

theorem assign_line (p : Progress) {n : UInt64} {value : Text} (h : word? value = some n) :
    p.assign .line value = p.request (.line n) := by
  simp only [assign, h]
  rfl

theorem exists_valued {value : Text} (h : r.Takes value) :
    ∃ option : Valued, (∀ p : Progress, p.assign option value = p.request r) ∧
      (∀ (p : Progress) ts, p.takeAll ((r.option.toList ++ '=' :: value) :: ts) =
        p.takeValued option (some value) >>= fun q => q.takeAll ts) ∧
      ∀ (p : Progress) ts, p.takeAll (r.option.toList :: ts) =
        p.takeValued option none >>= fun q => q.takeAll ts := by
  cases h with
  | output o =>
    simp only [Request.option]
    exact ⟨.output, fun p => p.assign_output o, fun _ _ => rfl, fun _ _ => rfl⟩
  | line hvalue hne hdigits hn =>
    simp only [Request.option]
    exact ⟨.line, fun p => p.assign_line (word?_of_digits hvalue hne hdigits hn), fun _ _ => rfl, fun _ _ => rfl⟩
  | config path =>
    simp only [Request.option]
    exact ⟨.config, fun _ => rfl, fun _ _ => rfl, fun _ _ => rfl⟩

theorem takeAll_pending {t : Text} (option : Valued) (ht : Token.ofText t = .plain t) (ts : List Text) :
    ({ p with pending := some (option, none) } : Progress).takeAll (t :: ts) =
      ({ p with pending := some (option, some t) } : Progress).takeAll ts := by
  rw [takeAll, ht]
  rfl

/-- A written option looks at the value before it, and comes to what it asks for once its own value is looked at. -/
theorem exists_step {w : List Text} (h : r.Written w) :
    ∃ step : Progress → Except Stop Progress,
      (∀ (p : Progress) ts, p.takeAll (w ++ ts) = p.settle >>= fun q => step q >>= fun q => q.takeAll ts) ∧
      (∀ p : Progress, p.pending = none → step p >>= settle = p.request r) ∧
      ∀ p q : Progress, step p = .ok q → q.input = p.input := by
  cases h with
  | @attached value h =>
    obtain ⟨option, hassign, hattached, -⟩ := exists_valued h
    refine ⟨(·.request r), fun p ts => ?_, fun _ => request_settle, fun _ _ => input_of_request⟩
    rw [List.singleton_append, hattached, takeValued, bind_assoc]
    simp only [hassign]
  | @apart value h hdash =>
    obtain ⟨option, hassign, -, happart⟩ := exists_valued h
    refine ⟨fun q => .ok { q with pending := some (option, some value) }, fun p ts => ?_, fun p hp => ?_, ?_⟩
    · rw [List.cons_append, List.singleton_append, happart, takeValued, bind_assoc]
      refine bind_congr fun q => ?_
      exact takeAll_pending option (ofText_of_head? hdash) ts
    · obtain ⟨_, _, _, _, _, _⟩ := p
      cases hp
      exact hassign _
    · rintro p q ⟨⟩
      rfl
  | flag h =>
    subst h
    refine ⟨(·.request .positions), fun p ts => ?_, fun _ => request_settle, fun _ _ => input_of_request⟩
    rw [← bind_assoc]
    simp only [Request.option]
    rfl

/-- **Written options, one after another.** They change what they ask for, whichever way they are written, and the
input after them is taken whatever it is. -/
theorem takeAll_written {rs : List Request} {ws : List (List Text)} (hws : List.Forall₂ Request.Written rs ws)
    (hinput : p.input = none) (input : Text) :
    p.takeAll (ws.flatten ++ ["--".toList, input]) =
      p.settle >>= fun q => rs.foldlM request q >>= fun q => .ok { q with input := some input } := by
  induction hws generalizing p with
  | nil =>
    have htake : p.takeAll ["--".toList, input] = p.takeInput input >>= .ok := rfl
    simp only [List.flatten_nil, List.nil_append, htake, takeInput, hinput, Option.isSome_none, Bool.false_eq_true,
      if_false, bind_assoc, List.foldlM_nil, pure_bind]
  | @cons r w rs ws hw _ ih =>
    obtain ⟨step, htake, hrequest, hstep⟩ := exists_step hw
    rw [List.flatten_cons, List.append_assoc, htake]
    refine bind_congr_of_ok fun q hq => ?_
    have hpending := pending_of_settle hq
    have hinput : q.input = none := (input_of_settle hq).trans hinput
    calc step q >>= (fun q => q.takeAll (ws.flatten ++ ["--".toList, input]))
        = step q >>= fun q => q.settle >>= fun q => rs.foldlM request q >>= fun q =>
            .ok { q with input := some input } :=
          bind_congr_of_ok fun q' hq' => ih ((hstep q q' hq').trans hinput)
      _ = q.request r >>= fun q => rs.foldlM request q >>= fun q => .ok { q with input := some input } := by
          rw [← bind_assoc, hrequest q hpending]
      _ = _ := by
          rw [List.foldlM_cons, bind_assoc]

end Progress

/-- Arguments that are written ask for one thing after another, and for the input last. -/
theorem parse_flatten {rs : List Request} {ws : List (List Text)} (hws : List.Forall₂ Request.Written rs ws)
    (input : Text) :
    parse (ws.flatten ++ ["--".toList, input]) =
      rs.foldlM Progress.request .start >>= fun p => ({ p with input := some input } : Progress).settle >>= fun p =>
        .ok p.toArguments := by
  rw [parse, Progress.takeAll_written hws rfl, Progress.settle_of_pending rfl]
  simp only [bind_assoc]
  rfl

/-- **Arguments can be asked for in any order**, each of them in any of its ways, whatever the input is, and none of
them twice. -/
theorem parse_written {a : Arguments} {rs : List Request} {ws : List (List Text)} (hrs : rs.Perm a.requests)
    (hws : List.Forall₂ Request.Written rs ws) :
    parse (ws.flatten ++ ["--".toList, a.input]) = .ok a ∧
      (a.readsStandardInput = true ↔ a.input = ['-']) ∧
      ∀ r ∈ rs, ∀ (s : Request) (w : List Text), s.option = r.option → s.Written w →
        ∀ before after, ws = before ++ after →
        parse ((before ++ w :: after).flatten ++ ["--".toList, a.input]) = .error (.usage .argumentConflict) := by
  refine ⟨?_, ?_, ?_⟩
  · rw [parse_flatten hws, Progress.foldlM_request_perm hrs, Progress.foldlM_requests]
    rfl
  · exact decide_eq_true_iff
  · rintro r hr s w hoption hw before after rfl
    have hinserted : List.Forall₂ Request.Written (rs.take before.length ++ s :: rs.drop before.length)
        (before ++ w :: after) :=
      List.rel_append (List.forall₂_take_append _ _ _ hws) (.cons hw (List.forall₂_drop_append _ _ _ hws))
    have hperm : (rs.take before.length ++ s :: rs.drop before.length).Perm (s :: r :: rs.erase r) := by
      refine List.perm_middle.trans (.cons s ?_)
      rw [List.take_append_drop]
      exact List.perm_cons_erase hr
    rw [parse_flatten hinserted, Progress.foldlM_request_twice hperm hoption]
    rfl

/-- A value that looks like an option, a numeral with a plus sign, and an input that begins with a dash; and a format
that is asked for twice. -/
theorem parse_written_json :
    parse (["--positions", "--config=--line=3", "--line", "+07", "--output", "json", "--", "-x"].map String.toList) =
        .ok ⟨"-x".toList, some .json, true, some 7, some "--line=3".toList⟩ ∧
      parse (["--positions", "--output=human", "--config=--line=3", "--line", "+07", "--output", "json", "--",
        "-x"].map String.toList) = .error (.usage .argumentConflict) := by
  have hrs : [Request.positions, .config "--line=3".toList, .line 7, .output .json].Perm
      (requests ⟨"-x".toList, some .json, true, some 7, some "--line=3".toList⟩) := by decide
  have hline : (Request.line 7).Takes "+07".toList :=
    @Request.Takes.line 7 "07".toList _ (.inr rfl) (by decide) (by decide) (by decide)
  have hws : List.Forall₂ Request.Written [.positions, .config "--line=3".toList, .line 7, .output .json] _ :=
    .cons (.flag rfl) (.cons (.attached (.config _)) (.cons (.apart hline (.inl (by decide)))
      (.cons (.apart (.output .json) (.inl (by decide))) .nil)))
  obtain ⟨hparse, -, htwice⟩ := parse_written hrs hws
  exact ⟨hparse, htwice (.output .json) (by decide) (.output .human) _ rfl (.attached (.output .human)) [_] _ rfl⟩

end CanonicalText.Arguments
