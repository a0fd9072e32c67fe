import Mathlib
import CanonicalText.Command.Arguments
import CanonicalText.Proofs.Results

/-!
# The option for a line

Arguments that ask for no line can be read with such an option in front, too, and it changes nothing but the
line. Every step of reading goes on in the same way if the line is known already, unless the step is about that
option itself.

* `Progress.Passes` : steps that leave the line of their progress alone;
* `Progress.passes_takeAll` : reading arguments is one, if it ends without a line;
* `parse_line_cons` : the option in front of other arguments.
-/

namespace CanonicalText.Arguments

namespace Progress

def Lineless (p : Progress) : Prop := p.line = none ∧ ∀ value, p.pending ≠ some (.line, value)

def withLine (k : UInt64) (p : Progress) : Progress := { p with line := some k }

/-- A step that ends without a line has begun without one, and a line that is known would not change it. -/
def Passes (k : UInt64) (step : Progress → Except Stop Progress) : Prop :=
  ∀ p q, step p = .ok q → q.Lineless → p.Lineless ∧ step (p.withLine k) = .ok (q.withLine k)

variable {k : UInt64}

/-! ## Steps that leave the line alone -/

theorem passes_ok : Passes k .ok := by
  rintro p q ⟨⟩ hq
  exact ⟨hq, rfl⟩

theorem passes_error (stop : Stop) : Passes k fun _ => .error stop := by
  rintro p q ⟨⟩

theorem Passes.bind {first second : Progress → Except Stop Progress} (h : Passes k first)
    (h' : Passes k second) : Passes k fun p => first p >>= second := by
  intro p q hpq hq
  obtain ⟨r, hr, hrq⟩ := bind_eq_ok_iff.1 hpq
  obtain ⟨hrless, hline⟩ := h' r q hrq hq
  obtain ⟨hp, hfirst⟩ := h p r hr hrless
  exact ⟨hp, bind_eq_ok_iff.2 ⟨_, hfirst, hline⟩⟩

/-- A step that looks at the progress first and then goes on without or with a failure. -/
theorem Passes.guard {c : Progress → Prop} [DecidablePred c] {step : Progress → Except Stop Progress}
    {stop : Stop} (hc : ∀ p, c (p.withLine k) ↔ c p) (h : Passes k step) :
    Passes k fun p => if c p then .error stop else step p := by
  intro p q hpq hq
  by_cases hp : c p
  · simp [hp] at hpq
  · simp only [hp, if_false] at hpq
    obtain ⟨hless, hline⟩ := h p q hpq hq
    exact ⟨hless, by simpa only [hc, hp, if_false] using hline⟩

theorem line_of_assign {p q : Progress} {value : Text} (h : p.assign .line value = .ok q) :
    q.line.isSome = true := by
  simp only [assign] at h
  cases hline : p.line.isSome with
  | true => simp [hline] at h
  | false =>
    cases hword : word? value with
    | none => simp [hline, hword] at h
    | some n =>
      simp only [hline, hword, Except.ok.injEq, Bool.false_eq_true, if_false] at h
      subst h
      rfl

theorem passes_assign (option : Valued) (value : Text) : Passes k (·.assign option value) := by
  cases option with
  | output =>
    refine .guard (fun _ => .rfl) ?_
    intro p q hpq hq
    cases hformat : OutputFormat.names.find? (·.1.toList == value) with
    | none => simp [hformat] at hpq
    | some format =>
      simp only [hformat, Except.ok.injEq] at hpq ⊢
      subst hpq
      exact ⟨hq, rfl⟩
  | line =>
    intro p q hpq hq
    have := line_of_assign hpq
    rw [hq.1] at this
    cases this
  | config =>
    refine .guard (fun _ => .rfl) ?_
    rintro p q ⟨⟩ hq
    exact ⟨hq, rfl⟩

theorem passes_settle : Passes k settle := by
  intro p q hpq hq
  cases hpending : p.pending with
  | none =>
    simp only [settle, withLine, hpending, Except.ok.injEq] at hpq ⊢
    subst hpq
    exact ⟨⟨hq.1, by simp [hpending]⟩, by rw [hpending]⟩
  | some o =>
    obtain ⟨option, _ | value⟩ := o
    · simp [settle, hpending] at hpq
    · simp only [settle, withLine, hpending] at hpq ⊢
      obtain ⟨hless, hline⟩ := passes_assign option value _ q hpq hq
      refine ⟨⟨hless.1, fun v hv => ?_⟩, hline⟩
      rw [hpending, Option.some.injEq, Prod.mk.injEq] at hv
      obtain ⟨rfl, -⟩ := hv
      have := line_of_assign hpq
      rw [hq.1] at this
      cases this

theorem frame_of_assign {p q : Progress} {option : Valued} {value : Text} (h : p.assign option value = .ok q) :
    q.input = p.input ∧ q.pending = p.pending := by
  cases option <;> simp only [assign] at h <;> split at h
  · cases h
  · split at h <;> cases h
    exact ⟨rfl, rfl⟩
  · cases h
  · split at h <;> cases h
    exact ⟨rfl, rfl⟩
  · cases h
  · cases h
    exact ⟨rfl, rfl⟩

theorem pending_of_settle {p q : Progress} (h : p.settle = .ok q) : q.pending = none := by
  unfold settle at h
  split at h
  · next hpending =>
    cases h
    exact hpending
  · cases h
  · exact (frame_of_assign h).2

theorem input_of_settle {p q : Progress} (h : p.settle = .ok q) : q.input = p.input := by
  unfold settle at h
  split at h
  · cases h
    rfl
  · cases h
  · exact (frame_of_assign h).1

/-! ## Reading -/

theorem passes_takeValued (option : Valued) (value : Option Text) :
    Passes k (·.takeValued option value) := by
  cases value with
  | some value => exact passes_settle.bind (passes_assign option value)
  | none =>
    intro p q hpq hq
    obtain ⟨r, hr, hrq⟩ := bind_eq_ok_iff.1 hpq
    cases hrq
    obtain ⟨hp, hline⟩ := passes_settle p r hr ⟨hq.1, by simp [pending_of_settle hr]⟩
    exact ⟨hp, bind_eq_ok_iff.2 ⟨_, hline, rfl⟩⟩

theorem passes_takeFlag (value : Option Text) {act : Progress → Except Stop Progress}
    (h : Passes k act) : Passes k (·.takeFlag value act) := by
  cases value with
  | some _ => exact passes_error _
  | none => exact passes_settle.bind h

theorem passes_askPositions : Passes k askPositions := by
  refine .guard (fun _ => .rfl) ?_
  rintro p q ⟨⟩ hq
  exact ⟨hq, rfl⟩

theorem passes_takeInput (input : Text) : Passes k (·.takeInput input) := by
  refine .guard (fun _ => .rfl) (passes_settle.bind ?_)
  rintro p q ⟨⟩ hq
  exact ⟨hq, rfl⟩

theorem passes_takePlain (t : Text) : Passes k (·.takePlain t) := by
  intro p q hpq hq
  have hinput := passes_takeInput (k := k) t p q
  cases hpending : p.pending with
  | none =>
    simp only [takePlain, withLine, hpending] at hpq hinput ⊢
    exact hinput hpq hq
  | some o =>
    obtain ⟨option, _ | value⟩ := o
    · simp only [takePlain, withLine, hpending, Except.ok.injEq] at hpq ⊢
      subst hpq
      refine ⟨⟨hq.1, fun value hvalue => ?_⟩, rfl⟩
      cases hpending.symm.trans hvalue
      exact hq.2 _ rfl
    · simp only [takePlain, withLine, hpending] at hpq hinput ⊢
      exact hinput hpq hq

theorem passes_takeLong (name : Text) (value : Option Text) : Passes k (·.takeLong name value) := by
  unfold takeLong
  split_ifs
  · exact passes_takeValued .output value
  · exact passes_takeValued .line value
  · exact passes_takeValued .config value
  · exact passes_takeFlag value passes_askPositions
  · exact passes_takeFlag value (passes_error _)
  · exact passes_takeFlag value (passes_error _)
  · exact passes_error _

theorem passes_takeShort (letter : Char) : Passes k (·.takeShort letter) := by
  unfold takeShort
  split_ifs
  · exact passes_settle.bind (passes_error _)
  · exact passes_settle.bind (passes_error _)
  · exact passes_error _

theorem passes_takeInputs (ts : List Text) : Passes k (·.takeInputs ts) := by
  induction ts with
  | nil => exact passes_ok
  | cons t ts ih => exact (passes_takeInput t).bind ih

/-- **Reading arguments** passes on a line that is known, if it ends without one otherwise. -/
theorem passes_takeAll (ts : List Text) : Passes k (·.takeAll ts) := by
  induction ts with
  | nil => exact passes_ok
  | cons t ts ih =>
    unfold takeAll
    cases Token.ofText t with
    | separator => exact passes_takeInputs ts
    | long name value => exact (passes_takeLong name value).bind ih
    | short letter others => exact (passes_takeShort letter).bind ih
    | plain t => exact (passes_takePlain t).bind ih

/-! ## Values that have not been looked at -/

section Settle

variable {p r : Progress} (h : p.settle = r.settle)

include h

theorem takeValued_congr (option : Valued) (value : Option Text) :
    p.takeValued option value = r.takeValued option value := by
  simp only [takeValued, h]

theorem takeFlag_congr (value : Option Text) (act : Progress → Except Stop Progress) :
    p.takeFlag value act = r.takeFlag value act := by
  simp only [takeFlag, h]

theorem takeLong_congr (name : Text) (value : Option Text) : p.takeLong name value = r.takeLong name value := by
  simp only [takeLong, takeValued_congr h, takeFlag_congr h]

theorem takeShort_congr (letter : Char) : p.takeShort letter = r.takeShort letter := by
  simp only [takeShort, h]

variable (hinput : p.input = r.input)

include hinput

theorem takeInput_congr (input : Text) : p.takeInput input = r.takeInput input := by
  simp only [takeInput, h, hinput]

theorem takeInputs_congr (ts : List Text) : p.takeInputs ts >>= settle = r.takeInputs ts >>= settle := by
  cases ts with
  | nil => exact h
  | cons t ts => simp only [takeInputs, takeInput_congr h hinput]

/-- A value that is to be looked at next may as well have been looked at. -/
theorem takeAll_congr (hp : ∀ option, p.pending ≠ some (option, none))
    (hr : ∀ option, r.pending ≠ some (option, none)) (ts : List Text) :
    p.takeAll ts >>= settle = r.takeAll ts >>= settle := by
  have hplain : ∀ {p : Progress}, (∀ option, p.pending ≠ some (option, none)) →
      ∀ t, p.takePlain t = p.takeInput t := by
    intro p hp t
    unfold takePlain
    split
    · next option hpending => exact absurd hpending (hp option)
    · rfl
  cases ts with
  | nil => exact h
  | cons t ts =>
    unfold takeAll
    cases Token.ofText t with
    | separator => exact takeInputs_congr h hinput ts
    | long name value => simp only [takeLong_congr h]
    | short letter others => simp only [takeShort_congr h]
    | plain t => simp only [hplain hp, hplain hr, takeInput_congr h hinput]

end Settle

/-! ## The option in front -/

theorem exists_decimal_eq_cons (n : Nat) : ∃ c digits, decimal n = c :: digits ∧ c.isDigit = true := by
  obtain ⟨c, digits, h⟩ := List.exists_cons_of_ne_nil (decimal_ne_nil n)
  exact ⟨c, digits, h, isDigit_of_mem_decimal (h ▸ List.mem_cons_self)⟩

theorem word?_of_digits {n : UInt64} {digits value : Text} (hvalue : value = digits ∨ value = '+' :: digits)
    (hne : digits ≠ []) (hdigits : digits.all Char.isDigit = true) (hn : ofDecimal digits = n.toNat) :
    word? value = some n := by
  have hword : digits ≠ [] ∧ digits.all Char.isDigit ∧ ofDecimal digits < UInt64.size :=
    ⟨hne, hdigits, hn ▸ n.toNat_lt_size⟩
  have hplus : word? ('+' :: digits) = some n := by
    rw [← UInt64.ofNat_toNat (x := n), ← hn]
    exact if_pos hword
  rcases hvalue with rfl | rfl
  · rw [← hplus]
    obtain ⟨c, t, rfl⟩ := List.exists_cons_of_ne_nil hne
    have hc : c ≠ '+' := by
      rintro rfl
      simp at hdigits
    simp only [word?]
    split
    · next heq => exact absurd (List.cons.inj heq).1 hc
    · rfl
  · exact hplus

theorem word?_decimal {n : Nat} (hn : n < UInt64.size) : word? (decimal n) = some (UInt64.ofNat n) :=
  word?_of_digits (.inl rfl) (decimal_ne_nil n) (List.all_eq_true.2 fun c hc => isDigit_of_mem_decimal hc)
    (by rw [ofDecimal_decimal, UInt64.toNat_ofNat_of_lt' hn])

theorem ofText_of_head? {t : Text} (h : t.head? ≠ some '-' ∨ t = ['-']) : Token.ofText t = .plain t := by
  rcases h with h | rfl
  · unfold Token.ofText
    split
    · exact absurd rfl h
    · exact absurd rfl h
    · exact absurd rfl h
    · rfl
  · rfl

theorem ofText_decimal (n : Nat) : Token.ofText (decimal n) = .plain (decimal n) := by
  obtain ⟨c, digits, hcons, hc⟩ := exists_decimal_eq_cons n
  refine ofText_of_head? (.inl ?_)
  rw [hcons, List.head?_cons, ne_eq, Option.some.injEq]
  rintro rfl
  exact absurd hc (by decide)

def startLine (n : Nat) : Progress := { start with pending := some (.line, some (decimal n)) }

theorem takeAll_line_cons (n : Nat) (args : List Text) :
    start.takeAll ("--line".toList :: decimal n :: args) = (startLine n).takeAll args := by
  have hname : start.takeAll ("--line".toList :: decimal n :: args) =
    ({ start with pending := some (.line, none) } : Progress).takeAll (decimal n :: args) := rfl
  rw [hname, takeAll, ofText_decimal]
  rfl

theorem settle_startLine {n : Nat} (hn : n < UInt64.size) :
    (startLine n).settle = (start.withLine (UInt64.ofNat n)).settle := by
  simp [startLine, settle, assign, word?_decimal hn, start, withLine]

end Progress

theorem parse_eq_ok_iff {args : List Text} {a : Arguments} :
    parse args = .ok a ↔
      ∃ p, Progress.start.takeAll args >>= Progress.settle = .ok p ∧ p.toArguments = a := by
  rw [parse]
  constructor
  · intro h
    obtain ⟨p, hp, h⟩ := bind_eq_ok_iff.1 h
    obtain ⟨q, hq, ha⟩ := bind_eq_ok_iff.1 h
    exact ⟨q, bind_eq_ok_iff.2 ⟨p, hp, hq⟩, Except.ok.inj ha⟩
  · rintro ⟨q, h, rfl⟩
    obtain ⟨p, hp, hq⟩ := bind_eq_ok_iff.1 h
    exact bind_eq_ok_iff.2 ⟨p, hp, bind_eq_ok_iff.2 ⟨q, hq, rfl⟩⟩

/-- **The option for a line** in front of arguments that ask for none. -/
theorem parse_line_cons {args : List Text} {a : Arguments} {n : Nat} (h : parse args = .ok a)
    (hline : a.line = none) (hn : n < UInt64.size) :
    parse ("--line".toList :: decimal n :: args) = .ok { a with line := some (UInt64.ofNat n) } := by
  rw [parse_eq_ok_iff] at h ⊢
  obtain ⟨q, hq, rfl⟩ := h
  obtain ⟨p, -, hsettle⟩ := bind_eq_ok_iff.1 hq
  have hless : q.Lineless := ⟨hline, by simp [Progress.pending_of_settle hsettle]⟩
  obtain ⟨-, hknown⟩ := (Progress.passes_takeAll args).bind Progress.passes_settle .start q hq hless
  refine ⟨q.withLine (UInt64.ofNat n), ?_, rfl⟩
  rw [Progress.takeAll_line_cons, Progress.takeAll_congr (Progress.settle_startLine hn) rfl]
  · exact hknown
  · simp [Progress.startLine]
  · simp [Progress.start, Progress.withLine]

end CanonicalText.Arguments
