import Mathlib
import CanonicalText.View.Program
import CanonicalText.Proofs.View.Steps

/-!
# What a whole run keeps

A run of a program goes through many sessions: before every step, inside of bodies, and after the last
step or the one whose fault ends it (`Program.moments`). What every step keeps holds between any two of
them, the earlier one first (`Program.leads`).

* `Session.Persists` : relations that no step breaks;
* `Program.bounded_run` : from a bounded session all are bounded, and each extends those before it;
* `Run.Meets`, `Program.ofView_of_meets` : the faults of a run;
* `Program.views_stay_bounded` : all of this for runs from the empty session.
-/

namespace CanonicalText

variable {α : Type}

/-! ## The moments of a run -/

/-- The sessions after a step: the step's own if its fault ends the program, else those of the steps that
come after it. -/
def Run.momentsAfter (unwinds : Bool) (first : Answer α × Session α) (rest : Session α → List (Session α)) :
    List (Session α) :=
  match unwinds, first.1.fault? with
  | true, some _ => [first.2]
  | _, _ => rest first.2

def Program.moments [BEq α] [Element α] (unwinds : Bool) : Program α → Session α → List (Session α)
  | .done, s => [s]
  | .step operation rest, s =>
    s :: Run.momentsAfter unwinds (s.perform operation) fun s => rest.moments unwinds s
  | .body loan innerUnwinds inner rest, s =>
    match s.lend loan with
    | .error answer => s :: Run.momentsAfter unwinds (answer, s) fun s => rest.moments unwinds s
    | .ok view =>
      let first := Run.ofBody s view loan (inner.run innerUnwinds (s.enter view))
      s :: (inner.moments innerUnwinds (s.enter view) ++
        Run.momentsAfter unwinds first fun s => rest.moments unwinds s)

theorem Answer.eq_of_fault?_eq {a : Answer α} {f : Fault} (h : a.fault? = some f) : a = .fault f := by
  cases a <;> simp_all [fault?]

/-- A fault ends a program that unwinds; otherwise the program goes on. -/
theorem Run.andThen_cases (unwinds : Bool) (first : Answer α × Session α) (rest : Session α → Run α)
    (moments : Session α → List (Session α)) :
    (∃ f, first.1 = .fault f ∧ Run.andThen unwinds first rest = ⟨.error f, first.2⟩ ∧
      momentsAfter unwinds first moments = [first.2]) ∨
    (Run.andThen unwinds first rest =
        ⟨(rest first.2).outcome.map (first.1 :: ·), (rest first.2).session⟩ ∧
      momentsAfter unwinds first moments = moments first.2) := by
  cases unwinds with
  | false => exact .inr ⟨rfl, rfl⟩
  | true =>
    cases hf : first.1.fault? with
    | none => exact .inr ⟨by simp only [andThen, hf], by simp only [momentsAfter, hf]⟩
    | some f =>
      exact .inl ⟨f, Answer.eq_of_fault?_eq hf, by simp only [andThen, hf], by simp only [momentsAfter, hf]⟩

theorem Run.ofBody_session (before : Session α) (view : View) (loan : Loan) (inner : Run α) :
    (ofBody before view loan inner).2 = inner.session.leave view := by
  unfold ofBody
  split <;> rfl

section Body

variable [BEq α] [Element α] {s : Session α} {loan : Loan} (unwinds innerUnwinds : Bool)
  (inner rest : Program α)

theorem Program.run_body_of_error {answer : Answer α} (h : s.lend loan = .error answer) :
    (body loan innerUnwinds inner rest).run unwinds s =
      Run.andThen unwinds (answer, s) (rest.run unwinds) := by
  rw [run, h]

theorem Program.run_body_of_ok {view : View} (h : s.lend loan = .ok view) :
    (body loan innerUnwinds inner rest).run unwinds s =
      Run.andThen unwinds (Run.ofBody s view loan (inner.run innerUnwinds (s.enter view)))
        (rest.run unwinds) := by
  rw [run, h]

theorem Program.moments_body_of_error {answer : Answer α} (h : s.lend loan = .error answer) :
    (body loan innerUnwinds inner rest).moments unwinds s =
      s :: Run.momentsAfter unwinds (answer, s) (rest.moments unwinds) := by
  rw [moments, h]

theorem Program.moments_body_of_ok {view : View} (h : s.lend loan = .ok view) :
    (body loan innerUnwinds inner rest).moments unwinds s =
      s :: (inner.moments innerUnwinds (s.enter view) ++
        Run.momentsAfter unwinds (Run.ofBody s view loan (inner.run innerUnwinds (s.enter view)))
          (rest.moments unwinds)) := by
  rw [moments, h]

end Body

/-! ## What persists -/

section Persists

/-- A list of sessions leads from one session to another, which is its last: the relation holds from the
first to all, between any two in order, and from all to the last. -/
structure Session.Leads (R : Session α → Session α → Prop) (s : Session α) (moments : List (Session α))
    (t : Session α) : Prop where
  last : moments.getLast? = some t
  ends : R s t
  start : ∀ m ∈ moments, R s m
  stop : ∀ m ∈ moments, R m t
  pairwise : moments.Pairwise R

variable [BEq α] [Element α]

/-- A relation that holds from each session to all that steps can make of it. -/
structure Session.Persists (R : Session α → Session α → Prop) : Prop where
  refl : ∀ s, R s s
  trans : ∀ {s t u}, R s t → R t u → R s u
  perform : ∀ s operation, R s (s.perform operation).2
  enter : ∀ s view, R s (s.enter view)
  leave : ∀ s view, R s (s.leave view)

variable {R : Session α → Session α → Prop} (hR : Session.Persists R)

include hR

theorem Session.Leads.single (s : Session α) : Session.Leads R s [s] s := by
  refine ⟨rfl, hR.refl s, ?_, ?_, List.pairwise_singleton R s⟩ <;>
  · intro m hm
    rw [List.mem_singleton.1 hm]
    exact hR.refl s

theorem Session.Leads.append {s t s' t' : Session α} {first second : List (Session α)}
    (h : Session.Leads R s first t) (hmid : R t s') (h' : Session.Leads R s' second t') :
    Session.Leads R s (first ++ second) t' := by
  have hstart := hR.trans h.ends hmid
  refine ⟨?_, hR.trans hstart h'.ends, ?_, ?_, ?_⟩
  · rw [List.getLast?_append, h'.last, Option.some_or]
  · intro m hm
    rcases List.mem_append.1 hm with hm | hm
    · exact h.start m hm
    · exact hR.trans hstart (h'.start m hm)
  · intro m hm
    rcases List.mem_append.1 hm with hm | hm
    · exact hR.trans (h.stop m hm) (hR.trans hmid h'.ends)
    · exact h'.stop m hm
  · rw [List.pairwise_append]
    refine ⟨h.pairwise, h'.pairwise, ?_⟩
    intro m hm m' hm'
    exact hR.trans (h.stop m hm) (hR.trans hmid (h'.start m' hm'))

theorem Session.Leads.andThen (unwinds : Bool) (first : Answer α × Session α) {rest : Session α → Run α}
    {moments : Session α → List (Session α)}
    (h : ∀ s, Session.Leads R s (moments s) (rest s).session) :
    Session.Leads R first.2 (Run.momentsAfter unwinds first moments)
      (Run.andThen unwinds first rest).session := by
  rcases Run.andThen_cases unwinds first rest moments with ⟨f, -, hrun, hmoments⟩ | ⟨hrun, hmoments⟩
  · rw [hrun, hmoments]
    exact .single hR first.2
  · rw [hrun, hmoments]
    exact h first.2

/-- **What no step breaks** holds between any two moments of a run, in their order. -/
theorem Program.leads (p : Program α) (unwinds : Bool) (s : Session α) :
    Session.Leads R s (p.moments unwinds s) (p.run unwinds s).session := by
  induction p generalizing unwinds s with
  | done => exact .single hR s
  | step operation rest ih =>
    have hrest := Session.Leads.andThen hR unwinds (s.perform operation) (ih unwinds)
    exact (Session.Leads.single hR s).append hR (hR.perform s operation) hrest
  | body loan innerUnwinds inner rest ihInner ih =>
    cases hloan : s.lend loan with
    | error answer =>
      rw [moments_body_of_error _ _ _ _ hloan, run_body_of_error _ _ _ _ hloan]
      have hrest := Session.Leads.andThen hR unwinds (answer, s) (ih unwinds)
      exact (Session.Leads.single hR s).append hR (hR.refl s) hrest
    | ok view =>
      rw [moments_body_of_ok _ _ _ _ hloan, run_body_of_ok _ _ _ _ hloan]
      have hrest := Session.Leads.andThen hR unwinds
        (Run.ofBody s view loan (inner.run innerUnwinds (s.enter view))) (ih unwinds)
      rw [Run.ofBody_session] at hrest
      -- the moments of the body come between the session that it enters and the one it leaves
      have htail := (ihInner innerUnwinds (s.enter view)).append hR (hR.leave _ view) hrest
      exact (Session.Leads.single hR s).append hR (hR.enter s view) htail

end Persists

/-! ## Bounded runs -/

section Bounded

variable {s : Session α}

theorem Session.Bounded.enter (hs : s.Bounded) (view : View) : (s.enter view).Bounded :=
  hs.of_sizes (List.prefix_refl _)

theorem Session.Bounded.leave (hs : s.Bounded) (view : View) : (s.leave view).Bounded :=
  hs.of_sizes (List.prefix_refl _)

variable [BEq α] [Element α]

/-- No step leads out of the bounded sessions, or to one that does not extend the one before. -/
theorem Session.persists_bounded :
    Session.Persists fun s t : Session α => s.Bounded → t.Bounded ∧ s.Extends t where
  refl s hs := ⟨hs, .refl s⟩
  trans h h' hs := by
    obtain ⟨ht, hst⟩ := h hs
    obtain ⟨hu, htu⟩ := h' ht
    exact ⟨hu, hst.trans htu⟩
  perform s operation hs := hs.perform operation
  enter s view hs := ⟨hs.enter view, List.prefix_refl _, List.prefix_refl _, List.prefix_refl _⟩
  leave s view hs := ⟨hs.leave view, List.prefix_refl _, List.prefix_refl _, List.prefix_refl _⟩

/-- **A run from a bounded session** goes through bounded sessions, each of which extends those before. -/
theorem Program.bounded_run (p : Program α) (unwinds : Bool) (hs : s.Bounded) :
    (∀ m ∈ p.moments unwinds s, m.Bounded) ∧ (p.moments unwinds s).Pairwise Session.Extends ∧
      (p.run unwinds s).session.Bounded ∧ s.Extends (p.run unwinds s).session := by
  have hleads := p.leads Session.persists_bounded unwinds s
  have hbounded : ∀ m ∈ p.moments unwinds s, m.Bounded := fun m hm => (hleads.start m hm hs).1
  refine ⟨hbounded, hleads.pairwise.imp_of_mem ?_, hleads.ends hs⟩
  intro m m' hm _ h
  exact (h (hbounded m hm)).2

end Bounded

/-! ## Faults -/

/-- The faults of views: bounds outside of a view, bounds in reverse or past its end, an extent past its
end, and a storage that is to be written while it is being read. -/
inductive Fault.OfView : Fault → Prop
  | bound (i n) : OfView (.boundOutOfRange i n)
  | range (first last n) : OfView (.rangeOutOfRange first last n)
  | extent (count first n) : OfView (.extentOutOfRange count first n)
  | reading (i) : OfView (.storageBeingRead i)

namespace Answer

variable {a b : Answer α}

/-- One answer is another one or stands somewhere in it. -/
inductive Holds : Answer α → Answer α → Prop
  | self {a : Answer α} : Holds a a
  | inside {a b c : Answer α} (hb : b ∈ a.nested) (h : Holds b c) : Holds a c

theorem Holds.eq_of_nested (h : a.Holds b) (ha : a.nested = []) : b = a := by
  cases h with
  | self => rfl
  | inside hb => simp [ha] at hb

end Answer

/-- A fault comes up in a run: it ends the run or stands in one of the answers. -/
inductive Run.Meets (r : Run α) (f : Fault) : Prop
  | ended (h : r.outcome = .error f)
  | answered {answers a} (h : r.outcome = .ok answers) (ha : a ∈ answers) (hf : a.Holds (.fault f))

theorem Run.meets_andThen {unwinds : Bool} {first : Answer α × Session α} {rest : Session α → Run α}
    {f : Fault} (h : (Run.andThen unwinds first rest).Meets f) :
    first.1.Holds (.fault f) ∨ (rest first.2).Meets f := by
  rcases Run.andThen_cases unwinds first rest (fun _ => []) with ⟨g, hg, hrun, -⟩ | ⟨hrun, -⟩
  · rw [hrun] at h
    cases h with
    | ended h =>
      cases h
      exact .inl (hg ▸ .self)
    | answered h => cases h
  · rw [hrun] at h
    cases hrest : (rest first.2).outcome with
    | error g =>
      rw [hrest] at h
      cases h with
      | ended h =>
        cases h
        exact .inr (.ended hrest)
      | answered h => cases h
    | ok answers =>
      rw [hrest] at h
      cases h with
      | ended h => cases h
      | answered h ha hf =>
        cases h
        rcases List.mem_cons.1 ha with rfl | ha
        · exact .inl hf
        · exact .inr (.answered hrest ha hf)

namespace Session

variable {s : Session α} {view : View} {f : Fault}

theorem Refuses.ofView {operation : Operation α} {answer : Answer α}
    (h : s.Refuses operation answer) (hf : answer.Holds (.fault f)) : f.OfView := by
  cases h <;> cases hf.eq_of_nested rfl <;> constructor

theorem not_holds_ofAccess (h : s.store.Covers view) (i : Index) :
    ¬ (Answer.ofAccess (s.store.get view i)).Holds (.fault f) := by
  intro hf
  rcases Store.get_cases h i with ⟨p, -, -, _, hget⟩ | ⟨-, hget⟩ <;> rw [hget] at hf <;>
    cases hf.eq_of_nested rfl

theorem meets_of_body {inner : Run α} {loan : Loan} (h : s.store.Covers view)
    (hinner : inner.session.store.Covers view)
    (hf : (Run.ofBody s view loan inner).1.Holds (.fault f)) : inner.Meets f := by
  unfold Run.ofBody at hf
  split at hf
  · next g hg =>
    cases hf.eq_of_nested rfl
    exact .ended hg
  · next answers hanswers =>
    cases loan with
    | elements v =>
      cases hf with
      | inside hb hf => exact .answered hanswers hb hf
    | element v i =>
      simp only [settle] at hf
      rcases Store.get_cases h i with ⟨p, -, -, _, hget⟩ | ⟨-, hget⟩
      · rw [hget] at hf
        cases hf with
        | inside hb hf =>
          rcases List.mem_cons.1 hb with rfl | hb
          · exact absurd hf (not_holds_ofAccess hinner i)
          · exact .answered hanswers hb hf
      · rw [hget] at hf
        cases hf.eq_of_nested rfl

/-- What a loan can come to: a view of the session, or no view of that number, or no element there. -/
theorem Bounded.lend_cases (hs : s.Bounded) (loan : Loan) :
    (∃ view ∈ s.views, s.lend loan = .ok view) ∨ s.lend loan = .error .unknown ∨
      ∃ e, s.lend loan = .error (.indexError e) := by
  cases loan with
  | elements v =>
    cases hv : s.views[v]? with
    | none => exact .inr (.inl (by simp only [lend, hv]))
    | some view => exact .inl ⟨view, Array.mem_of_getElem? hv, by simp only [lend, hv]⟩
  | element v i =>
    cases hv : s.views[v]? with
    | none => exact .inr (.inl (by simp only [lend, hv]))
    | some view =>
      have hview := Array.mem_of_getElem? hv
      rcases Store.get_cases (hs.covers view hview) i with ⟨p, -, -, _, hget⟩ | ⟨-, hget⟩
      · exact .inl ⟨view, hview, by simp only [lend, hv, hget]⟩
      · exact .inr (.inr ⟨_, by simp only [lend, hv, hget]; rfl⟩)

variable [BEq α] [Element α]

theorem Bounded.ofView_of_perform (hs : s.Bounded) (operation : Operation α)
    (hf : (s.perform operation).1.Holds (.fault f)) : f.OfView := by
  have hcame := hs.came_perform operation
  generalize s.perform operation = r at hf hcame
  cases hcame with
  | refused h => exact h.ofView hf
  | @answered answer t hanswer =>
    simp only [Answer.isPlain, Bool.and_eq_true, List.isEmpty_iff] at hanswer
    have heq : .fault f = answer := hf.eq_of_nested hanswer.2
    subst heq
    cases hanswer.1

end Session

/-- **The faults of a run** from a bounded session are those of views. -/
theorem Program.ofView_of_meets [BEq α] [Element α] (p : Program α) {unwinds : Bool} {s : Session α}
    {f : Fault} (hs : s.Bounded) (h : (p.run unwinds s).Meets f) : f.OfView := by
  induction p generalizing unwinds s with
  | done =>
    cases h with
    | ended h => cases h
    | answered h ha =>
      cases h
      cases ha
  | step operation rest ih =>
    rcases Run.meets_andThen h with h | h
    · exact hs.ofView_of_perform operation h
    · exact ih (hs.perform operation).1 h
  | body loan innerUnwinds inner rest ihInner ih =>
    rcases hs.lend_cases loan with ⟨view, hview, hloan⟩ | hloan | ⟨e, hloan⟩
    · rw [run_body_of_ok _ _ _ _ hloan] at h
      obtain ⟨-, -, hinner, hextends⟩ := inner.bounded_run innerUnwinds (hs.enter view)
      rcases Run.meets_andThen h with h | h
      · -- the element lent is read again at the end, through a view that the body has kept
        have hafter := hinner.covers view (hextends.mem_views hview)
        exact ihInner (hs.enter view) (Session.meets_of_body (hs.covers view hview) hafter h)
      · rw [Run.ofBody_session] at h
        exact ih (hinner.leave view) h
    · rw [run_body_of_error _ _ _ _ hloan] at h
      rcases Run.meets_andThen h with h | h
      · cases h.eq_of_nested rfl
      · exact ih hs h
    · rw [run_body_of_error _ _ _ _ hloan] at h
      rcases Run.meets_andThen h with h | h
      · cases h.eq_of_nested rfl
      · exact ih hs h

/-- **No step leaves a storage**: at every moment of a program all views and cursors are inside their storages, and
an access finds a cell or fails for its index alone. A step that fails leaves the session as it was. -/
theorem Program.views_stay_bounded [BEq α] [Element α] (p : Program α) (unwinds : Bool) :
    let moments := p.moments unwinds .empty
    moments.getLast? = some (p.run unwinds .empty).session ∧
    moments.Pairwise Session.Extends ∧
    (∀ f, (p.run unwinds .empty).Meets f → f.OfView) ∧
    ∀ s ∈ moments, s.Bounded ∧
      (∀ view, (view ∈ s.views ∨ ∃ c ∈ s.cursors, c.view = view) →
        (∀ i f, s.store.get view i ≠ .error (.fault f)) ∧
        (s.store.elements view).length = view.length.toNat) ∧
      (∀ c ∈ s.cursors, c.front ≠ c.back →
        (c.next s.store).1.isSome ∧ (c.nextBack s.store).1.isSome) ∧
      (∀ operation, (s.perform operation).1.failed = true →
        s.Refuses operation (s.perform operation).1 ∧ (s.perform operation).2 = s) ∧
      (∀ loan answer, s.lend loan = .error answer →
        answer = .unknown ∨ ∃ e, answer = .indexError e) := by
  intro moments
  have hempty : (Session.empty : Session α).Bounded := Session.bounded_empty
  have hlast := (p.leads Session.persists_bounded unwinds .empty).last
  obtain ⟨hbounded, hpairwise, -, -⟩ := p.bounded_run unwinds hempty
  refine ⟨hlast, hpairwise, fun f hf => p.ofView_of_meets hempty hf, fun s hs => ?_⟩
  have hb := hbounded s hs
  refine ⟨hb, ?_, ?_, hb.refuses_of_failed, ?_⟩
  · intro view hview
    have hcovers : s.store.Covers view := by
      rcases hview with hview | ⟨c, hc, rfl⟩
      · exact hb.covers view hview
      · exact (hb.walks c hc).covers
    refine ⟨fun i f hget => ?_, Store.length_elements hcovers⟩
    rcases Store.get_cases hcovers i with ⟨p, -, -, _, h⟩ | ⟨-, h⟩ <;> rw [h] at hget <;> cases hget
  · intro c hc hne
    exact (hb.walks c hc).isSome_of_ne hne
  · intro loan answer hloan
    rcases hb.lend_cases loan with ⟨view, -, h⟩ | h | ⟨e, h⟩ <;> rw [h] at hloan <;> cases hloan
    · exact .inl rfl
    · exact .inr ⟨e, rfl⟩

/-- A body that writes to the storage it reads: the fault ends the body, and both views stay as they were. -/
theorem Program.views_stay_bounded_of_write_while_read :
    let p : Program Int64 :=
      .step (.create [1, 2, 3]) <| .step (.slice 0 (.included (.fromStart 1)) .unbounded) <|
        .body (.elements 0) true (.step (.set 1 (.fromStart 0) 9) .done) .done
    let s := (p.run false .empty).session
    s ∈ p.moments false .empty ∧ s.Bounded ∧
      s.allElements = [[1, 2, 3], [2, 3]] ∧ s.views = #[⟨0, 0, 3⟩, ⟨0, 1, 3⟩] ∧
      (p.run false .empty).Meets (.storageBeingRead (.fromStart 0)) ∧
      Fault.OfView (.storageBeingRead (.fromStart 0)) ∧
      (s.perform (.set 1 (.fromStart 2) 9)).1.failed = true ∧
      s.Refuses (.set 1 (.fromStart 2) 9) (s.perform (.set 1 (.fromStart 2) 9)).1 := by
  intro p s
  obtain ⟨hlast, -, hfaults, hmoments⟩ := p.views_stay_bounded false
  have hs : s ∈ p.moments false .empty := List.mem_of_getLast? hlast
  obtain ⟨hbounded, -, -, hfailed, -⟩ := hmoments s hs
  have hmeets : (p.run false .empty).Meets (.storageBeingRead (.fromStart 0)) :=
    .answered rfl (.tail _ (.tail _ (.head _))) .self
  exact ⟨hs, hbounded, by decide, by decide, hmeets, hfaults _ hmeets, by decide, (hfailed _ (by decide)).1⟩

end CanonicalText
