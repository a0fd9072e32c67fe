import Mathlib
import CanonicalText.Proofs.View.Runs

/-!
# Runs as paths

Whatever steers it, a run does three things to a session: an operation, the beginning of a body and the end
of the body that began last. A path is a list of such moves. Any path may be taken, so what holds at the end
of every path holds however faults are caught or unwind.

* `Point` : a session in the midst of a run, with the views lent to the bodies that are open;
* `Point.after` : where a path leads;
* `Point.after_keeps` : what every move keeps holds at the end of every path;
* `Program.follows` : a program takes the path of its moves, which closes the bodies that it opens.
-/

namespace CanonicalText

variable {α : Type}

/-- What happens in a session from one moment to the next. -/
inductive Move (α : Type) where
  | perform (operation : Operation α)
  /-- A body begins, if its loan can be made. -/
  | lend (loan : Loan)
  /-- The body that began last ends, in whatever way. -/
  | close

/-- The view that an operation makes its view from, if it makes one without a new storage. -/
def Operation.parent? : Operation α → Option Nat
  | copy v | slice v _ _ | range v _ _ | sliceLength v _ _ => some v
  | _ => none

/-- A session in the midst of a run. What the run remembers of its past goes with it: the views lent to the
bodies that are open, the newest first, and for each view the number of the one that its chain of copies and
slices begins with. -/
structure Point (α : Type) where
  lent : List View
  origins : List Nat
  session : Session α

namespace Point

def start : Point α := ⟨[], [], .empty⟩

/-- The origins after an answer: those of a view that was made, too. -/
def originsAfter (origins : List Nat) (parent : Option Nat) : Answer α → List Nat
  | .made number _ _ => origins ++ [(parent.bind (origins[·]?)).getD number]
  | _ => origins

variable [BEq α] [Element α]

def move (here : Point α) : Move α → Point α
  | .perform operation =>
    let (answer, session) := here.session.perform operation
    ⟨here.lent, originsAfter here.origins operation.parent? answer, session⟩
  | .lend loan =>
    match here.session.lend loan with
    | .ok view => { here with lent := view :: here.lent, session := here.session.enter view }
    | .error _ => here
  | .close =>
    match here.lent with
    | view :: lent => { here with lent, session := here.session.leave view }
    | [] => here

/-- Where a path leads. -/
def after (here : Point α) (path : List (Move α)) : Point α := path.foldl move here

theorem after_cons (here : Point α) (m : Move α) (path : List (Move α)) :
    here.after (m :: path) = (here.move m).after path := rfl

theorem after_append (here : Point α) (first second : List (Move α)) :
    here.after (first ++ second) = (here.after first).after second := List.foldl_append

/-- **What every move keeps** holds at the end of every path. -/
theorem after_keeps {P : Point α → Prop} (hmove : ∀ here m, P here → P (here.move m)) {here : Point α}
    (h : P here) (path : List (Move α)) : P (here.after path) := by
  induction path generalizing here with
  | nil => exact h
  | cons m path ih => exact ih (hmove here m h)

section Moves

variable {here : Point α} {view : View} {lent : List View}

theorem move_lend_of_ok {loan : Loan} (h : here.session.lend loan = .ok view) :
    here.move (.lend loan) =
      { here with lent := view :: here.lent, session := here.session.enter view } := by
  simp only [move, h]

theorem move_lend_of_error {loan : Loan} {answer : Answer α} (h : here.session.lend loan = .error answer) :
    here.move (.lend loan) = here := by
  simp only [move, h]

theorem move_close_of_cons (h : here.lent = view :: lent) :
    here.move .close = { here with lent, session := here.session.leave view } := by
  simp only [move, h]

theorem move_close_of_nil (h : here.lent = []) : here.move .close = here := by
  simp only [move, h]

/-- **What a move does**: an operation is performed, a loan is made, the last one ends, or nothing happens. -/
theorem move_cases {P : Move α → Point α → Prop}
    (perform : ∀ operation, P (.perform operation)
      ⟨here.lent, originsAfter here.origins operation.parent? (here.session.perform operation).1,
        (here.session.perform operation).2⟩)
    (lend : ∀ loan view, P (.lend loan)
      { here with lent := view :: here.lent, session := here.session.enter view })
    (refused : ∀ loan, P (.lend loan) here)
    (close : ∀ view lent, here.lent = view :: lent → P .close
      { here with lent, session := here.session.leave view })
    (idle : P .close here) (m : Move α) : P m (here.move m) := by
  cases m with
  | perform operation => exact perform operation
  | lend loan =>
    cases hloan : here.session.lend loan with
    | error answer =>
      rw [move_lend_of_error hloan]
      exact refused loan
    | ok view =>
      rw [move_lend_of_ok hloan]
      exact lend loan view
  | close =>
    cases hlent : here.lent with
    | nil =>
      rw [move_close_of_nil hlent]
      exact idle
    | cons view lent =>
      rw [move_close_of_cons hlent]
      exact close view lent hlent

theorem bounded_move (h : here.session.Bounded) (m : Move α) : (here.move m).session.Bounded := by
  apply move_cases (P := fun _ there => there.session.Bounded)
  · intro operation
    exact (h.perform operation).1
  · intro _ view
    exact h.enter view
  · exact fun _ => h
  · intro view _ _
    exact h.leave view
  · exact h

end Moves

theorem bounded_after {here : Point α} (h : here.session.Bounded) (path : List (Move α)) :
    (here.after path).session.Bounded :=
  after_keeps (P := fun here => here.session.Bounded) (fun _ m h => bounded_move h m) h path

end Point

/-! ## The paths of programs -/

/-- The moves after a step: none if its fault ends the program, else those of the steps that come after it. -/
def Run.movesAfter (unwinds : Bool) (first : Answer α × Session α) (rest : Session α → List (Move α)) :
    List (Move α) :=
  match unwinds, first.1.fault? with
  | true, some _ => []
  | _, _ => rest first.2

/-- The moves of a run, in order. -/
def Program.moves [BEq α] [Element α] (unwinds : Bool) : Program α → Session α → List (Move α)
  | .done, _ => []
  | .step operation rest, s =>
    .perform operation :: Run.movesAfter unwinds (s.perform operation) fun s => rest.moves unwinds s
  | .body loan innerUnwinds inner rest, s =>
    match s.lend loan with
    | .error answer => Run.movesAfter unwinds (answer, s) fun s => rest.moves unwinds s
    | .ok view =>
      let first := Run.ofBody s view loan (inner.run innerUnwinds (s.enter view))
      .lend loan :: (inner.moves innerUnwinds (s.enter view) ++
        .close :: Run.movesAfter unwinds first fun s => rest.moves unwinds s)

/-- After a step a run has moves and moments just if the fault of the step does not end it. -/
theorem Run.movesAfter_cases (unwinds : Bool) (first : Answer α × Session α) (rest : Session α → Run α)
    (moves : Session α → List (Move α)) (moments : Session α → List (Session α)) :
    ((Run.andThen unwinds first rest).session = first.2 ∧ movesAfter unwinds first moves = [] ∧
      momentsAfter unwinds first moments = [first.2]) ∨
    ((Run.andThen unwinds first rest).session = (rest first.2).session ∧
      movesAfter unwinds first moves = moves first.2 ∧
      momentsAfter unwinds first moments = moments first.2) := by
  cases unwinds with
  | false => exact .inr ⟨rfl, rfl, rfl⟩
  | true =>
    cases hf : first.1.fault? with
    | none =>
      exact .inr ⟨by simp only [andThen, hf], by simp only [movesAfter, hf],
        by simp only [momentsAfter, hf]⟩
    | some f =>
      exact .inl ⟨by simp only [andThen, hf], by simp only [movesAfter, hf],
        by simp only [momentsAfter, hf]⟩

section Programs

variable [BEq α] [Element α]

section Body

variable {s : Session α} {loan : Loan} (unwinds innerUnwinds : Bool) (inner rest : Program α)

theorem Program.moves_body_of_error {answer : Answer α} (h : s.lend loan = .error answer) :
    (body loan innerUnwinds inner rest).moves unwinds s =
      Run.movesAfter unwinds (answer, s) (rest.moves unwinds) := by
  rw [moves, h]

theorem Program.moves_body_of_ok {view : View} (h : s.lend loan = .ok view) :
    (body loan innerUnwinds inner rest).moves unwinds s =
      .lend loan :: (inner.moves innerUnwinds (s.enter view) ++
        .close :: Run.movesAfter unwinds (Run.ofBody s view loan (inner.run innerUnwinds (s.enter view)))
          (rest.moves unwinds)) := by
  rw [moves, h]

end Body

/-- A path goes through moments and ends in a session, in which the same bodies are open as before. -/
structure Point.Follows (here : Point α) (path : List (Move α)) (moments : List (Session α))
    (s : Session α) : Prop where
  lent : (here.after path).lent = here.lent
  session : (here.after path).session = s
  moments : ∀ m ∈ moments, ∃ before, before <+: path ∧ (here.after before).session = m

theorem Point.Follows.andThen {here : Point α} (unwinds : Bool) (first : Answer α × Session α)
    (hfirst : here.session = first.2) (rest : Session α → Run α) {moves : Session α → List (Move α)}
    {moments : Session α → List (Session α)}
    (h : here.Follows (moves first.2) (moments first.2) (rest first.2).session) :
    here.Follows (Run.movesAfter unwinds first moves) (Run.momentsAfter unwinds first moments)
      (Run.andThen unwinds first rest).session := by
  rcases Run.movesAfter_cases unwinds first rest moves moments with ⟨hs, hmoves, hm⟩ | ⟨hs, hmoves, hm⟩
  · rw [hs, hmoves, hm]
    refine ⟨rfl, hfirst, fun m hm => ⟨[], List.prefix_refl _, ?_⟩⟩
    rw [List.mem_singleton.1 hm]
    exact hfirst
  · rwa [hs, hmoves, hm]

/-- **A program takes the path of its moves.** -/
theorem Program.follows (p : Program α) (unwinds : Bool) (here : Point α) :
    here.Follows (p.moves unwinds here.session) (p.moments unwinds here.session)
      (p.run unwinds here.session).session := by
  induction p generalizing unwinds here with
  | done =>
    refine ⟨rfl, rfl, fun m hm => ⟨[], List.prefix_refl _, ?_⟩⟩
    exact (List.mem_singleton.1 hm).symm
  | step operation rest ih =>
    have hrest : (here.move (.perform operation)).Follows _ _ _ :=
      .andThen unwinds (here.session.perform operation) rfl (rest.run unwinds)
        (ih unwinds (here.move (.perform operation)))
    refine ⟨hrest.lent, hrest.session, fun m hm => ?_⟩
    rcases List.mem_cons.1 hm with rfl | hm
    · exact ⟨[], List.nil_prefix, rfl⟩
    · obtain ⟨before, hbefore, hsession⟩ := hrest.moments m hm
      exact ⟨_ :: before, (List.prefix_cons_inj _).2 hbefore, hsession⟩
  | body loan innerUnwinds inner rest ihInner ih =>
    cases hloan : here.session.lend loan with
    | error answer =>
      rw [moves_body_of_error _ _ _ _ hloan, moments_body_of_error _ _ _ _ hloan,
        run_body_of_error _ _ _ _ hloan]
      have hrest : here.Follows _ _ _ :=
        .andThen unwinds (answer, here.session) rfl (rest.run unwinds) (ih unwinds here)
      refine ⟨hrest.lent, hrest.session, fun m hm => ?_⟩
      rcases List.mem_cons.1 hm with rfl | hm
      · exact ⟨[], List.nil_prefix, rfl⟩
      · exact hrest.moments m hm
    | ok view =>
      rw [moves_body_of_ok _ _ _ _ hloan, moments_body_of_ok _ _ _ _ hloan, run_body_of_ok _ _ _ _ hloan]
      -- the body starts at `entered`, and what comes after it where the body is closed
      have hentered := Point.move_lend_of_ok hloan
      set entered := here.move (.lend loan)
      have hsession : entered.session = here.session.enter view := by rw [hentered]
      have hinner := ihInner innerUnwinds entered
      rw [hsession] at hinner
      have hlent : (entered.after (inner.moves innerUnwinds (here.session.enter view))).lent =
          view :: here.lent := by
        rw [hinner.lent, hentered]
      have hclosed := Point.move_close_of_cons hlent
      set closed := (entered.after (inner.moves innerUnwinds (here.session.enter view))).move .close
      set first := Run.ofBody here.session view loan (inner.run innerUnwinds (here.session.enter view))
      have hfirst : closed.session = first.2 := by
        rw [Run.ofBody_session, hclosed, hinner.session]
      have hrest : closed.Follows _ _ _ :=
        .andThen unwinds first hfirst (rest.run unwinds) (hfirst ▸ ih unwinds closed)
      refine ⟨?_, ?_, fun m hm => ?_⟩
      · rw [Point.after_cons, Point.after_append, Point.after_cons, hrest.lent, hclosed]
      · rw [Point.after_cons, Point.after_append, Point.after_cons, hrest.session]
      · rcases List.mem_cons.1 hm with rfl | hm
        · exact ⟨[], List.nil_prefix, rfl⟩
        · rcases List.mem_append.1 hm with hm | hm
          · obtain ⟨before, hbefore, hm⟩ := hinner.moments m hm
            exact ⟨_ :: before, (List.prefix_cons_inj _).2 (hbefore.trans (List.prefix_append _ _)), hm⟩
          · obtain ⟨before, hbefore, hm⟩ := hrest.moments m hm
            refine ⟨.lend loan :: (inner.moves innerUnwinds (here.session.enter view) ++ .close :: before),
              ?_, ?_⟩
            · exact (List.prefix_cons_inj _).2 ((List.prefix_append_right_inj _).2
                ((List.prefix_cons_inj _).2 hbefore))
            · rwa [Point.after_cons, Point.after_append, Point.after_cons]

end Programs

end CanonicalText
