import CanonicalText.View.Session

/-!
# Programs on a session

A program takes steps one after the other. A step may be a body: a program of its own that runs while an
element, or all elements of a view, are lent to it, and their storage counts as being read until it
ends. Bodies nest.

A fault ends the step that it came up in. If the body around that step unwinds, the fault ends the body
too, and is what came of it; otherwise the program goes on with its next step.
-/

namespace CanonicalText

inductive Loan where
  | element (v : Nat) (i : Index)
  | elements (v : Nat)

/-- Steps in order: an operation or a body, and the steps after it. -/
inductive Program (α : Type) where
  | done
  | step (operation : Operation α) (rest : Program α)
  | body (loan : Loan) (unwinds : Bool) (inner rest : Program α)

/-- What came of a program: the answers of its steps, or the fault that ended it, and the session. -/
structure Run (α : Type) where
  outcome : Except Fault (List (Answer α))
  session : Session α

namespace Session

variable {α : Type}

def enter (s : Session α) (view : View) : Session α :=
  { s with store := s.store.enter view.storage }

def leave (s : Session α) (view : View) : Session α :=
  { s with store := s.store.leave view.storage }

/-- The view that a loan is made from, if the loan can be made. -/
def lend (s : Session α) : Loan → Except (Answer α) View
  | .element v i =>
    match s.views[v]? with
    | none => .error .unknown
    | some view =>
      match s.store.get view i with
      | .ok _ => .ok view
      | .error e => .error (.ofAccessError e)
  | .elements v =>
    match s.views[v]? with
    | none => .error .unknown
    | some view => .ok view

/-- The answer of a body that ran to its end, from the sessions at its beginning and at its end. -/
def settle (before after : Session α) (view : View) (answers : List (Answer α)) : Loan → Answer α
  | .element _ i =>
    match before.store.get view i with
    | .ok x => .readElement x answers (.ofAccess (after.store.get view i))
    | .error e => .ofAccessError e
  | .elements _ => .readElements answers (after.store.elements view)

end Session

namespace Run

variable {α : Type}

/-- Goes on after a step, unless its answer is a fault and the program unwinds. -/
def andThen (unwinds : Bool) (first : Answer α × Session α) (rest : Session α → Run α) : Run α :=
  match unwinds, first.1.fault? with
  | true, some f => ⟨.error f, first.2⟩
  | _, _ =>
    let r := rest first.2
    ⟨r.outcome.map (first.1 :: ·), r.session⟩

/-- The answer and the session of a body, given what came of its program. -/
def ofBody (before : Session α) (view : View) (loan : Loan) (inner : Run α) :
    Answer α × Session α :=
  match inner.outcome with
  | .error f => (.fault f, inner.session.leave view)
  | .ok answers => (before.settle inner.session view answers loan, inner.session.leave view)

end Run

/-- Runs a program; `unwinds` says whether a fault ends it. -/
def Program.run {α : Type} [BEq α] [Element α] (unwinds : Bool) : Program α → Session α → Run α
  | .done, s => ⟨.ok [], s⟩
  | .step operation rest, s => Run.andThen unwinds (s.perform operation) fun s => rest.run unwinds s
  | .body loan innerUnwinds inner rest, s =>
    let first := match s.lend loan with
      | .error answer => (answer, s)
      | .ok view => Run.ofBody s view loan (inner.run innerUnwinds (s.enter view))
    Run.andThen unwinds first fun s => rest.run unwinds s

def Program.answers {α : Type} [BEq α] [Element α] (p : Program α) (s : Session α) : List (Answer α) :=
  match (p.run false s).outcome with
  | .ok answers => answers
  | .error _ => []

end CanonicalText
