import CanonicalText.Position

/-!
# Line break normalization

`\r\n`, a `\r` by itself and a `\n` by itself are one line break each, and `\n` stands for all of them in
the canonical text. The normalizer is a machine that is fed one character at a time: a `\r` gives its
`\n` at once, so a `\n` that comes next is swallowed (`feed_eq_none_iff`).

* `Normalizer.feed` : one character;
* `Normalizer.run` : a whole text, from any state of the machine (`run_append`);
* `pairs`, `canonicalize` : the canonical characters of a text with and without their positions.
-/

namespace CanonicalText

/-- Whether the character before this one was a `\r`. -/
inductive LineState where
  | normal
  | afterReturn
deriving DecidableEq

/-- The machine between two characters: what came before, and where the next character will stand. -/
structure Normalizer where
  state : LineState
  position : Position
deriving DecidableEq

namespace Normalizer

def start : Normalizer := ⟨.normal, .origin⟩

/-- Feeds one character: the canonical character that it gives, with its position, and the machine
after it. -/
def feed (m : Normalizer) (c : Char) : Option (Position × Char) × Normalizer :=
  if c = '\r' then (some (m.position, '\n'), ⟨.afterReturn, m.position.nextLine⟩)
  else if c = '\n' then
    match m.state with
    | .afterReturn => (none, ⟨.normal, m.position⟩)
    | .normal => (some (m.position, '\n'), ⟨.normal, m.position.nextLine⟩)
  else (some (m.position, c), ⟨.normal, m.position.nextColumn⟩)

/-- Feeds a text: the canonical characters that it gives, and the machine after it. -/
def run (m : Normalizer) : Text → List (Position × Char) × Normalizer
  | [] => ([], m)
  | c :: text =>
    let rest := (m.feed c).2.run text
    ((m.feed c).1.toList ++ rest.1, rest.2)

/-- A character gives nothing just when it is a `\n` after a `\r`. -/
theorem feed_eq_none_iff {m : Normalizer} {c : Char} :
    (m.feed c).1 = none ↔ m.state = .afterReturn ∧ c = '\n' := by
  unfold feed
  split
  · next h => subst h; simp
  · split
    · next h => subst h; cases m.state <;> simp
    · next h => simp [h]

/-- After a swallowed character the machine is in its normal state, at the same position. -/
theorem feed_of_none {m : Normalizer} {c : Char} (h : (m.feed c).1 = none) :
    (m.feed c).2 = ⟨.normal, m.position⟩ := by
  obtain ⟨hs, rfl⟩ := feed_eq_none_iff.1 h
  simp [feed, hs]

theorem run_append (m : Normalizer) (a b : Text) :
    m.run (a ++ b) = ((m.run a).1 ++ ((m.run a).2.run b).1, ((m.run a).2.run b).2) := by
  induction a generalizing m with
  | nil => rfl
  | cons c a ih => simp [run, ih]

end Normalizer

/-- The canonical characters of a text, each with its position. -/
def pairs (text : Text) : List (Position × Char) := (Normalizer.start.run text).1

/-- The canonical text of a text. -/
def canonicalize (text : Text) : Text := (pairs text).map (·.2)

/-- Where the character after the text's last one will stand. -/
def endPosition (text : Text) : Position := (Normalizer.start.run text).2.position

end CanonicalText
