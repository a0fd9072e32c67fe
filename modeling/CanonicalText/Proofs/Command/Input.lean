import Mathlib
import CanonicalText.Command.Run

/-!
# The input of a run

A run reads a file or standard input. That fails if there is nothing to be read, or if the bytes that are read
make up no text.

* `bytesOf`, `textOfBytes?_eq_some_iff` : texts and their bytes;
* `World.Refuses`, `World.Holds` : what cannot be read, and what is read otherwise;
* `readInput_eq_none_iff`, `readInput_eq_some_iff` : the input of a run.
-/

namespace CanonicalText

/-! ## Texts and their bytes -/

def bytesOf (t : Text) : ByteArray := (String.ofList t).toUTF8

theorem textOfBytes?_bytesOf (t : Text) : textOfBytes? (bytesOf t) = some t := by
  have hdecode : String.fromUTF8? (bytesOf t) = some (String.ofList t) := by
    unfold String.fromUTF8? bytesOf
    rw [String.toUTF8_eq_toByteArray, dif_pos (String.ofList t).isValidUTF8]
    rfl
  rw [textOfBytes?, hdecode, Option.map_some, String.toList_ofList]

theorem textOfBytes?_eq_some_iff {b : ByteArray} {t : Text} : textOfBytes? b = some t ↔ b = bytesOf t := by
  constructor
  · intro h
    unfold textOfBytes? String.fromUTF8? at h
    split at h
    · next hvalid =>
      rw [Option.map_some, Option.some.injEq] at h
      rw [bytesOf, ← h, String.ofList_toList]
      rfl
    · cases h
  · rintro rfl
    exact textOfBytes?_bytesOf t

theorem textOfBytes?_eq_none_iff {b : ByteArray} : textOfBytes? b = none ↔ ¬ b.IsValidUTF8 := by
  unfold textOfBytes? String.fromUTF8?
  split
  · next hvalid => simp [hvalid]
  · next hvalid => simp [hvalid]

theorem length_le_size_bytesOf (t : Text) : t.length ≤ (bytesOf t).size := by
  have hsize : (bytesOf t).size = (t.flatMap String.utf8EncodeChar).length := by
    rw [bytesOf, String.toUTF8_eq_toByteArray, String.toByteArray_ofList, List.utf8Encode, List.size_toByteArray]
  rw [hsize]
  clear hsize
  induction t with
  | nil => exact Nat.zero_le _
  | cons c t ih =>
    have hc := c.utf8Size_pos
    rw [List.flatMap_cons, List.length_append, List.length_cons, String.length_utf8EncodeChar]
    omega

/-! ## What there is to read -/

namespace World

variable (w : World)

def bytes? : Entry → Option ByteArray
  | .file content => some content
  | .standardInput => some w.standardInput
  | _ => none

/-- Whether what a path leads to is missing, cannot be read, or has bytes that are no text. -/
def Refuses (e : Entry) : Prop :=
  e = .missing ∨ e = .unreadable ∨ ∃ b, w.bytes? e = some b ∧ ¬ b.IsValidUTF8

/-- Whether a text is read from what a path leads to. -/
def Holds (e : Entry) (t : Text) : Prop := w.bytes? e = some (bytesOf t)

variable {w} {e : Entry}

theorem bytes?_bind_eq_some_iff {t : Text} : (w.bytes? e).bind textOfBytes? = some t ↔ w.Holds e t := by
  unfold Holds
  rw [Option.bind_eq_some_iff]
  constructor
  · rintro ⟨b, hb, ht⟩
    rw [hb, textOfBytes?_eq_some_iff.1 ht]
  · intro h
    exact ⟨_, h, textOfBytes?_bytesOf t⟩

theorem bytes?_bind_eq_none_iff : (w.bytes? e).bind textOfBytes? = none ↔ w.Refuses e := by
  cases e with
  | missing => simp [Refuses, bytes?]
  | unreadable => simp [Refuses, bytes?]
  | file content => simp [Refuses, bytes?, textOfBytes?_eq_none_iff]
  | standardInput => simp [Refuses, bytes?, textOfBytes?_eq_none_iff]

theorem text?_eq (path : Text) : w.text? path = (w.bytes? (w.entry path)).bind textOfBytes? := by
  unfold text?
  cases w.entry path <;> rfl

end World

/-- What the input of a run is read from. -/
def inputEntry (w : World) (a : Arguments) : Entry :=
  if a.readsStandardInput then .standardInput else w.entry a.input

variable {w : World} {a : Arguments}

theorem readInput_eq : readInput w a = (w.bytes? (inputEntry w a)).bind textOfBytes? := by
  unfold readInput inputEntry
  split
  · rfl
  · exact World.text?_eq a.input

theorem readInput_eq_some_iff {t : Text} : readInput w a = some t ↔ w.Holds (inputEntry w a) t := by
  rw [readInput_eq, World.bytes?_bind_eq_some_iff]

theorem readInput_eq_none_iff : readInput w a = none ↔ w.Refuses (inputEntry w a) := by
  rw [readInput_eq, World.bytes?_bind_eq_none_iff]

/-! ## How much there is to read -/

namespace World

/-- Whether every file and standard input have fewer than `2 ^ 63` bytes. -/
structure Bounded (w : World) : Prop where
  input : w.standardInput.size < 2 ^ 63
  files : ∀ path content, w.entry path = .file content → content.size < 2 ^ 63

theorem Bounded.afterReading (h : w.Bounded) (path : Text) : (w.afterReading path).Bounded := by
  unfold World.afterReading
  split
  · have hempty : ByteArray.empty.size < 2 ^ 63 := by decide
    exact ⟨hempty, h.files⟩
  · exact h

theorem Bounded.length_lt (h : w.Bounded) {t : Text} (ht : w.Holds (inputEntry w a) t) : t.length < 2 ^ 63 := by
  have hlength := length_le_size_bytesOf t
  have hbytes : ∀ e b, w.bytes? e = some b → (∀ content, e = .file content → content.size < 2 ^ 63) →
      b.size < 2 ^ 63 := by
    intro e b hb hfile
    cases e with
    | missing => cases hb
    | unreadable => cases hb
    | file =>
      cases hb
      exact hfile _ rfl
    | standardInput =>
      cases hb
      exact h.input
  refine hlength.trans_lt (hbytes _ _ ht fun content he => ?_)
  unfold inputEntry at he
  split at he
  · cases he
  · exact h.files _ _ he

end World

end CanonicalText
