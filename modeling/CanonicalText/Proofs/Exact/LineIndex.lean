import Mathlib
import CanonicalText.Proofs.Command.Lines
import CanonicalText.Proofs.Exact.Arithmetic

/-!
# Line indices in numbers

The line index once more, on natural numbers. An offset is looked up among the line starts as a number in an ascending
list: the list says where it stands, or else where it would have to be inserted, and the line is the one before. There
is one, since the first line starts at zero.

* `Exact.LineIndex` : line starts and the length of a text, given by numbers;
* `LineIndex.exact_ofChars` : the index of a text;
* `LineIndex.Indexes.exact_lineOf` : the line of an offset;
* `LineIndex.Indexes.exact_position?`, `LineIndex.Indexes.exact_offset?` : places of offsets, and back.
-/

namespace CanonicalText

namespace Exact

structure Position where
  line : Nat
  column : Nat
deriving DecidableEq

structure LineIndex where
  starts : Array Nat
  length : Nat

/-- Where a number stands in an ascending list, or where it would have to be inserted. -/
inductive Sought where
  | found (k : Nat)
  | missing (k : Nat)

def Sought.ofAscending (starts : Array Nat) (n : Nat) : Sought :=
  let k := starts.findIdx (n ≤ ·)
  if starts[k]? = some n then .found k else .missing k

/-- **What looking a number up can come to**: a place where it stands, or one with less before it and more there. -/
theorem Sought.ofAscending_cases (starts : Array Nat) (n : Nat) :
    (∃ k, ofAscending starts n = .found k ∧ starts[k]? = some n) ∨
      ∃ k ≤ starts.size, ofAscending starts n = .missing k ∧
        (∀ j < k, ∀ m, starts[j]? = some m → m < n) ∧ ∀ m, starts[k]? = some m → n < m := by
  by_cases hfound : starts[starts.findIdx (n ≤ ·)]? = some n
  · exact .inl ⟨_, if_pos hfound, hfound⟩
  · refine .inr ⟨_, Array.findIdx_le_size, if_neg hfound, fun j hj m hm => ?_, fun m hm => ?_⟩
    · obtain ⟨_, rfl⟩ := Array.getElem?_eq_some_iff.1 hm
      exact Nat.not_le.1 (of_decide_eq_false (Array.not_of_lt_findIdx hj))
    · obtain ⟨hk, rfl⟩ := Array.getElem?_eq_some_iff.1 hm
      have hle := of_decide_eq_true (Array.findIdx_getElem (w := hk))
      exact lt_of_le_of_ne hle fun heq => hfound (hm.trans (congrArg some heq.symm))

namespace LineIndex

variable (ar : Arithmetic)

def empty : LineIndex := ⟨#[0], 0⟩

def push (index : LineIndex) (c : Char) : Except Failure LineIndex := do
  let length ← ar.add index.length 1
  return if c = '\n' then ⟨index.starts.push length, length⟩ else ⟨index.starts, length⟩

def ofChars (text : Text) : Except Failure LineIndex := text.foldlM (push ar) empty

def lineCount (index : LineIndex) : Nat := index.starts.size

def lineStart? (index : LineIndex) (line : Nat) : Option Nat := index.starts[line]?

def lineOf (index : LineIndex) (offset : Nat) : Except Failure Nat :=
  match Sought.ofAscending index.starts offset with
  | .found line => .ok line
  | .missing line => ar.sub line 1

def position? (index : LineIndex) (offset : Nat) : Except Failure (Option Position) :=
  if index.length < offset then .ok none
  else do
    let line ← index.lineOf ar offset
    match index.lineStart? line with
    | none => .error (.noStart line)
    | some start =>
      let column ← ar.sub offset start
      return some ⟨line, column⟩

def limit (index : LineIndex) (line : Nat) : Except Failure Nat := do
  let next ← ar.add line 1
  match index.lineStart? next with
  | some start => ar.sub start 1
  | none => .ok index.length

def offset? (index : LineIndex) (p : Position) : Except Failure (Option Nat) :=
  match index.lineStart? p.line with
  | none => .ok none
  | some start =>
    match ar.checkedAdd start p.column with
    | none => .ok none
    | some offset => do
      let limit ← index.limit ar p.line
      return if offset ≤ limit then some offset else none

end LineIndex

end Exact

def Position.exact (p : Position) : Exact.Position := ⟨p.line.toNat, p.column.toNat⟩

namespace LineIndex

def exact (index : LineIndex) : Exact.LineIndex := ⟨index.starts.map UInt64.toNat, index.length.toNat⟩

theorem exact_lineStart? (index : LineIndex) (line : Nat) :
    index.exact.lineStart? line = index.starts[line]?.map UInt64.toNat := Array.getElem?_map ..

theorem exact_starts_eq_some_iff {index : LineIndex} {k n : Nat} :
    index.exact.starts[k]? = some n ↔ k < index.starts.size ∧ (index.cut k).toNat = n := by
  show index.exact.lineStart? k = some n ↔ _
  rw [exact_lineStart?]
  constructor
  · intro h
    obtain ⟨start, hstart, rfl⟩ := Option.map_eq_some_iff.1 h
    obtain ⟨hk, rfl⟩ := Array.getElem?_eq_some_iff.1 hstart
    exact ⟨hk, congrArg UInt64.toNat (cut_of_lt hk)⟩
  · rintro ⟨hk, rfl⟩
    rw [cut_of_lt hk, Array.getElem?_eq_getElem hk, Option.map_some]

variable (ar : Exact.Arithmetic)

/-! ## The index of a text -/

theorem exact_push {index : LineIndex} (h : index.length.toNat + 1 < UInt64.size) (c : Char) :
    index.exact.push ar c = .ok (index.push c).exact := by
  rw [Exact.LineIndex.push]
  show (ar.add index.length.toNat (1 : UInt64).toNat >>= _) = _
  rw [ar.add_toNat (toNat_add_one_of_lt h).symm, push]
  show Except.ok (if c = '\n' then _ else _) = _
  split
  · show Except.ok (Exact.LineIndex.mk ((index.starts.map UInt64.toNat).push _) _) =
      .ok ⟨(index.starts.push _).map UInt64.toNat, _⟩
    rw [Array.map_push]
  · rfl

theorem toNat_length_push (index : LineIndex) (h : index.length.toNat + 1 < UInt64.size) (c : Char) :
    (index.push c).length.toNat = index.length.toNat + 1 := by
  have hlength : (index.push c).length = index.length + 1 := by
    unfold push
    split <;> rfl
  rw [hlength, toNat_add_one_of_lt h]

theorem exact_ofChars {text : Text} (h : text.length < UInt64.size) :
    Exact.LineIndex.ofChars ar text = .ok (ofChars text).exact := by
  have hrun (index : LineIndex) (hindex : index.length.toNat + text.length < UInt64.size) :
      text.foldlM (Exact.LineIndex.push ar) index.exact = .ok (text.foldl push index).exact := by
    induction text generalizing index with
    | nil => rfl
    | cons c text ih =>
      rw [List.length_cons] at h hindex
      have hlength := index.toNat_length_push (by omega) c
      rw [List.foldlM_cons, exact_push ar (by omega)]
      exact ih (by omega) _ (by omega)
  have hempty : empty.exact = .empty := by simp [exact, empty, Exact.LineIndex.empty]
  rw [Exact.LineIndex.ofChars, ← hempty]
  exact hrun empty ((Nat.zero_add _).trans_lt h)

namespace Indexes

variable {index : LineIndex} {text : Text} (h : index.Indexes text)

include h

/-! ## Lines of offsets -/

theorem cut_lt_cut {j k : Nat} (hjk : j < k) (hk : k < index.starts.size) :
    (index.cut j).toNat < (index.cut k).toNat :=
  (h.cut_lt_cut_succ (by omega)).trans_le (h.monotone_cut hjk)

/-- **The line of an offset** is found: what is subtracted one from is not the place of the first line. -/
theorem exact_lineOf (hlen : text.length + 1 < UInt64.size) {o : Nat} (ho : o ≤ text.length) :
    index.exact.lineOf ar o = .ok (lineBreaks (text.take o)) := by
  obtain ⟨line, hline⟩ : ∃ line, lineBreaks (text.take o) = line := ⟨_, rfl⟩
  have hstarted {k : Nat} (hk : k < index.starts.size) : (index.cut k).toNat ≤ o ↔ k ≤ line := by
    rw [cut_of_lt hk, h.start_le_iff k hk o ho, hline]
  have hlast : line < index.starts.size := hline ▸ h.lineBreaks_take_lt_size o
  rw [hline, Exact.LineIndex.lineOf]
  rcases Exact.Sought.ofAscending_cases index.exact.starts o with
    ⟨k, hfound, hk⟩ | ⟨k, hsize, hmissing, hbefore, hafter⟩
  · obtain ⟨hk, hcut⟩ := exact_starts_eq_some_iff.1 hk
    have hle : k ≤ line := (hstarted hk).1 hcut.le
    have hge : line ≤ k := by
      by_contra hlt
      have hnext := h.cut_lt_cut (Nat.not_le.1 hlt) hlast
      have hthis := (hstarted hlast).2 le_rfl
      omega
    rw [hfound, Nat.le_antisymm hge hle]
  · have hlt : line < k := by
      by_contra hge
      have hk : k < index.starts.size := by omega
      have hmore := hafter _ (exact_starts_eq_some_iff.2 ⟨hk, rfl⟩)
      exact hmore.not_ge ((hstarted hk).2 (Nat.not_lt.1 hge))
    have hk : k - 1 < index.starts.size := by
      rw [exact, Array.size_map] at hsize
      omega
    have hless := hbefore (k - 1) (by omega) _ (exact_starts_eq_some_iff.2 ⟨hk, rfl⟩)
    have hle := (hstarted hk).1 hless.le
    have hbreaks := lineBreaks_le_length text
    have hlines := h.size
    rw [hmissing, show k = line + 1 by omega]
    exact ar.sub_eq (Nat.le_add_left 1 line) (by omega)

theorem position?_of_le {o : UInt64} {line : Nat} (ho : o.toNat ≤ text.length)
    (hline : lineBreaks (text.take o.toNat) = line) :
    index.position? o = some ⟨.ofNat line, o - index.cut line⟩ := by
  have hlt : ¬ index.length < o := by
    rw [UInt64.lt_iff_toNat_lt, h.length]
    exact Nat.not_lt.2 ho
  have hk : line < index.starts.size := hline ▸ h.lineBreaks_take_lt_size o.toNat
  rw [LineIndex.position?, if_neg hlt, h.search_eq_lineBreaks ho, hline, cut_of_lt hk,
    Array.getElem_eq_getD]

/-- **Places of offsets**: no line starts after the offset it is the line of. -/
theorem exact_position? (hlen : text.length + 1 < UInt64.size) (o : UInt64) :
    index.exact.position? ar o.toNat = .ok ((index.position? o).map Position.exact) := by
  rw [Exact.LineIndex.position?]
  show (if index.length.toNat < o.toNat then _ else _) = _
  by_cases ho : o.toNat ≤ text.length
  · obtain ⟨line, hline⟩ : ∃ line, lineBreaks (text.take o.toNat) = line := ⟨_, rfl⟩
    have hbreaks := lineBreaks_le_length text
    have hsize := h.size
    have hk : line < index.starts.size := hline ▸ h.lineBreaks_take_lt_size o.toNat
    have hle := UInt64.le_iff_toNat_le.2 ((h.start_le_iff line hk o.toNat ho).2 hline.ge)
    rw [h.length, if_neg (Nat.not_lt.2 ho), h.exact_lineOf ar hlen ho, h.position?_of_le ho hline, hline]
    show (match index.exact.lineStart? line with | none => _ | some start => _) = _
    rw [exact_lineStart?, Array.getElem?_eq_getElem hk]
    show (ar.sub o.toNat index.starts[line].toNat >>= _) = _
    rw [ar.sub_toNat hle, cut_of_lt hk, Option.map_some, Position.exact, UInt64.toNat_ofNat_of_lt' (by omega)]
    rfl
  · have hlt : index.length < o := by
      rw [UInt64.lt_iff_toNat_lt, h.length]
      exact Nat.not_le.1 ho
    rw [h.length, if_pos (Nat.not_le.1 ho), LineIndex.position?, if_pos hlt]
    rfl

/-! ## Offsets of places -/

theorem exact_limit (hlen : text.length + 1 < UInt64.size) {line : UInt64} (hline : line.toNat < index.starts.size) :
    index.exact.limit ar line.toNat = .ok (index.limit line).toNat := by
  have hbreaks := lineBreaks_le_length text
  have hsize := h.size
  have hsucc : (line + 1).toNat = line.toNat + 1 := toNat_add_one_of_lt (by omega)
  rw [Exact.LineIndex.limit]
  show (ar.add line.toNat (1 : UInt64).toNat >>= _) = _
  rw [ar.add_toNat hsucc.symm]
  show (match index.exact.lineStart? (line + 1).toNat with | some start => _ | none => _) = _
  rw [exact_lineStart?, limit, lineStart?]
  by_cases hnext : (line + 1).toNat < index.starts.size
  · have hpositive : ¬ index.starts[(line + 1).toNat].toNat ≤ 0 := by
      rw [h.start_le_iff _ hnext 0 (Nat.zero_le _), hsucc]
      exact Nat.not_succ_le_zero _
    have hone : 1 ≤ index.starts[(line + 1).toNat] := UInt64.le_iff_toNat_le.2 (Nat.not_le.1 hpositive)
    rw [Array.getElem?_eq_getElem hnext]
    exact ar.sub_toNat hone
  · rw [Array.getElem?_eq_none (Nat.not_lt.1 hnext)]
    rfl

theorem exact_offset? (hlen : text.length + 1 < UInt64.size) (p : Position) :
    index.exact.offset? ar p.exact = .ok ((index.offset? p).map UInt64.toNat) := by
  rw [Exact.LineIndex.offset?, offset?_eq]
  show (match index.exact.lineStart? p.line.toNat with | none => _ | some start => _) = _
  rw [exact_lineStart?, lineStart?]
  by_cases hline : p.line.toNat < index.starts.size
  · rw [Array.getElem?_eq_getElem hline, Option.map_some, Option.bind_some]
    show (match ar.checkedAdd index.starts[p.line.toNat].toNat p.column.toNat with | none => _ | some o => _) = _
    rcases ar.checkedAdd_cases index.starts[p.line.toNat] p.column with ⟨o, ho, hsum⟩ | ⟨hnone, hgreat⟩
    · rw [ho, hsum, Option.bind_some]
      show (index.exact.limit ar p.line.toNat >>= _) = _
      rw [h.exact_limit ar hlen hline]
      show Except.ok (if o.toNat ≤ (index.limit p.line).toNat then _ else _) = _
      by_cases hle : o ≤ index.limit p.line
      · rw [if_pos hle, if_pos (UInt64.le_iff_toNat_le.1 hle)]
        rfl
      · rw [if_neg hle, if_neg (mt UInt64.le_iff_toNat_le.2 hle)]
        rfl
    · rw [hnone]
      -- a sum that is no word is past the end of every line
      cases hsum : ar.checkedAdd index.starts[p.line.toNat].toNat p.column.toNat with
      | none => rfl
      | some o =>
        have hlimit := (index.limit p.line).toNat_lt_size
        show (index.exact.limit ar p.line.toNat >>= _) = _
        rw [h.exact_limit ar hlen hline]
        exact congrArg Except.ok (if_neg (Nat.not_le.2 (hlimit.trans_le (hgreat o hsum))))
  · rw [Array.getElem?_eq_none (Nat.not_lt.1 hline)]
    rfl

end Indexes

end LineIndex

end CanonicalText
