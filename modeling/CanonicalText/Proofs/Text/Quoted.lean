import Mathlib
import CanonicalText.Text.Quoted

/-!
# Characters and their pictures

A character can be told from its picture between single quotes, and from its code point in hexadecimal digits, of
either case and after any zeros. Neither holds a line break.

* `hexadecimal_eq_map` : hexadecimal digits, and the number that they stand for;
* `ofHexadecimal_map`, `ofHexadecimal_zeroPadded` : reading them;
* `pictured_escaped` : the character that a picture is of;
* `break_notMem_quotedChar` : pictures keep to one line.
-/

namespace CanonicalText

/-! ## Hexadecimal digits -/

theorem hexadecimal_eq_map (n : Nat) :
    ∃ ds : List Nat, (∀ d ∈ ds, d < 16) ∧ hexadecimal n = ds.map Nat.digitChar ∧
      ds.foldl (fun m d => 16 * m + d) 0 = n := by
  induction n using Nat.strong_induction_on with
  | _ n ih =>
    unfold hexadecimal at ih ⊢
    rcases Nat.lt_or_ge n 16 with hn | hn
    · refine ⟨[n], by simpa using hn, ?_, by simp⟩
      rw [Nat.toDigits_of_lt_base hn, List.map_singleton]
    · obtain ⟨ds, hds, hdigits, hvalue⟩ := ih (n / 16) (by omega)
      refine ⟨ds ++ [n % 16], ?_, ?_, ?_⟩
      · intro d hd
        rcases List.mem_append.1 hd with hd | hd
        · exact hds d hd
        · rw [List.mem_singleton.1 hd]
          omega
      · rw [Nat.toDigits_of_base_le (by decide) hn, hdigits, List.map_append, List.map_singleton]
      · rw [List.foldl_append, hvalue, List.foldl_cons, List.foldl_nil]
        omega

def ofHexadecimal (digits : Text) : Nat := digits.foldl (fun m c => 16 * m + (hexValue? c).getD 0) 0

theorem ofHexadecimal_map {f : Char → Char} (hf : ∀ d < 16, hexValue? (f (Nat.digitChar d)) = some d)
    (n : Nat) : ofHexadecimal ((hexadecimal n).map f) = n := by
  obtain ⟨ds, hds, hdigits, hvalue⟩ := hexadecimal_eq_map n
  rw [hdigits, List.map_map, ofHexadecimal, List.foldl_map]
  refine Eq.trans ?_ hvalue
  apply List.foldl_ext
  intro m d hd
  show 16 * m + (hexValue? (f (Nat.digitChar d))).getD 0 = _
  rw [hf d (hds d hd), Option.getD_some]

theorem ofHexadecimal_zeroPadded (width : Nat) (digits : Text) :
    ofHexadecimal (zeroPadded width digits) = ofHexadecimal digits := by
  have hzeros : ∀ k, (List.replicate k '0').foldl (fun m c => 16 * m + (hexValue? c).getD 0) 0 = 0 := by
    intro k
    induction k with
    | zero => rfl
    | succ k ih =>
      rw [List.replicate_succ, List.foldl_cons]
      exact ih
  unfold ofHexadecimal zeroPadded
  rw [List.foldl_append, hzeros]

theorem notMem_map_hexadecimal {f : Char → Char} {c : Char} (hf : ∀ d < 16, f (Nat.digitChar d) ≠ c) (n : Nat) :
    c ∉ (hexadecimal n).map f := by
  obtain ⟨ds, hds, hdigits, -⟩ := hexadecimal_eq_map n
  rw [hdigits, List.map_map]
  intro hc
  obtain ⟨d, hd, rfl⟩ := List.mem_map.1 hc
  exact hf d (hds d hd) rfl

/-! ## Pictures -/

/-- The character that a picture between single quotes is of. -/
def pictured : Text → Char
  | [c] => c
  | ['\\', '0'] => '\x00'
  | ['\\', 't'] => '\t'
  | ['\\', 'r'] => '\r'
  | ['\\', 'n'] => '\n'
  | ['\\', c] => c
  | '\\' :: 'u' :: '\x7b' :: digits => Char.ofNat (ofHexadecimal digits.dropLast)
  | _ => '\x00'

theorem pictured_codePointEscape (c : Char) : pictured (codePointEscape c) = c := by
  have hvalue : ofHexadecimal (hexadecimal c.toNat) = c.toNat := by
    rw [← List.map_id (hexadecimal c.toNat)]
    exact ofHexadecimal_map (by decide) c.toNat
  have hopen : "\\u\x7b".toList = ['\\', 'u', '\x7b'] := by decide
  have hclose : "\x7d".toList = ['\x7d'] := by decide
  unfold codePointEscape
  rw [hopen, hclose]
  show Char.ofNat (ofHexadecimal (hexadecimal c.toNat ++ ['\x7d']).dropLast) = c
  rw [List.dropLast_concat, hvalue, Char.ofNat_toNat]

/-- **A character is told** from its picture. -/
theorem pictured_escaped (c : Char) : pictured (escaped '\x27' c) = c := by
  unfold escaped
  split_ifs with h0 ht hr hn hq ha
  · exact h0.symm
  · exact ht.symm
  · exact hr.symm
  · exact hn.symm
  · rcases hq with rfl | rfl <;> rfl
  · exact pictured_codePointEscape c
  · rfl

theorem quotedChar_injective : Function.Injective quotedChar := by
  intro c d h
  have hpictures : escaped '\x27' c = escaped '\x27' d := List.append_cancel_right (List.cons.inj h).2
  rw [← pictured_escaped c, hpictures, pictured_escaped]

/-- **A picture keeps to one line**. -/
theorem break_notMem_quotedChar (c : Char) : '\n' ∉ quotedChar c := by
  have hpicture : '\n' ∉ escaped '\x27' c := by
    unfold escaped
    split_ifs with h0 ht hr hn hq ha
    · decide
    · decide
    · decide
    · decide
    · rcases hq with rfl | rfl <;> decide
    · have hdigits : '\n' ∉ hexadecimal c.toNat := by
        rw [← List.map_id (hexadecimal c.toNat)]
        exact notMem_map_hexadecimal (by decide) c.toNat
      unfold codePointEscape
      simp [hdigits]
    · exact fun h => hn (List.mem_singleton.1 h).symm
  unfold quotedChar
  simp [hpicture]

end CanonicalText
