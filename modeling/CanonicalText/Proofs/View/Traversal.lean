import Mathlib
import CanonicalText.Proofs.View.Cells

/-!
# Traversals from both ends

A cursor remembers two offsets. What its calls come to is said here by the places of the view instead: those that
were passed from the front, those that are ahead, and those that were passed from the back make up all places in
their order, whatever is called. Calls answer what the places that they stop at show at that moment.

* `Traversal` : the places on either side of a cursor and between its ends, and what calls do to them;
* `Cursor.Visits` : steps that visit one place after another, and what skipping and taking come to with them;
* `Cursor.StandsAt.perform` : a cursor answers and moves as its traversal does.
-/

namespace CanonicalText

variable {α : Type} {length : Nat}

/-! ## Traversals -/

/-- A traversal of the places before `length` from both ends: those passed from the front, those still ahead, and
those passed from the back, each in the order of the traversal. -/
structure Traversal (length : Nat) where
  passed : List Nat
  ahead : List Nat
  passedBack : List Nat
  whole : passed ++ ahead ++ passedBack.reverse = List.range length

def Cursor.Call.isStep : Cursor.Call → Bool
  | next | nextBack | nth _ | nthBack _ => true
  | _ => false

namespace Traversal

variable (w : Traversal length)

def start (length : Nat) : Traversal length := ⟨[], List.range length, [], List.append_nil _⟩

/-- Passes so many places from the front, or as many as there are. -/
def forth (n : Nat) : Traversal length where
  passed := w.passed ++ w.ahead.take n
  ahead := w.ahead.drop n
  passedBack := w.passedBack
  whole := by
    rw [List.append_assoc w.passed, List.take_append_drop]
    exact w.whole

/-- Passes so many places from the back, or as many as there are. -/
def back (n : Nat) : Traversal length where
  passed := w.passed
  ahead := (w.ahead.reverse.drop n).reverse
  passedBack := w.passedBack ++ w.ahead.reverse.take n
  whole := by
    rw [List.reverse_append, ← List.append_assoc, List.append_assoc w.passed, ← List.reverse_append,
      List.take_append_drop, List.reverse_reverse]
    exact w.whole

/-- What a call passes. -/
def call : Cursor.Call → Traversal length
  | .next => w.forth 1
  | .nextBack => w.back 1
  | .nth n => w.forth (n.toNat + 1)
  | .nthBack n => w.back (n.toNat + 1)
  | .rest | .count | .last => w.forth w.ahead.length
  | .restBack => w.back w.ahead.length
  | .length | .hint | .debug => w

def run (calls : List Cursor.Call) : Traversal length := calls.foldl call w

def shown (s : Store α) (view : View) : List α :=
  (s.elements view).extract w.passed.length (w.passed.length + w.ahead.length)

/-- What a call answers on a view in a store. -/
def answer [Element α] (s : Store α) (view : View) : Cursor.Call → Answer α
  | .next => .optional (w.ahead.head?.bind ((s.elements view)[·]?))
  | .nextBack => .optional (w.ahead.getLast?.bind ((s.elements view)[·]?))
  | .nth n => .optional (w.ahead[n.toNat]?.bind ((s.elements view)[·]?))
  | .nthBack n => .optional (w.ahead.reverse[n.toNat]?.bind ((s.elements view)[·]?))
  | .length => .length (UInt64.ofNat w.ahead.length)
  | .hint => .hint ⟨UInt64.ofNat w.ahead.length, some (UInt64.ofNat w.ahead.length)⟩
  | .debug => .text (Cursor.debugText s
      ⟨view, UInt64.ofNat w.passed.length, UInt64.ofNat (w.passed.length + w.ahead.length)⟩)
  | .rest => .items (w.shown s view)
  | .restBack => .items (w.shown s view).reverse
  | .count => .count w.ahead.length
  | .last => .optional (w.shown s view).getLast?

@[simp] theorem length_passed_forth (n : Nat) :
    (w.forth n).passed.length = w.passed.length + min n w.ahead.length := by
  rw [forth, List.length_append, List.length_take]

@[simp] theorem length_ahead_forth (n : Nat) : (w.forth n).ahead.length = w.ahead.length - n :=
  List.length_drop

@[simp] theorem length_ahead_back (n : Nat) : (w.back n).ahead.length = w.ahead.length - n := by
  rw [back, List.length_reverse, List.length_drop, List.length_reverse]

theorem length_eq : w.passed.length + w.ahead.length + w.passedBack.length = length := by
  have h := congrArg List.length w.whole
  rwa [List.length_append, List.length_append, List.length_reverse, List.length_range] at h

theorem length_shown {s : Store α} {view : View} (hs : s.Covers view) (hview : view.length.toNat = length) :
    (w.shown s view).length = w.ahead.length := by
  have hlength := w.length_eq
  rw [shown, List.extract_eq_take_drop, List.length_take, List.length_drop, Store.length_elements hs, hview]
  omega

theorem passed_eq : w.passed = List.range w.passed.length := by
  have hle : w.passed.length ≤ length := by
    have := w.length_eq
    omega
  have h : (List.range length).take w.passed.length = w.passed := by
    rw [← w.whole, List.append_assoc, List.take_left]
  rw [List.take_range, Nat.min_eq_left hle] at h
  exact h.symm

theorem ahead_eq : w.ahead = List.range' w.passed.length w.ahead.length := by
  have hle : w.ahead.length ≤ length - w.passed.length := by
    have := w.length_eq
    omega
  have h : ((List.range length).drop w.passed.length).take w.ahead.length = w.ahead := by
    rw [← w.whole, List.append_assoc, List.drop_left, List.take_left]
  rw [List.range_eq_range', List.drop_range', List.take_range'_of_length_ge hle] at h
  rw [← h]
  simp

theorem passedBack_eq :
    w.passedBack = (List.range' (w.passed.length + w.ahead.length) w.passedBack.length).reverse := by
  have h : (List.range length).drop (w.passed.length + w.ahead.length) = w.passedBack.reverse := by
    rw [← w.whole, ← List.length_append, List.drop_left]
  have hlength : length - (w.passed.length + w.ahead.length) = w.passedBack.length := by
    have := w.length_eq
    omega
  rw [List.range_eq_range', List.drop_range', hlength] at h
  rw [← List.reverse_reverse w.passedBack, ← h]
  simp

/-- No place is passed twice. -/
theorem nodup_passed : (w.passed ++ w.passedBack).Nodup := by
  have hwhole : (w.passed ++ w.ahead ++ w.passedBack.reverse).Nodup := by
    rw [w.whole]
    exact List.nodup_range
  have hsub : (w.passed ++ w.passedBack.reverse).Nodup :=
    hwhole.sublist ((List.sublist_append_left w.passed w.ahead).append_right _)
  exact ((List.Perm.refl w.passed).append w.passedBack.reverse_perm).nodup_iff.1 hsub

theorem lt_of_mem_ahead {p : Nat} (hp : p ∈ w.ahead) : p < length := by
  rw [← List.mem_range, ← w.whole]
  exact List.mem_append_left _ (List.mem_append_right _ hp)

theorem run_append (first second : List Cursor.Call) :
    w.run (first ++ second) = (w.run first).run second := List.foldl_append

theorem ahead_run_of_nil {w : Traversal length} (h : w.ahead = []) (calls : List Cursor.Call) :
    (w.run calls).ahead = [] := by
  induction calls generalizing w with
  | nil => exact h
  | cons call calls ih =>
    apply ih
    cases call <;> simp [Traversal.call, forth, back, h]

theorem drop_eq_nil_of_bind_eq_none {read : Nat → Option α} {ps : List Nat} {n : Nat}
    (hread : ∀ p ∈ ps, (read p).isSome) (h : ps[n]?.bind read = none) : ps.drop (n + 1) = [] := by
  apply List.drop_eq_nil_of_le
  by_contra hlt
  have hn : n < ps.length := by omega
  rw [List.getElem?_eq_getElem hn, Option.bind_some] at h
  have hsome := hread ps[n] (List.getElem_mem hn)
  rw [h] at hsome
  cases hsome

section Steps

variable {w} [Element α] {s : Store α} {view : View} {call : Cursor.Call}

theorem answer_of_ahead_eq_nil (hcall : call.isStep = true) (h : w.ahead = []) :
    w.answer s view call = .optional none := by
  cases call with
  | next | nextBack | nth | nthBack => simp [answer, h]
  | _ => cases hcall

theorem ahead_eq_nil_of_answer (hs : s.Covers view) (hview : view.length.toNat = length)
    (hcall : call.isStep = true) (h : w.answer s view call = .optional none) : (w.call call).ahead = [] := by
  have hread : ∀ p ∈ w.ahead, ((s.elements view)[p]?).isSome := by
    intro p hp
    have hlt := w.lt_of_mem_ahead hp
    rw [← hview, ← Store.length_elements hs] at hlt
    rw [List.getElem?_eq_getElem hlt]
    rfl
  have hreadBack : ∀ p ∈ w.ahead.reverse, ((s.elements view)[p]?).isSome :=
    fun p hp => hread p (List.mem_reverse.1 hp)
  cases call with
  | next =>
    rw [answer, Answer.optional.injEq, List.head?_eq_getElem?] at h
    exact drop_eq_nil_of_bind_eq_none hread h
  | nextBack =>
    rw [answer, Answer.optional.injEq, List.getLast?_eq_head?_reverse, List.head?_eq_getElem?] at h
    exact congrArg List.reverse (drop_eq_nil_of_bind_eq_none hreadBack h)
  | nth n =>
    rw [answer, Answer.optional.injEq] at h
    exact drop_eq_nil_of_bind_eq_none hread h
  | nthBack n =>
    rw [answer, Answer.optional.injEq] at h
    exact congrArg List.reverse (drop_eq_nil_of_bind_eq_none hreadBack h)
  | _ => cases hcall

end Steps

end Traversal

/-! ## Cursors on their traversals -/

namespace Cursor

variable {s : Store α} {c d : Cursor} {w : Traversal length}

def places (c : Cursor) : List Nat := List.range' c.front.toNat (c.back.toNat - c.front.toNat)

/-- A step that visits one place after another, where `R c ps` says that a cursor has the places `ps` to come. It
reads in the place that it comes to, and stays where it is if there is none. -/
structure Visits (read : Nat → Option α) (step : Cursor → Option α × Cursor)
    (R : Cursor → List Nat → Prop) : Prop where
  nil : ∀ {c}, R c [] → step c = (none, c)
  cons : ∀ {c p ps}, R c (p :: ps) → ∃ x d, step c = (some x, d) ∧ read p = some x ∧ R d ps

namespace Visits

variable {read : Nat → Option α} {step : Cursor → Option α × Cursor} {R : Cursor → List Nat → Prop}
  {ps : List Nat}

theorem skipToBy (h : Visits read step R) (hc : R c ps) (n : Nat) :
    ∃ d, Cursor.skipToBy step n c = (ps[n]?.bind read, d) ∧ R d (ps.drop (n + 1)) := by
  induction n generalizing c ps with
  | zero =>
    cases ps with
    | nil => exact ⟨c, h.nil hc, hc⟩
    | cons p ps =>
      obtain ⟨x, d, hstep, hread, hd⟩ := h.cons hc
      exact ⟨d, hstep.trans (by simp [hread]), hd⟩
  | succ n ih =>
    cases ps with
    | nil =>
      rw [Cursor.skipToBy, h.nil hc]
      exact ⟨c, rfl, hc⟩
    | cons p ps =>
      obtain ⟨x, d, hstep, -, hd⟩ := h.cons hc
      rw [Cursor.skipToBy, hstep]
      exact ih hd

theorem skipToBy_eq_iterate (h : Visits read step R) (hc : R c ps) (n : Nat) :
    Cursor.skipToBy step n c = (fun r => step r.2)^[n] (step c) := by
  induction n generalizing c ps with
  | zero => rfl
  | succ n ih =>
    rw [Function.iterate_succ_apply]
    cases ps with
    | nil =>
      have hstays : (fun r : Option α × Cursor => step r.2) (none, c) = (none, c) := h.nil hc
      rw [Cursor.skipToBy, h.nil hc]
      show (none, c) = (fun r => step r.2)^[n] (step c)
      rw [h.nil hc, Function.iterate_fixed hstays]
    | cons p ps =>
      obtain ⟨x, d, hstep, -, hd⟩ := h.cons hc
      rw [Cursor.skipToBy, hstep]
      exact ih hd

theorem takeBy (h : Visits read step R) (hc : R c ps) (n : Nat) :
    ∃ d, Cursor.takeBy step n c = ((ps.take n).filterMap read, d) ∧ R d (ps.drop n) := by
  induction n generalizing c ps with
  | zero => exact ⟨c, rfl, hc⟩
  | succ n ih =>
    cases ps with
    | nil =>
      rw [Cursor.takeBy, h.nil hc]
      exact ⟨c, rfl, hc⟩
    | cons p ps =>
      obtain ⟨x, d, hstep, hread, hd⟩ := h.cons hc
      obtain ⟨e, htake, he⟩ := ih hd
      rw [Cursor.takeBy, hstep]
      refine ⟨e, ?_, he⟩
      show (x :: (Cursor.takeBy step n d).1, (Cursor.takeBy step n d).2) = _
      rw [htake, List.take_succ_cons, List.filterMap_cons_some hread]

end Visits

/-- A cursor comes to a place of its view from either end, and finds what the view shows there. -/
theorem Walks.next_eq (h : c.Walks s) (hne : c.front ≠ c.back) :
    ∃ x, c.next s = (some x, { c with front := c.front + 1 }) ∧
      (s.elements c.view)[c.front.toNat]? = some x := by
  obtain ⟨-, -, hlt⟩ := toNat_ends_of_ne h.front_le_back hne
  have hlength := UInt64.le_iff_toNat_le.1 h.back_le_length
  obtain ⟨x, hx⟩ := Option.isSome_iff_exists.1 (h.isSome_of_ne hne).1
  refine ⟨x, Prod.ext hx ?_, ?_⟩
  · rw [next, if_neg hne]
  · rw [Store.getElem?_elements h.covers (by omega), ← next_fst h hne, hx]

theorem Walks.nextBack_eq (h : c.Walks s) (hne : c.front ≠ c.back) :
    ∃ x, c.nextBack s = (some x, { c with back := c.back - 1 }) ∧
      (s.elements c.view)[c.back.toNat - 1]? = some x := by
  obtain ⟨-, -, hlt⟩ := toNat_ends_of_ne h.front_le_back hne
  have hlength := UInt64.le_iff_toNat_le.1 h.back_le_length
  obtain ⟨x, hx⟩ := Option.isSome_iff_exists.1 (h.isSome_of_ne hne).2
  refine ⟨x, Prod.ext hx ?_, ?_⟩
  · rw [nextBack, if_neg hne]
  · rw [Store.getElem?_elements h.covers (by omega), ← nextBack_fst h hne, hx]

theorem front_eq_back_of_places (h : c.front ≤ c.back) (hplaces : c.places = []) : c.front = c.back := by
  rw [UInt64.le_iff_toNat_le] at h
  have hlength := congrArg List.length hplaces
  rw [places, List.length_range', List.length_nil] at hlength
  exact UInt64.toNat_inj.1 (by omega)

theorem visits_next (s : Store α) (view : View) (back : UInt64) :
    Visits ((s.elements view)[·]?) (next s)
      fun c ps => c.Walks s ∧ c.view = view ∧ c.back = back ∧ c.places = ps where
  nil := by
    rintro c ⟨h, -, -, hplaces⟩
    rw [next, if_pos (front_eq_back_of_places h.front_le_back hplaces)]
  cons := by
    rintro c p ps ⟨h, rfl, rfl, hplaces⟩
    obtain ⟨rfl, hlt, rfl⟩ := List.range'_eq_cons_iff.1 hplaces
    have hne : c.front ≠ c.back := by
      intro heq
      rw [heq] at hlt
      omega
    obtain ⟨x, hnext, hx⟩ := h.next_eq hne
    have hwithin := within_next (s := s) h.front_le_back
    rw [hnext] at hwithin
    refine ⟨x, _, hnext, hx, h.mono hwithin, rfl, rfl, ?_⟩
    show List.range' (c.front + 1).toNat _ = _
    rw [(toNat_ends_of_ne h.front_le_back hne).1, Nat.sub_add_eq]

theorem visits_nextBack (s : Store α) (view : View) (front : UInt64) :
    Visits ((s.elements view)[·]?) (nextBack s)
      fun c ps => c.Walks s ∧ c.view = view ∧ c.front = front ∧ c.places.reverse = ps where
  nil := by
    rintro c ⟨h, -, -, hplaces⟩
    rw [nextBack, if_pos (front_eq_back_of_places h.front_le_back (List.reverse_eq_nil_iff.1 hplaces))]
  cons := by
    rintro c p ps ⟨h, rfl, rfl, hplaces⟩
    have hne : c.front ≠ c.back := by
      intro heq
      rw [places, heq, Nat.sub_self] at hplaces
      cases hplaces
    obtain ⟨-, hback, hlt⟩ := toNat_ends_of_ne h.front_le_back hne
    have hlast : c.places = List.range' c.front.toNat (c.back.toNat - 1 - c.front.toNat) ++ [c.back.toNat - 1] := by
      rw [places, show c.back.toNat - c.front.toNat = c.back.toNat - 1 - c.front.toNat + 1 by omega,
        List.range'_1_concat]
      congr 2
      omega
    rw [hlast, List.reverse_append] at hplaces
    obtain ⟨rfl, rfl⟩ := List.cons.inj hplaces
    obtain ⟨x, hnext, hx⟩ := h.nextBack_eq hne
    have hwithin := within_nextBack (s := s) h.front_le_back
    rw [hnext] at hwithin
    refine ⟨x, _, hnext, hx, h.mono hwithin, rfl, rfl, ?_⟩
    show (List.range' c.front.toNat ((c.back - 1).toNat - c.front.toNat)).reverse = _
    rw [hback]
    rfl

structure StandsAt (c : Cursor) (w : Traversal length) : Prop where
  length : c.view.length.toNat = length
  front : c.front.toNat = w.passed.length
  back : c.back.toNat = w.passed.length + w.ahead.length

theorem standsAt_ofView (v : View) : (ofView v).StandsAt (.start v.length.toNat) := by
  refine ⟨rfl, rfl, ?_⟩
  show v.length.toNat = 0 + (List.range v.length.toNat).length
  rw [List.length_range, Nat.zero_add]

theorem StandsAt.places_eq (h : c.StandsAt w) : c.places = w.ahead := by
  rw [places, h.front, h.back, Nat.add_sub_cancel_left]
  exact w.ahead_eq.symm

theorem StandsAt.toNat_length (h : c.StandsAt w) (hle : c.front ≤ c.back) : c.length.toNat = w.ahead.length := by
  rw [Cursor.length, UInt64.toNat_sub_of_le _ _ hle, h.back, h.front, Nat.add_sub_cancel_left]

theorem StandsAt.forth (h : c.StandsAt w) {n : Nat} (hd : d.front ≤ d.back) (hview : d.view = c.view)
    (hback : d.back = c.back) (hplaces : d.places = w.ahead.drop n) : d.StandsAt (w.forth n) := by
  have hlength := congrArg List.length hplaces
  rw [places, List.length_range', List.length_drop, hback, h.back] at hlength
  rw [UInt64.le_iff_toNat_le, hback, h.back] at hd
  refine ⟨hview ▸ h.length, ?_, ?_⟩
  · rw [Traversal.length_passed_forth]
    omega
  · rw [hback, h.back, Traversal.length_passed_forth, Traversal.length_ahead_forth]
    omega

theorem StandsAt.backward (h : c.StandsAt w) {n : Nat} (hd : d.front ≤ d.back) (hview : d.view = c.view)
    (hfront : d.front = c.front) (hplaces : d.places.reverse = w.ahead.reverse.drop n) :
    d.StandsAt (w.back n) := by
  have hlength := congrArg List.length hplaces
  rw [List.length_reverse, places, List.length_range', List.length_drop, List.length_reverse, hfront,
    h.front] at hlength
  rw [UInt64.le_iff_toNat_le, hfront, h.front] at hd
  refine ⟨hview ▸ h.length, hfront ▸ h.front, ?_⟩
  show d.back.toNat = w.passed.length + (w.back n).ahead.length
  rw [Traversal.length_ahead_back]
  omega

theorem StandsAt.ends_of_forth (h : c.StandsAt w) (hle : c.front ≤ c.back) {n : Nat}
    (hd : d.StandsAt (w.forth n)) :
    d.front.toNat = c.front.toNat + min n c.length.toNat ∧ d.back = c.back := by
  have hfront := hd.front
  have hback := hd.back
  rw [Traversal.length_passed_forth] at hfront hback
  rw [Traversal.length_ahead_forth] at hback
  refine ⟨?_, UInt64.toNat_inj.1 ?_⟩
  · rw [h.toNat_length hle, h.front, hfront]
  · rw [h.back, hback]
    omega

theorem StandsAt.ends_of_backward (h : c.StandsAt w) (hle : c.front ≤ c.back) {n : Nat}
    (hd : d.StandsAt (w.back n)) :
    d.back.toNat = c.back.toNat - min n c.length.toNat ∧ d.front = c.front := by
  have hback := hd.back
  rw [Traversal.length_ahead_back] at hback
  refine ⟨?_, UInt64.toNat_inj.1 (hd.front.trans h.front.symm)⟩
  rw [h.toNat_length hle, h.back, hback]
  show w.passed.length + _ = _
  omega

theorem StandsAt.skipTo (h : c.StandsAt w) (hc : c.Walks s) (n : Nat) :
    (c.skipTo s n).1 = w.ahead[n]?.bind ((s.elements c.view)[·]?) ∧
      (c.skipTo s n).2.StandsAt (w.forth (n + 1)) := by
  obtain ⟨d, hskip, hd, hview, hback, hplaces⟩ :=
    (visits_next s c.view c.back).skipToBy ⟨hc, rfl, rfl, h.places_eq⟩ n
  rw [Cursor.skipTo, hskip]
  exact ⟨rfl, h.forth hd.front_le_back hview hback hplaces⟩

theorem StandsAt.skipToBack (h : c.StandsAt w) (hc : c.Walks s) (n : Nat) :
    (c.skipToBack s n).1 = w.ahead.reverse[n]?.bind ((s.elements c.view)[·]?) ∧
      (c.skipToBack s n).2.StandsAt (w.back (n + 1)) := by
  obtain ⟨d, hskip, hd, hview, hfront, hplaces⟩ :=
    (visits_nextBack s c.view c.front).skipToBy ⟨hc, rfl, rfl, congrArg List.reverse h.places_eq⟩ n
  rw [Cursor.skipToBack, hskip]
  exact ⟨rfl, h.backward hd.front_le_back hview hfront hplaces⟩

theorem filterMap_range'_getElem? {β : Type} (xs : List β) (a n : Nat) :
    (List.range' a n).filterMap (xs[·]?) = xs.extract a (a + n) := by
  rw [List.extract_eq_take_drop, Nat.add_sub_cancel_left]
  induction n generalizing a with
  | zero => rfl
  | succ n ih =>
    rw [List.range'_succ, List.filterMap_cons, ih]
    cases h : xs[a]? with
    | none =>
      have hle := List.getElem?_eq_none_iff.1 h
      rw [List.drop_eq_nil_of_le hle, List.drop_eq_nil_of_le (hle.trans (Nat.le_succ a))]
      simp
    | some x =>
      obtain ⟨hlt, rfl⟩ := List.getElem?_eq_some_iff.1 h
      rw [List.drop_eq_getElem_cons hlt, List.take_succ_cons]

theorem filterMap_ahead (w : Traversal length) (s : Store α) (view : View) :
    w.ahead.filterMap ((s.elements view)[·]?) = w.shown s view := by
  rw [w.ahead_eq, filterMap_range'_getElem?, Traversal.shown]

theorem StandsAt.rest (h : c.StandsAt w) (hc : c.Walks s) :
    (c.rest s).1 = w.shown s c.view ∧ (c.rest s).2.StandsAt (w.forth w.ahead.length) := by
  obtain ⟨d, htake, hd, hview, hback, hplaces⟩ :=
    (visits_next s c.view c.back).takeBy ⟨hc, rfl, rfl, h.places_eq⟩ w.ahead.length
  rw [Cursor.rest, h.toNat_length hc.front_le_back, htake, List.take_length]
  exact ⟨filterMap_ahead w s c.view, h.forth hd.front_le_back hview hback hplaces⟩

theorem StandsAt.restBack (h : c.StandsAt w) (hc : c.Walks s) :
    (c.restBack s).1 = (w.shown s c.view).reverse ∧ (c.restBack s).2.StandsAt (w.back w.ahead.length) := by
  obtain ⟨d, htake, hd, hview, hfront, hplaces⟩ :=
    (visits_nextBack s c.view c.front).takeBy ⟨hc, rfl, rfl, congrArg List.reverse h.places_eq⟩ w.ahead.length
  rw [Cursor.restBack, h.toNat_length hc.front_le_back, htake, ← List.length_reverse, List.take_length,
    List.filterMap_reverse, filterMap_ahead, List.length_reverse]
  exact ⟨rfl, h.backward hd.front_le_back hview hfront hplaces⟩

/-- **A call** answers and moves a cursor as it does its traversal. -/
theorem StandsAt.perform [Element α] (h : c.StandsAt w) (hc : c.Walks s) (call : Call) :
    (c.perform s call).1 = w.answer s c.view call ∧ (c.perform s call).2.StandsAt (w.call call) := by
  have hlength : c.length = UInt64.ofNat w.ahead.length := by
    rw [← h.toNat_length hc.front_le_back, UInt64.ofNat_toNat]
  cases call with
  | next =>
    obtain ⟨hanswer, hd⟩ := h.skipTo hc 0
    refine ⟨?_, hd⟩
    show Answer.optional (c.skipTo s 0).1 = .optional (w.ahead.head?.bind _)
    rw [hanswer, List.head?_eq_getElem?]
  | nextBack =>
    obtain ⟨hanswer, hd⟩ := h.skipToBack hc 0
    refine ⟨?_, hd⟩
    show Answer.optional (c.skipToBack s 0).1 = .optional (w.ahead.getLast?.bind _)
    rw [hanswer, List.getLast?_eq_head?_reverse, List.head?_eq_getElem?]
  | nth n =>
    obtain ⟨hanswer, hd⟩ := h.skipTo hc n.toNat
    exact ⟨congrArg Answer.optional hanswer, hd⟩
  | nthBack n =>
    obtain ⟨hanswer, hd⟩ := h.skipToBack hc n.toNat
    exact ⟨congrArg Answer.optional hanswer, hd⟩
  | length => exact ⟨congrArg Answer.length hlength, h⟩
  | hint => exact ⟨congrArg (fun n => Answer.hint ⟨n, some n⟩) hlength, h⟩
  | debug =>
    refine ⟨?_, h⟩
    show Answer.text (c.debugText s) = .text (debugText s ⟨c.view, _, _⟩)
    rw [← h.back, ← h.front, UInt64.ofNat_toNat, UInt64.ofNat_toNat]
  | rest =>
    obtain ⟨hanswer, hd⟩ := h.rest hc
    exact ⟨congrArg Answer.items hanswer, hd⟩
  | restBack =>
    obtain ⟨hanswer, hd⟩ := h.restBack hc
    exact ⟨congrArg Answer.items hanswer, hd⟩
  | count =>
    obtain ⟨hanswer, hd⟩ := h.rest hc
    refine ⟨?_, hd⟩
    show Answer.count (c.rest s).1.length = .count w.ahead.length
    rw [hanswer, w.length_shown hc.covers h.length]
  | last =>
    obtain ⟨hanswer, hd⟩ := h.rest hc
    refine ⟨?_, hd⟩
    show Answer.optional (c.rest s).1.getLast? = .optional (w.shown s c.view).getLast?
    rw [hanswer]

theorem Walks.skipTo_eq_iterate (hc : c.Walks s) (n : Nat) :
    c.skipTo s n = (fun r => r.2.next s)^[n] (c.next s) :=
  (visits_next s c.view c.back).skipToBy_eq_iterate ⟨hc, rfl, rfl, rfl⟩ n

theorem Walks.skipToBack_eq_iterate (hc : c.Walks s) (n : Nat) :
    c.skipToBack s n = (fun r => r.2.nextBack s)^[n] (c.nextBack s) :=
  (visits_nextBack s c.view c.front).skipToBy_eq_iterate ⟨hc, rfl, rfl, rfl⟩ n

end Cursor

end CanonicalText
