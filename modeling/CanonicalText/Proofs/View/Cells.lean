import Mathlib
import CanonicalText.Proofs.View.Extents
import CanonicalText.Proofs.View.Paths

/-!
# Cells

Views and cursors show the cells of their storages and nothing else. A cell changes when it is written and at
no other time, so the last write to it says what all of them show.

* `Session.Bounded.shows_iff` : whatever reads a place of a view finds the cell there;
* `Session.Bounded.effect_perform` : what an operation does to the store and the views;
* `Point.cell?_after` : after a path a cell has the value that was written to it last.
-/

namespace CanonicalText

variable {α : Type}

/-! ## Reading cells -/

namespace Store

def cell? (s : Store α) (number offset : Nat) : Option α := (s.storage number)[offset]?

variable {s : Store α} {v : View}

theorem isSome_cell? (h : s.Covers v) {q : Nat} (hq : q < v.length.toNat) :
    (s.cell? v.storage (v.start.toNat + q)).isSome := by
  have hsize := h.stop_le_size
  rw [View.toNat_length h.start_le_stop] at hq
  rw [cell?, Array.getElem?_eq_getElem (by omega)]
  rfl

theorem getElem?_elements (h : s.Covers v) {q : Nat} (hq : q < v.length.toNat) :
    (s.elements v)[q]? = s.cell? v.storage (v.start.toNat + q) := by
  have hsize := h.stop_le_size
  rw [View.toNat_length h.start_le_stop] at hq
  rw [elements, cell?, Array.getElem?_toList, Array.getElem?_extract, if_pos (by omega)]

theorem elements_congr {t : Store α} (h : s.Covers v) (h' : t.Covers v)
    (hcells : ∀ o, t.cell? v.storage o = s.cell? v.storage o) : t.elements v = s.elements v := by
  apply List.ext_getElem?
  intro q
  by_cases hq : q < v.length.toNat
  · rw [getElem?_elements h hq, getElem?_elements h' hq, hcells]
  · rw [List.getElem?_eq_none, List.getElem?_eq_none]
    · rw [length_elements h]
      omega
    · rw [length_elements h']
      omega

theorem get_eq_ok {i : Index} {p : UInt64} {x : α} (h : s.Covers v) (hp : v.position? i = some p)
    (hx : s.cell? v.storage (v.start.toNat + p.toNat) = some x) : s.get v i = .ok x := by
  have hlt := (View.position?_eq_some_iff.1 hp).2
  refine get_of_position? hp ?_
  rwa [View.toNat_start_add h.start_le_stop (UInt64.le_of_lt hlt)]

theorem tryGet_fromStart {p : UInt64} (h : s.Covers v) (hp : p.toNat < v.length.toNat) :
    s.tryGet v (.fromStart p) = s.cell? v.storage (v.start.toNat + p.toNat) := by
  obtain ⟨x, hx⟩ := Option.isSome_iff_exists.1 (isSome_cell? h hp)
  have hposition : v.position? (.fromStart p) = some p :=
    View.position?_eq_some_iff.2 ⟨rfl, UInt64.lt_iff_toNat_lt.2 hp⟩
  rw [tryGet, get_eq_ok h hposition hx, hx]
  rfl

theorem storage_write (s : Store α) (number offset n : Nat) (x : α) :
    (s.write number offset x).storage n =
      if n = number then (s.storage number).setIfInBounds offset x else s.storage n := by
  simp only [storage, write, Array.getD_eq_getD_getElem?, Array.getElem?_setIfInBounds]
  by_cases hn : number = n
  · subst hn
    by_cases hlt : number < s.storages.size
    · simp [hlt]
    · simp [hlt]
  · simp [hn, Ne.symm hn]

theorem cell?_write (s : Store α) (number offset n o : Nat) (x : α) :
    (s.write number offset x).cell? n o =
      if n = number ∧ o = offset then (s.cell? number offset).map fun _ => x else s.cell? n o := by
  rw [cell?, storage_write]
  by_cases hn : n = number
  · subst hn
    rw [if_pos rfl, Array.getElem?_setIfInBounds]
    by_cases ho : offset = o
    · subst ho
      by_cases hlt : offset < (s.storage n).size
      · simp [cell?, hlt]
      · simp [cell?, hlt]
    · rw [if_neg ho, if_neg (by omega)]
      rfl
  · rw [if_neg hn, if_neg (by omega)]
    rfl

theorem cell?_allocate_of_lt {s : Store α} (items : Array α) {n : Nat} (hn : n < s.storages.size) (o : Nat) :
    (s.allocate items).2.cell? n o = s.cell? n o := by
  simp [cell?, storage, allocate, Array.getElem?_push, hn.ne]

end Store

namespace Cursor

variable {s : Store α} {c : Cursor}

theorem next_fst (h : c.Walks s) (hne : c.front ≠ c.back) :
    (c.next s).1 = s.cell? c.view.storage (c.view.start.toNat + c.front.toNat) := by
  obtain ⟨-, -, hlt⟩ := toNat_ends_of_ne h.front_le_back hne
  have hlength := UInt64.le_iff_toNat_le.1 h.back_le_length
  rw [next, if_neg hne]
  exact Store.tryGet_fromStart h.covers (by omega)

theorem nextBack_fst (h : c.Walks s) (hne : c.front ≠ c.back) :
    (c.nextBack s).1 = s.cell? c.view.storage (c.view.start.toNat + (c.back.toNat - 1)) := by
  obtain ⟨-, hback, hlt⟩ := toNat_ends_of_ne h.front_le_back hne
  have hlength := UInt64.le_iff_toNat_le.1 h.back_le_length
  rw [nextBack, if_neg hne, ← hback]
  exact Store.tryGet_fromStart h.covers (by omega)

end Cursor

namespace Session

variable {s : Session α} {w : View} {q : Nat} {x : α}

/-- Whatever reads the element at an offset of a view finds it to be `x`: a read of the element or of the
whole view, and a cursor on the view that comes to it from either end. -/
structure Shows (s : Session α) (w : View) (q : Nat) (x : α) : Prop where
  get : ∀ i : Index, i.element? w.length.toNat = some q → s.store.get w i = .ok x
  elements : (s.store.elements w)[q]? = some x
  next : ∀ c ∈ s.cursors, c.view = w → c.front ≠ c.back → c.front.toNat = q →
    (c.next s.store).1 = some x
  nextBack : ∀ c ∈ s.cursors, c.view = w → c.front ≠ c.back → c.back.toNat = q + 1 →
    (c.nextBack s.store).1 = some x

/-- **A view shows the cells of its window**, to all that read it. -/
theorem Bounded.shows_iff (hs : s.Bounded) (hw : s.store.Covers w) (hq : q < w.length.toNat) :
    s.Shows w q x ↔ s.store.cell? w.storage (w.start.toNat + q) = some x := by
  constructor
  · intro h
    rw [← Store.getElem?_elements hw hq]
    exact h.elements
  · intro hx
    refine ⟨fun i hi => ?_, ?_, fun c hc hview hne hfront => ?_, fun c hc hview hne hback => ?_⟩
    · obtain ⟨p, rfl, hp⟩ := View.exists_position?_eq_some hi
      exact Store.get_eq_ok hw hp hx
    · rwa [Store.getElem?_elements hw hq]
    · rw [Cursor.next_fst (hs.walks c hc) hne, hview, hfront, hx]
    · rw [Cursor.nextBack_fst (hs.walks c hc) hne, hview, hback, Nat.add_sub_cancel, hx]

end Session

/-! ## Writing cells -/

/-- What is written into which cell. -/
structure Write (α : Type) where
  number : Nat
  offset : Nat
  value : α

namespace Write

def hits (write : Write α) (number offset : Nat) : Bool :=
  write.number == number && write.offset == offset

/-- What the last of some writes to a cell has written there. -/
def last? (writes : List (Write α)) (number offset : Nat) : Option α :=
  ((writes.filter (·.hits number offset)).getLast?).map (·.value)

theorem last?_append (first second : List (Write α)) (number offset : Nat) :
    last? (first ++ second) number offset = (last? second number offset).or (last? first number offset) := by
  simp only [last?, List.filter_append, List.getLast?_append, Option.map_or]

theorem getD_last?_singleton (write : Write α) (number offset : Nat) (x : α) :
    (last? [write] number offset).getD x =
      if number = write.number ∧ offset = write.offset then write.value else x := by
  by_cases hit : write.number = number ∧ write.offset = offset
  · simp [last?, hits, hit]
  · rw [if_neg (by omega)]
    simp [last?, hits, hit]

end Write

namespace Session

variable {s : Session α} {view : View}

/-- The write that an operation makes, if it makes one. -/
def write? (s : Session α) : Operation α → Option (Write α)
  | .set v i x =>
    (s.views[v]?).bind fun view =>
      (i.element? view.length.toNat).bind fun p =>
        if s.store.isBeingRead view.storage then none
        else some ⟨view.storage, view.start.toNat + p, x⟩
  | _ => none

variable [BEq α] [Element α]

section Set

variable {v : Nat} {i : Index} {x : α}

theorem perform_set_of_none (hv : s.views[v]? = some view) (hi : i.element? view.length.toNat = none) :
    s.perform (.set v i x) = (.indexError ⟨i, view.length⟩, s) := by
  rw [← View.position?_eq_none_iff_element?] at hi
  refine (onView_eq hv _).trans ?_
  simp only [Store.set, hi]
  rfl

theorem perform_set_of_read {p : Nat} (hv : s.views[v]? = some view)
    (hi : i.element? view.length.toNat = some p) (hread : s.store.isBeingRead view.storage = true) :
    s.perform (.set v i x) = (.fault (.storageBeingRead i), s) := by
  obtain ⟨p, rfl, hp⟩ := View.exists_position?_eq_some hi
  refine (onView_eq hv _).trans ?_
  simp only [Store.set, hp, hread, if_true]
  rfl

theorem perform_set_of_unread {p : Nat} (hs : s.Bounded) (hv : s.views[v]? = some view)
    (hi : i.element? view.length.toNat = some p) (hread : s.store.isBeingRead view.storage = false) :
    let t := { s with store := s.store.write view.storage (view.start.toNat + p) x }
    s.perform (.set v i x) = (.allElements t.allElements, t) := by
  have hcovers := hs.covers_of_getElem? hv
  obtain ⟨p, rfl, hp⟩ := View.exists_position?_eq_some hi
  have hlt := (View.position?_eq_some_iff.1 hp).2
  rw [← View.toNat_start_add hcovers.start_le_stop (UInt64.le_of_lt hlt)]
  rcases Store.set_cases hcovers i x with ⟨q, -, hq, -, h⟩ | ⟨hnone, -⟩ | ⟨-, htrue, -⟩
  · obtain rfl : p = q := Option.some.inj (hp ▸ hq)
    refine (onView_eq hv _).trans ?_
    simp only [h]
  · rw [hp] at hnone
    cases hnone
  · rw [hread] at htrue
    cases htrue

end Set

/-! ## What an operation does -/

end Session

def Answer.isMade : Answer α → Bool
  | .made .. => true
  | _ => false

theorem View.storage_of_narrowed {v w : View} (hv : v.start ≤ v.stop) {n : Narrowing}
    (h : v.narrowed n = .ok w) : w.storage = v.storage := by
  have hslice : ∀ lower upper, v.slice lower upper = .ok w → w.storage = v.storage := by
    intro lower upper h
    rcases slice_cases hv lower upper with ⟨_, _, -, -, -, -, h'⟩ | ⟨_, h'⟩ | ⟨_, _, h'⟩ <;>
      rw [h'] at h <;> cases h
    rfl
  cases n with
  | slice lower upper => exact hslice lower upper h
  | range lower upper => exact hslice _ _ h
  | sliceLength i count =>
    rw [narrowed] at h
    rcases sliceLength_cases hv i count with ⟨_, _, -, -, -, -, h'⟩ | h' | ⟨_, h'⟩ <;>
      rw [h'] at h <;> cases h
    rfl

namespace Session

variable {s : Session α} {op : Operation α} {r : Answer α × Session α}

/-- What an operation does, by what it was asked for: it makes a view of a new storage or of the storage of
another view, writes one cell, or leaves the store and the views as they are. -/
inductive Effect (s : Session α) (op : Operation α) : Answer α × Session α → Prop
  | created (items : List α) (hparent : op.parent? = none) (hwrite : s.write? op = none) :
      s.Effect op (s.create items)
  | viewed {v : Nat} {view w : View} (hparent : op.parent? = some v) (hv : s.views[v]? = some view)
      (hw : w.storage = view.storage) (hwrite : s.write? op = none) : s.Effect op (s.addView w)
  | written {answer : Answer α} {w : Write α} (hanswer : answer.isMade = false)
      (hwrite : s.write? op = some w) :
      s.Effect op (answer, { s with store := s.store.write w.number w.offset w.value })
  | kept {answer : Answer α} (cursors : Array Cursor) (hanswer : answer.isMade = false)
      (hwrite : s.write? op = none) : s.Effect op (answer, { s with cursors })

theorem effect_onView {v : Nat} {f : View → Answer α × Session α}
    (hwrite : s.views[v]? = none → s.write? op = none)
    (h : ∀ view, s.views[v]? = some view → s.Effect op (f view)) : s.Effect op (s.onView v f) := by
  unfold onView
  split
  · next view hv => exact h view hv
  · next hv => exact .kept s.cursors rfl (hwrite hv)

theorem effect_ask {v : Nat} {f : View → Answer α} (hwrite : s.write? op = none)
    (h : ∀ view, (f view).isMade = false) : s.Effect op (s.ask v f) :=
  effect_onView (fun _ => hwrite) fun view _ => .kept s.cursors (h view) hwrite

theorem Bounded.effect_narrowed (hs : s.Bounded) {v : Nat} {view : View} (n : Narrowing)
    (hparent : op.parent? = some v) (hwrite : s.write? op = none) (hv : s.views[v]? = some view) :
    s.Effect op (s.addViewOr (view.narrowed n)) := by
  have hle := (hs.covers_of_getElem? hv).start_le_stop
  cases h : view.narrowed n with
  | ok w => exact .viewed hparent hv (View.storage_of_narrowed hle h) hwrite
  | error f => exact .kept s.cursors rfl hwrite

theorem isMade_ofAccess (r : Except AccessError α) : (Answer.ofAccess r).isMade = false := by
  rcases r with ⟨_ | _⟩ | _ <;> rfl

/-- An operation leaves in a cell what it writes there, or what the cell had. -/
theorem Effect.cell?_eq (h : s.Effect op r) {n : Nat} (hn : n < s.store.storages.size) (o : Nat) :
    r.2.store.cell? n o =
      (s.store.cell? n o).map fun x => (Write.last? (s.write? op).toList n o).getD x := by
  have hkept : s.write? op = none →
      s.store.cell? n o = (s.store.cell? n o).map fun x => (Write.last? (s.write? op).toList n o).getD x := by
    intro hwrite
    rw [hwrite]
    exact (Option.map_id' ..).symm
  cases h with
  | created items _ hwrite =>
    rw [← hkept hwrite]
    exact Store.cell?_allocate_of_lt items.toArray hn o
  | viewed _ _ _ hwrite => exact hkept hwrite
  | kept _ _ hwrite => exact hkept hwrite
  | written _ hwrite =>
    simp only [hwrite, Option.toList_some, Write.getD_last?_singleton]
    rw [Store.cell?_write]
    split
    · next hit =>
      rw [hit.1, hit.2]
    · exact (Option.map_id' ..).symm

theorem Effect.reading_eq (h : s.Effect op r) : r.2.store.reading = s.store.reading := by
  cases h <;> rfl

variable [BEq α] [Element α]

theorem Bounded.effect_set (hs : s.Bounded) (v : Nat) (i : Index) (x : α) :
    s.Effect (.set v i x) (s.perform (.set v i x)) := by
  cases hv : s.views[v]? with
  | none =>
    simp only [Session.perform, onView, hv]
    exact .kept s.cursors rfl (by simp only [write?, hv]; rfl)
  | some view =>
    cases hi : i.element? view.length.toNat with
    | none =>
      rw [perform_set_of_none hv hi]
      exact .kept s.cursors rfl (by simp only [write?, hv, Option.bind_some, hi]; rfl)
    | some p =>
      cases hread : s.store.isBeingRead view.storage with
      | true =>
        rw [perform_set_of_read hv hi hread]
        exact .kept s.cursors rfl (by simp only [write?, hv, Option.bind_some, hi, hread, if_true])
      | false =>
        rw [perform_set_of_unread hs hv hi hread]
        refine .written (w := ⟨view.storage, view.start.toNat + p, x⟩) rfl ?_
        simp only [write?, hv, Option.bind_some, hi, hread, Bool.false_eq_true, if_false]

/-- **What an operation does** in a bounded session. -/
theorem Bounded.effect_perform (hs : s.Bounded) (op : Operation α) : s.Effect op (s.perform op) := by
  cases op with
  | create items => exact .created items rfl rfl
  | decode text =>
    simp only [Session.perform]
    split
    · next items _ => exact .created items rfl rfl
    · exact .kept s.cursors rfl rfl
  | copy v => exact effect_onView (fun _ => rfl) fun view hv => .viewed rfl hv rfl rfl
  | slice v lower upper =>
    exact effect_onView (fun _ => rfl) fun view hv => hs.effect_narrowed (.slice lower upper) rfl rfl hv
  | range v lower upper =>
    exact effect_onView (fun _ => rfl) fun view hv => hs.effect_narrowed (.range lower upper) rfl rfl hv
  | sliceLength v i count =>
    exact effect_onView (fun _ => rfl) fun view hv => hs.effect_narrowed (.sliceLength i count) rfl rfl hv
  | set v i x => exact hs.effect_set v i x
  | get v i => exact effect_ask rfl fun view => isMade_ofAccess _
  | tryGet v i => exact effect_ask rfl fun _ => rfl
  | canGet v i => exact effect_ask rfl fun _ => rfl
  | length v => exact effect_ask rfl fun _ => rfl
  | isEmpty v => exact effect_ask rfl fun _ => rfl
  | rawRange v => exact effect_ask rfl fun _ => rfl
  | elements v => exact effect_ask rfl fun _ => rfl
  | allElements => exact .kept s.cursors rfl rfl
  | sharesStorage v w => exact effect_onView (fun _ => rfl) fun _ _ => effect_ask rfl fun _ => rfl
  | equal v w => exact effect_onView (fun _ => rfl) fun _ _ => effect_ask rfl fun _ => rfl
  | equalItems v items => exact effect_ask rfl fun _ => rfl
  | distinct views => exact .kept s.cursors rfl rfl
  | debug v => exact effect_ask rfl fun _ => rfl
  | pretty v => exact effect_ask rfl fun _ => rfl
  | encode v => exact effect_ask rfl fun _ => rfl
  | walk v => exact effect_onView (fun _ => rfl) fun view _ => .kept (s.cursors.push (.ofView view)) rfl rfl
  | advance k call =>
    simp only [Session.perform]
    split
    · exact .kept s.cursors rfl rfl
    · refine .kept (s.cursors.setIfInBounds k _) ?_ rfl
      cases call <;> rfl

end Session

/-! ## Paths -/

theorem Session.Extends.storages_size_le {s t : Session α} (h : s.Extends t) :
    s.store.storages.size ≤ t.store.storages.size := by
  simpa [Store.sizes] using h.storages.length_le

namespace Point

variable [BEq α] [Element α]

/-- The write that a move makes, if it makes one. -/
def write? (here : Point α) : Move α → Option (Write α)
  | .perform op => here.session.write? op
  | _ => none

/-- The writes that the moves of a path make, in order. -/
def writes (here : Point α) : List (Move α) → List (Write α)
  | [] => []
  | m :: path => (here.write? m).toList ++ (here.move m).writes path

variable {here : Point α}

theorem extends_move (hs : here.session.Bounded) (m : Move α) :
    here.session.Extends (here.move m).session := by
  apply move_cases (P := fun _ there => here.session.Extends there.session)
  · intro op
    exact (hs.perform op).2
  · intro _ view
    exact (Session.persists_bounded.enter _ view hs).2
  · exact fun _ => .refl _
  · intro view _ _
    exact (Session.persists_bounded.leave _ view hs).2
  · exact .refl _

theorem extends_after (hs : here.session.Bounded) (path : List (Move α)) :
    here.session.Extends (here.after path).session := by
  induction path generalizing here with
  | nil => exact .refl _
  | cons m path ih => exact (extends_move hs m).trans (ih (bounded_move hs m))

theorem cell?_move (hs : here.session.Bounded) {n : Nat} (hn : n < here.session.store.storages.size)
    (o : Nat) (m : Move α) :
    (here.move m).session.store.cell? n o =
      (here.session.store.cell? n o).map fun x => (Write.last? (here.write? m).toList n o).getD x := by
  -- a loan and its end write nothing
  have hkept : here.session.store.cell? n o =
      (here.session.store.cell? n o).map fun x => (Write.last? [] n o).getD x := (Option.map_id' ..).symm
  apply move_cases (P := fun m there => there.session.store.cell? n o =
    (here.session.store.cell? n o).map fun x => (Write.last? (here.write? m).toList n o).getD x)
  · intro op
    exact (hs.effect_perform op).cell?_eq hn o
  · exact fun _ _ => hkept
  · exact fun _ => hkept
  · exact fun _ _ _ => hkept
  · exact hkept

/-- **After a path** a cell has the value that the path has written to it last, or else the one that it had. -/
theorem cell?_after (hs : here.session.Bounded) {n : Nat} (hn : n < here.session.store.storages.size)
    (o : Nat) (path : List (Move α)) :
    (here.after path).session.store.cell? n o =
      (here.session.store.cell? n o).map fun x => (Write.last? (here.writes path) n o).getD x := by
  induction path generalizing here with
  | nil => exact (Option.map_id' ..).symm
  | cons m path ih =>
    have hn' := hn.trans_le (extends_move hs m).storages_size_le
    rw [after_cons, ih (bounded_move hs m) hn', cell?_move hs hn, Option.map_map, writes]
    congr 1
    funext x
    rw [Write.last?_append]
    cases Write.last? ((here.move m).writes path) n o <;> rfl

end Point

end CanonicalText
