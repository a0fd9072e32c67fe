import Mathlib
import CanonicalText.Proofs.Json.RoundTrip
import CanonicalText.Proofs.View.Cells

/-!
# Views read back

The JSON text of a view holds its elements and nothing of its storage around them. Decoding it makes a new
storage of just these elements, so the new view is equal to the old one and stands apart from all others.

* `Store.elements_allocate` : what the view of a new storage shows;
* `Session.EncodesFaithfully` : encoding a view and decoding the text;
* `encoded_values_read_back` : coordinates, and the views of every reachable session.
-/

namespace CanonicalText

variable {α : Type}

namespace Store

variable (s : Store α)

theorem elements_allocate {items : Array α} (h : items.size < UInt64.size) :
    (s.allocate items).2.elements (s.allocate items).1 = items.toList := by
  have hstorage : (s.allocate items).2.storage s.storages.size = items := by
    simp [storage, allocate]
  show (((s.allocate items).2.storage s.storages.size).extract 0 (UInt64.ofNat items.size).toNat).toList = _
  rw [hstorage, UInt64.toNat_ofNat_of_lt' h, Array.extract_size]

theorem elements_allocate_of_lt (items : Array α) {v : View} (h : v.storage < s.storages.size) :
    (s.allocate items).2.elements v = s.elements v := by
  have hstorage : (s.allocate items).2.storage v.storage = s.storage v.storage := by
    simp [storage, allocate, Array.getElem?_push, h.ne]
  rw [elements, elements, hstorage]

theorem equal_of_elements_eq [BEq α] [ReflBEq α] {v w : View} (hlength : v.length = w.length)
    (h : s.elements v = s.elements w) : s.equal v w = true := by
  rw [equal, sequence, sequence, hlength, h, Sequence.equal, beq_self_eq_true, beq_self_eq_true, Bool.and_self]

end Store

namespace Session

theorem create_new (s : Session α) {items : List α} (hitems : items.length < UInt64.size) :
    let t := (s.create items).2
    let copy : View := ⟨s.store.storages.size, 0, UInt64.ofNat items.length⟩
    t.views = s.views.push copy ∧ t.views[s.views.size]? = some copy ∧ t.store.elements copy = items :=
  ⟨rfl, Array.getElem?_push_size, s.store.elements_allocate hitems⟩

/-- The views that there were show what they did, and stand apart from the new storage. -/
theorem Bounded.create_old {s : Session α} (hs : s.Bounded) (items : List α) {w : Nat} {old : View}
    (hw : s.views[w]? = some old) :
    let t := (s.create items).2
    t.views[w]? = some old ∧ old.storage < s.store.storages.size ∧
      t.store.elements old = s.store.elements old := by
  have hstored := (hs.covers old (Array.mem_of_getElem? hw)).stored
  refine ⟨?_, hstored, Store.elements_allocate_of_lt s.store _ hstored⟩
  show (s.views.push _)[w]? = some old
  rw [Array.getElem?_push_lt (Array.getElem?_eq_some_iff.1 hw).1]
  exact congrArg some (Array.getElem?_eq_some_iff.1 hw).2

variable [BEq α] [Element α]

/-- Every view of a session is read back from its text as a new view. It has all of a storage of its own, from
the start on and as long as the old one, shows the same elements in order, and is equal to the old view either
way round. The old views stay as they were, and none of them shares the new storage. -/
def EncodesFaithfully (s : Session α) : Prop :=
  ∀ (v : Nat) (view : View), s.views[v]? = some view →
    let items := s.store.elements view
    let text := Element.encodeList items
    let number := s.views.size
    let copy : View := ⟨s.store.storages.size, 0, view.length⟩
    let t := (s.perform (.decode text)).2
    s.perform (.encode v) = (.text text, s) ∧
    s.perform (.decode text) = (.made number copy items, t) ∧
    t.views = s.views.push copy ∧
    t.perform (.elements number) = (.items items, t) ∧
    (∀ (w : Nat) (old : View), s.views[w]? = some old → t.store.elements old = s.store.elements old) ∧
    t.perform (.equal v number) = (.bothWays true true, t) ∧
    t.perform (.equal number v) = (.bothWays true true, t) ∧
    ∀ w < number, t.perform (.sharesStorage number w) = (.truth false, t)

theorem Bounded.encodesFaithfully [ReflBEq α] {s : Session α} (hs : s.Bounded)
    (h : Element.ReadsBack α) : s.EncodesFaithfully := by
  intro v view hv items text number copy t
  have hcovers := hs.covers_of_getElem? hv
  have hlength : items.length = view.length.toNat := Store.length_elements hcovers
  have hcreated : s.perform (.decode text) = s.create items := by
    simp only [Session.perform, text, Element.decodeText_encodeList h items]
  have hcopy : (⟨s.store.storages.size, 0, UInt64.ofNat items.length⟩ : View) = copy := by
    rw [hlength, UInt64.ofNat_toNat]
  have ht : t = (s.create items).2 := congrArg Prod.snd hcreated
  obtain ⟨hviews, hnew, hitems⟩ := s.create_new (hlength.trans_lt (UInt64.toNat_lt_size _))
  rw [hcopy, ← ht] at hviews hnew hitems
  rw [show s.views.size = number from rfl] at hnew
  have hold : ∀ (w : Nat) (old : View), s.views[w]? = some old →
      t.views[w]? = some old ∧ old.storage < s.store.storages.size ∧
        t.store.elements old = s.store.elements old := by
    intro w old hw
    rw [ht]
    exact hs.create_old items hw
  obtain ⟨hview, -, hview'⟩ := hold v view hv
  have hequal : t.store.equal view copy = true ∧ t.store.equal copy view = true :=
    ⟨t.store.equal_of_elements_eq (UInt64.sub_zero _).symm (hview'.trans hitems.symm),
      t.store.equal_of_elements_eq (UInt64.sub_zero _) (hitems.trans hview'.symm)⟩
  refine ⟨?_, ?_, hviews, ?_, fun w old hw => (hold w old hw).2.2, ?_, ?_, fun w hw => ?_⟩
  · exact ask_eq hv _
  · refine Prod.ext ?_ rfl
    rw [hcreated]
    show Answer.made number ⟨s.store.storages.size, 0, UInt64.ofNat items.length⟩
      ((s.create items).2.store.elements ⟨s.store.storages.size, 0, UInt64.ofNat items.length⟩) = _
    rw [hcopy, ← ht, hitems]
  · rw [← hitems]
    exact ask_eq hnew _
  · simp only [Session.perform, ask, onView, hview, hnew, hequal]
  · simp only [Session.perform, ask, onView, hview, hnew, hequal]
  · obtain ⟨old, hw⟩ : ∃ old, s.views[w]? = some old := ⟨_, Array.getElem?_eq_getElem hw⟩
    obtain ⟨hkept, hstored, -⟩ := hold w old hw
    have hapart : copy.sharesStorage old = false := by
      simp [View.sharesStorage, copy, hstored.ne']
    simp only [Session.perform, ask, onView, hnew, hkept, hapart]

end Session

/-- **Values are read back from their JSON texts.** Every position and every location is, also one in reverse.
So is every view, wherever a path leads, of integers, characters, strings or positions. -/
theorem encoded_values_read_back :
    (∀ p : Position, Json.decodeText Position.ofJson p.toJson.compact = .ok p) ∧
    (∀ a : Location, Json.decodeText Location.ofJson a.toJson.compact = .ok a) ∧
    (∀ path : List (Move Int64), (Point.start.after path).session.EncodesFaithfully) ∧
    (∀ path : List (Move Char), (Point.start.after path).session.EncodesFaithfully) ∧
    (∀ path : List (Move String), (Point.start.after path).session.EncodesFaithfully) ∧
    ∀ path : List (Move Position), (Point.start.after path).session.EncodesFaithfully := by
  refine ⟨readsBack_position.decodeText_written, readsBack_location.decodeText_written, ?_, ?_, ?_, ?_⟩
  · exact fun path => (Point.bounded_after Session.bounded_empty path).encodesFaithfully Element.readsBack_int64
  · exact fun path => (Point.bounded_after Session.bounded_empty path).encodesFaithfully Element.readsBack_char
  · exact fun path => (Point.bounded_after Session.bounded_empty path).encodesFaithfully Element.readsBack_string
  · exact fun path => (Point.bounded_after Session.bounded_empty path).encodesFaithfully readsBack_position

/-- A window on two of four integers, one of them written through the view of all: what is read back has the two in
a storage of their own, while the window still sees the others' storage. -/
theorem encoded_values_read_back_of_window :
    let path : List (Move Int64) := [.perform (.create [1, 2, 3, 4]),
      .perform (.slice 0 (.included (.fromStart 1)) (.included (.fromStart 2))), .perform (.set 0 (.fromStart 2) (-7))]
    let s := (Point.start.after path).session
    let t := (s.perform (.decode "[2,-7]".toList)).2
    s.perform (.encode 1) = (.text "[2,-7]".toList, s) ∧
      s.perform (.decode "[2,-7]".toList) = (.made 2 ⟨1, 0, 2⟩ [2, -7], t) ∧
      t.perform (.equal 1 2) = (.bothWays true true, t) ∧ t.store.elements ⟨0, 0, 4⟩ = [1, 2, -7, 4] ∧
      t.perform (.sharesStorage 2 0) = (.truth false, t) := by
  intro path s t
  obtain ⟨-, -, hviews, -⟩ := encoded_values_read_back
  have hview : s.views[1]? = some ⟨0, 1, 3⟩ := by decide
  have htext : Element.encodeList (s.store.elements ⟨0, 1, 3⟩) = "[2,-7]".toList := by decide +kernel
  have hitems : s.store.elements ⟨0, 1, 3⟩ = [2, -7] := by decide +kernel
  obtain ⟨hencode, hdecode, -, -, hold, hequal, -, hapart⟩ := hviews path 1 _ hview
  rw [htext] at hencode hdecode hold hequal hapart
  refine ⟨hencode, ?_, hequal, ?_, hapart 0 (by decide)⟩
  · rw [hdecode, hitems]
    rfl
  · rw [hold 0 ⟨0, 0, 4⟩ (by decide)]
    decide +kernel

end CanonicalText
