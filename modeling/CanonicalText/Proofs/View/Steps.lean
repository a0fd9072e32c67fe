import Mathlib
import CanonicalText.View.Session
import CanonicalText.Proofs.View.Windows

/-!
# What a step of a session can do

A session is bounded if all its views and cursors stay inside their storages (`Session.Bounded`). From a
bounded session a step fails in one of few ways and does nothing, or it makes one change; this is said once
(`Session.Bounded.came_perform`), and what steps keep follows from the changes alone.

* `Session.Refuses` : the failures of each operation;
* `Session.Change` : the changes that operations make;
* `Session.Extends` : storages keep their lengths, and views their windows;
* `Session.Bounded.perform` : every step leads to a bounded session that extends the one before.
-/

namespace CanonicalText

/-! ## Cursors -/

namespace Cursor

variable {α : Type} {s t : Store α} {c d e : Cursor}

/-- One cursor has at most as much ahead as another one on the same view. -/
structure Within (d c : Cursor) : Prop where
  view : d.view = c.view
  front : c.front ≤ d.front
  front_le_back : d.front ≤ d.back
  back : d.back ≤ c.back

theorem Within.refl (h : c.front ≤ c.back) : c.Within c :=
  ⟨rfl, UInt64.le_refl _, h, UInt64.le_refl _⟩

theorem Within.trans (h : e.Within d) (h' : d.Within c) : e.Within c :=
  ⟨h.view.trans h'.view, UInt64.le_trans h'.front h.front, h.front_le_back,
    UInt64.le_trans h.back h'.back⟩

/-- An end that moves towards the other one does not wrap around. -/
theorem toNat_ends_of_ne (h : c.front ≤ c.back) (hne : c.front ≠ c.back) :
    (c.front + 1).toNat = c.front.toNat + 1 ∧ (c.back - 1).toNat = c.back.toNat - 1 ∧
      c.front.toNat < c.back.toNat := by
  have hlt : c.front.toNat < c.back.toNat := by
    rw [UInt64.le_iff_toNat_le] at h
    have := mt UInt64.toNat_inj.1 hne
    omega
  have hback := c.back.toNat_lt_size
  have hone : (1 : UInt64) ≤ c.back := UInt64.le_iff_toNat_le.2 (show 1 ≤ c.back.toNat by omega)
  exact ⟨toNat_add_one_of_lt (by omega), UInt64.toNat_sub_of_le _ _ hone, hlt⟩

theorem within_next (h : c.front ≤ c.back) : (c.next s).2.Within c := by
  unfold next
  split
  · exact .refl h
  · next hne =>
    obtain ⟨hfront, -, hlt⟩ := toNat_ends_of_ne h hne
    refine ⟨rfl, ?_, ?_, UInt64.le_refl _⟩
    · exact UInt64.le_iff_toNat_le.2 (hfront ▸ Nat.le_succ _)
    · exact UInt64.le_iff_toNat_le.2 (hfront ▸ hlt)

theorem within_nextBack (h : c.front ≤ c.back) : (c.nextBack s).2.Within c := by
  unfold nextBack
  split
  · exact .refl h
  · next hne =>
    obtain ⟨-, hback, hlt⟩ := toNat_ends_of_ne h hne
    refine ⟨rfl, UInt64.le_refl _, ?_, ?_⟩
    · exact UInt64.le_iff_toNat_le.2 (hback ▸ Nat.le_sub_one_of_lt hlt)
    · exact UInt64.le_iff_toNat_le.2 (hback ▸ Nat.sub_le _ _)

section Walks

variable {step : Cursor → Option α × Cursor}
  (hstep : ∀ {c : Cursor}, c.front ≤ c.back → (step c).2.Within c)

include hstep

theorem within_skipToBy (n : Nat) (h : c.front ≤ c.back) : (skipToBy step n c).2.Within c := by
  induction n generalizing c with
  | zero => exact hstep h
  | succ n ih =>
    have hfirst := hstep h
    unfold skipToBy
    split
    · next heq => rwa [heq] at hfirst
    · next heq =>
      rw [heq] at hfirst
      exact (ih hfirst.front_le_back).trans hfirst

theorem within_takeBy (n : Nat) (h : c.front ≤ c.back) : (takeBy step n c).2.Within c := by
  induction n generalizing c with
  | zero => exact .refl h
  | succ n ih =>
    have hfirst := hstep h
    unfold takeBy
    split
    · next heq => rwa [heq] at hfirst
    · next heq =>
      rw [heq] at hfirst
      exact (ih hfirst.front_le_back).trans hfirst

end Walks

/-- **No call** moves a cursor back or onto another view. -/
theorem within_perform [Element α] (h : c.front ≤ c.back) (call : Call) :
    (c.perform s call).2.Within c := by
  cases call with
  | next => exact within_next h
  | nextBack => exact within_nextBack h
  | nth n => exact within_skipToBy within_next _ h
  | nthBack n => exact within_skipToBy within_nextBack _ h
  | rest => exact within_takeBy within_next _ h
  | restBack => exact within_takeBy within_nextBack _ h
  | count => exact within_takeBy within_next _ h
  | last => exact within_takeBy within_next _ h
  | length => exact .refl h
  | hint => exact .refl h
  | debug => exact .refl h

/-- A cursor stays inside its view, and its view inside the storage. -/
structure Walks (c : Cursor) (s : Store α) : Prop where
  covers : s.Covers c.view
  front_le_back : c.front ≤ c.back
  back_le_length : c.back ≤ c.view.length

theorem walks_ofView {v : View} (h : s.Covers v) : (ofView v).Walks s :=
  ⟨h, UInt64.le_iff_toNat_le.2 (Nat.zero_le _), UInt64.le_refl _⟩

theorem Walks.mono (h : c.Walks s) (hd : d.Within c) : d.Walks s := by
  refine ⟨hd.view ▸ h.covers, hd.front_le_back, ?_⟩
  rw [hd.view]
  exact UInt64.le_trans hd.back h.back_le_length

theorem isSome_tryGet (h : s.Covers c.view) {p : UInt64} (hp : p < c.view.length) :
    (s.tryGet c.view (.fromStart p)).isSome := by
  have hposition : c.view.position? (.fromStart p) = some p :=
    View.position?_eq_some_iff.2 ⟨rfl, hp⟩
  rcases Store.get_cases h (.fromStart p) with ⟨q, -, -, _, hget⟩ | ⟨hnone, -⟩
  · rw [Store.tryGet, hget]
    rfl
  · rw [hposition] at hnone
    cases hnone

theorem Walks.isSome_of_ne (h : c.Walks s) (hne : c.front ≠ c.back) :
    (c.next s).1.isSome ∧ (c.nextBack s).1.isSome := by
  obtain ⟨-, hback, hlt⟩ := toNat_ends_of_ne h.front_le_back hne
  have hlength := UInt64.le_iff_toNat_le.1 h.back_le_length
  unfold next nextBack
  rw [if_neg hne, if_neg hne]
  constructor
  · exact isSome_tryGet h.covers (UInt64.lt_iff_toNat_lt.2 (by omega))
  · exact isSome_tryGet h.covers (UInt64.lt_iff_toNat_lt.2 (by omega))

theorem Walks.of_sizes (h : c.Walks s) (hsizes : s.sizes <+: t.sizes) : c.Walks t :=
  ⟨h.covers.of_sizes hsizes, h.front_le_back, h.back_le_length⟩

end Cursor

/-! ## Answers -/

namespace Answer

variable {α : Type}

def failed : Answer α → Bool
  | .indexError _ | .fault _ | .jsonError _ => true
  | _ => false

def nested : Answer α → List (Answer α)
  | .readElement _ answers after => after :: answers
  | .readElements answers _ => answers
  | _ => []

def isPlain (a : Answer α) : Bool := !a.failed && a.nested.isEmpty

end Answer

namespace Session

variable {α : Type} {s t u : Session α} {view : View}

/-! ## Failures and changes -/

/-- The failures of each operation. -/
inductive Refuses (s : Session α) : Operation α → Answer α → Prop
  | decode {text} (e : Json.Error) : s.Refuses (.decode text) (.jsonError e)
  | get {v i view} (hv : s.views[v]? = some view) :
      s.Refuses (.get v i) (.indexError ⟨i, view.length⟩)
  | set {v i x view} (hv : s.views[v]? = some view) :
      s.Refuses (.set v i x) (.indexError ⟨i, view.length⟩)
  | setBeingRead {v i x view} (hv : s.views[v]? = some view) (h : s.store.isBeingRead view.storage) :
      s.Refuses (.set v i x) (.fault (.storageBeingRead i))
  | sliceBound {v lower upper view} (hv : s.views[v]? = some view) (i : Index) :
      s.Refuses (.slice v lower upper) (.fault (.boundOutOfRange i view.length))
  | sliceRange {v lower upper view} (hv : s.views[v]? = some view) (first last : UInt64) :
      s.Refuses (.slice v lower upper) (.fault (.rangeOutOfRange first last view.length))
  | rangeBound {v lower upper view} (hv : s.views[v]? = some view) (i : Index) :
      s.Refuses (.range v lower upper) (.fault (.boundOutOfRange i view.length))
  | rangeRange {v lower upper view} (hv : s.views[v]? = some view) (first last : UInt64) :
      s.Refuses (.range v lower upper) (.fault (.rangeOutOfRange first last view.length))
  | sliceLengthBound {v i count view} (hv : s.views[v]? = some view) :
      s.Refuses (.sliceLength v i count) (.fault (.boundOutOfRange i view.length))
  | sliceLengthExtent {v i count view} (hv : s.views[v]? = some view) (first : UInt64) :
      s.Refuses (.sliceLength v i count) (.fault (.extentOutOfRange count first view.length))

/-- The changes that operations make: none, a view of a new storage, a view inside another one, a cell
written, a cursor, or a cursor moved on. -/
inductive Change (s : Session α) : Session α → Prop
  | none : s.Change s
  | created (items : List α) : s.Change (s.create items).2
  | viewed {view w : View} (hview : view ∈ s.views) (hw : w.Within view) : s.Change (s.addView w).2
  | written (number offset : Nat) (x : α) :
      s.Change { s with store := s.store.write number offset x }
  | walked {view : View} (hview : view ∈ s.views) :
      s.Change { s with cursors := s.cursors.push (.ofView view) }
  | advanced {k : Nat} {c d : Cursor} (hc : s.cursors[k]? = some c) (hd : c.front ≤ c.back → d.Within c) :
      s.Change { s with cursors := s.cursors.setIfInBounds k d }

/-- What can come of an operation: a failure and no change, or an answer and a change. -/
inductive Came (s : Session α) (op : Operation α) : Answer α × Session α → Prop
  | refused {answer} (h : s.Refuses op answer) : s.Came op (answer, s)
  | answered {answer t} (hanswer : answer.isPlain) (h : s.Change t) : s.Came op (answer, t)

/-- Every view and every cursor stays inside its storage. -/
structure Bounded (s : Session α) : Prop where
  covers : ∀ view ∈ s.views, s.store.Covers view
  walks : ∀ c ∈ s.cursors, c.Walks s.store

theorem Bounded.covers_of_getElem? (hs : s.Bounded) {v : Nat} (hv : s.views[v]? = some view) :
    s.store.Covers view := hs.covers view (Array.mem_of_getElem? hv)

theorem bounded_empty : (empty : Session α).Bounded := by
  constructor <;> intro _ h <;> simp [empty] at h

theorem onView_eq {v : Nat} (hv : s.views[v]? = some view) (f : View → Answer α × Session α) :
    s.onView v f = f view := by
  simp only [onView, hv]

theorem ask_eq {v : Nat} (hv : s.views[v]? = some view) (f : View → Answer α) : s.ask v f = (f view, s) :=
  onView_eq hv _

theorem came_onView {op : Operation α} {v : Nat} {f : View → Answer α × Session α}
    (h : ∀ view, s.views[v]? = some view → s.Came op (f view)) : s.Came op (s.onView v f) := by
  unfold onView
  split
  · next view hview => exact h view hview
  · exact .answered rfl .none

theorem came_ask {op : Operation α} {v : Nat} {f : View → Answer α}
    (h : ∀ view, (f view).isPlain) : s.Came op (s.ask v f) :=
  came_onView fun view _ => .answered (h view) .none

theorem came_slice {op : Operation α} (hs : s.Bounded) (hview : view ∈ s.views)
    (lower upper : Bound Index)
    (hbound : ∀ i, s.Refuses op (.fault (.boundOutOfRange i view.length)))
    (hrange : ∀ first last, s.Refuses op (.fault (.rangeOutOfRange first last view.length))) :
    s.Came op (s.addViewOr (view.slice lower upper)) := by
  have hle := (hs.covers view hview).start_le_stop
  rcases View.slice_cases hle lower upper with
    ⟨first, last, -, -, hfirst, hlast, h⟩ | ⟨i, h⟩ | ⟨first, last, h⟩
  · rw [h]
    exact .answered rfl (.viewed hview (View.within_narrow hle hfirst hlast))
  · rw [h]
    exact .refused (hbound i)
  · rw [h]
    exact .refused (hrange first last)

theorem came_sliceLength (hs : s.Bounded) {v : Nat} (hv : s.views[v]? = some view) (i : Index)
    (count : UInt64) :
    s.Came (.sliceLength v i count) (s.addViewOr (view.sliceLength i count)) := by
  have hview := Array.mem_of_getElem? hv
  have hle := (hs.covers view hview).start_le_stop
  rcases View.sliceLength_cases hle i count with ⟨first, last, -, -, hfirst, hlast, h⟩ | h | ⟨first, h⟩
  · rw [h]
    exact .answered rfl (.viewed hview (View.within_narrow hle hfirst hlast))
  · rw [h]
    exact .refused (.sliceLengthBound hv)
  · rw [h]
    exact .refused (.sliceLengthExtent hv first)

/-! ## What changes keep -/

/-- One session goes on from another one: its storages have kept their lengths, its views their windows
and its cursors their views, and others may have come after them. -/
structure Extends (s t : Session α) : Prop where
  storages : s.store.sizes <+: t.store.sizes
  views : s.views.toList <+: t.views.toList
  cursors : s.cursors.toList.map (·.view) <+: t.cursors.toList.map (·.view)

theorem Extends.refl (s : Session α) : s.Extends s :=
  ⟨List.prefix_refl _, List.prefix_refl _, List.prefix_refl _⟩

theorem Extends.trans (h : s.Extends t) (h' : t.Extends u) : s.Extends u :=
  ⟨h.storages.trans h'.storages, h.views.trans h'.views, h.cursors.trans h'.cursors⟩

theorem Extends.mem_views (h : s.Extends t) (hview : view ∈ s.views) : view ∈ t.views :=
  Array.mem_toList_iff.1 (h.views.subset (Array.mem_toList_iff.2 hview))

theorem Bounded.of_sizes (hs : s.Bounded) {store : Store α} (h : s.store.sizes <+: store.sizes) :
    ({ s with store } : Session α).Bounded :=
  ⟨fun view hview => (hs.covers view hview).of_sizes h, fun c hc => (hs.walks c hc).of_sizes h⟩

theorem Bounded.push_view (hs : s.Bounded) (h : s.store.Covers view) :
    ({ s with views := s.views.push view } : Session α).Bounded := by
  refine ⟨fun w hw => ?_, hs.walks⟩
  rcases Array.mem_push.1 hw with hw | rfl
  · exact hs.covers w hw
  · exact h

theorem Bounded.push_cursor (hs : s.Bounded) {c : Cursor} (h : c.Walks s.store) :
    ({ s with cursors := s.cursors.push c } : Session α).Bounded := by
  refine ⟨hs.covers, fun d hd => ?_⟩
  rcases Array.mem_push.1 hd with hd | rfl
  · exact hs.walks d hd
  · exact h

theorem Bounded.set_cursor (hs : s.Bounded) (k : Nat) {c : Cursor} (h : c.Walks s.store) :
    ({ s with cursors := s.cursors.setIfInBounds k c } : Session α).Bounded := by
  refine ⟨hs.covers, fun d hd => ?_⟩
  rcases Array.mem_or_eq_of_mem_setIfInBounds hd with hd | rfl
  · exact hs.walks d hd
  · exact h

theorem Bounded.of_change (hs : s.Bounded) (h : s.Change t) : t.Bounded := by
  cases h with
  | none => exact hs
  | created items =>
    have hsizes : s.store.sizes <+: (s.store.allocate items.toArray).2.sizes :=
      Store.sizes_allocate s.store _ ▸ List.prefix_append _ _
    exact (hs.of_sizes hsizes).push_view (s.store.covers_allocate items.toArray)
  | viewed hview hw => exact hs.push_view ((hs.covers _ hview).mono hw)
  | written number offset x => exact hs.of_sizes (by rw [Store.sizes_write])
  | walked hview => exact hs.push_cursor (Cursor.walks_ofView (hs.covers _ hview))
  | advanced hc hd =>
    have hwalks := hs.walks _ (Array.mem_of_getElem? hc)
    exact hs.set_cursor _ (hwalks.mono (hd hwalks.front_le_back))

theorem Bounded.extends_of_change (hs : s.Bounded) (h : s.Change t) : s.Extends t := by
  cases h with
  | none => exact .refl s
  | created items =>
    refine ⟨?_, ?_, List.prefix_refl _⟩
    · show s.store.sizes <+: (s.store.allocate items.toArray).2.sizes
      rw [Store.sizes_allocate]
      exact List.prefix_append _ _
    · simp [create, addView]
  | viewed hview hw => exact ⟨List.prefix_refl _, by simp [addView], List.prefix_refl _⟩
  | written number offset x =>
    exact ⟨by simp [Store.sizes_write], List.prefix_refl _, List.prefix_refl _⟩
  | walked hview => exact ⟨List.prefix_refl _, List.prefix_refl _, by simp⟩
  | @advanced k c d hc hd =>
    -- the cursor that moved is on the same view, so the list of views is set to what it was
    refine ⟨List.prefix_refl _, List.prefix_refl _, ?_⟩
    have hview := (hd (hs.walks _ (Array.mem_of_getElem? hc)).front_le_back).view
    have hk : (s.cursors.toList.map (·.view))[k]? = some d.view := by simp [hc, hview]
    obtain ⟨hlt, hget⟩ := List.getElem?_eq_some_iff.1 hk
    rw [Array.toList_setIfInBounds, List.map_set, ← hget, List.set_getElem_self]

variable [BEq α] [Element α]

/-- **What can come of a step** from a bounded session. -/
theorem Bounded.came_perform (hs : s.Bounded) (op : Operation α) : s.Came op (s.perform op) := by
  cases op with
  | create items => exact .answered rfl (.created items)
  | decode text =>
    simp only [perform]
    split
    · next items _ => exact .answered rfl (.created items)
    · next e _ => exact .refused (.decode e)
  | copy v =>
    apply came_onView
    intro view hv
    have hle := (hs.covers_of_getElem? hv).start_le_stop
    exact .answered rfl (.viewed (Array.mem_of_getElem? hv) (.refl hle))
  | slice v lower upper =>
    apply came_onView
    intro view hv
    exact came_slice hs (Array.mem_of_getElem? hv) _ _ (.sliceBound hv) (.sliceRange hv)
  | range v lower upper =>
    apply came_onView
    intro view hv
    exact came_slice hs (Array.mem_of_getElem? hv) _ _ (.rangeBound hv) (.rangeRange hv)
  | sliceLength v i count =>
    apply came_onView
    intro view hv
    exact came_sliceLength hs hv i count
  | get v i =>
    apply came_onView
    intro view hv
    show s.Came (.get v i) (.ofAccess (s.store.get view i), s)
    rcases Store.get_cases (hs.covers_of_getElem? hv) i with ⟨p, -, -, _, h⟩ | ⟨-, h⟩
    · rw [h]
      exact .answered rfl .none
    · rw [h]
      exact .refused (.get hv)
  | set v i x =>
    apply came_onView
    intro view hv
    rcases Store.set_cases (hs.covers_of_getElem? hv) i x with
      ⟨p, -, -, _, h⟩ | ⟨-, h⟩ | ⟨-, hread, h⟩
    · rw [h]
      exact .answered rfl (.written _ _ x)
    · rw [h]
      exact .refused (.set hv)
    · rw [h]
      exact .refused (.setBeingRead hv hread)
  | tryGet v i => exact came_ask fun _ => rfl
  | canGet v i => exact came_ask fun _ => rfl
  | length v => exact came_ask fun _ => rfl
  | isEmpty v => exact came_ask fun _ => rfl
  | rawRange v => exact came_ask fun _ => rfl
  | elements v => exact came_ask fun _ => rfl
  | allElements => exact .answered rfl .none
  | sharesStorage v w => exact came_onView fun _ _ => came_ask fun _ => rfl
  | equal v w => exact came_onView fun _ _ => came_ask fun _ => rfl
  | equalItems v items => exact came_ask fun _ => rfl
  | distinct views => exact .answered rfl .none
  | debug v => exact came_ask fun _ => rfl
  | pretty v => exact came_ask fun _ => rfl
  | encode v => exact came_ask fun _ => rfl
  | walk v =>
    apply came_onView
    intro view hv
    exact .answered rfl (.walked (Array.mem_of_getElem? hv))
  | advance k call =>
    simp only [perform]
    split
    · exact .answered rfl .none
    · next c hc =>
      refine .answered ?_ (.advanced hc fun h => Cursor.within_perform h call)
      cases call <;> rfl

/-- **A step** leads from a bounded session to a bounded one that extends it. -/
theorem Bounded.perform (hs : s.Bounded) (op : Operation α) :
    (s.perform op).2.Bounded ∧ s.Extends (s.perform op).2 := by
  have hcame := hs.came_perform op
  generalize s.perform op = r at hcame
  cases hcame with
  | refused => exact ⟨hs, .refl s⟩
  | answered _ h => exact ⟨hs.of_change h, hs.extends_of_change h⟩

/-- **A step that fails** fails in a known way and changes nothing. -/
theorem Bounded.refuses_of_failed (hs : s.Bounded) (op : Operation α)
    (h : (s.perform op).1.failed = true) :
    s.Refuses op (s.perform op).1 ∧ (s.perform op).2 = s := by
  have hcame := hs.came_perform op
  generalize s.perform op = r at h hcame
  cases hcame with
  | refused hrefuses => exact ⟨hrefuses, rfl⟩
  | answered hanswer => simp [Answer.isPlain, h] at hanswer

end Session

end CanonicalText
