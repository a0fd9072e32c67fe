import Mathlib
import CanonicalText.Proofs.View.Encoding

/-!
# Equal views

Views are compared by what they show, and lists of items with them. Where their storages are and how much of them is
in view makes no difference. A view of floating point numbers that shows one that is no number is not equal to
itself.

* `Sequence.equal_iff` : sequences are equal element by element;
* `Store.KeepsOne` : what a hash set keeps, `Store.ncard_hashSet` : how many views that are;
* `Session.ComparesElements`, `Session.ComparesNumbers` : comparisons in a session;
* `equality_is_structural` : comparisons wherever a path leads.
-/

namespace CanonicalText

/-! ## Floating point numbers -/

namespace Binary64

theorem beq_iff {x y : Binary64} :
    (x == y) = true ↔ x.isNaN = false ∧ y.isNaN = false ∧ (x = y ∨ x.isZero = true ∧ y.isZero = true) := by
  have hbits : x.bits = y.bits ↔ x = y := ⟨fun h => by cases x; cases y; cases h; rfl, fun h => h ▸ rfl⟩
  show (!x.isNaN && !y.isNaN && (x.bits == y.bits || x.isZero && y.isZero)) = true ↔ _
  simp only [Bool.and_eq_true, Bool.or_eq_true, Bool.not_eq_true', beq_iff_eq, hbits, and_assoc]

theorem isNaN_of_isZero {x : Binary64} (h : x.isZero = true) : x.isNaN = false := by
  have hzero : x.unsigned = 0 := beq_iff_eq.1 h
  rw [isNaN, hzero]
  exact decide_eq_false (Nat.not_lt_zero _)

instance : PartialEquivBEq Binary64 where
  symm {x y} h := by
    rw [beq_comm]
    exact h
  trans {x y z} hxy hyz := by
    obtain ⟨hx, -, hxy⟩ := beq_iff.1 hxy
    obtain ⟨-, hz, hyz⟩ := beq_iff.1 hyz
    refine beq_iff.2 ⟨hx, hz, ?_⟩
    rcases hxy with rfl | ⟨hx, hy⟩
    · exact hyz
    · rcases hyz with rfl | ⟨-, hz⟩
      · exact .inr ⟨hx, hy⟩
      · exact .inr ⟨hx, hz⟩

end Binary64

/-! ## Sequences -/

namespace Sequence

variable {α : Type} [BEq α] {a b c : Sequence α}

theorem beq_iff_forall₂ (xs ys : List α) : (xs == ys) = true ↔ List.Forall₂ (fun x y => (x == y) = true) xs ys := by
  induction xs generalizing ys with
  | nil => cases ys <;> simp
  | cons x xs ih => cases ys <;> simp [ih]

theorem equal_iff : a.equal b = true ↔
    a.length = b.length ∧ List.Forall₂ (fun x y => (x == y) = true) a.elements b.elements := by
  rw [equal, Bool.and_eq_true, beq_iff_eq, beq_iff_forall₂]

theorem equal_iff_eq [LawfulBEq α] : a.equal b = true ↔ a = b := by
  rw [equal, Bool.and_eq_true, beq_iff_eq, beq_iff_eq]
  cases a
  cases b
  rw [mk.injEq]

theorem equal_comm [PartialEquivBEq α] (a b : Sequence α) : a.equal b = b.equal a := by
  have hsymm : ∀ {a b : Sequence α}, a.equal b = true → b.equal a = true := by
    intro a b h
    obtain ⟨hlength, helements⟩ := equal_iff.1 h
    exact equal_iff.2 ⟨hlength.symm, helements.flip.imp fun _ _ hxy => BEq.symm hxy⟩
  exact Bool.eq_iff_iff.2 ⟨hsymm, hsymm⟩

end Sequence

/-! ## Hash sets -/

namespace Store

variable {α : Type} {s : Store α} {kept views : List View} {v w : View}

theorem sequence_eq_iff (hv : s.Covers v) (hw : s.Covers w) :
    s.sequence v = s.sequence w ↔ s.elements v = s.elements w := by
  rw [sequence, sequence, Sequence.mk.injEq, and_iff_right_iff_imp]
  intro h
  rw [← UInt64.toNat_inj, ← length_elements hv, ← length_elements hw, h]

/-- Of views that show the same elements one is kept. -/
structure KeepsOne (s : Store α) (kept views : List View) : Prop where
  subset : kept ⊆ views
  nodup : (kept.map s.elements).Nodup
  complete : ∀ v ∈ views, s.elements v ∈ kept.map s.elements

theorem KeepsOne.nil : s.KeepsOne [] [] :=
  ⟨List.Subset.refl _, List.nodup_nil, fun _ h => absurd h List.not_mem_nil⟩

variable [BEq α] [LawfulBEq α] (hash : List α → UInt64)

theorem equal_iff (hv : s.Covers v) (hw : s.Covers w) : s.equal v w = true ↔ s.elements v = s.elements w := by
  rw [equal, Sequence.equal_iff_eq, sequence_eq_iff hv hw]

/-- A view is kept out of a hash set if what it shows is shown already. -/
theorem insertView_eq (hkept : ∀ w ∈ kept, s.Covers w) (hv : s.Covers v) :
    s.insertView hash kept v = if s.elements v ∈ kept.map s.elements then kept else kept ++ [v] := by
  have hany : (kept.any fun w => hash (s.elements w) == hash (s.elements v) && s.equal w v) = true ↔
      s.elements v ∈ kept.map s.elements := by
    rw [List.any_eq_true, List.mem_map]
    refine exists_congr fun w => and_congr_right fun hw => ?_
    rw [Bool.and_eq_true, equal_iff (hkept w hw) hv, and_iff_right_iff_imp]
    intro h
    rw [h, beq_self_eq_true]
  unfold insertView
  simp only [hany]

theorem KeepsOne.insertView (h : s.KeepsOne kept views) (hviews : ∀ w ∈ views, s.Covers w) (hv : s.Covers v) :
    s.KeepsOne (s.insertView hash kept v) (views ++ [v]) := by
  rw [insertView_eq hash (fun w hw => hviews w (h.subset hw)) hv]
  split
  · next hmem =>
    refine ⟨fun w hw => List.mem_append_left _ (h.subset hw), h.nodup, fun w hw => ?_⟩
    rcases List.mem_append.1 hw with hw | hw
    · exact h.complete w hw
    · rw [List.mem_singleton.1 hw]
      exact hmem
  · next hmem =>
    refine ⟨fun w hw => ?_, ?_, fun w hw => ?_⟩
    · rcases List.mem_append.1 hw with hw | hw
      · exact List.mem_append_left _ (h.subset hw)
      · exact List.mem_append_right _ hw
    · rw [List.map_append, List.map_singleton]
      refine List.nodup_append.2 ⟨h.nodup, List.nodup_singleton _, fun xs hxs ys hys heq => ?_⟩
      rw [List.mem_singleton.1 hys] at heq
      exact hmem (heq ▸ hxs)
    · rw [List.map_append, List.map_singleton, List.mem_append]
      rcases List.mem_append.1 hw with hw | hw
      · exact .inl (h.complete w hw)
      · rw [List.mem_singleton.1 hw]
        exact .inr List.mem_cons_self

theorem keepsOne_hashSet (hviews : ∀ w ∈ views, s.Covers w) : s.KeepsOne (s.hashSet hash views) views := by
  induction views using List.reverseRecOn with
  | nil => exact .nil
  | append_singleton views v ih =>
    have hbefore : ∀ w ∈ views, s.Covers w := fun w hw => hviews w (List.mem_append_left _ hw)
    rw [hashSet, List.foldl_append]
    exact (ih hbefore).insertView hash hbefore (hviews v (List.mem_append_right _ List.mem_cons_self))

/-- **A hash set keeps as many views** as there are different lists of elements, whatever their hashes are. -/
theorem ncard_hashSet (hviews : ∀ w ∈ views, s.Covers w) :
    (s.hashSet hash views).length = {xs | ∃ v ∈ views, s.elements v = xs}.ncard := by
  classical
  have hkept := keepsOne_hashSet hash hviews
  have hset : {xs | ∃ v ∈ views, s.elements v = xs} = ((s.hashSet hash views).map s.elements).toFinset := by
    ext xs
    rw [List.coe_toFinset, Set.mem_ofPred_eq, Set.mem_ofPred_eq]
    constructor
    · rintro ⟨v, hv, rfl⟩
      exact hkept.complete v hv
    · intro hxs
      obtain ⟨v, hv, rfl⟩ := List.mem_map.1 hxs
      exact ⟨v, hkept.subset hv, rfl⟩
  rw [hset, Set.ncard_coe_finset, List.toFinset_card_of_nodup hkept.nodup, List.length_map]

end Store

/-! ## Sessions -/

namespace Session

variable {α : Type} [BEq α] {s : Session α}

theorem Bounded.length_hashSet [LawfulBEq α] (hs : s.Bounded) (hash : List α → UInt64) (views : List Nat) :
    (s.store.hashSet hash (views.filterMap (s.views[·]?))).length =
      {xs | ∃ v ∈ views, ∃ a, s.views[v]? = some a ∧ s.store.elements a = xs}.ncard := by
  rw [Store.ncard_hashSet]
  · congr 1
    ext xs
    simp only [List.mem_filterMap, Set.mem_ofPred_eq]
    constructor
    · rintro ⟨a, ⟨v, hv, ha⟩, hxs⟩
      exact ⟨v, hv, a, ha, hxs⟩
    · rintro ⟨v, hv, a, ha, hxs⟩
      exact ⟨a, ⟨v, hv, ha⟩, hxs⟩
  · intro a ha
    obtain ⟨v, -, hv⟩ := List.mem_filterMap.1 ha
    exact hs.covers_of_getElem? hv

variable [Element α]

/-- How views of elements are compared for which equality is sameness. -/
structure ComparesElements (s : Session α) : Prop where
  /-- Views are equal, either way round, just if they are of one length and show the same elements in order. -/
  equal_iff : ∀ {v w : Nat} {a b : View}, s.views[v]? = some a → s.views[w]? = some b →
    ∃ same, s.perform (.equal v w) = (.bothWays same same, s) ∧
      (same = true ↔ a.length = b.length ∧ s.store.elements a = s.store.elements b)
  refl : ∀ a ∈ s.views, s.store.equal a a = true
  symm : ∀ a ∈ s.views, ∀ b ∈ s.views, s.store.equal a b = true → s.store.equal b a = true
  trans : ∀ a ∈ s.views, ∀ b ∈ s.views, ∀ c ∈ s.views,
    s.store.equal a b = true → s.store.equal b c = true → s.store.equal a c = true
  /-- Items compare with a view, either way round, as a new view of them does. -/
  equalItems : ∀ {v : Nat} {a : View} (items : List α), s.views[v]? = some a → items.length < UInt64.size →
    ∃ same, s.perform (.equalItems v items) = (.truth same, s) ∧
      (Sequence.ofList items).equal (s.store.sequence a) = same ∧
      let t := (s.perform (.create items)).2
      t.perform (.equal v s.views.size) = (.bothWays same same, t) ∧
      t.perform (.equal s.views.size v) = (.bothWays same same, t)
  /-- A hash set keeps as many views as there are different lists of elements, whatever their hashes are. -/
  distinct : ∀ views : List Nat,
    let count := {xs | ∃ v ∈ views, ∃ a, s.views[v]? = some a ∧ s.store.elements a = xs}.ncard
    s.perform (.distinct views) = (.count count, s) ∧
      ∀ hash, (s.store.hashSet hash (views.filterMap (s.views[·]?))).length = count

theorem perform_equal [PartialEquivBEq α] {v w : Nat} {a b : View} (ha : s.views[v]? = some a)
    (hb : s.views[w]? = some b) :
    s.perform (.equal v w) = (.bothWays (s.store.equal a b) (s.store.equal a b), s) := by
  have hback : s.store.equal b a = s.store.equal a b := Sequence.equal_comm _ _
  refine (onView_eq ha _).trans ((ask_eq hb _).trans ?_)
  rw [hback]

theorem Bounded.perform_equalItems [PartialEquivBEq α] (hs : s.Bounded) {v : Nat} {a : View} (items : List α)
    (ha : s.views[v]? = some a) (hitems : items.length < UInt64.size) :
    let same := s.store.showsOnly a items
    let t := (s.perform (.create items)).2
    s.perform (.equalItems v items) = (.truth same, s) ∧ (Sequence.ofList items).equal (s.store.sequence a) = same ∧
      t.perform (.equal v s.views.size) = (.bothWays same same, t) ∧
      t.perform (.equal s.views.size v) = (.bothWays same same, t) := by
  intro same t
  obtain ⟨-, hnew, hcopy⟩ := s.create_new hitems
  obtain ⟨hold, -, helements⟩ := hs.create_old items ha
  set copy : View := ⟨s.store.storages.size, 0, UInt64.ofNat items.length⟩
  have hsequence : t.store.sequence a = s.store.sequence a := congrArg (Sequence.mk a.length) helements
  have hitems : t.store.sequence copy = .ofList items :=
    Sequence.mk.injEq .. |>.mpr ⟨UInt64.sub_zero _, hcopy⟩
  have hforth : t.store.equal a copy = same := by
    rw [Store.equal, hsequence, hitems]
    rfl
  have hback : t.store.equal copy a = same := (Sequence.equal_comm _ _).trans hforth
  refine ⟨?_, Sequence.equal_comm _ _, ?_, ?_⟩
  · exact ask_eq ha _
  · rw [perform_equal (s := t) hold hnew, hforth]
  · rw [perform_equal (s := t) hnew hold, hback]

theorem Bounded.comparesElements [LawfulBEq α] (hs : s.Bounded) : s.ComparesElements where
  equal_iff {v w a b} ha hb := by
    refine ⟨_, perform_equal ha hb, ?_⟩
    rw [Store.equal, Sequence.equal_iff_eq, Store.sequence, Store.sequence, Sequence.mk.injEq]
  refl a _ := Sequence.equal_iff_eq.2 rfl
  symm a _ b _ hab := by
    rw [Store.equal, Sequence.equal_comm]
    exact hab
  trans a _ b _ c _ hab hbc :=
    Sequence.equal_iff_eq.2 ((Sequence.equal_iff_eq.1 hab).trans (Sequence.equal_iff_eq.1 hbc))
  equalItems items ha hitems := ⟨_, hs.perform_equalItems items ha hitems⟩
  distinct views := by
    refine ⟨?_, fun hash => hs.length_hashSet hash views⟩
    rw [← hs.length_hashSet (fun _ => 0) views]
    rfl

/-- How views of floating point numbers are compared. -/
structure ComparesNumbers (s : Session Binary64) : Prop where
  /-- Views are equal, either way round, just if they are of one length and their numbers are equal in order. -/
  equal_iff : ∀ {v w : Nat} {a b : View}, s.views[v]? = some a → s.views[w]? = some b →
    ∃ same, s.perform (.equal v w) = (.bothWays same same, s) ∧ (same = true ↔
      a.length = b.length ∧ List.Forall₂ (fun x y => (x == y) = true) (s.store.elements a) (s.store.elements b))
  /-- A view is equal to itself just if it shows nothing that is no number. -/
  self_iff : ∀ {v : Nat} {a : View}, s.views[v]? = some a →
    ∃ same, s.perform (.equal v v) = (.bothWays same same, s) ∧
      (same = true ↔ ∀ x ∈ s.store.elements a, x.isNaN = false)
  /-- The signs of zeros make no difference. -/
  zeros : ∀ {v w : Nat} {a b : View}, s.views[v]? = some a → s.views[w]? = some b →
    List.Forall₂ (fun x y => x = y ∨ x.isZero = true ∧ y.isZero = true) (s.store.elements a) (s.store.elements b) →
    ∃ same, s.perform (.equal v w) = (.bothWays same same, s) ∧
      (same = true ↔ ∀ x ∈ s.store.elements a, x.isNaN = false)

theorem forall₂_beq_iff {xs ys : List Binary64}
    (h : List.Forall₂ (fun x y => x = y ∨ x.isZero = true ∧ y.isZero = true) xs ys) :
    List.Forall₂ (fun x y => (x == y) = true) xs ys ↔ ∀ x ∈ xs, x.isNaN = false := by
  induction h with
  | nil => simp
  | @cons x y xs ys hxy _ ih =>
    rw [List.forall₂_cons, ih, List.forall_mem_cons, and_congr_left_iff]
    intro _
    refine ⟨fun h => (Binary64.beq_iff.1 h).1, fun hx => Binary64.beq_iff.2 ⟨hx, ?_, hxy⟩⟩
    rcases hxy with rfl | ⟨-, hy⟩
    · exact hx
    · exact Binary64.isNaN_of_isZero hy

theorem Bounded.comparesNumbers {s : Session Binary64} (hs : s.Bounded) : s.ComparesNumbers where
  equal_iff ha hb := ⟨_, perform_equal ha hb, Sequence.equal_iff⟩
  self_iff {v a} ha := by
    refine ⟨_, perform_equal ha ha, ?_⟩
    rw [Store.equal, Sequence.equal_iff, and_iff_right rfl]
    exact forall₂_beq_iff (List.forall₂_same.2 fun _ _ => .inl rfl)
  zeros {v w a b} ha hb hzeros := by
    have hlength : a.length = b.length := by
      rw [← UInt64.toNat_inj, ← Store.length_elements (hs.covers a (Array.mem_of_getElem? ha)),
        ← Store.length_elements (hs.covers b (Array.mem_of_getElem? hb)), hzeros.length_eq]
    refine ⟨_, perform_equal ha hb, ?_⟩
    rw [Store.equal, Store.sequence, Store.sequence, Sequence.equal_iff, and_iff_right hlength]
    exact forall₂_beq_iff hzeros

end Session

/-- **Views are equal if they show the same.** Wherever a path leads, this decides on comparisons of views, of views
with items and on what a hash set keeps. For floating point numbers it is the equality of numbers that counts. -/
theorem equality_is_structural :
    (∀ (α : Type) [BEq α] [LawfulBEq α] [Element α] (path : List (Move α)),
      (Point.start.after path).session.ComparesElements) ∧
    ∀ path : List (Move Binary64), (Point.start.after path).session.ComparesNumbers :=
  ⟨fun _ _ _ _ path => (Point.bounded_after Session.bounded_empty path).comparesElements,
    fun path => (Point.bounded_after Session.bounded_empty path).comparesNumbers⟩

/-- Two views of different storages and offsets that show a two and a three. Among the four views there are three
different lists, whatever they hash to. -/
theorem equality_is_structural_of_windows :
    let path : List (Move Int64) := [.perform (.create [9, 2, 3]), .perform (.range 0 (.included 1) .unbounded),
      .perform (.create [2, 3, 9, 9]), .perform (.range 2 .unbounded (.excluded 2))]
    let s := (Point.start.after path).session
    s.views.toList = [⟨0, 0, 3⟩, ⟨0, 1, 3⟩, ⟨1, 0, 4⟩, ⟨1, 0, 2⟩] ∧
      s.perform (.equal 1 3) = (.bothWays true true, s) ∧
      ∀ hash, (s.store.hashSet hash [⟨0, 0, 3⟩, ⟨0, 1, 3⟩, ⟨1, 0, 4⟩, ⟨1, 0, 2⟩]).length = 3 := by
  intro path s
  have hcount : s.store.distinct [⟨0, 0, 3⟩, ⟨0, 1, 3⟩, ⟨1, 0, 4⟩, ⟨1, 0, 2⟩] = 3 := by decide +kernel +revert
  have hs := equality_is_structural.1 Int64 path
  obtain ⟨same, hperform, hsame⟩ := hs.equal_iff (v := 1) (w := 3) (a := ⟨0, 1, 3⟩) (b := ⟨1, 0, 2⟩) rfl rfl
  obtain ⟨-, hhash⟩ := hs.distinct [0, 1, 2, 3]
  obtain rfl := hsame.2 ⟨rfl, rfl⟩
  exact ⟨rfl, hperform, fun hash => (hhash hash).trans ((hhash fun _ => 0).symm.trans hcount)⟩

end CanonicalText
