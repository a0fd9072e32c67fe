import Mathlib
import CanonicalText.Proofs.View.Guard

/-!
# Views of one storage

What is written through one view is read through every other view of the storage that reaches the cell, and
nothing else changes. Which views share a storage is a matter of how they were made, not of what they show.

* `Point.Rooted` : views share a storage just if they go back to the same view that was made with one;
* `Point.set_writes_through` : what can be read after a write.
-/

namespace CanonicalText

variable {α : Type}

/-! ## Where views come from -/

/-- Two lists have equal entries at the same places. -/
structure SamePattern (xs ys : List Nat) : Prop where
  length : xs.length = ys.length
  iff : ∀ i j : Nat, xs[i]? = xs[j]? ↔ ys[i]? = ys[j]?

theorem SamePattern.concat {xs ys : List Nat} {x y : Nat} (h : SamePattern xs ys)
    (hxy : ∀ i : Nat, xs[i]? = some x ↔ ys[i]? = some y) : SamePattern (xs ++ [x]) (ys ++ [y]) := by
  refine ⟨by simp [h.length], fun i j => ?_⟩
  have hnone : ∀ k : Nat, xs[k]? = none ↔ ys[k]? = none := by simp [h.length]
  simp only [List.getElem?_append, List.getElem?_singleton, ← h.length]
  by_cases hi : i < xs.length <;> by_cases hj : j < xs.length <;> simp only [hi, hj, if_true, if_false]
  · exact h.iff i j
  · split
    · exact hxy i
    · exact hnone i
  · rw [eq_comm, eq_comm (b := ys[j]?)]
    split
    · exact hxy j
    · exact hnone j
  · split <;> split <;> simp

def Session.storageNumbers (s : Session α) : List Nat := s.views.toList.map (·.storage)

theorem Session.Bounded.lt_of_mem_storageNumbers {s : Session α} (hs : s.Bounded) {n : Nat}
    (hn : n ∈ s.storageNumbers) : n < s.store.storages.size := by
  obtain ⟨view, hview, rfl⟩ := List.mem_map.1 hn
  exact (hs.covers view (Array.mem_toList_iff.1 hview)).stored

namespace Point

/-- Each view has an origin, and two views have the same one just if they have the same storage. -/
structure Rooted (here : Point α) : Prop where
  bounded : here.session.Bounded
  pattern : SamePattern here.session.storageNumbers here.origins
  lt_length : ∀ o ∈ here.origins, o < here.origins.length

variable {here : Point α}

theorem rooted_start : (start : Point α).Rooted :=
  ⟨Session.bounded_empty, ⟨rfl, by simp [start, Session.empty, Session.storageNumbers]⟩,
    by simp [start]⟩

/-- Views share their storage just if they have the same origin. -/
theorem Rooted.sharesStorage_iff (h : here.Rooted) {v w : Nat} {a b : View}
    (ha : here.session.views[v]? = some a) (hb : here.session.views[w]? = some b) :
    a.sharesStorage b = true ↔ here.origins[v]? = here.origins[w]? := by
  rw [← h.pattern.iff]
  simp [View.sharesStorage, Session.storageNumbers, ha, hb]

theorem originsAfter_of_not_isMade {answer : Answer α} (h : answer.isMade = false) (origins : List Nat)
    (parent : Option Nat) : originsAfter origins parent answer = origins := by
  cases answer with
  | made => cases h
  | _ => rfl

theorem Rooted.push (h : here.Rooted) {t : Session α} (ht : t.Bounded) {n o : Nat}
    (hviews : t.storageNumbers = here.session.storageNumbers ++ [n])
    (hiff : ∀ i : Nat, here.session.storageNumbers[i]? = some n ↔ here.origins[i]? = some o)
    (ho : o ≤ here.origins.length) : Rooted ⟨here.lent, here.origins ++ [o], t⟩ := by
  refine ⟨ht, ?_, ?_⟩
  · show SamePattern t.storageNumbers _
    rw [hviews]
    exact h.pattern.concat hiff
  · intro o' ho'
    show o' < (here.origins ++ [o]).length
    rw [List.length_append, List.length_singleton]
    rcases List.mem_append.1 ho' with ho' | ho'
    · exact (h.lt_length o' ho').trans (Nat.lt_succ_self _)
    · rw [List.mem_singleton.1 ho']
      exact Nat.lt_succ_of_le ho

variable [BEq α] [Element α]

theorem Rooted.perform (h : here.Rooted) (op : Operation α) :
    Rooted ⟨here.lent, originsAfter here.origins op.parent? (here.session.perform op).1,
      (here.session.perform op).2⟩ := by
  have hlength : here.session.views.size = here.origins.length := by
    rw [← h.pattern.length]
    simp [Session.storageNumbers]
  have heffect := h.bounded.effect_perform op
  have hbounded := (h.bounded.perform op).1
  generalize here.session.perform op = r at heffect hbounded
  cases heffect with
  | created items hparent _ =>
    -- neither the storage nor the origin has been there before
    rw [hparent]
    refine h.push (n := here.session.store.storages.size) (o := here.session.views.size) hbounded ?_ ?_
      hlength.le
    · simp [Session.create, Session.addView, Store.allocate, Session.storageNumbers]
    · intro i
      constructor
      · intro hi
        exact absurd (h.bounded.lt_of_mem_storageNumbers (List.mem_of_getElem? hi)) (lt_irrefl _)
      · intro hi
        have := h.lt_length _ (List.mem_of_getElem? hi)
        omega
  | @viewed v view w hparent hv hw _ =>
    have hstorage : here.session.storageNumbers[v]? = some w.storage := by
      simp [Session.storageNumbers, hv, hw]
    have hlt : v < here.origins.length := by
      rw [← hlength]
      exact (Array.getElem?_eq_some_iff.1 hv).1
    have horigin : here.origins[v]? = some here.origins[v] := List.getElem?_eq_getElem hlt
    have hadd : originsAfter here.origins op.parent? (here.session.addView w).1 =
        here.origins ++ [here.origins[v]] := by
      rw [hparent]
      simp [Session.addView, originsAfter, horigin]
    rw [hadd]
    refine h.push (n := w.storage) hbounded ?_ ?_ (h.lt_length _ (List.mem_of_getElem? horigin)).le
    · simp [Session.addView, Session.storageNumbers]
    · intro i
      rw [← hstorage, ← horigin]
      exact h.pattern.iff i v
  | written hanswer _ =>
    rw [originsAfter_of_not_isMade hanswer]
    exact ⟨hbounded, h.pattern, h.lt_length⟩
  | kept cursors hanswer _ =>
    rw [originsAfter_of_not_isMade hanswer]
    exact ⟨hbounded, h.pattern, h.lt_length⟩

theorem Rooted.move (h : here.Rooted) (m : Move α) : (here.move m).Rooted := by
  apply move_cases (P := fun _ there => there.Rooted)
  · exact h.perform
  · intro _ view
    exact ⟨h.bounded.enter view, h.pattern, h.lt_length⟩
  · exact fun _ => h
  · intro view _ _
    exact ⟨h.bounded.leave view, h.pattern, h.lt_length⟩
  · exact h

/-- **Every path keeps the origins**. -/
theorem Rooted.after (h : here.Rooted) (path : List (Move α)) : (here.after path).Rooted :=
  after_keeps (fun _ m h => h.move m) h path

end Point

/-! ## What can be read after a write -/

namespace Session

variable {s t : Session α} {w : View}

/-- A view is read through in a session: it is one of its views, or a cursor walks it. -/
def Reads (s : Session α) (w : View) : Prop := w ∈ s.views ∨ ∃ c ∈ s.cursors, c.view = w

theorem Bounded.covers_of_reads (hs : s.Bounded) (hw : s.Reads w) : s.store.Covers w := by
  rcases hw with hw | ⟨c, hc, rfl⟩
  · exact hs.covers w hw
  · exact (hs.walks c hc).covers

theorem Extends.covers_of_covers (h : s.Extends t) (hw : t.store.Covers w)
    (hn : w.storage < s.store.storages.size) : s.store.Covers w := by
  obtain ⟨hle, n, hn', hstop⟩ := Store.covers_iff_sizes.1 hw
  have hlt : w.storage < s.store.sizes.length := by simpa [Store.sizes] using hn
  refine Store.covers_iff_sizes.2 ⟨hle, n, ?_, hstop⟩
  rw [← hn', List.getElem?_eq_getElem hlt, List.prefix_iff_getElem?.1 h.storages _ hlt]

end Session

namespace Point

variable [BEq α] [Element α]

/-- **A write reaches the views of its storage and nothing else.** From then on, whatever reads a cell finds what
was last written there, by a later write or this one, or what was there before. Views share their storage just if
they were made from the same view that was made with a storage. -/
theorem set_writes_through (path : List (Move α)) :
    let here := (start : Point α).after path
    let s := here.session
    (∀ v view i x, s.views[v]? = some view →
      (i.element? view.length.toNat = none →
        s.perform (.set v i x) = (.indexError ⟨i, view.length⟩, s)) ∧
      ∀ p, i.element? view.length.toNat = some p → here.openOn view.storage = 0 →
        let there := here.move (.perform (.set v i x))
        let t := there.session
        s.perform (.set v i x) = (.allElements t.allElements, t) ∧
        t.views = s.views ∧ t.cursors = s.cursors ∧
        ∀ more w q, (there.after more).session.Reads w → w.storage < s.store.storages.size →
          q < w.length.toNat →
          let later := Write.last? (there.writes more) w.storage (w.start.toNat + q)
          ∃ y, s.Shows w q y ∧ (there.after more).session.Shows w q (later.getD
            (if w.storage = view.storage ∧ w.start.toNat + q = view.start.toNat + p then x else y))) ∧
    ∀ (v w : Nat) (a b : View), s.views[v]? = some a → s.views[w]? = some b →
      (a.sharesStorage b = true ↔ here.origins[v]? = here.origins[w]?) := by
  intro here s
  have htracks : here.Tracks := tracks_start.after path
  have hrooted : here.Rooted := rooted_start.after path
  refine ⟨fun v view i x hv => ⟨fun hi => ?_, ?_⟩, fun v w a b ha hb => hrooted.sharesStorage_iff ha hb⟩
  · exact Session.perform_set_of_none hv hi
  · intro p hi hopen there t
    obtain ⟨hwrite, hset⟩ := htracks.perform_set_of_not_open (x := x) hv hi hopen
    have ht : t = (s.perform (.set v i x)).2 := rfl
    refine ⟨?_, ?_, ?_, fun more w q hw hn hq => ?_⟩
    · rw [ht, hset]
    · rw [ht, hset]
    · rw [ht, hset]
    · intro later
      have hbounded := bounded_after (bounded_move htracks.bounded (.perform (.set v i x))) more
      have hextends := extends_after htracks.bounded (.perform (.set v i x) :: more)
      have hcovers := hbounded.covers_of_reads hw
      have hcovered := hextends.covers_of_covers hcovers hn
      obtain ⟨y, hy⟩ := Option.isSome_iff_exists.1 (Store.isSome_cell? hcovered hq)
      refine ⟨y, (htracks.bounded.shows_iff hcovered hq).2 hy, (hbounded.shows_iff hcovers hq).2 ?_⟩
      have hcell := cell?_after htracks.bounded hn (w.start.toNat + q) (.perform (.set v i x) :: more)
      have hfirst : here.write? (.perform (.set v i x)) =
          some ⟨view.storage, view.start.toNat + p, x⟩ := hwrite
      rw [hy, Option.map_some, writes, hfirst, Write.last?_append] at hcell
      refine hcell.trans (congrArg some ?_)
      show (later.or _).getD y = later.getD _
      cases later with
      | some z => rfl
      | none => exact Write.getD_last?_singleton ..

/-- Two storages of equal elements. A write through a nested view of the first shows in the views that reach the
cell, one of them made after the write, and not in the view of the second. -/
theorem set_writes_through_of_nested :
    let path : List (Move Int64) :=
      [.perform (.create [1, 2, 3, 4]), .perform (.slice 0 (.included (.fromStart 1)) .unbounded),
        .perform (.create [1, 2, 3, 4]), .perform (.sliceLength 1 (.fromEnd 2) 1)]
    let here := start.after path
    let there := here.move (.perform (.set 1 (.fromStart 1) 9))
    let later := there.after [.perform (.range 0 .unbounded (.excluded 3))]
    here.session.perform (.set 1 (.fromStart 1) 9) =
        (.allElements there.session.allElements, there.session) ∧
      there.session.allElements = [[1, 2, 9, 4], [2, 9, 4], [1, 2, 3, 4], [9]] ∧
      later.session.views[4]? = some ⟨0, 0, 3⟩ ∧
      (∃ y, here.session.Shows ⟨0, 0, 3⟩ 2 y ∧ later.session.Shows ⟨0, 0, 3⟩ 2 9) ∧
      here.session.perform (.set 3 (.fromStart 1) 5) = (.indexError ⟨.fromStart 1, 1⟩, here.session) ∧
      View.sharesStorage ⟨0, 2, 3⟩ ⟨0, 0, 4⟩ = true ∧ here.origins[3]? = here.origins[0]? ∧
      View.sharesStorage ⟨1, 0, 4⟩ ⟨0, 0, 4⟩ = false ∧ here.origins[2]? ≠ here.origins[0]? := by
  intro path here there later
  obtain ⟨hset, hshares⟩ := set_writes_through path
  have hmissed := (hset 3 ⟨0, 2, 3⟩ (.fromStart 1) 5 (by decide)).1 (by decide)
  obtain ⟨hwritten, -, -, hreads⟩ :=
    (hset 1 ⟨0, 1, 4⟩ (.fromStart 1) 9 (by decide)).2 1 (by decide) (by decide)
  have hview : later.session.views[4]? = some ⟨0, 0, 3⟩ := by decide
  have hread := hreads [.perform (.range 0 .unbounded (.excluded 3))] ⟨0, 0, 3⟩ 2
    (.inl (Array.mem_of_getElem? hview)) (by decide) (by decide)
  have hsame := hshares 3 0 ⟨0, 2, 3⟩ ⟨0, 0, 4⟩ (by decide) (by decide)
  have hother := hshares 2 0 ⟨1, 0, 4⟩ ⟨0, 0, 4⟩ (by decide) (by decide)
  exact ⟨hwritten, by decide, hview, hread, hmissed, by decide, hsame.1 (by decide), by decide,
    fun h => absurd (hother.2 h) (by decide)⟩

end Point

end CanonicalText
