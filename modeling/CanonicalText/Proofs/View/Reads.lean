import Mathlib
import CanonicalText.Proofs.View.Guard
import CanonicalText.Proofs.View.Walks

/-!
# Ways to read an element

An element of a view can be read by its index, by all of the view, by a walk from either end, and by a body that it is
lent to. All of these find the cell at the place that the index names, or refuse the index together. That a body finds
the same at its end as at its beginning is because no program writes a storage that was being read when it began.

* `Session.KeepsLent`, `Program.keepsLent` : what a program leaves alone;
* `Session.Bounded.run_body_element`, `Session.Bounded.run_body_elements` : what bodies come to;
* `Point.perform_rest_of_walk`, `Point.perform_nth_of_walk` : what a walk that has just begun finds;
* `Point.read_paths_agree` : all ways to read, at every point that a run can reach.
-/

namespace CanonicalText

variable {α : Type}

/-! ## What is left alone while it is lent -/

namespace Session

variable {s t u : Session α}

/-- The cells of the storages that were being read are what they were, and as many bodies read each storage. -/
structure KeepsLent (s t : Session α) : Prop where
  bounded : t.Bounded
  grows : s.Extends t
  reading : t.store.reading.Perm s.store.reading
  cells : ∀ n ∈ s.store.reading, n < s.store.storages.size → ∀ o, t.store.cell? n o = s.store.cell? n o

theorem KeepsLent.refl (hs : s.Bounded) : s.KeepsLent s := ⟨hs, .refl s, .refl _, fun _ _ _ _ => rfl⟩

theorem KeepsLent.trans (h : s.KeepsLent t) (h' : t.KeepsLent u) : s.KeepsLent u where
  bounded := h'.bounded
  grows := h.grows.trans h'.grows
  reading := h'.reading.trans h.reading
  cells n hn hsize o := by
    have hmem : n ∈ t.store.reading := h.reading.mem_iff.2 hn
    rw [h'.cells n hmem (hsize.trans_le h.grows.storages_size_le), h.cells n hn hsize]

theorem notMem_reading_of_write? {op : Operation α} {w : Write α} (h : s.write? op = some w) :
    w.number ∉ s.store.reading := by
  cases op with
  | set v i x =>
    obtain ⟨view, -, h⟩ := Option.bind_eq_some_iff.1 h
    obtain ⟨p, -, h⟩ := Option.bind_eq_some_iff.1 h
    split at h
    · cases h
    · next hread =>
      cases h
      rwa [Store.isBeingRead, List.contains_iff_mem] at hread
  | _ => cases h

section Perform

variable [BEq α] [Element α]

theorem Bounded.keepsLent_perform (hs : s.Bounded) (op : Operation α) : s.KeepsLent (s.perform op).2 where
  bounded := (hs.perform op).1
  grows := (hs.perform op).2
  reading := by rw [(hs.effect_perform op).reading_eq]
  cells n hn hsize o := by
    have hlast : Write.last? (s.write? op).toList n o = none := by
      cases hw : s.write? op with
      | none => rfl
      | some w =>
        have hne : w.number ≠ n := fun heq => notMem_reading_of_write? hw (heq ▸ hn)
        simp [Write.last?, Write.hits, hne]
    rw [(hs.effect_perform op).cell?_eq hsize, hlast]
    exact Option.map_id' ..

end Perform

/-- A body that leaves alone what is lent to it leaves alone what was lent before. -/
theorem KeepsLent.leave {view : View} (h : (s.enter view).KeepsLent t) : s.KeepsLent (t.leave view) where
  bounded := h.bounded.leave view
  grows := ⟨h.grows.storages, h.grows.views, h.grows.cursors⟩
  reading := by
    have herase := (Store.perm_release view.storage t.store.reading).trans (h.reading.erase view.storage)
    rwa [show (s.enter view).store.reading = view.storage :: s.store.reading from rfl, List.erase_cons_head]
      at herase
  cells n hn hsize o := h.cells n (List.mem_cons_of_mem _ hn) hsize o

theorem KeepsLent.andThen (unwinds : Bool) (first : Answer α × Session α)
    {rest : Session α → Run α} (hfirst : s.KeepsLent first.2)
    (hrest : first.2.KeepsLent (rest first.2).session) :
    s.KeepsLent (Run.andThen unwinds first rest).session := by
  rcases Run.andThen_cases unwinds first rest (fun _ => []) with ⟨f, -, hrun, -⟩ | ⟨hrun, -⟩
  · rw [hrun]
    exact hfirst
  · rw [hrun]
    exact hfirst.trans hrest

end Session

variable [BEq α] [Element α]

/-- **No program writes a storage that was being read when it began**, whatever bodies it opens and ends. -/
theorem Program.keepsLent (p : Program α) (unwinds : Bool) {s : Session α} (hs : s.Bounded) :
    s.KeepsLent (p.run unwinds s).session := by
  induction p generalizing unwinds s with
  | done => exact .refl hs
  | step operation rest ih =>
    have hfirst := hs.keepsLent_perform operation
    exact hfirst.andThen unwinds (s.perform operation) (ih unwinds hfirst.bounded)
  | body loan innerUnwinds inner rest ihInner ih =>
    cases hloan : s.lend loan with
    | error answer =>
      rw [run_body_of_error _ _ _ _ hloan]
      exact (Session.KeepsLent.refl hs).andThen unwinds (answer, s) (ih unwinds hs)
    | ok view =>
      rw [run_body_of_ok _ _ _ _ hloan]
      have hfirst : s.KeepsLent (Run.ofBody s view loan (inner.run innerUnwinds (s.enter view))).2 := by
        rw [Run.ofBody_session]
        exact (ihInner innerUnwinds (hs.enter view)).leave
      exact hfirst.andThen unwinds _ (ih unwinds hfirst.bounded)

/-! ## Reads by index -/

section Index

variable {s : Session α} {v : Nat} {view : View} {i : Index} {p : Nat} {x : α}

theorem Session.perform_of_element?_eq_none (hv : s.views[v]? = some view)
    (hi : i.element? view.length.toNat = none) :
    s.perform (.canGet v i) = (.truth false, s) ∧ s.perform (.tryGet v i) = (.optional none, s) ∧
      s.perform (.get v i) = (.indexError ⟨i, view.length⟩, s) ∧
      ∀ x, s.perform (.set v i x) = (.indexError ⟨i, view.length⟩, s) := by
  have hset (x : α) := perform_set_of_none (x := x) hv hi
  rw [← View.position?_eq_none_iff_element?] at hi
  have hget : s.store.get view i = .error (.index ⟨i, view.length⟩) := by simp only [Store.get, hi]
  refine ⟨(ask_eq hv _).trans ?_, (ask_eq hv _).trans ?_, (ask_eq hv _).trans ?_, hset⟩
  · rw [View.canGet, hi]
    rfl
  · rw [Store.tryGet, hget]
    rfl
  · rw [hget]
    rfl

namespace Session.Bounded

variable (hs : s.Bounded) (hv : s.views[v]? = some view)

include hs hv

omit [BEq α] [Element α] in
theorem get_of_cell? (hi : i.element? view.length.toNat = some p)
    (hx : s.store.cell? view.storage (view.start.toNat + p) = some x) : s.store.get view i = .ok x := by
  obtain ⟨p, rfl, hp⟩ := View.exists_position?_eq_some hi
  exact Store.get_eq_ok (hs.covers_of_getElem? hv) hp hx

theorem perform_of_element?_eq_some (hi : i.element? view.length.toNat = some p)
    (hx : s.store.cell? view.storage (view.start.toNat + p) = some x) :
    s.perform (.canGet v i) = (.truth true, s) ∧ s.perform (.get v i) = (.element x, s) ∧
      s.perform (.tryGet v i) = (.optional (some x), s) := by
  have hget := hs.get_of_cell? hv hi hx
  refine ⟨(ask_eq hv _).trans ?_, (ask_eq hv _).trans ?_, (ask_eq hv _).trans ?_⟩
  · obtain ⟨p, rfl, hp⟩ := View.exists_position?_eq_some hi
    rw [View.canGet, hp]
    rfl
  · rw [hget]
    rfl
  · rw [Store.tryGet, hget]
    rfl

end Session.Bounded

end Index

/-! ## Bodies -/

theorem Session.run_body_of_none {s : Session α} {v : Nat} {view : View} {i : Index}
    (hv : s.views[v]? = some view) (unwinds innerUnwinds : Bool) {inner : Program α} (rest : Program α)
    (hi : i.element? view.length.toNat = none) :
    (Program.body (.element v i) innerUnwinds inner rest).run unwinds s =
      Run.andThen unwinds (.indexError ⟨i, view.length⟩, s) (rest.run unwinds) := by
  rw [← View.position?_eq_none_iff_element?] at hi
  have hlend : s.lend (.element v i) = .error (.indexError ⟨i, view.length⟩) := by
    simp only [lend, hv, Store.get, hi]
    rfl
  rw [Program.run_body_of_error _ _ _ _ hlend]

namespace Session.Bounded

variable {s : Session α} {v : Nat} {view : View} {i : Index} {p : Nat} {x : α} (hs : s.Bounded)
  (hv : s.views[v]? = some view) (unwinds innerUnwinds : Bool) {inner : Program α} (rest : Program α)
  {answers : List (Answer α)}

include hs hv

/-- A view that is lent shows the same cells when the body has ended. -/
theorem cell?_run_enter (o : Nat) :
    (inner.run innerUnwinds (s.enter view)).session.store.cell? view.storage o =
      s.store.cell? view.storage o :=
  (inner.keepsLent innerUnwinds (hs.enter view)).cells view.storage List.mem_cons_self
    (hs.covers_of_getElem? hv).stored o

theorem covers_run_enter : (inner.run innerUnwinds (s.enter view)).session.store.Covers view :=
  (hs.covers_of_getElem? hv).of_sizes (inner.keepsLent innerUnwinds (hs.enter view)).grows.storages

/-- **A body that an element is lent to** finds it at the beginning and at the end. -/
theorem run_body_element (hi : i.element? view.length.toNat = some p)
    (hx : s.store.cell? view.storage (view.start.toNat + p) = some x)
    (hinner : (inner.run innerUnwinds (s.enter view)).outcome = .ok answers) :
    (Program.body (.element v i) innerUnwinds inner rest).run unwinds s =
      Run.andThen unwinds (.readElement x answers (.element x),
        (inner.run innerUnwinds (s.enter view)).session.leave view) (rest.run unwinds) := by
  have hbefore := hs.get_of_cell? hv hi hx
  have hafter : (inner.run innerUnwinds (s.enter view)).session.store.get view i = .ok x := by
    obtain ⟨p, rfl, hp⟩ := View.exists_position?_eq_some hi
    refine Store.get_eq_ok (hs.covers_run_enter hv innerUnwinds) hp ?_
    rw [hs.cell?_run_enter hv, hx]
  have hlend : s.lend (.element v i) = .ok view := by simp only [lend, hv, hbefore]
  rw [Program.run_body_of_ok _ _ _ _ hlend, Run.ofBody, hinner]
  simp only [settle, hbefore, hafter, Answer.ofAccess]

/-- **A body that all elements are lent to** finds them at the end, too. -/
theorem run_body_elements (hinner : (inner.run innerUnwinds (s.enter view)).outcome = .ok answers) :
    (Program.body (.elements v) innerUnwinds inner rest).run unwinds s =
      Run.andThen unwinds (.readElements answers (s.store.elements view),
        (inner.run innerUnwinds (s.enter view)).session.leave view) (rest.run unwinds) := by
  have hcovers : (inner.run innerUnwinds (s.enter view)).session.store.Covers view :=
    hs.covers_run_enter hv innerUnwinds
  have helements : (inner.run innerUnwinds (s.enter view)).session.store.elements view =
      s.store.elements view :=
    Store.elements_congr (hs.covers_of_getElem? hv) hcovers (hs.cell?_run_enter hv innerUnwinds)
  have hlend : s.lend (.elements v) = .ok view := by simp only [lend, hv]
  rw [Program.run_body_of_ok _ _ _ _ hlend, Run.ofBody, hinner]
  simp only [settle, helements]

end Session.Bounded

/-! ## Walks -/

namespace Point

variable {here : Point α} {v : Nat} {view : View}

theorem perform_advance_walk (hs : here.session.Bounded) (hv : here.session.views[v]? = some view)
    (call : Cursor.Call) :
    ((here.session.perform (.walk v)).2.perform (.advance here.session.cursors.size call)).1 =
      (Traversal.start view.length.toNat).answer here.session.store view call := by
  have hanswer := ((stands_walk hv).perform_advance (bounded_move hs (.perform (.walk v))) call).1
  refine hanswer.trans ?_
  show Traversal.answer _ (here.session.perform (.walk v)).2.store view call = _
  rw [Session.perform_walk hv]

section Walk

variable (hs : here.session.Bounded) (hv : here.session.views[v]? = some view)

include hs hv

theorem perform_rest_of_walk :
    ((here.session.perform (.walk v)).2.perform (.advance here.session.cursors.size .rest)).1 =
        .items (here.session.store.elements view) ∧
      ((here.session.perform (.walk v)).2.perform (.advance here.session.cursors.size .restBack)).1 =
        .items (here.session.store.elements view).reverse := by
  have hshown : (Traversal.start view.length.toNat).shown here.session.store view =
      here.session.store.elements view := by
    show (here.session.store.elements view).extract 0 (0 + (List.range view.length.toNat).length) = _
    rw [Nat.zero_add, List.length_range, ← Store.length_elements (hs.covers_of_getElem? hv),
      List.extract_eq_take_drop, Nat.sub_zero, List.drop_zero, List.take_length]
  rw [perform_advance_walk hs hv, perform_advance_walk hs hv, Traversal.answer, Traversal.answer, hshown]
  exact ⟨rfl, rfl⟩

theorem perform_nth_of_walk {n : UInt64} (hn : n.toNat < view.length.toNat) :
    ((here.session.perform (.walk v)).2.perform (.advance here.session.cursors.size (.nth n))).1 =
        .optional (here.session.store.elements view)[n.toNat]? ∧
      ((here.session.perform (.walk v)).2.perform (.advance here.session.cursors.size (.nthBack n))).1 =
        .optional (here.session.store.elements view)[view.length.toNat - 1 - n.toNat]? := by
  have hforth : (List.range view.length.toNat)[n.toNat]? = some n.toNat := List.getElem?_range hn
  have hback : (List.range view.length.toNat).reverse[n.toNat]? = some (view.length.toNat - 1 - n.toNat) := by
    rw [List.getElem?_reverse (by rwa [List.length_range]), List.length_range]
    exact List.getElem?_range (by omega)
  rw [perform_advance_walk hs hv, perform_advance_walk hs hv]
  constructor
  · show Answer.optional ((List.range view.length.toNat)[n.toNat]?.bind _) = _
    rw [hforth]
    rfl
  · show Answer.optional ((List.range view.length.toNat).reverse[n.toNat]?.bind _) = _
    rw [hback]
    rfl

end Walk

/-- **All ways to read agree.** If a view has an element at the place that an index names, every way to read it
gives the cell there. Otherwise all reads by the index, the write and the body that would be lent the element refuse
it with one error, and the body is not run. -/
theorem read_paths_agree (path : List (Move α)) (v : Nat) (view : View) (i : Index)
    (hv : ((start : Point α).after path).session.views[v]? = some view) :
    let s := ((start : Point α).after path).session
    let length := view.length.toNat
    let walk := (s.perform (.walk v)).2
    (∀ a p, (Index.fromStart a).element? length = some p ↔ p = a.toNat ∧ p < length) ∧
    (∀ n p, (Index.fromEnd n).element? length = some p ↔ p + n.toNat = length ∧ p < length) ∧
    s.perform (.rawRange v) = (.range view.start view.stop, s) ∧
    s.perform (.length v) = (.length view.length, s) ∧
    (∀ p, i.element? length = some p → ∃ x xs,
      s.store.cell? view.storage (view.start.toNat + p) = some x ∧ xs.length = length ∧ xs[p]? = some x ∧
      s.perform (.canGet v i) = (.truth true, s) ∧
      s.perform (.get v i) = (.element x, s) ∧
      s.perform (.tryGet v i) = (.optional (some x), s) ∧
      s.perform (.elements v) = (.items xs, s) ∧
      s.perform (.walk v) = (.cursor s.cursors.size, walk) ∧
      (walk.perform (.advance s.cursors.size .rest)).1 = .items xs ∧
      (walk.perform (.advance s.cursors.size .restBack)).1 = .items xs.reverse ∧
      (walk.perform (.advance s.cursors.size (.nth (UInt64.ofNat p)))).1 = .optional (some x) ∧
      (walk.perform (.advance s.cursors.size (.nthBack (UInt64.ofNat (length - 1 - p))))).1 =
        .optional (some x) ∧
      ∀ (inner rest : Program α) (innerUnwinds unwinds : Bool) (answers : List (Answer α)),
        let body := inner.run innerUnwinds (s.enter view)
        body.outcome = .ok answers →
          (Program.body (.element v i) innerUnwinds inner rest).run unwinds s =
            Run.andThen unwinds (.readElement x answers (.element x), body.session.leave view)
              (rest.run unwinds) ∧
          (Program.body (.elements v) innerUnwinds inner rest).run unwinds s =
            Run.andThen unwinds (.readElements answers xs, body.session.leave view) (rest.run unwinds)) ∧
    (i.element? length = none →
      s.perform (.canGet v i) = (.truth false, s) ∧
      s.perform (.tryGet v i) = (.optional none, s) ∧
      s.perform (.get v i) = (.indexError ⟨i, view.length⟩, s) ∧
      (∀ x, s.perform (.set v i x) = (.indexError ⟨i, view.length⟩, s)) ∧
      ∀ (inner rest : Program α) (innerUnwinds unwinds : Bool),
        (Program.body (.element v i) innerUnwinds inner rest).run unwinds s =
          Run.andThen unwinds (.indexError ⟨i, view.length⟩, s) (rest.run unwinds)) := by
  intro s length walk
  have hs : s.Bounded := bounded_after Session.bounded_empty path
  have hcovers := hs.covers_of_getElem? hv
  refine ⟨fun a p => Index.element?_fromStart_iff, fun n p => Index.element?_fromEnd_iff,
    Session.ask_eq hv _, Session.ask_eq hv _, ?_, ?_⟩
  · intro p hi
    have hp : p < length := Index.lt_of_element? hi
    obtain ⟨x, hx⟩ := Option.isSome_iff_exists.1 (Store.isSome_cell? hcovers hp)
    have hshown : (s.store.elements view)[p]? = some x := (Store.getElem?_elements hcovers hp).trans hx
    obtain ⟨hcan, hget, htry⟩ := hs.perform_of_element?_eq_some hv hi hx
    have hword : (UInt64.ofNat p).toNat = p := UInt64.toNat_ofNat_of_lt' (hp.trans view.length.toNat_lt_size)
    have hwordBack : (UInt64.ofNat (length - 1 - p)).toNat = length - 1 - p :=
      UInt64.toNat_ofNat_of_lt' ((show length - 1 - p < length by omega).trans view.length.toNat_lt_size)
    have hforth := (perform_nth_of_walk hs hv (hword.trans_lt hp)).1
    have hback := (perform_nth_of_walk hs hv (hwordBack.trans_lt (show length - 1 - p < length by omega))).2
    rw [hword, hshown] at hforth
    rw [hwordBack, show view.length.toNat - 1 - (length - 1 - p) = p by omega, hshown] at hback
    obtain ⟨hrest, hrestBack⟩ := perform_rest_of_walk hs hv
    have hwalk : (s.perform (.walk v)).1 = .cursor s.cursors.size := by rw [Session.perform_walk hv]
    refine ⟨x, s.store.elements view, hx, Store.length_elements hcovers, hshown, hcan, hget, htry,
      Session.ask_eq hv _, Prod.ext hwalk rfl, hrest, hrestBack, hforth, hback, ?_⟩
    intro inner rest innerUnwinds unwinds answers body hbody
    exact ⟨hs.run_body_element hv unwinds innerUnwinds rest hi hx hbody,
      hs.run_body_elements hv unwinds innerUnwinds rest hbody⟩
  · intro hi
    obtain ⟨hcan, htry, hget, hset⟩ := Session.perform_of_element?_eq_none hv hi
    exact ⟨hcan, htry, hget, hset, fun inner rest innerUnwinds unwinds =>
      Session.run_body_of_none hv unwinds innerUnwinds rest hi⟩

/-- A window on three of five elements. Its last one is the fourth of the storage, to all that read it; the fifth is
not in the window, and neither is the place before the window, so that nothing is written by a body there. -/
theorem read_paths_agree_of_window :
    let path : List (Move Int64) :=
      [.perform (.create [1, 2, 3, 4, 5]),
        .perform (.slice 0 (.included (.fromStart 1)) (.excluded (.fromStart 4)))]
    let view : View := ⟨0, 1, 4⟩
    let s := (start.after path).session
    let walk := (s.perform (.walk 1)).2
    let inner : Program Int64 := .step (.set 1 (.fromStart 0) 7) .done
    s.views[1]? = some view ∧ (Index.fromEnd 1).element? view.length.toNat = some 2 ∧
      s.store.cell? 0 3 = some 4 ∧
      s.perform (.get 1 (.fromEnd 1)) = (.element 4, s) ∧
      (walk.perform (.advance 0 (.nth 2))).1 = .optional (some 4) ∧
      (walk.perform (.advance 0 (.nthBack 0))).1 = .optional (some 4) ∧
      (Program.body (.element 1 (.fromEnd 1)) false .done .done).run false s =
        ⟨.ok [.readElement 4 [] (.element 4)], (s.enter view).leave view⟩ ∧
      s.perform (.get 1 (.fromStart 3)) = (.indexError ⟨.fromStart 3, 3⟩, s) ∧
      s.perform (.set 1 (.fromEnd 0) 9) = (.indexError ⟨.fromEnd 0, 3⟩, s) ∧
      (Program.body (.element 1 (.fromEnd 4)) false inner .done).run false s =
        ⟨.ok [.indexError ⟨.fromEnd 4, 3⟩], s⟩ := by
  intro path view s walk inner
  have hview : s.views[1]? = some view := by decide
  have hcell : s.store.cell? 0 3 = some 4 := by decide
  obtain ⟨-, -, -, -, hread, -⟩ := read_paths_agree path 1 view (.fromEnd 1) hview
  obtain ⟨x, xs, hx, -, -, -, hget, -, -, -, -, -, hnth, hnthBack, hbody⟩ := hread 2 (by decide)
  obtain rfl : x = 4 := Option.some.inj (hx.symm.trans hcell)
  have hlast : UInt64.ofNat (view.length.toNat - 1 - 2) = 0 := by decide
  rw [hlast] at hnthBack
  have hlength : view.length = 3 := by decide
  obtain ⟨-, -, -, -, -, hpast⟩ := read_paths_agree path 1 view (.fromStart 3) hview
  obtain ⟨-, -, -, -, -, hend⟩ := read_paths_agree path 1 view (.fromEnd 0) hview
  obtain ⟨-, -, -, -, -, hbefore⟩ := read_paths_agree path 1 view (.fromEnd 4) hview
  rw [hlength] at hpast hend hbefore
  obtain ⟨-, -, hrefused, -⟩ := hpast (by decide)
  obtain ⟨-, -, -, hset, -⟩ := hend (by decide)
  obtain ⟨-, -, -, -, hunlent⟩ := hbefore (by decide)
  exact ⟨hview, by decide, hcell, hget, hnth, hnthBack, (hbody .done .done false false [] rfl).1, hrefused, hset 9,
    hunlent inner .done false false⟩

end Point

end CanonicalText
