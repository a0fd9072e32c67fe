import Mathlib
import CanonicalText.Proofs.View.Traversal

/-!
# Walks in a session

A walk goes on while views are made, elements are written and other walks are taken. Only the calls to its cursor move
it, so at the end of every path it stands where these calls have taken its traversal.

* `Session.getElem?_cursors_perform` : no operation moves a cursor but a call to it;
* `Point.stands_after` : where a walk stands after a path;
* `Point.walk_passes_places_once` : what all calls on a walk come to.
-/

namespace CanonicalText

variable {α : Type} {length : Nat}

/-! ## Cursors of sessions -/

namespace Session

variable {s : Session α} {c : Cursor} {k : Nat} {view : View} {w : Traversal length}

/-- A cursor of a session walks a view and stands where a traversal does. -/
def StandsAt (s : Session α) (k : Nat) (view : View) (w : Traversal length) : Prop :=
  ∃ c, s.cursors[k]? = some c ∧ c.view = view ∧ c.StandsAt w

theorem Bounded.walks_of_getElem? (hs : s.Bounded) (hc : s.cursors[k]? = some c) : c.Walks s.store :=
  hs.walks c (Array.mem_of_getElem? hc)

theorem getElem?_cursors_onView {v : Nat} {f : View → Answer α × Session α} (hc : s.cursors[k]? = some c)
    (hf : ∀ view, (f view).2.cursors[k]? = some c) : (s.onView v f).2.cursors[k]? = some c := by
  unfold onView
  split
  · exact hf _
  · exact hc

theorem getElem?_cursors_addViewOr (hc : s.cursors[k]? = some c) (r : Except Fault View) :
    (s.addViewOr r).2.cursors[k]? = some c := by
  cases r with
  | ok w => exact hc
  | error f => exact hc

variable [BEq α] [Element α]

theorem perform_walk {v : Nat} {view : View} (hv : s.views[v]? = some view) :
    s.perform (.walk v) =
      (.cursor s.cursors.size, { s with cursors := s.cursors.push (.ofView view) }) := onView_eq hv _

theorem perform_advance (hc : s.cursors[k]? = some c) (call : Cursor.Call) :
    s.perform (.advance k call) = ((c.perform s.store call).1,
      { s with cursors := s.cursors.setIfInBounds k (c.perform s.store call).2 }) := by
  simp only [perform, hc]

theorem getElem?_cursors_perform (hc : s.cursors[k]? = some c) {op : Operation α}
    (hop : ∀ call, op ≠ .advance k call) : (s.perform op).2.cursors[k]? = some c := by
  cases op with
  | create | allElements | distinct => exact hc
  | decode text =>
    simp only [perform]
    split
    · exact hc
    · exact hc
  | copy v => exact getElem?_cursors_onView hc fun _ => hc
  | slice v lower upper | range v lower upper | sliceLength v i count =>
    exact getElem?_cursors_onView hc fun _ => getElem?_cursors_addViewOr hc _
  | set v i x =>
    refine getElem?_cursors_onView hc fun view => ?_
    cases s.store.set view i x with
    | ok store => exact hc
    | error e => exact hc
  | sharesStorage v w | equal v w =>
    exact getElem?_cursors_onView hc fun _ => getElem?_cursors_onView hc fun _ => hc
  | walk v =>
    refine getElem?_cursors_onView hc fun view => ?_
    have hk := (Array.getElem?_eq_some_iff.1 hc).1
    show (s.cursors.push _)[k]? = some c
    rw [Array.getElem?_push_lt hk, ← Array.getElem?_eq_getElem hk, hc]
  | advance j call =>
    have hj : j ≠ k := fun h => hop call (h ▸ rfl)
    cases hd : s.cursors[j]? with
    | none =>
      simp only [perform, hd]
      exact hc
    | some d =>
      rw [perform_advance hd]
      show (s.cursors.setIfInBounds j _)[k]? = some c
      rw [Array.getElem?_setIfInBounds_ne hj, hc]
  | _ => exact getElem?_cursors_onView hc fun _ => hc

/-- Calls that each do to a cursor what a function says do so one after another. -/
theorem iterate_advance {call : Cursor.Call} (step : Cursor → Option α × Cursor)
    (hstep : ∀ c : Cursor, c.perform s.store call = (.optional (step c).1, (step c).2))
    (hc : s.cursors[k]? = some c) (n : Nat) :
    (fun r => r.2.perform (.advance k call))^[n] (s.perform (.advance k call)) =
      (.optional ((fun r => step r.2)^[n] (step c)).1,
        { s with cursors := s.cursors.setIfInBounds k ((fun r => step r.2)^[n] (step c)).2 }) := by
  induction n with
  | zero => rw [perform_advance hc, hstep]; rfl
  | succ n ih =>
    rw [Function.iterate_succ_apply', Function.iterate_succ_apply', ih]
    set d := ((fun r => step r.2)^[n] (step c)).2
    have hk := (Array.getElem?_eq_some_iff.1 hc).1
    have hd : (s.cursors.setIfInBounds k d)[k]? = some d := Array.getElem?_setIfInBounds_self_of_lt hk
    rw [perform_advance hd, hstep, Array.setIfInBounds_setIfInBounds]

theorem StandsAt.perform_advance (h : s.StandsAt k view w) (hs : s.Bounded) (call : Cursor.Call) :
    (s.perform (.advance k call)).1 = w.answer s.store view call ∧
      (s.perform (.advance k call)).2.StandsAt k view (w.call call) := by
  obtain ⟨c, hc, rfl, hstands⟩ := h
  have hwalks := hs.walks_of_getElem? hc
  obtain ⟨hanswer, hd⟩ := hstands.perform hwalks call
  have hview := (Cursor.within_perform (s := s.store) hwalks.front_le_back call).view
  have hk := (Array.getElem?_eq_some_iff.1 hc).1
  rw [Session.perform_advance hc]
  exact ⟨hanswer, _, Array.getElem?_setIfInBounds_self_of_lt hk, hview, hd⟩

/-- **Skipping to an element** is one step, and one more for each element that is skipped. -/
theorem Bounded.perform_nth (hs : s.Bounded) (hc : s.cursors[k]? = some c) (n : UInt64) :
    s.perform (.advance k (.nth n)) =
      (fun r => r.2.perform (.advance k .next))^[n.toNat] (s.perform (.advance k .next)) := by
  rw [Session.perform_advance hc, iterate_advance (Cursor.next s.store) (fun _ => rfl) hc,
    ← (hs.walks_of_getElem? hc).skipTo_eq_iterate]
  rfl

theorem Bounded.perform_nthBack (hs : s.Bounded) (hc : s.cursors[k]? = some c) (n : UInt64) :
    s.perform (.advance k (.nthBack n)) =
      (fun r => r.2.perform (.advance k .nextBack))^[n.toNat] (s.perform (.advance k .nextBack)) := by
  rw [Session.perform_advance hc, iterate_advance (Cursor.nextBack s.store) (fun _ => rfl) hc,
    ← (hs.walks_of_getElem? hc).skipToBack_eq_iterate]
  rfl

end Session

/-! ## Paths -/

def Move.call? (k : Nat) : Move α → Option Cursor.Call
  | perform (.advance j call) => if j = k then some call else none
  | _ => none

def calls (k : Nat) (path : List (Move α)) : List Cursor.Call := path.flatMap fun m => (m.call? k).toList

theorem calls_append (k : Nat) (first second : List (Move α)) :
    calls k (first ++ second) = calls k first ++ calls k second := List.flatMap_append

theorem Move.call?_advance (k : Nat) (call : Cursor.Call) :
    (perform (.advance k call) : Move α).call? k = some call := if_pos rfl

theorem Move.call?_of_ne {k : Nat} {op : Operation α} (hop : ∀ call, op ≠ .advance k call) :
    (perform op).call? k = none := by
  cases op with
  | advance j call =>
    have hj : j ≠ k := fun h => hop call (h ▸ rfl)
    exact if_neg hj
  | _ => rfl

/-- The traversal that a path makes with its calls to a cursor. -/
def traversal (k length : Nat) (path : List (Move α)) : Traversal length :=
  (Traversal.start length).run (calls k path)

theorem traversal_append (k length : Nat) (first second : List (Move α)) :
    traversal k length (first ++ second) = (traversal k length first).run (calls k second) := by
  rw [traversal, calls_append, Traversal.run_append]
  rfl

namespace Point

variable [BEq α] [Element α] {here : Point α} {k : Nat} {view : View} {w : Traversal length}

/-- A move takes a cursor as far as the call that it makes to it, and leaves it where it is otherwise. -/
theorem stands_move (hs : here.session.Bounded) (h : here.session.StandsAt k view w) (m : Move α) :
    (here.move m).session.StandsAt k view (w.run (m.call? k).toList) := by
  apply move_cases (P := fun m there => there.session.StandsAt k view (w.run (m.call? k).toList))
  · intro op
    by_cases hop : ∃ call, op = .advance k call
    · obtain ⟨call, rfl⟩ := hop
      rw [Move.call?_advance]
      exact (h.perform_advance hs call).2
    · rw [Move.call?_of_ne (not_exists.1 hop)]
      obtain ⟨c, hc, hview, hstands⟩ := h
      exact ⟨c, Session.getElem?_cursors_perform hc (not_exists.1 hop), hview, hstands⟩
  · exact fun _ _ => h
  · exact fun _ => h
  · exact fun _ _ _ => h
  · exact h

/-- **After a path** a cursor stands where the calls of the path have taken it. -/
theorem stands_after (hs : here.session.Bounded) (h : here.session.StandsAt k view w) (path : List (Move α)) :
    (here.after path).session.StandsAt k view (w.run (calls k path)) := by
  induction path generalizing here w with
  | nil => exact h
  | cons m path ih =>
    rw [after_cons, calls, List.flatMap_cons, Traversal.run_append]
    exact ih (bounded_move hs m) (stands_move hs h m)

theorem stands_walk {v : Nat} (hv : here.session.views[v]? = some view) :
    (here.move (.perform (.walk v))).session.StandsAt here.session.cursors.size view
      (.start view.length.toNat) := by
  show (here.session.perform (.walk v)).2.StandsAt _ _ _
  rw [Session.perform_walk hv]
  exact ⟨_, Array.getElem?_push_size, rfl, Cursor.standsAt_ofView view⟩

theorem elements_after_of_writes_eq_nil (hs : here.session.Bounded) (hview : here.session.store.Covers view)
    {path : List (Move α)} (hpath : here.writes path = []) :
    (here.after path).session.store.elements view = here.session.store.elements view := by
  refine Store.elements_congr hview (hview.of_sizes (extends_after hs path).storages) fun o => ?_
  rw [cell?_after hs hview.stored, hpath]
  exact Option.map_id' ..

/-- **A walk passes each place of its view once**, from both ends towards each other, whatever else happens and is
written. A call answers what the place that it stops at shows at that moment, skipping is as many single steps, and
after a step that finds nothing no step finds anything. -/
theorem walk_passes_places_once (path : List (Move α)) (v : Nat) (view : View)
    (hv : ((start : Point α).after path).session.views[v]? = some view) :
    let here := (start : Point α).after path
    let k := here.session.cursors.size
    let there := here.move (.perform (.walk v))
    (here.session.perform (.walk v)).1 = .cursor k ∧
    ∀ more : List (Move α),
      let t := (there.after more).session
      let w := traversal k view.length.toNat more
      (∃ c : Cursor, t.cursors[k]? = some c ∧ c.view = view ∧ c.front ≤ c.back ∧ c.back ≤ view.length ∧
        w.passed = List.range c.front.toNat ∧
        w.ahead = List.range' c.front.toNat c.length.toNat ∧
        w.passedBack = (List.range' c.back.toNat (view.length.toNat - c.back.toNat)).reverse ∧
        c.length.toNat = c.back.toNat - c.front.toNat ∧
        c.length.toNat = view.length.toNat - (w.passed ++ w.passedBack).length ∧
        ∀ n : UInt64,
          (∃ d, (t.perform (.advance k (.nth n))).2.cursors[k]? = some d ∧
            d.front.toNat = c.front.toNat + min (n.toNat + 1) c.length.toNat ∧ d.back = c.back) ∧
          ∃ d, (t.perform (.advance k (.nthBack n))).2.cursors[k]? = some d ∧
            d.back.toNat = c.back.toNat - min (n.toNat + 1) c.length.toNat ∧ d.front = c.front) ∧
      (w.passed ++ w.passedBack).Nodup ∧
      (∀ call, (t.perform (.advance k call)).1 = w.answer t.store view call) ∧
      (∀ n : UInt64,
        t.perform (.advance k (.nth n)) =
          (fun r => r.2.perform (.advance k .next))^[n.toNat] (t.perform (.advance k .next)) ∧
        t.perform (.advance k (.nthBack n)) =
          (fun r => r.2.perform (.advance k .nextBack))^[n.toNat] (t.perform (.advance k .nextBack))) ∧
      (∀ call, call.isStep = true → (t.perform (.advance k call)).1 = .optional none →
        ∀ (later : List (Move α)) (other : Cursor.Call), other.isStep = true →
          ((there.after (more ++ .perform (.advance k call) :: later)).session.perform (.advance k other)).1 =
            .optional none) ∧
      ∀ quiet, (there.after more).writes quiet = [] →
        let u := (there.after (more ++ quiet)).session
        let w := traversal k view.length.toNat (more ++ quiet)
        (u.perform (.advance k .rest)).1 = .items (w.shown t.store view) ∧
        (u.perform (.advance k .restBack)).1 = .items (w.shown t.store view).reverse := by
  intro here k there
  have hhere : here.session.Bounded := bounded_after Session.bounded_empty path
  have hthere : there.session.Bounded := bounded_move hhere (.perform (.walk v))
  have hstart : there.session.StandsAt k view (.start view.length.toNat) := stands_walk hv
  have hbounded : ∀ more, (there.after more).session.Bounded := fun more => bounded_after hthere more
  have hstands : ∀ more, (there.after more).session.StandsAt k view (traversal k view.length.toNat more) :=
    fun more => stands_after hthere hstart more
  -- a call after more moves is a call after some moves, so the clauses on what comes later are instances of this
  have hanswer : ∀ more call, ((there.after more).session.perform (.advance k call)).1 =
      (traversal k view.length.toNat more).answer (there.after more).session.store view call :=
    fun more call => ((hstands more).perform_advance (hbounded more) call).1
  refine ⟨congrArg Prod.fst (Session.perform_walk hv), fun more => ?_⟩
  intro t w
  obtain ⟨c, hc, rfl, hw⟩ := hstands more
  have hwalks := (hbounded more).walks_of_getElem? hc
  have hlength := w.length_eq
  have hahead : c.length.toNat = w.ahead.length := hw.toNat_length hwalks.front_le_back
  have hback : c.view.length.toNat - (w.passed.length + w.ahead.length) = w.passedBack.length := by omega
  refine ⟨⟨c, hc, rfl, hwalks.front_le_back, hwalks.back_le_length, ?_, ?_, ?_, ?_, ?_, fun n => ⟨?_, ?_⟩⟩,
    w.nodup_passed, hanswer more,
    fun n => ⟨(hbounded more).perform_nth hc n, (hbounded more).perform_nthBack hc n⟩, ?_, ?_⟩
  · rw [hw.front]
    exact w.passed_eq
  · rw [hw.front, hahead]
    exact w.ahead_eq
  · rw [hw.back, hback]
    exact w.passedBack_eq
  · exact UInt64.toNat_sub_of_le _ _ hwalks.front_le_back
  · rw [hahead, List.length_append]
    omega
  · obtain ⟨d, hd, -, hends⟩ := ((hstands more).perform_advance (hbounded more) (.nth n)).2
    exact ⟨d, hd, hw.ends_of_forth hwalks.front_le_back hends⟩
  · obtain ⟨d, hd, -, hends⟩ := ((hstands more).perform_advance (hbounded more) (.nthBack n)).2
    exact ⟨d, hd, hw.ends_of_backward hwalks.front_le_back hends⟩
  · intro call hcall hnone later other hother
    have hnil : (w.call call).ahead = [] :=
      Traversal.ahead_eq_nil_of_answer hwalks.covers rfl hcall ((hanswer more call).symm.trans hnone)
    rw [hanswer, traversal_append, calls, List.flatMap_cons, Move.call?_advance]
    exact Traversal.answer_of_ahead_eq_nil hother (Traversal.ahead_run_of_nil hnil (calls k later))
  · intro quiet hquiet u w'
    have helements : u.store.elements c.view = t.store.elements c.view := by
      show (there.after (more ++ quiet)).session.store.elements c.view = _
      rw [after_append]
      exact elements_after_of_writes_eq_nil (hbounded more) hwalks.covers hquiet
    have hshown : w'.shown u.store c.view = w'.shown t.store c.view := by
      rw [Traversal.shown, Traversal.shown, helements]
    rw [← hshown]
    exact ⟨hanswer (more ++ quiet) .rest, hanswer (more ++ quiet) .restBack⟩

/-- A walk over four elements from both ends. It sees what was written after it began, and once it has skipped past
its end it finds nothing more, whatever is written then. -/
theorem walk_passes_places_once_of_both_ends :
    let path : List (Move Int64) :=
      [.perform (.create [1, 2, 3, 4, 5]), .perform (.slice 0 (.included (.fromStart 1)) .unbounded)]
    let view : View := ⟨0, 1, 5⟩
    let there := (start.after path).move (.perform (.walk 1))
    let more : List (Move Int64) := [.perform (.advance 0 .next), .perform (.set 0 (.fromStart 4) 9)]
    let t := (there.after more).session
    (start.after path).session.views[1]? = some view ∧
      (traversal 0 view.length.toNat more).passed = [0] ∧ (traversal 0 view.length.toNat more).ahead = [1, 2, 3] ∧
      (t.perform (.advance 0 .nextBack)).1 = .optional (some 9) ∧
      (t.perform (.advance 0 (.nth 1))).1 = .optional (some 4) ∧
      ((there.after (more ++ .perform (.advance 0 (.nth 7)) :: [.perform (.set 1 (.fromEnd 1) 8)])).session.perform
        (.advance 0 .nextBack)).1 = .optional none ∧
      (t.perform (.advance 0 .rest)).1 = .items [3, 4, 9] ∧
      (t.perform (.advance 0 .restBack)).1 = .items [9, 4, 3] := by
  intro path view there more t
  have hview : (start.after path).session.views[1]? = some view := by decide
  have hnumber : (start.after path).session.cursors.size = 0 := by decide
  have hall := walk_passes_places_once path 1 view hview
  simp only [hnumber] at hall
  obtain ⟨-, -, hanswer, -, hexhausted, hquiet⟩ := hall.2 more
  have hpassed : (traversal 0 view.length.toNat more).passed = [0] := by decide
  have hahead : (traversal 0 view.length.toNat more).ahead = [1, 2, 3] := by decide
  have helements : t.store.elements view = [2, 3, 4, 9] := by decide
  have hshown : (traversal 0 view.length.toNat more).shown t.store view = [3, 4, 9] := by
    rw [Traversal.shown, helements, hpassed, hahead]
    rfl
  have hquietly := hquiet [] rfl
  rw [List.append_nil, hshown] at hquietly
  have hnext : (t.perform (.advance 0 .nextBack)).1 = .optional (some 9) := by
    rw [hanswer, Traversal.answer, helements, hahead]
    rfl
  have hnth : (t.perform (.advance 0 (.nth 1))).1 = .optional (some 4) := by
    rw [hanswer, Traversal.answer, helements, hahead]
    rfl
  have hnone : (t.perform (.advance 0 (.nth 7))).1 = .optional none := by
    rw [hanswer, Traversal.answer, hahead]
    rfl
  have hlater := hexhausted (.nth 7) rfl hnone [.perform (.set 1 (.fromEnd 1) 8)] .nextBack rfl
  exact ⟨hview, hpassed, hahead, hnext, hnth, hlater, hquietly.1, hquietly.2⟩

end Point

end CanonicalText
