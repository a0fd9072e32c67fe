import Mathlib
import CanonicalText.Proofs.View.Cells

/-!
# The guard of storages that are being read

A store notes which storages are being read, once for each body that is open on them. The notes agree with the
bodies along every path, so a write is refused just while such a body is open, however the bodies before it
have ended.

* `Store.perm_release` : releasing a storage takes one note of it away, and moves others at most;
* `Store.leave_enter`, `Store.get_enter` : a read that notes its storage while it lasts;
* `Point.Tracks` : the notes are those of the open bodies;
* `Program.set_refused_iff_open` : what that means for writes, at every moment of a run.
-/

namespace CanonicalText

variable {α : Type}

/-! ## Notes -/

theorem perm_replace {a b : Nat} {l : List Nat} (h : a ∈ l) : (l.replace a b).Perm (b :: l.erase a) := by
  induction l with
  | nil => cases h
  | cons c l ih =>
    by_cases hc : c = a
    · subst hc
      simp
    · have hac : (a == c) = false := by simpa using Ne.symm hc
      rw [List.replace_cons, hac, List.erase_cons_tail (by simpa using hc)]
      have hl : a ∈ l := (List.mem_cons.1 h).resolve_left (Ne.symm hc)
      exact ((ih hl).cons c).trans (.swap b c _)

/-- **Releasing a number** takes one of its entries out. The others stay, if not in their order. -/
theorem Store.perm_release (number : Nat) (entries : List Nat) :
    (release number entries).Perm (entries.erase number) := by
  cases entries with
  | nil => exact .refl _
  | cons newest older =>
    rw [release]
    split
    · next h =>
      subst h
      rw [List.erase_cons_head]
    · next h =>
      rw [List.erase_cons_tail (by simpa using h)]
      split
      · next hmem => exact perm_replace (by simpa using hmem)
      · next hmem => rw [List.erase_of_not_mem (by simpa using hmem)]

/-! A single read notes its storage only while it looks at it. It finds what it would find without the note, and
leaves no trace of it, so that reads need not note anything here. -/

theorem Store.leave_enter (s : Store α) (number : Nat) : (s.enter number).leave number = s := by
  rw [leave, enter, release, if_pos rfl]

theorem Store.get_enter (s : Store α) (number : Nat) (v : View) (i : Index) :
    (s.enter number).get v i = s.get v i := rfl

theorem Store.elements_enter (s : Store α) (number : Nat) (v : View) :
    (s.enter number).elements v = s.elements v := rfl

theorem Cursor.next_enter (s : Store α) (number : Nat) (c : Cursor) :
    c.next (s.enter number) = c.next s ∧ c.nextBack (s.enter number) = c.nextBack s := ⟨rfl, rfl⟩

namespace Point

/-- How many bodies are open on a storage. -/
def openOn (here : Point α) (number : Nat) : Nat := here.lent.countP (·.storage == number)

/-- The store notes the storages of the views that are lent. -/
structure Tracks (here : Point α) : Prop where
  bounded : here.session.Bounded
  reading : here.session.store.reading.Perm (here.lent.map (·.storage))

theorem tracks_start : (start : Point α).Tracks := ⟨Session.bounded_empty, .refl _⟩

variable {here : Point α}

theorem Tracks.count_reading (h : here.Tracks) (number : Nat) :
    here.session.store.reading.count number = here.openOn number := by
  rw [h.reading.count_eq, List.count_eq_countP, List.countP_map]
  rfl

theorem Tracks.isBeingRead_iff (h : here.Tracks) (number : Nat) :
    here.session.store.isBeingRead number = true ↔ 0 < here.openOn number := by
  rw [Store.isBeingRead, List.contains_iff_mem, ← List.count_pos_iff, h.count_reading]

variable [BEq α] [Element α]

theorem Tracks.move (h : here.Tracks) (m : Move α) : (here.move m).Tracks := by
  refine ⟨bounded_move h.bounded m, ?_⟩
  apply move_cases (P := fun _ there => there.session.store.reading.Perm (there.lent.map (·.storage)))
  · intro op
    rw [(h.bounded.effect_perform op).reading_eq]
    exact h.reading
  · intro _ view
    exact h.reading.cons view.storage
  · exact fun _ => h.reading
  · intro view lent hlent
    have hreading := h.reading.erase view.storage
    rw [hlent, List.map_cons, List.erase_cons_head] at hreading
    exact (Store.perm_release _ _).trans hreading
  · exact h.reading

/-- **The notes agree with the open bodies** at the end of every path. -/
theorem Tracks.after (h : here.Tracks) (path : List (Move α)) : (here.after path).Tracks :=
  after_keeps (fun _ m h => h.move m) h path

/-! ## Writes -/

variable {v p : Nat} {i : Index} {x : α} {view : View}

theorem Tracks.perform_set_of_open (h : here.Tracks) (hv : here.session.views[v]? = some view)
    (hi : i.element? view.length.toNat = some p) (hopen : 0 < here.openOn view.storage) :
    here.session.perform (.set v i x) = (.fault (.storageBeingRead i), here.session) :=
  Session.perform_set_of_read hv hi ((h.isBeingRead_iff _).2 hopen)

theorem Tracks.perform_set_of_not_open (h : here.Tracks) (hv : here.session.views[v]? = some view)
    (hi : i.element? view.length.toNat = some p) (hopen : here.openOn view.storage = 0) :
    let store := here.session.store.write view.storage (view.start.toNat + p) x
    let t := { here.session with store }
    here.session.write? (.set v i x) = some ⟨view.storage, view.start.toNat + p, x⟩ ∧
      here.session.perform (.set v i x) = (.allElements t.allElements, t) := by
  have hread : here.session.store.isBeingRead view.storage = false := by
    rw [Bool.eq_false_iff, Ne, h.isBeingRead_iff]
    omega
  refine ⟨?_, Session.perform_set_of_unread h.bounded hv hi hread⟩
  simp only [Session.write?, hv, Option.bind_some, hi, hread, Bool.false_eq_true, if_false]

end Point

/-- **A write is refused just while a body is open on its storage**, however bodies end. Each storage is noted as
often as bodies are open on it, and the cells keep their values but for the writes that succeed. -/
theorem Program.set_refused_iff_open [BEq α] [Element α] (p : Program α) (unwinds : Bool) :
    let path := p.moves unwinds .empty
    Point.start.Follows path (p.moments unwinds .empty) (p.run unwinds .empty).session ∧
    ∀ before more, before ++ more <+: path →
      let here := Point.start.after before
      let s := here.session
      (∀ number, s.store.reading.count number = here.openOn number) ∧
      (∀ v view i x, s.views[v]? = some view →
        (i.element? view.length.toNat = none →
          s.perform (.set v i x) = (.indexError ⟨i, view.length⟩, s)) ∧
        ∀ q, i.element? view.length.toNat = some q →
          (0 < here.openOn view.storage → s.perform (.set v i x) = (.fault (.storageBeingRead i), s)) ∧
          (here.openOn view.storage = 0 →
            let store := s.store.write view.storage (view.start.toNat + q) x
            let t := { s with store }
            s.write? (.set v i x) = some ⟨view.storage, view.start.toNat + q, x⟩ ∧
            s.perform (.set v i x) = (.allElements t.allElements, t))) ∧
      ∀ number offset, number < s.store.storages.size →
        (here.after more).session.store.cell? number offset =
          (s.store.cell? number offset).map fun y => (Write.last? (here.writes more) number offset).getD y := by
  intro path
  refine ⟨p.follows unwinds .start, fun before more _ => ?_⟩
  intro here s
  have htracks : here.Tracks := Point.tracks_start.after before
  refine ⟨htracks.count_reading, fun v view i x hv => ⟨fun hi => ?_, fun q hi => ⟨?_, ?_⟩⟩, ?_⟩
  · exact Session.perform_set_of_none hv hi
  · exact htracks.perform_set_of_open hv hi
  · exact htracks.perform_set_of_not_open hv hi
  · intro number offset hn
    exact Point.cell?_after htracks.bounded hn offset more

/-- Two bodies on one storage, the inner one through a narrower view. A write to another storage succeeds
inside, one to their own is refused: the first such fault is caught in the inner body, the second one ends the
outer body. After that the storage can be written again, and the other one keeps what was written. -/
theorem Program.set_refused_iff_open_of_unwinding :
    let inner : Program Int64 :=
      .step (.set 2 (.fromStart 0) 8) <| .step (.set 0 (.fromStart 2) 9) .done
    let p : Program Int64 :=
      .step (.create [1, 2, 3]) <| .step (.slice 0 (.included (.fromStart 1)) .unbounded) <|
        .step (.create [7]) <|
        .body (.elements 0) true
          (.body (.element 1 (.fromStart 0)) false inner <| .step (.set 1 (.fromEnd 1) 5) .done) .done
    let path := p.moves false .empty
    let inside := Point.start.after (path.take 6)
    let left := Point.start.after path
    inside.openOn 0 = 2 ∧ inside.session.store.reading.count 0 = 2 ∧
      inside.session.perform (.set 0 (.fromStart 2) 9) =
        (.fault (.storageBeingRead (.fromStart 2)), inside.session) ∧
      inside.session.perform (.set 1 (.fromStart 2) 9) =
        (.indexError ⟨.fromStart 2, 2⟩, inside.session) ∧
      left.session = (p.run false .empty).session ∧ left.openOn 0 = 0 ∧
      (∃ t, left.session.perform (.set 0 (.fromStart 2) 9) = (.allElements t.allElements, t)) ∧
      left.session.store.cell? 1 0 = some 8 := by
  intro inner p path inside left
  obtain ⟨hfollows, hpoints⟩ := p.set_refused_iff_open false
  obtain ⟨hcount, hset, hcells⟩ :=
    hpoints (path.take 6) (path.drop 6) (by rw [List.take_append_drop])
  obtain ⟨-, hsetLeft, -⟩ := hpoints path [] (by rw [List.append_nil])
  have hrefused := (hset 0 ⟨0, 0, 3⟩ (.fromStart 2) 9 (by decide)).2 2 (by decide)
  have hmissed := (hset 1 ⟨0, 1, 3⟩ (.fromStart 2) 9 (by decide)).1 (by decide)
  have hwritten := (hsetLeft 0 ⟨0, 0, 3⟩ (.fromStart 2) 9 (by decide)).2 2 (by decide)
  have hkept := hcells 1 0 (by decide)
  rw [← Point.after_append, List.take_append_drop] at hkept
  refine ⟨by decide, hcount 0, hrefused.1 (by decide), hmissed, hfollows.session, by decide, ?_, ?_⟩
  · exact ⟨_, (hwritten.2 (by decide)).2⟩
  · exact hkept.trans (by decide)

end CanonicalText
