import Mathlib
import CanonicalText.Reader.Script
import CanonicalText.Proofs.Reader.Ends

/-!
# Reading chunks

A source of chunks makes a stream end after each of them. The machine behind the stream goes on over these
ends, so the items of all chunks in order are those of the chunks put together, wherever they are cut.

* `Normalizer.flatten_segments` : the items of the chunks are those of the whole text;
* `Stream.Comes` : what a stream still gives, end by end;
* `Reader.Reads`, `Reader.ReadOff` : how one call, and many, read a sequence of items off from the front;
* `Reader.run_chunks` : every sequence of calls on a stream of chunks does just that.
-/

namespace CanonicalText

/-- The items of each chunk, the machine going on from one chunk to the next. -/
def Normalizer.segments (m : Normalizer) : List Text → List (List (Position × Char))
  | [] => []
  | chunk :: later => (m.run chunk).1 :: (m.run chunk).2.segments later

/-- **Chunks do not matter**: their items in order are those of the whole text. -/
theorem Normalizer.flatten_segments (m : Normalizer) (chunks : List Text) :
    (m.segments chunks).flatten = (m.run chunks.flatten).1 := by
  induction chunks generalizing m with
  | nil => rfl
  | cons chunk later ih => rw [segments, List.flatten_cons, ih, List.flatten_cons, run_append]

theorem Normalizer.length_segments (m : Normalizer) (chunks : List Text) :
    (m.segments chunks).length = chunks.length := by
  induction chunks generalizing m with
  | nil => rfl
  | cons chunk later ih => rw [segments, List.length_cons, ih, List.length_cons]

/-! ## From end to end -/

namespace Stream

variable {σ : Type} [Source σ]

/-- The items that a stream gives before each of its ends; after the last of these it gives none. -/
inductive Comes : Stream σ → List (List (Position × Char)) → Prop
  | dry {s after : Stream σ} (h : s.Ahead [] after) (stays : after.Ahead [] after) : Comes s []
  | before {s after : Stream σ} {items : List (Position × Char)}
      {later : List (List (Position × Char))} (h : s.Ahead items after) (rest : Comes after later) :
      Comes s (items :: later)

theorem Ahead.position_of_nil {s after : Stream σ} (h : s.Ahead [] after) :
    after.position = s.position := by
  obtain ⟨text, -, hrun⟩ := h
  have hchars : s.machine.chars text = [] := by rw [Normalizer.chars, hrun, List.map_nil]
  have hposition := s.machine.run_snd_position text
  rw [hrun, hchars] at hposition
  exact hposition

theorem Comes.position_eq {s : Stream σ} {segments : List (List (Position × Char))}
    (h : s.Comes segments) : ∀ item ∈ segments.flatten.head?, item.1 = s.position := by
  induction h with
  | dry => simp
  | @before s after items later h hrest ih =>
    cases items with
    | nil => simpa [h.position_of_nil] using ih
    | cons item items => simpa using h.position_eq

end Stream

theorem comes_chunks (m : Normalizer) (chunks : List Text) :
    (Stream.mk (Feed.chunks (.ofList chunks)) m).Comes (m.segments chunks) := by
  induction chunks generalizing m with
  | nil =>
    have hahead : (Stream.mk (Feed.chunks (.ofList [])) m).Ahead [] ⟨.chunks (.ofList []), m⟩ :=
      ⟨[], (Source.gives_chunks [] []).embed Feed.chunks fun _ => rfl, rfl⟩
    exact .dry hahead hahead
  | cons chunk later ih =>
    refine .before (Stream.ahead_of_gives ?_) (ih (m.run chunk).2)
    exact (Source.gives_chunks chunk later).embed Feed.chunks fun _ => rfl

/-! ## Reading off -/

namespace Reader

def Item.ofPair (positioned : Bool) (item : Position × Char) : Item :=
  if positioned then .positioned item.1 item.2 else .plain item.2

def Call.showsPositions (positioned : Bool) : Call → Bool
  | .dropPositions => false
  | _ => positioned

/-- The answer to a call that returns or skips a block of items, and whether it passes an end then. -/
inductive Call.Takes (positioned : Bool) : Call → Answer → List (Position × Char) → Bool → Prop
  | next (item) : Takes positioned .next (.item (some (.ofPair positioned item))) [item] false
  | nextEnd : Takes positioned .next (.item none) [] true
  | nth {n} (skipped item) (h : skipped.length = n.toNat) :
      Takes positioned (.nth n) (.item (some (.ofPair positioned item))) (skipped ++ [item]) false
  | nthEnd {n} (skipped) (h : skipped.length ≤ n.toNat) :
      Takes positioned (.nth n) (.item none) skipped true
  | take {n} (items) (h : items.length = n.toNat) :
      Takes positioned (.take n) (.items (items.map (.ofPair positioned))) items false
  | takeEnd {n} (items) (h : items.length < n.toNat) :
      Takes positioned (.take n) (.items (items.map (.ofPair positioned))) items true
  | rest (items) : Takes positioned .rest (.items (items.map (.ofPair positioned))) items true
  | count (items) : Takes positioned .count (.count items.length) items true
  | last (items) :
      Takes positioned .last (.item (items.getLast?.map (.ofPair positioned))) items true

/-- The answer to a call, the items that it returns or skips, and those that are left after it, before
each of the ends to come. A call stops at an end; after the last end there are no items. -/
inductive Reads (positioned : Bool) : List (List (Position × Char)) → Call → Answer →
    List (Position × Char) → List (List (Position × Char)) → Prop
  | before {call answer block items later} (h : Call.Takes positioned call answer block false) :
      Reads positioned ((block ++ items) :: later) call answer block (items :: later)
  | upTo {call answer block later} (h : Call.Takes positioned call answer block true) :
      Reads positioned (block :: later) call answer block later
  | after {call answer ends} (h : Call.Takes positioned call answer [] ends) :
      Reads positioned [] call answer [] []
  /-- The position is that of the next item, however many ends come before it. -/
  | position {segments p} (h : ∀ item ∈ segments.flatten.head?, item.1 = p) :
      Reads positioned segments .position (.position p) [] segments
  | hint {segments} (h) : Reads positioned segments .hint (.hint h) [] segments
  | dropPositions {segments} : Reads positioned segments .dropPositions .done [] segments

/-- The answers to calls that are made one after the other, the items that they return or skip, and
those that are left after them. -/
inductive ReadOff : Bool → List (List (Position × Char)) → List Call → List Answer →
    List (Position × Char) → List (List (Position × Char)) → Prop
  | done {positioned segments} : ReadOff positioned segments [] [] [] segments
  | call {positioned segments call calls answer answers block taken next left}
      (h : Reads positioned segments call answer block next)
      (rest : ReadOff (call.showsPositions positioned) next calls answers taken left) :
      ReadOff positioned segments (call :: calls) (answer :: answers) (block ++ taken) left

/-- Nothing is lost, and nothing is read twice. -/
theorem Reads.flatten_eq {positioned segments call answer block next}
    (h : Reads positioned segments call answer block next) :
    segments.flatten = block ++ next.flatten := by
  cases h with
  | before => rw [List.flatten_cons, List.flatten_cons, List.append_assoc]
  | upTo => rw [List.flatten_cons]
  | after => rfl
  | position => rfl
  | hint => rfl
  | dropPositions => rfl

theorem ReadOff.flatten_eq {positioned segments calls answers taken left}
    (h : ReadOff positioned segments calls answers taken left) :
    segments.flatten = taken ++ left.flatten := by
  induction h with
  | done => rfl
  | call h _ ih => rw [h.flatten_eq, ih, List.append_assoc]

/-! ## Calls on a stream -/

variable {r : Reader} {items : List (Position × Char)} {after : Stream Feed}

/-- A call takes a part of the items before the next end, or all of them and the end with them. -/
def Took (r : Reader) (items : List (Position × Char)) (after : Stream Feed) (call : Call) : Prop :=
  (∃ block left s, items = block ++ left ∧ call.Takes r.positioned (r.perform call).1 block false ∧
    (r.perform call).2 = { r with stream := s } ∧ s.Ahead left after) ∨
  (call.Takes r.positioned (r.perform call).1 items true ∧
    (r.perform call).2 = { r with stream := after })

theorem took_next (h : r.stream.Ahead items after) : r.Took items after .next := by
  cases items with
  | nil =>
    have hnext : r.perform .next = (.item none, { r with stream := after }) := by
      rw [perform, Stream.next_of_ahead_nil h]
      rfl
    rw [Took, hnext]
    exact .inr ⟨.nextEnd, rfl⟩
  | cons item items =>
    obtain ⟨s, hs, hahead⟩ := Stream.next_of_ahead_cons h
    have hnext : r.perform .next = (.item (some (r.shown item)), { r with stream := s }) := by
      rw [perform, hs]
      rfl
    rw [Took, hnext]
    exact .inl ⟨[item], items, s, rfl, .next item, rfl, hahead⟩

theorem took_nth (h : r.stream.Ahead items after) (n : UInt64) : r.Took items after (.nth n) := by
  have hskip := Stream.skipTo_of_ahead h n.toNat
  cases hitem : items[n.toNat]? with
  | none =>
    rw [hitem] at hskip
    have hnth : r.perform (.nth n) = (.item none, { r with stream := after }) := by
      rw [perform, hskip]
      rfl
    rw [Took, hnth]
    exact .inr ⟨.nthEnd items (List.getElem?_eq_none_iff.1 hitem), rfl⟩
  | some item =>
    rw [hitem] at hskip
    obtain ⟨s, hs, hahead⟩ := hskip
    obtain ⟨hlt, hget⟩ := List.getElem?_eq_some_iff.1 hitem
    have hnth : r.perform (.nth n) = (.item (some (r.shown item)), { r with stream := s }) := by
      rw [perform, hs]
      rfl
    have hsplit : items = (items.take n.toNat ++ [item]) ++ items.drop (n.toNat + 1) := by
      rw [List.append_assoc, ← hget, List.singleton_append, List.getElem_cons_drop,
        List.take_append_drop]
    have hlength : (items.take n.toNat).length = n.toNat := List.length_take_of_le hlt.le
    rw [Took, hnth]
    exact .inl ⟨_, _, s, hsplit, .nth _ item hlength, rfl, hahead⟩

theorem took_take (h : r.stream.Ahead items after) (n : UInt64) : r.Took items after (.take n) := by
  have htake := Stream.take_of_ahead h n.toNat
  split at htake
  · next hle =>
    obtain ⟨s, hs, hahead⟩ := htake
    have hperform : r.perform (.take n) =
        (.items ((items.take n.toNat).map r.shown), { r with stream := s }) := by
      rw [perform, hs]
    rw [Took, hperform]
    exact .inl ⟨_, _, s, (List.take_append_drop n.toNat items).symm,
      .take _ (List.length_take_of_le hle), rfl, hahead⟩
  · next hlt =>
    have hperform : r.perform (.take n) = (.items (items.map r.shown), { r with stream := after }) := by
      rw [perform, htake]
    rw [Took, hperform]
    exact .inr ⟨.takeEnd _ (Nat.not_le.1 hlt), rfl⟩

theorem drain_of_ahead (h : r.stream.Ahead items after) (answer : List (Position × Char) → Answer) :
    r.drain answer = (answer items, { r with stream := after }) := by
  rw [drain, Stream.rest?_of_ahead h]

theorem took_of_drain {call : Call} {answer : List (Position × Char) → Answer}
    (h : r.stream.Ahead items after) (hcall : r.perform call = r.drain answer)
    (htakes : call.Takes r.positioned (answer items) items true) : r.Took items after call := by
  rw [Took, hcall, drain_of_ahead h]
  exact .inr ⟨htakes, rfl⟩

/-- A reader whose stream still gives these items, end by end. -/
structure Has (r : Reader) (positioned : Bool) (segments : List (List (Position × Char))) : Prop where
  positioned_eq : r.positioned = positioned
  comes : r.stream.Comes segments

variable {positioned : Bool} {segments : List (List (Position × Char))}

theorem Has.reads_of_took (h : r.Has positioned segments) {call : Call}
    (htook : ∀ {items after}, r.stream.Ahead items after → r.Took items after call) :
    ∃ block next, Reads positioned segments call (r.perform call).1 block next ∧
      (r.perform call).2.Has positioned next := by
  obtain ⟨rfl, hcomes⟩ := h
  generalize hstream : r.stream = stream at hcomes
  cases hcomes with
  | dry hend hstays =>
    -- after the last end nothing is ahead, whether the call asks for it or not
    subst hstream
    rcases htook hend with ⟨block, left, s, hsplit, htakes, hr, hahead⟩ | ⟨htakes, hr⟩
    · obtain ⟨rfl, rfl⟩ := List.append_eq_nil_iff.1 hsplit.symm
      rw [hr]
      exact ⟨[], [], .after htakes, rfl, .dry hahead hstays⟩
    · rw [hr]
      exact ⟨[], [], .after htakes, rfl, .dry hstays hstays⟩
  | before hahead hrest =>
    subst hstream
    rcases htook hahead with ⟨block, left, s, rfl, htakes, hr, hleft⟩ | ⟨htakes, hr⟩
    · rw [hr]
      exact ⟨block, _, .before htakes, rfl, .before hleft hrest⟩
    · rw [hr]
      exact ⟨_, _, .upTo htakes, rfl, hrest⟩

/-- **One call** reads off what comes. -/
theorem Has.reads_perform (h : r.Has positioned segments) (call : Call) :
    ∃ block next, Reads positioned segments call (r.perform call).1 block next ∧
      (r.perform call).2.Has (call.showsPositions positioned) next := by
  cases call with
  | next => exact h.reads_of_took took_next
  | nth n => exact h.reads_of_took (took_nth · n)
  | take n => exact h.reads_of_took (took_take · n)
  | rest => exact h.reads_of_took fun hahead => took_of_drain hahead rfl (.rest _)
  | count => exact h.reads_of_took fun hahead => took_of_drain hahead rfl (.count _)
  | last => exact h.reads_of_took fun hahead => took_of_drain hahead rfl (.last _)
  | position => exact ⟨[], segments, .position h.comes.position_eq, h⟩
  | hint => exact ⟨[], segments, .hint _, h⟩
  | dropPositions => exact ⟨[], segments, .dropPositions, rfl, h.comes⟩

/-! ## Runs -/

theorem run_cons (r : Reader) (call : Call) (steps : List Step) :
    run #[r] (.call 0 call :: steps) = (r.perform call).1 :: run #[(r.perform call).2] steps := rfl

/-- **Many calls** read off what comes, one after the other. -/
theorem Has.readOff_run (h : r.Has positioned segments) (calls : List Call) :
    ∃ taken left, ReadOff positioned segments calls (run #[r] (calls.map (.call 0))) taken left := by
  -- the reader after a call still gives what the call has left, so the rest reads that off
  induction calls generalizing r positioned segments with
  | nil => exact ⟨[], segments, .done⟩
  | cons call calls ih =>
    obtain ⟨block, next, hreads, hnext⟩ := h.reads_perform call
    obtain ⟨taken, left, hrest⟩ := ih hnext
    rw [List.map_cons, run_cons]
    exact ⟨block ++ taken, left, .call hreads hrest⟩

/-- Draining a stream once for each of its ends gives what comes before it. -/
theorem Has.run_rest (h : r.Has positioned segments) :
    run #[r] (List.replicate segments.length (.call 0 .rest)) =
      segments.map fun items => .items (items.map (.ofPair positioned)) := by
  obtain ⟨rfl, hcomes⟩ := h
  generalize hstream : r.stream = stream at hcomes
  induction hcomes generalizing r with
  | dry => rfl
  | before hahead _ ih =>
    subst hstream
    have hrest : r.perform .rest = (.items _, { r with stream := _ }) := drain_of_ahead hahead _
    rw [List.length_cons, List.replicate_succ, run_cons, hrest, ih rfl]
    rfl

theorem has_chunks (chunks : List Text) :
    (ofFeed (.chunks (.ofList chunks))).Has true (Normalizer.start.segments chunks) :=
  ⟨rfl, comes_chunks .start chunks⟩

/-- **Wherever a text is cut**, a stream of its chunks gives the items of the text. Drained once for every
chunk it gives them all; and calls of any kind in any order read them off from the front, so that what they
return or skip and what is left after them are the items in order. -/
theorem run_chunks (chunks : List Text) (calls : List Call) :
    let segments := Normalizer.start.segments chunks
    let readers := #[ofFeed (.chunks (.ofList chunks))]
    segments.flatten = pairs chunks.flatten ∧
    run readers (List.replicate chunks.length (.call 0 .rest)) =
      segments.map (fun items => .items (items.map (.ofPair true))) ∧
    ∃ taken left, ReadOff true segments calls (run readers (calls.map (.call 0))) taken left ∧
      pairs chunks.flatten = taken ++ left.flatten := by
  intro segments readers
  have hhas := has_chunks chunks
  have hflatten : segments.flatten = pairs chunks.flatten := Normalizer.start.flatten_segments chunks
  obtain ⟨taken, left, hread⟩ := hhas.readOff_run calls
  refine ⟨hflatten, ?_, taken, left, hread, ?_⟩
  · have hrest := hhas.run_rest
    rwa [Normalizer.length_segments] at hrest
  · rw [← hflatten, hread.flatten_eq]

end Reader

end CanonicalText
