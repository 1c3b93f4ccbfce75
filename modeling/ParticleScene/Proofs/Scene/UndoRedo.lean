import ParticleScene.Proofs.History.Window
import ParticleScene.Proofs.Scene.Coherence

/-!
# Undo and redo over runs

Operations that succeed and record what they make build a window of the history, one stage for
the scene before them and one for each of them. As long as there are fewer of them than the limit
allows entries, the window holds all stages, wherever in its history the scene was before. Undoing
walks the window back to its start, and redoing walks it forth again.
-/

namespace ParticleScene.Scene

/-- An operation succeeds, and what it does to the scene is to record the layers that it
leaves. -/
def Records (s : Scene) (op : Operation) : Prop :=
  ∃ answer action description ls, s.attempt op = .ok (answer, s.record action description ls)

/-- An operation on layers or elements that succeeds records, unless it is one that does nothing. -/
lemma records_of_ok {s s' : Scene} {op : Operation} {answer : Answer} (hop : op.EditsLayers)
    (hchanges : ¬ s.LeavesAsIs op) (h : s.attempt op = .ok (answer, s')) : s.Records op := by
  obtain ⟨hleaves, -⟩ | ⟨-, action, description, ls, rfl⟩ := attempt_edits h hop
  · exact absurd hleaves hchanges
  · exact ⟨answer, action, description, ls, h⟩

/-- The scene after operations that all succeed, or the first failure. -/
def attemptAll (s : Scene) : List Operation → Except Failure Scene
  | [] => .ok s
  | op :: ops => do
    let (_, s) ← s.attempt op
    s.attemptAll ops

/-! ### Stages -/

variable {s : Scene} {stage : Nat → List Layer} {last place n : Nat} {ops : List Operation}

/-- A scene in step with a history that has a window. -/
structure InWindow (s : Scene) (stage : Nat → List Layer) (last place : Nat) : Prop where
  coherent : s.Coherent
  window : s.history.HasWindow stage last place
  place_le : place ≤ last

lemma InWindow.layers_eq (h : s.InWindow stage last place) : s.layers = stage place :=
  Option.some.inj (h.coherent.current.symm.trans (h.window.current h.place_le))

lemma InWindow.undo (h : s.InWindow stage last (place + 1)) :
    ∃ t, s.attempt .undo = .ok (.done, t) ∧ t.InWindow stage last place := by
  obtain ⟨e, history, hundo, hwindow⟩ := h.window.undo h.place_le
  have ht : s.undo = .ok ⟨e.snapshot, history⟩ := by
    rw [Scene.undo, hundo]
    rfl
  refine ⟨⟨e.snapshot, history⟩, ?_, (Change.undo ht).coherent h.coherent, hwindow,
    Nat.le_of_succ_le h.place_le⟩
  exact congrArg (Except.map (Answer.done, ·)) ht

lemma InWindow.redo (h : s.InWindow stage last place) (hplace : place + 1 ≤ last) :
    ∃ t, s.attempt .redo = .ok (.done, t) ∧ t.InWindow stage last (place + 1) := by
  obtain ⟨e, history, hredo, hwindow⟩ := h.window.redo hplace
  have ht : s.redo = .ok ⟨e.snapshot, history⟩ := by
    rw [Scene.redo, hredo]
    rfl
  refine ⟨⟨e.snapshot, history⟩, ?_, (Change.redo ht).coherent h.coherent, hwindow, hplace⟩
  exact congrArg (Except.map (Answer.done, ·)) ht

/-- Undoing walks a window back. -/
lemma InWindow.attemptAll_undo (h : s.InWindow stage last (place + n)) :
    ∃ t, s.attemptAll (List.replicate n .undo) = .ok t ∧ t.InWindow stage last place := by
  induction n generalizing s with
  | zero => exact ⟨s, rfl, h⟩
  | succ n ih =>
    obtain ⟨t, hundo, ht⟩ := InWindow.undo h
    obtain ⟨u, hrest, hu⟩ := ih ht
    refine ⟨u, ?_, hu⟩
    rw [List.replicate_succ, attemptAll, hundo]
    exact hrest

/-- Redoing walks a window forth. -/
lemma InWindow.attemptAll_redo (h : s.InWindow stage last place) (hn : place + n ≤ last) :
    ∃ t, s.attemptAll (List.replicate n .redo) = .ok t ∧ t.InWindow stage last (place + n) := by
  induction n generalizing s place with
  | zero => exact ⟨s, rfl, h⟩
  | succ n ih =>
    obtain ⟨t, hredo, ht⟩ := h.redo (by omega)
    obtain ⟨u, hrest, hu⟩ := ih ht (by omega)
    refine ⟨u, ?_, by rwa [Nat.add_right_comm] at hu⟩
    rw [List.replicate_succ, attemptAll, hredo]
    exact hrest

/-! ### Runs that record -/

/-- A recorded operation adds a stage to a window that the limit has room for. -/
lemma InWindow.record (h : s.InWindow stage last last) (hroom : last + 1 < s.history.limit)
    {op : Operation} (hop : s.Records op) (hstage : stage (last + 1) = (s.perform op).2.layers) :
    (s.perform op).2.InWindow stage (last + 1) (last + 1) ∧
      (s.perform op).2.history.limit = s.history.limit := by
  obtain ⟨answer, action, description, ls, hattempt⟩ := hop
  have hperform : (s.perform op).2 = s.record action description ls := by
    rw [perform, hattempt]
  have hls : stage (last + 1) = ls := by
    rw [hstage, hperform]
    rfl
  rw [hperform, ← hls]
  refine ⟨⟨(Change.record ..).coherent h.coherent, ?_, Nat.le_refl _⟩, ?_⟩
  · exact h.window.push h.coherent.wellFormed hroom action description
  · exact History.limit_push h.coherent.wellFormed ..

lemma performAll_take_succ {k : Nat} {op : Operation} (hop : ops[k]? = some op) :
    s.performAll (ops.take (k + 1)) = ((s.performAll (ops.take k)).perform op).2 := by
  rw [List.take_add_one, hop, performAll, List.foldl_append]
  rfl

/-- The stages of a run that records make a window with the cursor at its end. -/
lemma inWindow_performAll (hs : s.Coherent) (hlength : ops.length < s.history.limit)
    (hops : ∀ k op, ops[k]? = some op → (s.performAll (ops.take k)).Records op)
    (hn : n ≤ ops.length) :
    (s.performAll (ops.take n)).InWindow (fun k => (s.performAll (ops.take k)).layers) n n ∧
      (s.performAll (ops.take n)).history.limit = s.history.limit := by
  induction n with
  | zero => exact ⟨⟨hs, History.hasWindow_zero hs.current rfl, Nat.le_refl 0⟩, rfl⟩
  | succ n ih =>
    obtain ⟨hwindow, hlimit⟩ := ih (Nat.le_of_succ_le hn)
    obtain ⟨op, hop⟩ : ∃ op, ops[n]? = some op := ⟨_, List.getElem?_eq_getElem hn⟩
    have hnext := performAll_take_succ (s := s) hop
    rw [hnext, ← hlimit]
    exact hwindow.record (by omega) (hops n op hop) (by rw [hnext])

/-- After operations that each succeed and record, fewer of them than the limit of the history,
as many undos succeed and go back over all of them, one at a time, to the layers before the first
one. As many redos then succeed and bring each of them back. -/
theorem undo_redo_performAll (hs : Reachable s) (hlength : ops.length < s.history.limit)
    (hops : ∀ k op, ops[k]? = some op → (s.performAll (ops.take k)).Records op) :
    (∀ j ≤ ops.length, ∃ back,
      (s.performAll ops).attemptAll (List.replicate j .undo) = .ok back ∧
      back.layers = (s.performAll (ops.take (ops.length - j))).layers) ∧
    ∃ start, (s.performAll ops).attemptAll (List.replicate ops.length .undo) = .ok start ∧
      start.layers = s.layers ∧
      ∀ j ≤ ops.length, ∃ again,
        start.attemptAll (List.replicate j .redo) = .ok again ∧
        again.layers = (s.performAll (ops.take j)).layers := by
  have hend := (inWindow_performAll hs.coherent hlength hops (Nat.le_refl _)).1
  rw [List.take_length] at hend
  constructor
  · intro j hj
    rw [← Nat.sub_add_cancel hj] at hend
    obtain ⟨back, hback, hwindow⟩ := hend.attemptAll_undo
    exact ⟨back, hback, hwindow.layers_eq⟩
  · have hback : (s.performAll ops).InWindow (fun k => (s.performAll (ops.take k)).layers)
        ops.length (0 + ops.length) := by rwa [Nat.zero_add]
    obtain ⟨start, hstart, hwindow⟩ := hback.attemptAll_undo
    refine ⟨start, hstart, hwindow.layers_eq, fun j hj => ?_⟩
    obtain ⟨again, hagain, hwindow'⟩ := hwindow.attemptAll_redo (n := j) (by rwa [Nat.zero_add])
    rw [Nat.zero_add] at hwindow'
    exact ⟨again, hagain, hwindow'.layers_eq⟩

/-- A scene with a history of at most three entries that is full, after an undo. -/
def full : Scene :=
  empty.performAll [.setLimit 3, .addLayer "A" 0, .addLayer "B" 1, .addLayer "C" 2, .undo]

/-- Two operations that drop the redo tail and fill the history again. -/
def twoOps : List Operation := [.showAllLayers, .addLayer "D" 3]

/-- In a full history with something to redo, two operations can be undone and redone. -/
theorem undo_redo_performAll_full :
    Reachable full ∧ full.history.redoCount = 1 ∧
      full.history.entries.length = full.history.limit ∧
      twoOps.length < full.history.limit ∧
      (∀ k op, twoOps[k]? = some op → (full.performAll (twoOps.take k)).Records op) ∧
      (∀ j ≤ 2, ∃ back, (full.performAll twoOps).attemptAll (List.replicate j .undo) = .ok back ∧
        back.layers = (full.performAll (twoOps.take (2 - j))).layers) ∧
      ∃ start, (full.performAll twoOps).attemptAll (List.replicate 2 .undo) = .ok start ∧
        start.layers = full.layers ∧
        ∀ j ≤ 2, ∃ again, start.attemptAll (List.replicate j .redo) = .ok again ∧
          again.layers = (full.performAll (twoOps.take j)).layers := by
  have hreachable : Reachable full := Reachable.empty.performAll _
  have hlength : twoOps.length < full.history.limit := by decide
  have hops : ∀ k op, twoOps[k]? = some op → (full.performAll (twoOps.take k)).Records op := by
    intro k op hop
    match k, hop with
    | 0, rfl => exact records_of_ok trivial not_false rfl
    | 1, rfl => exact records_of_ok trivial not_false rfl
  exact ⟨hreachable, by decide, by decide, hlength, hops,
    undo_redo_performAll hreachable hlength hops⟩

end ParticleScene.Scene
