import ParticleScene.Proofs.History
import ParticleScene.Proofs.Scene.Effects

/-!
# Scene and history stay in step

`Change` says once what an operation can do to a scene: nothing, record a list of layers, load,
go back or ahead, or limit the history. Every change keeps the live layers equal to the snapshot
under the cursor of a well-formed history, and so does every run of operations.
-/

namespace ParticleScene

/-- An operation on layers or elements. The others load a scene, walk its history or limit it. -/
def Operation.EditsLayers : Operation → Prop
  | .load _ | .undo | .redo | .setLimit _ => False
  | _ => True

namespace Scene

/-- What an operation can make of a scene. -/
inductive Change (s : Scene) : Scene → Prop where
  | none : Change s s
  | record (action : Action) (description : String) (ls : List Layer) :
      Change s (s.record action description ls)
  | load (d : Document) : Change s (s.load d)
  | undo {s' : Scene} (h : s.undo = .ok s') : Change s s'
  | redo {s' : Scene} (h : s.redo = .ok s') : Change s s'
  | setLimit (limit : Nat) : Change s (s.setLimit limit)

/-- What succeeds and does nothing: a move beyond either end, and input for an unknown field. -/
def LeavesAsIs (s : Scene) : Operation → Prop
  | .moveLayerUp index => index = 0
  | .moveLayerDown index => index + 1 = s.layers.length
  | .inputField index field raw =>
    ∃ l, s.layers[index]? = some l ∧ LayerEdit.ofInput? field raw l = none
  | _ => False

/-! ### One operation -/

section

variable {s s' : Scene} {op : Operation} {answer : Answer}

/-- An operation on layers or elements that succeeds records the layers that it leaves, unless it is
one that does nothing. -/
lemma attempt_edits (h : s.attempt op = .ok (answer, s')) (hop : op.EditsLayers) :
    (s.LeavesAsIs op ∧ s' = s) ∨
      (¬ s.LeavesAsIs op ∧ ∃ action description ls, s' = s.record action description ls) := by
  cases op with
  | addLayer name tickStart =>
    cases h
    exact .inr ⟨not_false, _, _, _, rfl⟩
  | pushLayer layer =>
    cases h
    exact .inr ⟨not_false, _, _, _, rfl⟩
  | removeLayer index =>
    obtain ⟨l, -, -, rfl⟩ := attempt_removeLayer.mp h
    exact .inr ⟨not_false, _, _, _, rfl⟩
  | renameLayer index name =>
    obtain ⟨l, -, -, rfl⟩ := (attempt_editLayer (e := .name name)).mp h
    exact .inr ⟨not_false, _, _, _, rfl⟩
  | moveLayerUp index =>
    cases index with
    | zero =>
      obtain ⟨-, -, rfl⟩ := attempt_moveLayerUp_zero.mp h
      exact .inl ⟨rfl, rfl⟩
    | succ index =>
      obtain ⟨-, -, rfl⟩ := attempt_moveLayerUp_succ.mp h
      exact .inr ⟨Nat.succ_ne_zero index, _, _, _, rfl⟩
  | moveLayerDown index =>
    rcases attempt_moveLayerDown.mp h with ⟨hlt, -, rfl⟩ | ⟨hlast, -, rfl⟩
    · exact .inr ⟨Nat.ne_of_lt hlt, _, _, _, rfl⟩
    · exact .inl ⟨hlast, rfl⟩
  | editLayer index edit =>
    obtain ⟨l, -, -, rfl⟩ := attempt_editLayer.mp h
    exact .inr ⟨not_false, _, _, _, rfl⟩
  | inputField index field raw =>
    obtain ⟨l, hl, ⟨e, he, -, rfl⟩ | ⟨hnone, -, rfl⟩⟩ := attempt_inputField.mp h
    · refine .inr ⟨?_, _, _, _, rfl⟩
      rintro ⟨l', hl', hnone⟩
      obtain rfl := Option.some.inj (hl.symm.trans hl')
      rw [he] at hnone
      cases hnone
    · exact .inl ⟨⟨l, hl, hnone⟩, rfl⟩
  | setLayerColor index color =>
    obtain ⟨l, normal, -, -, -, rfl⟩ := attempt_setLayerColor.mp h
    exact .inr ⟨not_false, _, _, _, rfl⟩
  | showAllLayers =>
    cases h
    exact .inr ⟨not_false, _, _, _, rfl⟩
  | appendElements index elements =>
    obtain ⟨l, -, -, rfl⟩ := attempt_appendElements.mp h
    exact .inr ⟨not_false, _, _, _, rfl⟩
  | importElements index source =>
    obtain ⟨l, es, -, -, -, rfl⟩ := attempt_importElements.mp h
    exact .inr ⟨not_false, _, _, _, rfl⟩
  | removeElement index element =>
    obtain ⟨l, e, -, -, -, rfl⟩ := attempt_removeElement.mp h
    exact .inr ⟨not_false, _, _, _, rfl⟩
  | clearLayer index =>
    obtain ⟨l, -, -, rfl⟩ := attempt_clearLayer.mp h
    exact .inr ⟨not_false, _, _, _, rfl⟩
  | load document => exact hop.elim
  | undo => exact hop.elim
  | redo => exact hop.elim
  | setLimit limit => exact hop.elim

/-- An operation that succeeds makes one change. -/
lemma attempt_change (h : s.attempt op = .ok (answer, s')) : s.Change s' := by
  cases op with
  | load document =>
    cases h
    exact .load document
  | undo => exact .undo (map_done_eq_ok.mp h).1
  | redo => exact .redo (map_done_eq_ok.mp h).1
  | setLimit limit =>
    cases h
    exact .setLimit limit
  | _ =>
    obtain ⟨-, rfl⟩ | ⟨-, action, description, ls, rfl⟩ := attempt_edits h trivial
    · exact .none
    · exact .record action description ls

/-- An operation changes a scene once or, if it fails, not at all. -/
lemma perform_change (s : Scene) (op : Operation) : s.Change (s.perform op).2 := by
  unfold perform
  split
  · exact attempt_change ‹_›
  · exact .none

end

/-! ### Runs -/

/-- The live layers are the snapshot under the cursor of a well-formed history. -/
structure Coherent (s : Scene) : Prop where
  wellFormed : s.history.WellFormed
  current : s.history.current?.map Entry.snapshot = some s.layers

lemma ofLayers_coherent (ls : List Layer) : (ofLayers ls).Coherent :=
  ⟨History.start_wellFormed .., rfl⟩

/-- An operation leaves a scene in step with its history, whatever layers nobody has recorded it
found, or it leaves the layers and the entry under the cursor as they are. -/
lemma Change.coherent_or_unchanged {s s' : Scene} (h : s.Change s') (hwf : s.history.WellFormed) :
    s'.Coherent ∨ (s'.history.WellFormed ∧ s'.layers = s.layers ∧
      s'.history.current? = s.history.current?) := by
  cases h with
  | none => exact .inr ⟨hwf, rfl, rfl⟩
  | record action description ls =>
    refine .inl ⟨History.push_wellFormed hwf .., ?_⟩
    simp only [Scene.record, commit, History.current?_push hwf, Option.map_some]
  | load d => exact .inl ⟨History.reset_wellFormed hwf .., rfl⟩
  | undo h =>
    obtain ⟨⟨e, history⟩, hundo, h⟩ := bind_eq_ok_iff.mp h
    cases h
    obtain ⟨hwf', he⟩ := History.undo_wellFormed hwf hundo
    exact .inl ⟨hwf', by simp only [he, Option.map_some]⟩
  | redo h =>
    obtain ⟨⟨e, history⟩, hredo, h⟩ := bind_eq_ok_iff.mp h
    cases h
    obtain ⟨hwf', he⟩ := History.redo_wellFormed hwf hredo
    exact .inl ⟨hwf', by simp only [he, Option.map_some]⟩
  | setLimit limit =>
    exact .inr ⟨History.setLimit_wellFormed hwf limit, rfl, History.current?_setLimit hwf limit⟩

/-- What an operation makes of a coherent scene is coherent. -/
lemma Change.coherent {s s' : Scene} (h : s.Change s') (hs : s.Coherent) : s'.Coherent := by
  obtain hcoherent | ⟨hwf, hlayers, hcurrent⟩ := h.coherent_or_unchanged hs.wellFormed
  · exact hcoherent
  · exact ⟨hwf, by rw [hcurrent, hlayers, hs.current]⟩

/-- The scenes that operations lead to, whether they succeed or fail, from an empty scene, from
layers or from a document. -/
inductive Reachable : Scene → Prop where
  | empty : Reachable .empty
  | ofLayers (ls : List Layer) : Reachable (.ofLayers ls)
  | ofDocument (d : Document) : Reachable (.ofDocument d)
  | perform {s : Scene} (h : Reachable s) (op : Operation) : Reachable (s.perform op).2

lemma Reachable.coherent {s : Scene} (h : Reachable s) : s.Coherent := by
  induction h with
  | empty => exact ofLayers_coherent []
  | ofLayers ls => exact ofLayers_coherent ls
  | ofDocument d => exact ofLayers_coherent d.toLayers
  | perform _ op ih => exact (perform_change _ op).coherent ih

lemma Reachable.performAll {s : Scene} (h : Reachable s) (ops : List Operation) :
    Reachable (s.performAll ops) := by
  induction ops generalizing s with
  | nil => exact h
  | cons op ops ih => exact ih (h.perform op)

/-- In every scene that can be reached the history is within its limit, its cursor stands on an
entry, and the live layers are the layers of that entry. -/
theorem history_of_reachable {s : Scene} (h : Reachable s) :
    s.history.entries ≠ [] ∧
      s.history.cursor < s.history.entries.length ∧
      1 ≤ s.history.limit ∧
      s.history.entries.length ≤ s.history.limit ∧
      s.history.undoCount + s.history.redoCount + 1 = s.history.entries.length ∧
      s.history.entries[s.history.cursor]?.map Entry.snapshot = some s.layers := by
  obtain ⟨hwf, hcurrent⟩ := h.coherent
  exact ⟨hwf.entries_ne_nil, hwf.cursor_lt, hwf.one_le_limit, hwf.length_le_limit,
    hwf.undoCount_add_redoCount, hcurrent⟩

/-- A scene after a layer was added, one that is not there removed, the adding undone and the
history limited to nothing. -/
def limited : Scene :=
  empty.performAll [.addLayer "Layer" 0, .removeLayer 7, .undo, .setLimit 0]

/-- The history is limited to one entry, and the scene that was gone back to stays. -/
theorem history_of_reachable_limited :
    Reachable limited ∧
      limited.history.entries ≠ [] ∧
      limited.history.cursor < limited.history.entries.length ∧
      1 ≤ limited.history.limit ∧
      limited.history.entries.length ≤ limited.history.limit ∧
      limited.history.undoCount + limited.history.redoCount + 1 =
        limited.history.entries.length ∧
      limited.history.entries[limited.history.cursor]?.map Entry.snapshot =
        some limited.layers :=
  have h : Reachable limited := Reachable.empty.performAll _
  ⟨h, history_of_reachable h⟩

end Scene

end ParticleScene
