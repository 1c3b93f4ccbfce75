import ParticleScene.Proofs.Document.Storable
import ParticleScene.Proofs.ImportJob.Interleaving
import ParticleScene.Proofs.Scene.Locality

/-!
# Layers stay in range

Whoever writes a field that scripts rely on brings the layer into range, and everything else keeps
these fields. So in a scene that started empty or from a document the layers are in range, and so
are those that undoing brings back, as long as nobody pushes a layer that is not.
-/

namespace ParticleScene

/-- If the operation pushes a layer, that layer is in range. -/
def Operation.PushesInRange : Operation → Prop
  | .pushLayer l => l.InRange
  | _ => True

namespace Scene

/-- The live layers are in range, and so are those of every entry of the history. -/
structure AllInRange (s : Scene) : Prop where
  layers : ∀ l ∈ s.layers, l.InRange
  snapshots : ∀ e ∈ s.history.entries, ∀ l ∈ e.snapshot, l.InRange

/-- The scenes that operations and the steps of import jobs lead to, in any order and whether they
succeed or fail, from an empty scene or from a document, while only layers in range are pushed. -/
inductive ReachableInRange : Scene → Prop where
  | empty : ReachableInRange .empty
  | ofDocument (d : Document) : ReachableInRange (.ofDocument d)
  | perform {s : Scene} (h : ReachableInRange s) {op : Operation} (hop : op.PushesInRange) :
      ReachableInRange (s.perform op).2
  | step {s : Scene} (h : ReachableInRange s) (j : ImportJob) (cancelled : Bool) :
      ReachableInRange (j.step cancelled s).2

variable {s s' : Scene} {index : Nat} {l : Layer} {ls : List Layer} {answer : Answer}

/-! ### Lists of layers -/

lemma inRange_of_mem_toLayers {d : Document} (hl : l ∈ d.toLayers) : l.InRange := by
  obtain ⟨r, -, rfl⟩ := List.mem_map.mp hl
  exact r.toLayer_inRange

/-- A new layer is in range. -/
lemma inRange_new (name : String) (tickStart : Int64) : Layer.InRange { name, tickStart } := by
  have hdefault : ({} : Layer).InRange := ⟨by decide, by decide, by decide, by decide, by decide⟩
  have hsame : ({} : Layer).SameBut ["name", "tick_start"] { name, tickStart } := by
    constructor <;> simp
  exact hsame.inRange (by simp) (by simp) (by simp) hdefault

lemma inRange_show (hl : l.InRange) : Layer.InRange { l with visible := true } := by
  have hsame : l.SameBut ["visible"] { l with visible := true } := by
    constructor <;> simp
  exact hsame.inRange (by simp) (by simp) (by simp) hl

lemma inRange_elements (hl : l.InRange) (es : List Element) :
    Layer.InRange { l with elements := es } :=
  (l.sameBut_elements es).inRange (by simp) (by simp) (by simp) hl

lemma ofLayers_allInRange (h : ∀ l ∈ ls, l.InRange) : (ofLayers ls).AllInRange := by
  refine ⟨h, ?_⟩
  intro e he
  obtain rfl := List.mem_singleton.mp he
  exact h

lemma load_allInRange (s : Scene) (d : Document) : (s.load d).AllInRange := by
  refine ⟨fun l => inRange_of_mem_toLayers, ?_⟩
  intro e he
  obtain rfl := List.mem_singleton.mp he
  exact fun l => inRange_of_mem_toLayers

/-- Exchanged neighbours are the same items. -/
lemma perm_of_exchangedAt {α : Type} {xs ys : List α} (h : ExchangedAt index xs ys) :
    ys.Perm xs := by
  obtain ⟨front, a, b, back, -, rfl, rfl⟩ := h
  exact (List.Perm.swap a b back).append_left front

namespace AllInRange

lemma commit (hs : s.AllInRange) (action : Action) (description : String) :
    (s.commit action description).AllInRange := by
  refine ⟨hs.layers, ?_⟩
  intro e he
  rcases History.mem_push he with hold | rfl
  · exact hs.snapshots e hold
  · exact hs.layers

lemma record (hs : s.AllInRange) (h : ∀ l ∈ ls, l.InRange) (action : Action)
    (description : String) : (s.record action description ls).AllInRange :=
  commit (s := { s with layers := ls }) ⟨h, hs.snapshots⟩ action description

/-- Going to another entry brings back its layers and keeps all entries. -/
lemma restore (hs : s.AllInRange) {e : Entry (List Layer)} {history : History (List Layer)}
    (h : e ∈ s.history.entries ∧ history.entries = s.history.entries) :
    AllInRange { layers := e.snapshot, history } := by
  obtain ⟨he, hentries⟩ := h
  refine ⟨hs.snapshots e he, ?_⟩
  change ∀ e ∈ history.entries, _
  rw [hentries]
  exact hs.snapshots

/-! ### One operation -/

lemma getElem? (hs : s.AllInRange) (hl : s.layers[index]? = some l) : l.InRange :=
  hs.layers l (List.mem_of_getElem? hl)

lemma put (hs : s.AllInRange) (hl : l.InRange) (action : Action) (description : String) :
    (s.put index action description l).AllInRange :=
  hs.record (Document.forall_mem_set hs.layers hl) action description

/-- What is done to the elements of a layer does not matter. -/
lemma put_elements (hs : s.AllInRange) (hl : s.layers[index]? = some l) (es : List Element)
    (action : Action) (description : String) :
    (s.put index action description { l with elements := es }).AllInRange :=
  hs.put (inRange_elements (hs.getElem? hl) es) action description

lemma pushLayer (hs : s.AllInRange) (hl : l.InRange) : (s.pushLayer l).2.AllInRange := by
  apply hs.record
  intro m hm
  rcases List.mem_append.mp hm with hold | hnew
  · exact hs.layers m hold
  · obtain rfl := List.mem_singleton.mp hnew
    exact hl

lemma swapWithNext (hs : s.AllInRange) (hlt : index + 1 < s.layers.length) (description : String) :
    (s.record .layerChange description (swapWithNext s.layers index)).AllInRange := by
  apply hs.record
  intro m hm
  exact hs.layers m ((perm_of_exchangedAt (exchangedAt_swapWithNext hlt)).mem_iff.mp hm)

lemma showAllLayers (hs : s.AllInRange) : s.showAllLayers.AllInRange := by
  apply hs.record
  intro m hm
  obtain ⟨l, hl, rfl⟩ := List.mem_map.mp hm
  exact inRange_show (hs.layers l hl)

lemma undo (hs : s.AllInRange) (h : s.undo = .ok s') : s'.AllInRange := by
  obtain ⟨⟨e, history⟩, hundo, h⟩ := bind_eq_ok_iff.mp h
  cases h
  exact hs.restore (History.entries_undo hundo)

lemma redo (hs : s.AllInRange) (h : s.redo = .ok s') : s'.AllInRange := by
  obtain ⟨⟨e, history⟩, hredo, h⟩ := bind_eq_ok_iff.mp h
  cases h
  exact hs.restore (History.entries_redo hredo)

lemma setLimit (hs : s.AllInRange) (limit : Nat) : (s.setLimit limit).AllInRange :=
  ⟨hs.layers, fun e he => hs.snapshots e (History.mem_setLimit he)⟩

/-- An operation keeps layers in range: edits bring the layer they change into range, and what
else changes a layer keeps the fields that matter. -/
lemma attempt (hs : s.AllInRange) {op : Operation} (hop : op.PushesInRange)
    (h : s.attempt op = .ok (answer, s')) : s'.AllInRange := by
  cases op with
  | addLayer name tickStart =>
    cases h
    exact hs.pushLayer (inRange_new name tickStart)
  | pushLayer l =>
    cases h
    exact hs.pushLayer hop
  | removeLayer index =>
    obtain ⟨l, -, -, rfl⟩ := attempt_removeLayer.mp h
    exact hs.record (fun m hm => hs.layers m (List.mem_of_mem_eraseIdx hm)) ..
  | renameLayer index name =>
    obtain ⟨l, -, -, rfl⟩ := (attempt_editLayer (e := .name name)).mp h
    exact hs.put (LayerEdit.apply_inRange (.name name) l) ..
  | moveLayerUp index =>
    cases index with
    | zero =>
      obtain ⟨-, -, rfl⟩ := attempt_moveLayerUp_zero.mp h
      exact hs
    | succ index =>
      obtain ⟨hlt, -, rfl⟩ := attempt_moveLayerUp_succ.mp h
      exact hs.swapWithNext hlt ..
  | moveLayerDown index =>
    rcases attempt_moveLayerDown.mp h with ⟨hlt, -, rfl⟩ | ⟨-, -, rfl⟩
    · exact hs.swapWithNext hlt ..
    · exact hs
  | editLayer index e =>
    obtain ⟨l, -, -, rfl⟩ := attempt_editLayer.mp h
    exact hs.put (e.apply_inRange l) ..
  | inputField index field raw =>
    obtain ⟨l, -, ⟨e, -, -, rfl⟩ | ⟨-, -, rfl⟩⟩ := attempt_inputField.mp h
    · exact hs.put (e.apply_inRange l) ..
    · exact hs
  | setLayerColor index color =>
    obtain ⟨l, normal, hl, -, -, rfl⟩ := attempt_setLayerColor.mp h
    have hrange : (l.recolor normal).InRange :=
      (l.sameBut_recolor normal).inRange (by simp) (by simp) (by simp) (hs.getElem? hl)
    exact hs.put hrange ..
  | showAllLayers =>
    cases h
    exact hs.showAllLayers
  | appendElements index es =>
    obtain ⟨l, hl, -, rfl⟩ := attempt_appendElements.mp h
    exact hs.put_elements hl ..
  | importElements index source =>
    obtain ⟨l, es, hl, -, -, rfl⟩ := attempt_importElements.mp h
    cases source.mode with
    | append => exact hs.put_elements hl ..
    | replace => exact hs.put_elements hl ..
  | removeElement index element =>
    obtain ⟨l, e, hl, -, -, rfl⟩ := attempt_removeElement.mp h
    exact hs.put_elements hl ..
  | clearLayer index =>
    obtain ⟨l, hl, -, rfl⟩ := attempt_clearLayer.mp h
    exact hs.put_elements hl ..
  | load d =>
    cases h
    exact load_allInRange s d
  | undo => exact hs.undo (map_done_eq_ok.mp h).1
  | redo => exact hs.redo (map_done_eq_ok.mp h).1
  | setLimit limit =>
    cases h
    exact hs.setLimit limit

lemma perform (hs : s.AllInRange) {op : Operation} (hop : op.PushesInRange) :
    (s.perform op).2.AllInRange := by
  unfold Scene.perform
  split
  · exact hs.attempt hop ‹_›
  · exact hs

end AllInRange

/-! ### One step of an import -/

lemma AllInRange.updateTarget (hs : s.AllInRange) {j : ImportJob} {f : Layer → List Element}
    (h : j.updateTarget s (fun l => { l with elements := f l }) = .ok s') : s'.AllInRange := by
  obtain ⟨l, hl, h⟩ := bind_eq_ok_iff.mp h
  cases h
  have hrange := inRange_elements (hs.getElem? (layerAt_eq_ok.mp hl)) (f l)
  exact ⟨Document.forall_mem_set hs.layers hrange, hs.snapshots⟩

/-- A job changes nothing but elements, and records what is there. -/
lemma AllInRange.step (hs : s.AllInRange) (j : ImportJob) (cancelled : Bool) :
    (j.step cancelled s).2.AllInRange := by
  rw [ImportJob.step]
  split
  case h_1 => exact hs
  case h_2 parts _ =>
    split
    · exact hs.updateTarget ‹_›
    · exact hs
  case h_3 => exact hs.commit ..
  case h_4 part parts _ =>
    split
    · exact hs.commit ..
    · split
      · exact hs.updateTarget ‹_›
      · exact hs
  case h_5 => exact hs

/-! ### Runs -/

lemma ReachableInRange.performAll (h : s.ReachableInRange) {ops : List Operation}
    (hops : ∀ op ∈ ops, op.PushesInRange) : (s.performAll ops).ReachableInRange := by
  induction ops generalizing s with
  | nil => exact h
  | cons op ops ih =>
    apply ih (h.perform (hops op List.mem_cons_self))
    intro op' hop'
    exact hops op' (List.mem_cons_of_mem op hop')

/-- Whatever was done to a scene that started empty or from a document, its layers are in range, and
so are those of every entry of its history, as long as no layer was pushed that is not. -/
theorem allInRange_of_reachableInRange (h : s.ReachableInRange) : s.AllInRange := by
  induction h with
  | empty => exact ofLayers_allInRange (by simp)
  | ofDocument d => exact ofLayers_allInRange fun l => inRange_of_mem_toLayers
  | perform _ hop ih => exact ih.perform hop
  | step _ j cancelled ih => exact ih.step j cancelled

/-- A document with an opacity that is no number, a negative count and one beyond 32 bits. -/
def unruly : Document :=
  ⟨[{ alpha := 0.0 / 0.0, repeatCount := -3, repeatInterval := 5000000000 }]⟩

/-- Edits by value and by text that all ask for too little or too much, one of them taken back. -/
def unrulyEdits : List Operation :=
  [.editLayer 0 (.alpha (-1.0 / 0.0)), .inputField 0 "repeat" "0",
    .editLayer 0 (.repeatInterval 0), .undo]

/-- All four snapshots of the history are in range, and so is what an import leaves. -/
theorem allInRange_of_reachableInRange_unruly :
    let s := (ofDocument unruly).performAll unrulyEdits
    let j : ImportJob :=
      { target := 0, source := .ofElements [], chunkSize := 1, stage := .clearing [] }
    s.history.entries.length = 4 ∧ s.ReachableInRange ∧ s.AllInRange ∧
      (j.step false s).2.AllInRange := by
  intro s j
  have h : s.ReachableInRange := (ReachableInRange.ofDocument unruly).performAll (by
    simp [unrulyEdits, Operation.PushesInRange])
  exact ⟨by decide, h, allInRange_of_reachableInRange h,
    allInRange_of_reachableInRange (h.step j false)⟩

end Scene

end ParticleScene
