import ParticleScene.Proofs.Scene.Coherence

/-!
# Operations that work in place

An editor carries an operation out in place: it checks, writes to the scene, and records what it
has written. If a check fails after something was written, the scene keeps that half of the
operation. `Operation.inPlace` carries each operation out write by write, and `refusal?` says
when an operation must not succeed. The main statement: a procedure fails exactly when it is
refused, before its first write, and otherwise does what `perform` does.
-/

namespace ParticleScene

/-- A procedure that works on a scene in place. When it fails, its writes until then remain. -/
abbrev InPlace := EStateM Failure Scene

namespace InPlace

/-! ### Reads and writes -/

/-- The layer at an index, which must be there. -/
def target (index : Nat) : InPlace Layer := do
  let s ← get
  match s.layers[index]? with
  | some l => return l
  | none => throw (.layerNotFound index s.layers.length)

def modifyLayers (f : List Layer → List Layer) : InPlace Unit :=
  modify fun s => { s with layers := f s.layers }

def modifyLayer (index : Nat) (f : Layer → Layer) : InPlace Unit :=
  modifyLayers fun ls => ls.modify index f

def moveCursor (f : Nat → Nat) : InPlace Unit :=
  modify fun s => { s with history := { s.history with cursor := f s.history.cursor } }

def record (action : Action) (description : String) : InPlace Unit :=
  modify fun s => s.commit action description

/-- Write back the layers that the history has at its cursor. -/
def restore : InPlace Unit := do
  let s ← get
  match s.history.current? with
  | some e => modifyLayers fun _ => e.snapshot
  | none => return

/-! ### Operations -/

def pushLayer (l : Layer) : InPlace Nat := do
  modifyLayers (· ++ [l])
  record .layerChange s!"Add layer '{l.name}'"
  return (← get).layers.length - 1

def removeLayer (index : Nat) : InPlace Layer := do
  let l ← target index
  modifyLayers (·.eraseIdx index)
  record .layerChange s!"Remove layer '{l.name}'"
  return l

def editLayer (index : Nat) (e : LayerEdit) : InPlace Unit := do
  let _ ← target index
  modifyLayer index e.set
  modifyLayer index Layer.normalize
  record .layerEdit s!"Set {e.field}"

def inputField (index : Nat) (field raw : String) : InPlace Bool := do
  let l ← target index
  match LayerEdit.ofInput? field raw l with
  | some e =>
    editLayer index e
    return true
  | none => return false

def moveLayerUp (index : Nat) : InPlace Nat := do
  let _ ← target index
  match index with
  | 0 => return 0
  | before + 1 =>
    modifyLayers (Scene.swapWithNext · before)
    record .layerChange "Move layer up"
    return before

def moveLayerDown (index : Nat) : InPlace Nat := do
  let _ ← target index
  if index + 1 < (← get).layers.length then
    modifyLayers (Scene.swapWithNext · index)
    record .layerChange "Move layer down"
    return index + 1
  else return index

def setLayerColor (index : Nat) (color : String) : InPlace Unit := do
  let _ ← target index
  let color ← ofExcept (Color.normalize color)
  modifyLayer index fun l =>
    { l with elements := l.elements.map fun e => { e with color := some color } }
  modifyLayer index fun l => { l with color }
  record .layerEdit "Set color"

def showAllLayers : InPlace Unit := do
  modifyLayers (·.map fun l => { l with visible := true })
  record .layerEdit "Show all layers"

def appendElements (index : Nat) (es : List Element) : InPlace Nat := do
  let _ ← target index
  modifyLayer index fun l => { l with elements := l.elements ++ es }
  record .elementChange s!"Add {es.length} elements"
  return es.length

def importElements (index : Nat) (source : Source) : InPlace Nat := do
  let l ← target index
  let es ← ofExcept (source.produce l).outcome
  if source.mode = .replace then
    modifyLayer index fun l => { l with elements := [] }
  modifyLayer index fun l => { l with elements := l.elements ++ es }
  record .imported source.description
  return es.length

def removeElement (index element : Nat) : InPlace Element := do
  let l ← target index
  match l.elements[element]? with
  | some e =>
    modifyLayer index fun l => { l with elements := l.elements.eraseIdx element }
    record .elementChange "Remove element"
    return e
  | none => throw (.elementNotFound l.name element)

def clearLayer (index : Nat) : InPlace Unit := do
  let _ ← target index
  modifyLayer index fun l => { l with elements := [] }
  record .elementChange "Clear layer"

def load (d : Document) : InPlace Unit := do
  modifyLayers fun _ => d.toLayers
  modify fun s => { s with history := s.history.reset .load "Load scene" s.layers }

def undo : InPlace Unit := do
  if (← get).history.cursor = 0 then throw .nothingToUndo
  moveCursor (· - 1)
  restore

def redo : InPlace Unit := do
  let s ← get
  if s.history.cursor + 1 ≥ s.history.entries.length then throw .nothingToRedo
  moveCursor (· + 1)
  restore

end InPlace

/-- An operation carried out in place. -/
def Operation.inPlace : Operation → InPlace Answer
  | addLayer name tickStart => .index <$> InPlace.pushLayer { name, tickStart }
  | pushLayer layer => .index <$> InPlace.pushLayer layer
  | removeLayer index => .layer <$> InPlace.removeLayer index
  | renameLayer index name => do InPlace.editLayer index (.name name); return .done
  | moveLayerUp index => .index <$> InPlace.moveLayerUp index
  | moveLayerDown index => .index <$> InPlace.moveLayerDown index
  | editLayer index edit => do InPlace.editLayer index edit; return .done
  | inputField index field raw => .known <$> InPlace.inputField index field raw
  | setLayerColor index color => do InPlace.setLayerColor index color; return .done
  | showAllLayers => do InPlace.showAllLayers; return .done
  | appendElements index elements => .count <$> InPlace.appendElements index elements
  | importElements index source => .count <$> InPlace.importElements index source
  | removeElement index element => .element <$> InPlace.removeElement index element
  | clearLayer index => do InPlace.clearLayer index; return .done
  | load document => do InPlace.load document; return .done
  | undo => do InPlace.undo; return .done
  | redo => do InPlace.redo; return .done
  | setLimit limit => do modify (·.setLimit limit); return .done

namespace InPlace

variable {α β γ : Type} {s : Scene} {index : Nat} {l : Layer}

/-- The result of a procedure that gives what `out` says and leaves the scene alone on failure. -/
def unlessFailed (s : Scene) (f : β → α × Scene) (out : Except Failure β) :
    EStateM.Result Failure Scene α :=
  match out with
  | .ok b => .ok (f b).1 (f b).2
  | .error why => .error why s

/-! ### Checks -/

/-- The layer at an index is looked up before anything is written. -/
lemma run_target_bind {x : Layer → InPlace α} {out : Layer → Except Failure β}
    {f : β → α × Scene}
    (h : ∀ l, s.layers[index]? = some l → (x l).run s = unlessFailed s f (out l)) :
    (target index >>= x).run s = unlessFailed s f (s.layerAt index >>= out) := by
  rw [EStateM.run_bind, target, EStateM.run_bind, EStateM.run_get, Scene.layerAt]
  dsimp only
  cases hl : s.layers[index]? with
  | none => rfl
  | some l => exact h l hl

/-- A check that fails before anything is written. -/
lemma run_ofExcept_bind {check : Except Failure γ} {x : γ → InPlace α}
    {out : γ → Except Failure β} {f : β → α × Scene}
    (h : ∀ c, check = .ok c → (x c).run s = unlessFailed s f (out c)) :
    (ofExcept check >>= x).run s = unlessFailed s f (check >>= out) := by
  cases check with
  | error why => rfl
  | ok c => exact h c rfl

/-! ### Writes -/

lemma modify_eq_set {ls : List Layer} (hl : ls[index]? = some l) (f : Layer → Layer) :
    ls.modify index f = ls.set index (f l) := by
  rw [List.modify_eq_set_getElem?, hl]
  rfl

lemma run_modifyLayer (hl : s.layers[index]? = some l) (f : Layer → Layer) :
    (modifyLayer index f).run s = .ok () { s with layers := s.layers.set index (f l) } := by
  rw [← modify_eq_set hl]
  rfl

lemma run_modifyLayer_record (hl : s.layers[index]? = some l) (f : Layer → Layer)
    (action : Action) (description : String) :
    (do modifyLayer index f; record action description : InPlace Unit).run s =
      .ok () (s.put index action description (f l)) := by
  rw [EStateM.run_bind, run_modifyLayer hl]
  rfl

lemma getElem?_set (hl : s.layers[index]? = some l) (l' : Layer) :
    (s.layers.set index l')[index]? = some l' :=
  List.getElem?_set_self (List.getElem?_eq_some_iff.mp hl).1

/-! ### Procedures -/

lemma run_pushLayer (s : Scene) (l : Layer) :
    (pushLayer l).run s = unlessFailed s id (.ok (s.pushLayer l)) := by
  have hindex : (s.layers ++ [l]).length - 1 = s.layers.length := by simp
  rw [Scene.pushLayer, ← hindex]
  rfl

lemma run_removeLayer (s : Scene) (index : Nat) :
    (removeLayer index).run s = unlessFailed s id (s.removeLayer index) :=
  run_target_bind fun _ _ => rfl

lemma run_editLayer (s : Scene) (index : Nat) (e : LayerEdit) :
    (editLayer index e).run s = unlessFailed s ((), ·) (s.editLayer index e) := by
  apply run_target_bind
  intro l hl
  rw [EStateM.run_bind, run_modifyLayer hl]
  dsimp only
  rw [run_modifyLayer_record (getElem?_set hl _)]
  simp only [Scene.put, Scene.record, List.set_set, unlessFailed]
  rfl

lemma run_inputField (s : Scene) (index : Nat) (field raw : String) :
    (inputField index field raw).run s = unlessFailed s id (s.inputField index field raw) := by
  apply run_target_bind
  intro l hl
  cases LayerEdit.ofInput? field raw l with
  | none => rfl
  | some e =>
    dsimp only
    rw [EStateM.run_bind, run_editLayer]
    cases s.editLayer index e <;> rfl

lemma run_moveLayerUp (s : Scene) (index : Nat) :
    (moveLayerUp index).run s = unlessFailed s id (s.moveLayerUp index) := by
  apply run_target_bind
  intro l hl
  cases index <;> rfl

lemma run_moveLayerDown (s : Scene) (index : Nat) :
    (moveLayerDown index).run s = unlessFailed s id (s.moveLayerDown index) := by
  apply run_target_bind
  intro l hl
  rw [EStateM.run_bind, EStateM.run_get]
  dsimp only
  split <;> rfl

lemma run_setLayerColor (s : Scene) (index : Nat) (color : String) :
    (setLayerColor index color).run s = unlessFailed s ((), ·) (s.setLayerColor index color) := by
  apply run_target_bind
  intro l hl
  apply run_ofExcept_bind
  intro color hcolor
  rw [EStateM.run_bind, run_modifyLayer hl]
  dsimp only
  rw [run_modifyLayer_record (getElem?_set hl _)]
  simp only [Scene.put, Scene.record, List.set_set]
  rfl

lemma run_appendElements (s : Scene) (index : Nat) (es : List Element) :
    (appendElements index es).run s = unlessFailed s id (s.appendElements index es) := by
  apply run_target_bind
  intro l hl
  rw [EStateM.run_bind, run_modifyLayer hl]
  rfl

lemma run_importElements (s : Scene) (index : Nat) (source : Source) :
    (importElements index source).run s = unlessFailed s id (s.importElements index source) := by
  apply run_target_bind
  intro l hl
  apply run_ofExcept_bind
  intro es hes
  cases hmode : source.mode with
  | append =>
    rw [if_neg (by decide), EStateM.run_bind, run_modifyLayer hl]
    rfl
  | replace =>
    rw [if_pos rfl, EStateM.run_bind, run_modifyLayer hl]
    dsimp only
    rw [EStateM.run_bind, run_modifyLayer (getElem?_set hl _)]
    simp only [Scene.put, Scene.record, Layer.merge, List.set_set, List.nil_append]
    rfl

lemma run_removeElement (s : Scene) (index element : Nat) :
    (removeElement index element).run s = unlessFailed s id (s.removeElement index element) := by
  apply run_target_bind
  intro l hl
  rw [Layer.removeElement]
  cases l.elements[element]? with
  | none => rfl
  | some e =>
    dsimp only
    rw [EStateM.run_bind, run_modifyLayer hl]
    rfl

lemma run_clearLayer (s : Scene) (index : Nat) :
    (clearLayer index).run s = unlessFailed s ((), ·) (s.clearLayer index) := by
  apply run_target_bind
  intro l hl
  rw [run_modifyLayer_record hl]
  rfl

lemma run_restore {e : Entry (List Layer)} (he : s.history.current? = some e) :
    restore.run s = .ok () { s with layers := e.snapshot } := by
  rw [restore, EStateM.run_bind, EStateM.run_get]
  dsimp only
  rw [he]
  rfl

/-- Moving the cursor to an entry and writing its layers back. -/
lemma run_moveCursor_restore {f : Nat → Nat} {why : Failure}
    (hf : f s.history.cursor < s.history.entries.length) :
    (do moveCursor f; restore : InPlace Unit).run s =
      unlessFailed s ((), ·) (do
        let (e, history) ← s.history.goTo (f s.history.cursor) why
        return { layers := e.snapshot, history }) := by
  rw [History.goTo, List.getElem?_eq_getElem hf]
  exact run_restore (s := { s with history := { s.history with cursor := f s.history.cursor } })
    (List.getElem?_eq_getElem hf)

lemma run_undo (hwf : s.history.WellFormed) :
    undo.run s = unlessFailed s ((), ·) s.undo := by
  rw [undo, Scene.undo, History.undo, EStateM.run_bind, EStateM.run_get]
  dsimp only
  by_cases hcursor : s.history.cursor = 0
  · rw [if_pos hcursor, if_pos hcursor]
    rfl
  · rw [if_neg hcursor, if_neg hcursor]
    exact run_moveCursor_restore (Nat.lt_of_le_of_lt (Nat.sub_le ..) hwf.cursor_lt)

lemma run_redo (s : Scene) : redo.run s = unlessFailed s ((), ·) s.redo := by
  rw [redo, Scene.redo, History.redo, EStateM.run_bind, EStateM.run_get]
  dsimp only
  by_cases hlast : s.history.cursor + 1 ≥ s.history.entries.length
  · rw [if_pos hlast, History.goTo, List.getElem?_eq_none hlast]
    rfl
  · rw [if_neg hlast]
    exact run_moveCursor_restore (Nat.lt_of_not_ge hlast)

/-! ### Agreement -/

lemma run_map_answer {x : InPlace β} {out : Except Failure (β × Scene)} (f : β → Answer)
    (h : x.run s = unlessFailed s id out) :
    (f <$> x).run s = unlessFailed s id (out.map (·.map f id)) := by
  rw [map_eq_pure_bind, EStateM.run_bind, h]
  cases out <;> rfl

lemma run_done {x : InPlace Unit} {out : Except Failure Scene}
    (h : x.run s = unlessFailed s ((), ·) out) :
    (do x; return .done : InPlace Answer).run s = unlessFailed s id (out.map (.done, ·)) := by
  rw [EStateM.run_bind, h]
  cases out <;> rfl

end InPlace

open InPlace in
/-- In place, an operation does what it does at once. -/
lemma Operation.run_inPlace {s : Scene} (hwf : s.history.WellFormed) (op : Operation) :
    op.inPlace.run s = unlessFailed s id (s.attempt op) := by
  cases op with
  | addLayer name tickStart => exact run_map_answer _ (run_pushLayer s { name, tickStart })
  | pushLayer layer => exact run_map_answer _ (run_pushLayer s layer)
  | removeLayer index => exact run_map_answer _ (run_removeLayer s index)
  | renameLayer index name => exact run_done (run_editLayer s index (.name name))
  | moveLayerUp index => exact run_map_answer _ (run_moveLayerUp s index)
  | moveLayerDown index => exact run_map_answer _ (run_moveLayerDown s index)
  | editLayer index edit => exact run_done (run_editLayer s index edit)
  | inputField index field raw => exact run_map_answer _ (run_inputField s index field raw)
  | setLayerColor index color => exact run_done (run_setLayerColor s index color)
  | showAllLayers => rfl
  | appendElements index elements => exact run_map_answer _ (run_appendElements s index elements)
  | importElements index source => exact run_map_answer _ (run_importElements s index source)
  | removeElement index element => exact run_map_answer _ (run_removeElement s index element)
  | clearLayer index => exact run_done (run_clearLayer s index)
  | load document => rfl
  | undo => exact run_done (run_undo hwf)
  | redo => exact run_done (run_redo s)
  | setLimit limit => rfl

namespace Scene

/-! ### Refusals -/

variable {s : Scene}

/-- Why an operation on a layer is refused: the layer is not there, or the layer has a reason. -/
def refusalAt (s : Scene) (index : Nat) (reason : Layer → Option Failure) : Option Failure :=
  match s.layers[index]? with
  | some l => reason l
  | none => some (.layerNotFound index s.layers.length)

/-- Why an operation must not succeed on a scene, if it must not. -/
def refusal? (s : Scene) : Operation → Option Failure
  | .addLayer _ _ | .pushLayer _ | .showAllLayers | .load _ | .setLimit _ => none
  | .removeLayer index | .renameLayer index _ | .moveLayerUp index | .moveLayerDown index
  | .editLayer index _ | .inputField index _ _ | .appendElements index _ | .clearLayer index =>
    s.refusalAt index fun _ => none
  | .setLayerColor index color => s.refusalAt index fun _ => failure? (Color.normalize color)
  | .importElements index source =>
    s.refusalAt index fun l => failure? (source.produce l).outcome
  | .removeElement index element => s.refusalAt index fun l =>
    if l.elements.length ≤ element then some (.elementNotFound l.name element) else none
  | .undo => if s.history.cursor = 0 then some .nothingToUndo else none
  | .redo =>
    if s.history.cursor + 1 = s.history.entries.length then some .nothingToRedo else none

lemma failure?_layerAt_bind {index : Nat} {f : Layer → Except Failure α}
    {reason : Layer → Option Failure}
    (hf : ∀ l, s.layers[index]? = some l → failure? (f l) = reason l) :
    failure? (s.layerAt index >>= f) = s.refusalAt index reason := by
  rw [layerAt, refusalAt]
  cases hl : s.layers[index]? with
  | none => rfl
  | some l => exact hf l hl

lemma failure?_editLayer (s : Scene) (index : Nat) (e : LayerEdit) :
    failure? (s.editLayer index e) = s.refusalAt index fun _ => none :=
  failure?_layerAt_bind fun _ _ => rfl

lemma failure?_editLayer_of_getElem? {index : Nat} {l : Layer} (hl : s.layers[index]? = some l)
    (e : LayerEdit) : failure? (s.editLayer index e) = none := by
  rw [failure?_editLayer, refusalAt, hl]

lemma failure?_setLayerColor (s : Scene) (index : Nat) (color : String) :
    failure? (s.setLayerColor index color) =
      s.refusalAt index fun _ => failure? (Color.normalize color) :=
  failure?_layerAt_bind fun _ _ => failure?_bind fun _ => rfl

lemma failure?_importElements (s : Scene) (index : Nat) (source : Source) :
    failure? (s.importElements index source) =
      s.refusalAt index fun l => failure? (source.produce l).outcome :=
  failure?_layerAt_bind fun _ _ => failure?_bind fun _ => rfl

lemma failure?_removeElement (s : Scene) (index element : Nat) :
    failure? (s.removeElement index element) = s.refusalAt index fun l =>
      if l.elements.length ≤ element then some (.elementNotFound l.name element) else none := by
  apply failure?_layerAt_bind
  intro l hl
  rw [failure?_bind fun _ => rfl, Layer.removeElement]
  by_cases hlength : l.elements.length ≤ element
  · rw [if_pos hlength, List.getElem?_eq_none hlength]
    rfl
  · rw [if_neg hlength, List.getElem?_eq_getElem (Nat.lt_of_not_ge hlength)]
    rfl

lemma failure?_inputField (s : Scene) (index : Nat) (field raw : String) :
    failure? (s.inputField index field raw) = s.refusalAt index fun _ => none := by
  apply failure?_layerAt_bind
  intro l hl
  cases LayerEdit.ofInput? field raw l with
  | none => rfl
  | some e => exact (failure?_bind fun _ => rfl).trans (failure?_editLayer_of_getElem? hl e)

lemma failure?_moveLayerUp (s : Scene) (index : Nat) :
    failure? (s.moveLayerUp index) = s.refusalAt index fun _ => none := by
  apply failure?_layerAt_bind
  intro l hl
  cases index <;> rfl

lemma failure?_moveLayerDown (s : Scene) (index : Nat) :
    failure? (s.moveLayerDown index) = s.refusalAt index fun _ => none := by
  apply failure?_layerAt_bind
  intro l hl
  split <;> rfl

lemma failure?_undo (hwf : s.history.WellFormed) :
    failure? s.undo = if s.history.cursor = 0 then some .nothingToUndo else none := by
  rw [undo, failure?_bind fun _ => rfl, History.undo]
  split
  · rfl
  · have hlt : s.history.cursor - 1 < s.history.entries.length :=
      Nat.lt_of_le_of_lt (Nat.sub_le ..) hwf.cursor_lt
    rw [History.goTo, List.getElem?_eq_getElem hlt]
    rfl

lemma failure?_redo (hwf : s.history.WellFormed) :
    failure? s.redo =
      if s.history.cursor + 1 = s.history.entries.length then some .nothingToRedo else none := by
  rw [redo, failure?_bind fun _ => rfl, History.redo, History.goTo]
  by_cases hlast : s.history.cursor + 1 = s.history.entries.length
  · rw [if_pos hlast, List.getElem?_eq_none (Nat.le_of_eq hlast.symm)]
    rfl
  · rw [if_neg hlast, List.getElem?_eq_getElem (Nat.lt_of_le_of_ne hwf.cursor_lt hlast)]
    rfl

lemma failure?_attempt (hwf : s.history.WellFormed) (op : Operation) :
    failure? (s.attempt op) = s.refusal? op := by
  cases op with
  | addLayer name tickStart => rfl
  | pushLayer layer => rfl
  | showAllLayers => rfl
  | load document => rfl
  | setLimit limit => rfl
  | removeLayer index => exact (failure?_map ..).trans (failure?_layerAt_bind fun _ _ => rfl)
  | renameLayer index name => exact (failure?_map ..).trans (failure?_editLayer ..)
  | moveLayerUp index => exact (failure?_map ..).trans (failure?_moveLayerUp ..)
  | moveLayerDown index => exact (failure?_map ..).trans (failure?_moveLayerDown ..)
  | editLayer index edit => exact (failure?_map ..).trans (failure?_editLayer ..)
  | inputField index field raw => exact (failure?_map ..).trans (failure?_inputField ..)
  | setLayerColor index color => exact (failure?_map ..).trans (failure?_setLayerColor ..)
  | appendElements index elements =>
    exact (failure?_map ..).trans (failure?_layerAt_bind fun _ _ => rfl)
  | importElements index source => exact (failure?_map ..).trans (failure?_importElements ..)
  | removeElement index element => exact (failure?_map ..).trans (failure?_removeElement ..)
  | clearLayer index => exact (failure?_map ..).trans (failure?_layerAt_bind fun _ _ => rfl)
  | undo => exact (failure?_map ..).trans (failure?_undo hwf)
  | redo => exact (failure?_map ..).trans (failure?_redo hwf)

/-- An operation fails exactly when it is refused, with that reason and with nothing written, in
place and at once. Otherwise it succeeds, and both ways give the same answer and scene. -/
theorem fails_iff_refused (hwf : s.history.WellFormed) (op : Operation) :
    (∀ why s', op.inPlace.run s = .error why s' ↔ s.refusal? op = some why ∧ s' = s) ∧
      (s.refusal? op = none ↔ ∃ answer s', op.inPlace.run s = .ok answer s') ∧
      (∀ why s', s.perform op = (.error why, s') ↔ s.refusal? op = some why ∧ s' = s) ∧
      ∀ answer s', s.perform op = (.ok answer, s') ↔ op.inPlace.run s = .ok answer s' := by
  rw [op.run_inPlace hwf, ← failure?_attempt hwf, perform]
  cases s.attempt op with
  | error why => simp [InPlace.unlessFailed, failure?, @eq_comm _ s]
  | ok out => simp [InPlace.unlessFailed, failure?]

/-- A scene with one empty layer. -/
def oneLayer : Scene :=
  empty.performAll [.addLayer "Layer" 0]

/-- A color that is none is refused after the layer was found, and the layer keeps its own. -/
theorem fails_iff_refused_crimson :
    oneLayer.history.WellFormed ∧
      oneLayer.refusal? (.setLayerColor 0 "crimson") = some (.invalidColor "crimson") ∧
      (Operation.setLayerColor 0 "crimson").inPlace.run oneLayer =
        .error (.invalidColor "crimson") oneLayer ∧
      oneLayer.perform (.setLayerColor 0 "crimson") =
        (.error (.invalidColor "crimson"), oneLayer) :=
  have hwf : oneLayer.history.WellFormed := (Reachable.empty.performAll _).coherent.wellFormed
  have hrefused : oneLayer.refusal? (.setLayerColor 0 "crimson") =
      some (.invalidColor "crimson") := by decide
  have ⟨hinPlace, _, hperform, _⟩ := fails_iff_refused hwf (.setLayerColor 0 "crimson")
  ⟨hwf, hrefused, (hinPlace _ _).mpr ⟨hrefused, rfl⟩, (hperform _ _).mpr ⟨hrefused, rfl⟩⟩

end Scene

end ParticleScene
