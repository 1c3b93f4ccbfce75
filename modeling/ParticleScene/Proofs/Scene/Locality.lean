import ParticleScene.Proofs.History.Entries
import ParticleScene.Proofs.LayerEdit
import ParticleScene.Proofs.Scene.Coherence
import ParticleScene.Proofs.Scene.Effects

/-!
# Operations change what they address

An operation that works on one layer leaves the others, their number and their order as they are,
and `Operation.Alters` says what becomes of that layer. A removal takes out one layer, and a move
exchanges two neighbours, so moving down again undoes moving up. Each of them records one entry,
unless there was nothing to do.
-/

namespace ParticleScene

/-- The index of the layer that an operation works on. -/
def Operation.layer? : Operation → Option Nat
  | .renameLayer index _ | .editLayer index _ | .inputField index _ _ | .setLayerColor index _
  | .appendElements index _ | .importElements index _ | .removeElement index _
  | .clearLayer index => some index
  | _ => none

/-- What an operation that gives an answer makes of the layer it works on. Edits bring a layer into
range, so what they leave alone is said of layers that are in range. -/
def Operation.Alters (l l' : Layer) : Operation → Answer → Prop
  | .renameLayer _ name, .done => l.InRange → l.SameBut ["name"] l' ∧ l'.name = name
  | .editLayer _ e, .done => l.InRange → l.SameBut [e.field] l' ∧ l' = e.inRange.set l
  | .inputField _ field raw, .known true => l.InRange → l.SameBut [field] l' ∧
    ∃ e, LayerEdit.ofInput? field raw l = some e ∧ l' = e.inRange.set l
  | .inputField _ field raw, .known false => LayerEdit.ofInput? field raw l = none ∧ l' = l
  | .setLayerColor _ color, .done => l.SameBut ["color", "elements"] l' ∧
    Color.normalize color = .ok l'.color ∧
    l'.elements = l.elements.map fun e => { e with color := some l'.color }
  | .appendElements _ es, .count n => l.SameBut ["elements"] l' ∧ n = es.length ∧
    l'.elements = l.elements ++ es
  | .importElements _ source, .count n => l.SameBut ["elements"] l' ∧
    ∃ es, source.produce l = .elements es ∧ n = es.length ∧
      (source.mode = .append → l'.elements = l.elements ++ es) ∧
      (source.mode = .replace → l'.elements = es)
  | .removeElement _ element, .element e => l.SameBut ["elements"] l' ∧
    ∃ front back, front.length = element ∧ l.elements = front ++ e :: back ∧
      l'.elements = front ++ back
  | .clearLayer _, .done => l.SameBut ["elements"] l' ∧ l'.elements = []
  | _, _ => False

/-- Two lists are the same but for the items at an index and behind it, which are exchanged. -/
def ExchangedAt {α : Type} (index : Nat) (xs ys : List α) : Prop :=
  ∃ front a b back, front.length = index ∧ xs = front ++ a :: b :: back ∧
    ys = front ++ b :: a :: back

namespace Scene

/-! ### Items of a list -/

section

variable {α : Type} {xs ys : List α} {index : Nat} {a : α}

/-- The item that is taken out stands between those that are left. -/
lemma exists_eraseIdx_eq (h : xs[index]? = some a) :
    ∃ front back, front.length = index ∧ xs = front ++ a :: back ∧
      xs.eraseIdx index = front ++ back := by
  obtain ⟨hlt, rfl⟩ := List.getElem?_eq_some_iff.mp h
  refine ⟨xs.take index, xs.drop (index + 1), ?_, ?_, List.eraseIdx_eq_take_drop_succ ..⟩
  · rw [List.length_take, Nat.min_eq_left (Nat.le_of_lt hlt)]
  · rw [← List.drop_eq_getElem_cons hlt, List.take_append_drop]

lemma exchangedAt_swapWithNext (h : index + 1 < xs.length) :
    ExchangedAt index xs (swapWithNext xs index) := by
  induction xs generalizing index with
  | nil => simp at h
  | cons a rest ih =>
    cases index with
    | zero =>
      cases rest with
      | nil => simp at h
      | cons b back => exact ⟨[], a, b, back, rfl, rfl, rfl⟩
    | succ index =>
      have hlt : index + 1 < rest.length := by simpa using h
      obtain ⟨front, c, d, back, hlength, hrest, hswap⟩ := ih hlt
      refine ⟨a :: front, c, d, back, by simp [hlength], by simp [hrest], ?_⟩
      rw [swapWithNext, hswap]
      rfl

/-- Exchanging the same neighbours again brings the first list back. -/
lemma swapWithNext_of_exchangedAt (h : ExchangedAt index xs ys) :
    index + 1 < ys.length ∧ swapWithNext ys index = xs := by
  obtain ⟨front, a, b, back, rfl, rfl, rfl⟩ := h
  constructor
  · simp
  · induction front with
    | nil => rfl
    | cons c front ih => simp [swapWithNext, ih]

end

variable {s s' : Scene} {index : Nat} {answer : Answer}

/-! ### One layer -/

/-- An operation that works on one layer puts another one in its place and records that, unless it
was a text for a field that is not known. -/
lemma exists_of_layer? {op : Operation} (hop : op.layer? = some index)
    (h : s.attempt op = .ok (answer, s')) :
    ∃ l l', s.layers[index]? = some l ∧ op.Alters l l' answer ∧
      (answer = .known false ∧ l' = l ∧ s' = s ∨
        ∃ action description, s' = s.put index action description l') := by
  cases op with
  | renameLayer index name =>
    cases hop
    obtain ⟨l, hl, rfl, rfl⟩ := (attempt_editLayer (e := .name name)).mp h
    refine ⟨l, _, hl, ?_, .inr ⟨_, _, rfl⟩⟩
    exact fun hrange => ⟨LayerEdit.apply_sameBut hrange (.name name), rfl⟩
  | editLayer index e =>
    cases hop
    obtain ⟨l, hl, rfl, rfl⟩ := attempt_editLayer.mp h
    refine ⟨l, _, hl, ?_, .inr ⟨_, _, rfl⟩⟩
    exact fun hrange =>
      ⟨LayerEdit.apply_sameBut hrange e, LayerEdit.apply_eq_set_of_inRange hrange e⟩
  | inputField index field raw =>
    cases hop
    obtain ⟨l, hl, ⟨e, he, rfl, rfl⟩ | ⟨he, rfl, rfl⟩⟩ := attempt_inputField.mp h
    · refine ⟨l, _, hl, ?_, .inr ⟨_, _, rfl⟩⟩
      intro hrange
      refine ⟨?_, e, he, LayerEdit.apply_eq_set_of_inRange hrange e⟩
      rw [← LayerEdit.field_of_ofInput? he]
      exact LayerEdit.apply_sameBut hrange e
    · exact ⟨l, l, hl, ⟨he, rfl⟩, .inl ⟨rfl, rfl, rfl⟩⟩
  | setLayerColor index color =>
    cases hop
    obtain ⟨l, normal, hl, hnormal, rfl, rfl⟩ := attempt_setLayerColor.mp h
    exact ⟨l, _, hl, ⟨l.sameBut_recolor normal, hnormal, rfl⟩, .inr ⟨_, _, rfl⟩⟩
  | appendElements index es =>
    cases hop
    obtain ⟨l, hl, rfl, rfl⟩ := attempt_appendElements.mp h
    exact ⟨l, _, hl, ⟨l.sameBut_elements _, rfl, rfl⟩, .inr ⟨_, _, rfl⟩⟩
  | importElements index source =>
    cases hop
    obtain ⟨l, es, hl, hes, rfl, rfl⟩ := attempt_importElements.mp h
    refine ⟨l, _, hl, ⟨?_, es, hes, rfl, ?_, ?_⟩, .inr ⟨_, _, rfl⟩⟩
    · cases source.mode <;> exact l.sameBut_elements _
    · intro hmode
      rw [hmode]
      rfl
    · intro hmode
      rw [hmode]
      rfl
  | removeElement index element =>
    cases hop
    obtain ⟨l, e, hl, he, rfl, rfl⟩ := attempt_removeElement.mp h
    exact ⟨l, _, hl, ⟨l.sameBut_elements _, exists_eraseIdx_eq he⟩, .inr ⟨_, _, rfl⟩⟩
  | clearLayer index =>
    cases hop
    obtain ⟨l, hl, rfl, rfl⟩ := attempt_clearLayer.mp h
    exact ⟨l, _, hl, ⟨l.sameBut_elements _, rfl⟩, .inr ⟨_, _, rfl⟩⟩
  | _ => cases hop

/-! ### All layers -/

lemma record_hasRecorded (hwf : s.history.WellFormed) (action : Action) (description : String)
    (ls : List Layer) :
    s.history.HasRecorded ls (s.record action description ls).history :=
  History.push_hasRecorded hwf action description ls

lemma removeLayer_effect (hwf : s.history.WellFormed)
    (h : s.attempt (.removeLayer index) = .ok (answer, s')) :
    (∃ front l back, front.length = index ∧ s.layers = front ++ l :: back ∧ answer = .layer l ∧
        s'.layers = front ++ back) ∧
      s.history.HasRecorded s'.layers s'.history := by
  obtain ⟨l, hl, rfl, rfl⟩ := attempt_removeLayer.mp h
  obtain ⟨front, back, hlength, hlayers, herased⟩ := exists_eraseIdx_eq hl
  exact ⟨⟨front, l, back, hlength, hlayers, rfl, herased⟩, record_hasRecorded hwf ..⟩

lemma moveLayerUp_effect (hwf : s.history.WellFormed)
    (h : s.attempt (.moveLayerUp (index + 1)) = .ok (answer, s')) :
    answer = .index index ∧ ExchangedAt index s.layers s'.layers ∧
      s.history.HasRecorded s'.layers s'.history := by
  obtain ⟨hlt, rfl, rfl⟩ := attempt_moveLayerUp_succ.mp h
  exact ⟨rfl, exchangedAt_swapWithNext hlt, record_hasRecorded hwf ..⟩

lemma moveLayerDown_effect (hwf : s.history.WellFormed) (hlt : index + 1 < s.layers.length)
    (h : s.attempt (.moveLayerDown index) = .ok (answer, s')) :
    answer = .index (index + 1) ∧ ExchangedAt index s.layers s'.layers ∧
      s.history.HasRecorded s'.layers s'.history := by
  rcases attempt_moveLayerDown.mp h with ⟨-, rfl, rfl⟩ | ⟨hlast, -, -⟩
  · exact ⟨rfl, exchangedAt_swapWithNext hlt, record_hasRecorded hwf ..⟩
  · exact absurd hlast (Nat.ne_of_lt hlt)

/-- Where neighbours were exchanged, a move down exchanges them back. -/
lemma exists_moveLayerDown {ls : List Layer} (h : ExchangedAt index ls s.layers) :
    ∃ t, s.attempt (.moveLayerDown index) = .ok (.index (index + 1), t) ∧ t.layers = ls := by
  obtain ⟨hlt, hback⟩ := swapWithNext_of_exchangedAt h
  exact ⟨_, attempt_moveLayerDown.mpr (.inl ⟨hlt, rfl, rfl⟩), hback⟩

/-- An operation that works on one layer changes that layer alone, and of it only what it is for. A
removal takes out one layer, and a move exchanges two neighbours; moving a layer up and down again
restores the list of layers. Each of them records one entry. The first layer moved up and the last
one moved down leave the scene as it is, and so does a text for a field that is not known. The
history is well-formed in every scene that can be reached (`Reachable.coherent`). -/
theorem changes_what_is_addressed (hwf : s.history.WellFormed) :
    (∀ op index answer s', op.layer? = some index → s.attempt op = .ok (answer, s') →
      ∃ l l', s.layers[index]? = some l ∧ s'.layers = s.layers.set index l' ∧
        op.Alters l l' answer ∧
        (answer = .known false ∧ s' = s ∨ s.history.HasRecorded s'.layers s'.history)) ∧
    (∀ index answer s', s.attempt (.removeLayer index) = .ok (answer, s') →
      (∃ front l back, front.length = index ∧ s.layers = front ++ l :: back ∧
        answer = .layer l ∧ s'.layers = front ++ back) ∧
      s.history.HasRecorded s'.layers s'.history) ∧
    (∀ index answer s', s.attempt (.moveLayerUp (index + 1)) = .ok (answer, s') →
      (answer = .index index ∧ ExchangedAt index s.layers s'.layers ∧
        s.history.HasRecorded s'.layers s'.history) ∧
      ∃ t, s'.attempt (.moveLayerDown index) = .ok (.index (index + 1), t) ∧
        t.layers = s.layers) ∧
    (∀ index answer s', index + 1 < s.layers.length →
      s.attempt (.moveLayerDown index) = .ok (answer, s') →
      answer = .index (index + 1) ∧ ExchangedAt index s.layers s'.layers ∧
        s.history.HasRecorded s'.layers s'.history) ∧
    (∀ answer s', s.attempt (.moveLayerUp 0) = .ok (answer, s') → answer = .index 0 ∧ s' = s) ∧
    ∀ index answer s', index + 1 = s.layers.length →
      s.attempt (.moveLayerDown index) = .ok (answer, s') → answer = .index index ∧ s' = s := by
  refine ⟨?_, fun _ _ _ => removeLayer_effect hwf, ?_, fun _ _ _ => moveLayerDown_effect hwf,
    fun _ _ h => (attempt_moveLayerUp_zero.mp h).2, ?_⟩
  · intro op index answer s' hop h
    obtain ⟨l, l', hl, halters, ⟨hknown, rfl, rfl⟩ | ⟨action, description, rfl⟩⟩ :=
      exists_of_layer? hop h
    · obtain ⟨hlt, rfl⟩ := List.getElem?_eq_some_iff.mp hl
      exact ⟨_, _, hl, (List.set_getElem_self hlt).symm, halters, .inl ⟨hknown, rfl⟩⟩
    · exact ⟨l, l', hl, rfl, halters, .inr (record_hasRecorded hwf ..)⟩
  · intro index answer s' h
    have heffect := moveLayerUp_effect hwf h
    exact ⟨heffect, exists_moveLayerDown heffect.2.1⟩
  · intro index answer s' hlast h
    rcases attempt_moveLayerDown.mp h with ⟨hlt, -, -⟩ | ⟨-, hstays⟩
    · exact absurd hlast (Nat.ne_of_lt hlt)
    · exact hstays

/-- Two layers of which neither holds an element. -/
def twoNamed : Scene := .ofLayers [{ name := "A" }, { name := "B" }]

/-- The second layer is given an opacity that is no number, and is moved up and down again. -/
theorem changes_what_is_addressed_twoNamed :
    twoNamed.history.WellFormed ∧
      (∃ s' l l', twoNamed.attempt (.editLayer 1 (.alpha (0.0 / 0.0))) = .ok (.done, s') ∧
        twoNamed.layers[1]? = some l ∧ s'.layers = twoNamed.layers.set 1 l' ∧
        l.SameBut ["alpha"] l' ∧ l'.alpha = 1.0 ∧
        twoNamed.history.HasRecorded s'.layers s'.history) ∧
      ∃ up down, twoNamed.attempt (.moveLayerUp 1) = .ok (.index 0, up) ∧
        ExchangedAt 0 twoNamed.layers up.layers ∧
        up.attempt (.moveLayerDown 0) = .ok (.index 1, down) ∧ down.layers = twoNamed.layers := by
  have hwf : twoNamed.history.WellFormed := (ofLayers_coherent _).wellFormed
  obtain ⟨hone, -, hup, -⟩ := changes_what_is_addressed hwf
  refine ⟨hwf, ?_, ?_⟩
  · obtain ⟨l, l', hl, hlayers, halters, ⟨⟨⟩, -⟩ | hrecorded⟩ :=
      hone (.editLayer 1 (.alpha (0.0 / 0.0))) 1 .done _ rfl rfl
    have hrange : l.InRange := by
      obtain rfl := Option.some.inj hl
      exact ⟨by decide, by decide, by decide, by decide, by decide⟩
    have hnan : ¬ (0.0 / 0.0 : Float).isFinite := by decide
    obtain ⟨hsame, rfl⟩ := halters hrange
    exact ⟨_, l, _, rfl, hl, hlayers, hsame, by simp [LayerEdit.inRange, LayerEdit.set, hnan],
      hrecorded⟩
  · obtain ⟨⟨-, hexchanged, -⟩, down, hdown, hlayers⟩ := hup 0 _ _ rfl
    exact ⟨_, down, rfl, hexchanged, hdown, hlayers⟩

end Scene

end ParticleScene
