import Mathlib.Data.List.Forall2
import ParticleScene.Proofs.Except
import ParticleScene.Proofs.Script.Fault
import ParticleScene.Proofs.Script.Uncancelled

/-!
# Emission in parts

The spots of a frame, the frames of a layer and the layers of a script are emitted one after the
other: their lines stand in a row, and what runs on after one of them runs on before the next. An
`Account` relates all that takes part in an emission. One that holds of nothing, and of two
emissions in a row when it holds of both, holds of a whole script as soon as it holds of each spot
and of the lines around the spots. Layers that fail have no part in it.
-/

namespace ParticleScene

/-- A spot with the layer that it is drawn for. -/
structure LayerSpot where
  layer : Layer
  spot : Spot

/-- The commands among lines. -/
def commands (lines : List Line) : List Command :=
  lines.filterMap fun
    | .command c => some c
    | _ => none

@[simp] lemma commands_nil : commands [] = [] := rfl

@[simp] lemma commands_append (lines more : List Line) :
    commands (lines ++ more) = commands lines ++ commands more :=
  List.filterMap_append

@[simp] lemma commands_cons_command (c : Command) (lines : List Line) :
    commands (.command c :: lines) = c :: commands lines := rfl

@[simp] lemma commands_cons_comment (name : String) (lines : List Line) :
    commands (.comment name :: lines) = commands lines := rfl

@[simp] lemma commands_cons_pause (p : Pause) (lines : List Line) :
    commands (.pause p :: lines) = commands lines := rfl

@[simp] lemma commands_header (skill : String) : commands (Line.header skill) = [] := rfl

def Line.isPause : Line → Bool
  | .pause _ => true
  | _ => false

/-- A relation between what runs on before an emission, the spots that are drawn, the lines, and
what runs on afterwards. -/
abbrev Account := Running → List LayerSpot → List Line → Running → Prop

/-- An account of nothing, and of two emissions in a row. -/
structure Account.Composes (P : Account) : Prop where
  nil : ∀ s, P s [] [] s
  append : ∀ {s s₁ s₂ ds es lines more}, P s ds lines s₁ → P s₁ es more s₂ →
    P s (ds ++ es) (lines ++ more) s₂

namespace Emission

variable {α : Type} {emit : Emission α} {s s' : Running} {as : List α} {lines : List Line}

/-- What is true of each item is true of a list. -/
lemma all_composes {P : Account} (hP : P.Composes) (draws : α → List LayerSpot)
    (hitem : ∀ a ∈ as, ∀ {s lines s'}, emit s a = .ok (lines, s') → P s (draws a) lines s')
    (h : emit.all s as = .ok (lines, s')) : P s (as.flatMap draws) lines s' := by
  induction as generalizing s lines with
  | nil =>
    cases h
    exact hP.nil _
  | cons a rest ih =>
    rw [all] at h
    split at h
    · cases h
    · rename_i hemit
      split at h
      · cases h
      · rename_i hrest
        cases h
        rw [List.flatMap_cons]
        exact hP.append (hitem a List.mem_cons_self hemit)
          (ih (fun b hb => hitem b (List.mem_cons_of_mem a hb)) hrest)

/-- The lines of a list are those of its items, each emitted in what runs on before it. -/
lemma all_eq_flatten (h : emit.all s as = .ok (lines, s')) :
    ∃ blocks, List.Forall₂ (fun a block => ∃ t t', emit t a = .ok (block, t')) as blocks ∧
      lines = blocks.flatten := by
  induction as generalizing s lines with
  | nil =>
    cases h
    exact ⟨[], .nil, rfl⟩
  | cons a rest ih =>
    rw [all] at h
    split at h
    · cases h
    · rename_i hemit
      split at h
      · cases h
      · rename_i hrest
        cases h
        obtain ⟨blocks, hblocks, rfl⟩ := ih hrest
        exact ⟨_ :: blocks, .cons ⟨s, _, hemit⟩ hblocks, rfl⟩

end Emission

/-! ### Layers -/

/-- What the lines of a layer depend on under some options. -/
def Options.emitter (o : Options) (l : Layer) : Emitter :=
  ⟨l, o.modes.animation, Effect.ofLayer l (o.modes.animation.commandKind o.effectKind)⟩

/-- The frames of a layer under some options. -/
def Options.frames (o : Options) (l : Layer) : List Frame :=
  o.modes.animation.frames l (l.yOffset + o.globalYOffset)

/-- The spots of a layer, in the order of its commands. -/
def Options.layerSpots (o : Options) (l : Layer) : List LayerSpot :=
  (o.frames l).flatMap fun f => f.spots.map (LayerSpot.mk l)

variable {o : Options} {l : Layer} {ls : List Layer} {s s' : Running} {block : List Line}

/-- An emission with other lines around it succeeds just if it does itself. -/
lemma map_lines_eq_ok_iff {x : Except Failure (List Line × Running)} (g : List Line → List Line) :
    x.map (fun out => (g out.1, out.2)) = .ok (block, s') ↔
      ∃ lines, x = .ok (lines, s') ∧ block = g lines := by
  rw [map_eq_ok_iff]
  constructor
  · rintro ⟨⟨lines, t⟩, hx, h⟩
    cases h
    exact ⟨lines, hx, rfl⟩
  · rintro ⟨lines, hx, rfl⟩
    exact ⟨(lines, s'), hx, rfl⟩

/-- The block of a layer is its name and the lines of its frames. -/
lemma emitLayer_eq_ok_iff :
    emitLayer o l s = .ok (block, s') ↔
      ∃ lines, (o.emitter l).emitFrames s (o.frames l) = .ok (lines, s') ∧
        block = .comment l.name :: lines :=
  map_lines_eq_ok_iff (.comment l.name :: ·)

/-- The lines of a frame are its delay and those of its spots. -/
lemma Emitter.emitFrame_eq_ok_iff {m : Emitter} {f : Frame} :
    m.emitFrame s f = .ok (block, s') ↔
      ∃ spots, m.emitSpots s f.spots = .ok (spots, s') ∧
        block = f.pause.toList.map Line.pause ++ spots :=
  map_lines_eq_ok_iff (f.pause.toList.map Line.pause ++ ·)

/-- Coloring a command leaves the number of commands as it is. -/
lemma Emitter.exists_color_eq (m : Emitter) (s : Running) (e : Element) :
    ∃ color rainbow, m.color s e = (color, { s with rainbow }) := by
  rw [Emitter.color]
  split
  · exact ⟨_, _, rfl⟩
  · exact ⟨_, s.rainbow, rfl⟩

/-- The lines of a spot are its command and the delay that is due. -/
lemma Emitter.emitSpot_eq_ok {m : Emitter} {spot : Spot} {lines : List Line}
    (h : m.emitSpot s spot = .ok (lines, s')) :
    ∃ color rainbow, m.color s spot.element = (color, { s with rainbow }) ∧
      lines = .command ⟨m.effect, color, spot.x, spot.z, spot.y⟩ ::
        (m.animation.pauseAfter? (s.commands + 1)).toList.map Line.pause ∧
      s' = { rainbow, commands := s.commands + 1 } := by
  obtain ⟨color, rainbow, hcolor⟩ := m.exists_color_eq s spot.element
  refine ⟨color, rainbow, hcolor, ?_⟩
  simp only [emitSpot, hcolor] at h
  split at h
  · cases h
    exact ⟨rfl, rfl⟩
  · cases h

/-- What is true of each spot, of delays before frames and of the name of a layer is true of its
block. -/
lemma emitLayer_composes {P : Account} (hP : P.Composes)
    (hspot : ∀ spot {s lines s'}, (o.emitter l).emitSpot s spot = .ok (lines, s') →
      P s [⟨l, spot⟩] lines s')
    (hpause : ∀ f ∈ o.frames l, ∀ p ∈ f.pause, ∀ s, P s [] [.pause p] s)
    (hcomment : ∀ s, P s [] [.comment l.name] s) (h : emitLayer o l s = .ok (block, s')) :
    P s (o.layerSpots l) block s' := by
  obtain ⟨lines, hframes, rfl⟩ := emitLayer_eq_ok_iff.mp h
  rw [Emitter.emitFrames_eq_all] at hframes
  refine hP.append (hcomment s) (Emission.all_composes hP _ ?_ hframes)
  intro f hf s lines s' hframe
  obtain ⟨spots, hspots, rfl⟩ := Emitter.emitFrame_eq_ok_iff.mp hframe
  rw [Emitter.emitSpots_eq_all] at hspots
  have hdrawn := Emission.all_composes hP (fun spot => [⟨l, spot⟩])
    (fun spot _ => hspot spot) hspots
  rw [← List.map_eq_flatMap] at hdrawn
  cases hp : f.pause with
  | none => exact hdrawn
  | some p => exact hP.append (hpause f hf p hp s) hdrawn

namespace Compile

/-- The layers that take part in a compilation and do not fail, in the order of their blocks. -/
def sound (o : Options) (ls : List Layer) : List Layer :=
  (ordered ls).filter fun l => (fault? o l).isNone

/-- The lines of layers are those of the layers that do not fail, one after the other. -/
lemma lines_emitLayers_eq_all (total : Nat) (ls : List Layer) (s : Running)
    (processed reported : Nat) :
    ∃ s', Emission.all (fun s l => emitLayer o l s) s (ls.filter fun l => (fault? o l).isNone) =
      .ok ((emitLayers o uncancelled total ls s processed reported).lines, s') := by
  induction ls generalizing s processed reported with
  | nil => exact ⟨s, rfl⟩
  | cons l rest ih =>
    cases hemit : emitLayer o l s with
    | error why =>
      have hfault : fault? o l = some why := emitLayer_eq_error_iff.mp hemit
      rw [List.filter_cons_of_neg (by simp [hfault])]
      simp only [emitLayers, uncancelled, hemit, Bool.false_eq_true, if_false, List.nil_append]
      exact ih ..
    | ok out =>
      have hfault : fault? o l = none := fault?_eq_none_of_emitLayer hemit
      obtain ⟨s', hrest⟩ := ih out.2 (processed + l.elements.length) (reported + 1)
      rw [List.filter_cons_of_pos (by simp [hfault])]
      refine ⟨s', ?_⟩
      simp only [emitLayers, uncancelled, hemit, Bool.false_eq_true, if_false, Emission.all]
      rw [hrest]

/-- The lines of a compilation that nobody cancels, before runs are collapsed. -/
def written (o : Options) (ls : List Layer) : List Line :=
  Line.header o.resolvedSkillName ++ (emitted o uncancelled ls).lines

/-- Without performance mode the script is what is written, line by line. -/
lemma compile_of_not_performance (hperformance : o.modes.performance = false) (ls : List Layer) :
    ∃ script, (compile o uncancelled ls).result = .ok script ∧
      script.text = Text.unlines ((written o ls).map Line.text) ∧
      script.lineCount = (written o ls).length := by
  have htexts : texts o (emitted o uncancelled ls).lines = (written o ls).map Line.text := by
    rw [texts, hperformance]
    rfl
  refine ⟨script o ls, compile_uncancelled o ls, ?_, ?_⟩
  · rw [script, htexts]
  · rw [script, htexts, List.length_map]

lemma written_eq_all (o : Options) (ls : List Layer) :
    ∃ lines s', Emission.all (fun s l => emitLayer o l s) (start o.modes) (sound o ls) =
        .ok (lines, s') ∧
      written o ls = Line.header o.resolvedSkillName ++ lines := by
  obtain ⟨s', hall⟩ := lines_emitLayers_eq_all (o := o) (elementTotal (ordered ls)) (ordered ls)
    (start o.modes) 0 0
  exact ⟨_, s', hall, rfl⟩

/-- The spots of a script, in the order of its commands. -/
def drawn (o : Options) (ls : List Layer) : List LayerSpot :=
  (sound o ls).flatMap o.layerSpots

/-- What is true of the header and of each block is true of a script. -/
lemma written_composes {P : Account} (hP : P.Composes)
    (hheader : P (start o.modes) [] (Line.header o.resolvedSkillName) (start o.modes))
    (hblock : ∀ l ∈ sound o ls, ∀ {s block s'}, emitLayer o l s = .ok (block, s') →
      P s (o.layerSpots l) block s') :
    ∃ s', P (start o.modes) (drawn o ls) (written o ls) s' := by
  obtain ⟨lines, s', hall, hwritten⟩ := written_eq_all o ls
  exact ⟨s', hwritten ▸ hP.append hheader (Emission.all_composes hP _ hblock hall)⟩

/-- What is true of the header and of each layer name, delay and command is true of all lines. -/
lemma forall_mem_written {p : Line → Prop}
    (hheader : ∀ x ∈ Line.header o.resolvedSkillName, p x)
    (hcomment : ∀ name, p (.comment name)) (hpause : ∀ length, p (.pause length))
    (hcommand : ∀ c, p (.command c)) : ∀ x ∈ written o ls, p x := by
  have hcomposes : Account.Composes fun _ _ lines _ => ∀ x ∈ lines, p x :=
    ⟨by simp, fun h h' => List.forall_mem_append.mpr ⟨h, h'⟩⟩
  have hblock : ∀ l ∈ sound o ls, ∀ {s block s'}, emitLayer o l s = .ok (block, s') →
      ∀ x ∈ block, p x := by
    intro l _ s block s'
    refine emitLayer_composes hcomposes (fun spot s lines s' hspot => ?_)
      (fun _ _ length _ _ => by simpa using hpause length) (fun _ => by simpa using hcomment _)
    obtain ⟨color, rainbow, -, rfl, -⟩ := Emitter.emitSpot_eq_ok hspot
    refine List.forall_mem_cons.mpr ⟨hcommand _, fun x hx => ?_⟩
    obtain ⟨length, -, rfl⟩ := List.mem_map.mp hx
    exact hpause length
  obtain ⟨-, h⟩ := written_composes hcomposes hheader hblock
  exact h

end Compile

end ParticleScene
