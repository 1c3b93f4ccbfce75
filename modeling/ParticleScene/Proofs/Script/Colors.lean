import ParticleScene.Proofs.Script.Composition
import ParticleScene.Proofs.Script.Frames
import ParticleScene.Proofs.Script.TickOrder

/-!
# Colors of commands

All commands of a script are numbered together, across frames and layers. In a rainbow script the
number of a command decides about its color: one rainbow runs through the whole script, and layers
that fail do not move it. In any other script a command has the color of its element, or that of
its layer if the element has none.
-/

namespace ParticleScene

namespace Rainbow

lemma take_succ (r : Rainbow) (n : Nat) :
    r.take (n + 1) = (r.next.1 :: (r.next.2.take n).1, (r.next.2.take n).2) := rfl

/-- Taking colors in two rounds is taking them at once. -/
lemma take_add (r : Rainbow) (m n : Nat) :
    r.take (m + n) = ((r.take m).1 ++ ((r.take m).2.take n).1, ((r.take m).2.take n).2) := by
  induction m generalizing r with
  | zero =>
    rw [Nat.zero_add]
    rfl
  | succ m ih => simp only [Nat.add_right_comm m 1 n, take_succ, ih, List.cons_append]

@[simp] lemma length_take (r : Rainbow) (n : Nat) : (r.take n).1.length = n := by
  induction n generalizing r with
  | zero => rfl
  | succ n ih => exact congrArg (· + 1) (ih r.next.2)

/-- The color at a place is the next one after those before it were taken. -/
lemma getElem?_take {r : Rainbow} {i n : Nat} (h : i < n) :
    (r.take n).1[i]? = some (r.take i).2.next.1 := by
  obtain ⟨m, rfl⟩ := Nat.exists_eq_add_of_le (Nat.succ_le_of_lt h)
  have hsucc : (r.take (i + 1)).1 = (r.take i).1 ++ [(r.take i).2.next.1] := by
    rw [take_add]
    rfl
  rw [take_add, hsucc, List.getElem?_append_left (by simp), List.getElem?_append_right (by simp)]
  simp

end Rainbow

/-- What runs on after a number of commands. -/
def Running.after (s : Running) (n : Nat) : Running where
  rainbow := s.rainbow.map fun r => (r.take n).2
  commands := s.commands + n

/-- The color of what is drawn at a spot, unless a rainbow colors it. -/
def LayerSpot.ownColor (d : LayerSpot) : String :=
  d.spot.element.effectiveColor d.layer.color

/-- The colors of what is drawn at spots, one after the other. -/
def Running.colors (s : Running) (ds : List LayerSpot) : List String :=
  match s.rainbow with
  | some r => (r.take ds.length).1
  | none => ds.map LayerSpot.ownColor

lemma Running.after_add (s : Running) (m n : Nat) : s.after (m + n) = (s.after m).after n := by
  obtain ⟨_ | r, k⟩ := s
  · simp [after, Nat.add_assoc]
  · simp [after, Nat.add_assoc, Rainbow.take_add]

lemma Running.colors_append (s : Running) (ds es : List LayerSpot) :
    s.colors (ds ++ es) = s.colors ds ++ (s.after ds.length).colors es := by
  obtain ⟨_ | r, k⟩ := s
  · exact List.map_append
  · simp [colors, after, Rainbow.take_add]

/-- A command has the effect of a spot's layer, and stands where the spot is. -/
structure IsDrawnAt (o : Options) (d : LayerSpot) (c : Command) : Prop where
  effect : c.effect = Effect.ofLayer d.layer (o.modes.animation.commandKind o.effectKind)
  x : c.x = d.spot.x
  z : c.z = d.spot.z
  y : c.y = d.spot.y

/-- The commands among lines are those of spots, in the colors that are next. -/
structure Draws (o : Options) (s : Running) (ds : List LayerSpot) (lines : List Line)
    (s' : Running) : Prop where
  drawn : List.Forall₂ (IsDrawnAt o) ds (commands lines)
  colors : (commands lines).map Command.color = s.colors ds
  after : s' = s.after ds.length

variable {o : Options} {l : Layer} {s s' : Running} {lines block : List Line}

lemma Running.after_zero (s : Running) : s.after 0 = s := by
  obtain ⟨_ | r, k⟩ := s <;> rfl

/-- Lines without a command draw nothing. -/
lemma draws_of_commands_eq_nil (h : commands lines = []) (s : Running) : Draws o s [] lines s where
  drawn := by
    rw [h]
    exact .nil
  colors := by
    rw [h]
    obtain ⟨_ | r, k⟩ := s <;> rfl
  after := s.after_zero.symm

lemma draws_composes : Account.Composes (Draws o) where
  nil s := draws_of_commands_eq_nil rfl s
  append := by
    rintro s _ _ ds es lines more ⟨hdrawn, hcolors, rfl⟩ ⟨hdrawn', hcolors', rfl⟩
    refine ⟨?_, ?_, ?_⟩
    · rw [commands_append]
      exact List.rel_append hdrawn hdrawn'
    · rw [commands_append, List.map_append, hcolors, hcolors', s.colors_append]
    · rw [List.length_append, s.after_add]

lemma draws_emitSpot {spot : Spot} (h : (o.emitter l).emitSpot s spot = .ok (lines, s')) :
    Draws o s [⟨l, spot⟩] lines s' := by
  obtain ⟨color, rainbow, hcolor, rfl, rfl⟩ := Emitter.emitSpot_eq_ok h
  have hcommands : commands (.command ⟨(o.emitter l).effect, color, spot.x, spot.z, spot.y⟩ ::
      ((o.emitter l).animation.pauseAfter? (s.commands + 1)).toList.map Line.pause) =
      [⟨(o.emitter l).effect, color, spot.x, spot.z, spot.y⟩] := by
    cases (o.emitter l).animation.pauseAfter? (s.commands + 1) <;> rfl
  refine ⟨?_, ?_, ?_⟩
  · rw [hcommands]
    exact .cons ⟨rfl, rfl, rfl, rfl⟩ .nil
  · rw [hcommands]
    obtain ⟨_ | r, k⟩ := s <;> cases hcolor <;> rfl
  · obtain ⟨_ | r, k⟩ := s <;> cases hcolor <;> rfl

/-- The commands of a block are those of its layer. -/
lemma draws_emitLayer (h : emitLayer o l s = .ok (block, s')) :
    Draws o s (o.layerSpots l) block s' :=
  emitLayer_composes draws_composes (fun _ => draws_emitSpot)
    (fun _ _ _ _ => draws_of_commands_eq_nil rfl) (draws_of_commands_eq_nil rfl) h

/-- The spots of a layer are drawn for elements of the layer. -/
lemma getElem?_of_mem_layerSpots {d : LayerSpot} (hd : d ∈ o.layerSpots l) :
    d.layer.elements[d.spot.index]? = some d.spot.element := by
  obtain ⟨f, hf, hd⟩ := List.mem_flatMap.mp hd
  obtain ⟨x, hx, rfl⟩ := List.mem_map.mp hd
  exact Animation.getElem?_of_mem_frames hf hx

namespace Compile

/-- The layers without failure, in the order of their ticks. -/
lemma sound_inTickOrder (o : Options) (ls : List Layer) :
    InTickOrder (ls.filter fun l => l.isShown && (fault? o l).isNone) (sound o ls) := by
  have h := (ordered_inTickOrder ls).filter fun l => (fault? o l).isNone
  rwa [List.filter_filter, List.filter_congr fun l _ => Bool.and_comm ..] at h

lemma draws_written (o : Options) (ls : List Layer) :
    ∃ s', Draws o (start o.modes) (drawn o ls) (written o ls) s' :=
  written_composes draws_composes (draws_of_commands_eq_nil rfl _) fun _ _ => draws_emitLayer

end Compile

open Compile

/-- The commands of a script, numbered across frames and layers, are those of the layers that do
not fail, each for one element of its layer. In a rainbow script the command at place `i` has the
color that a fresh rainbow gives after `i` others; in any other script it has the color of its
element or else of its layer. -/
theorem color_of_command (o : Options) (ls : List Layer)
    (hperformance : o.modes.performance = false) :
    (∃ script, (compile o uncancelled ls).result = .ok script ∧
      script.text = Text.unlines ((written o ls).map Line.text)) ∧
    InTickOrder (ls.filter fun l => l.isShown && (fault? o l).isNone) (sound o ls) ∧
    List.Forall₂ (IsDrawnAt o) (drawn o ls) (commands (written o ls)) ∧
    (∀ d ∈ drawn o ls, d.layer.elements[d.spot.index]? = some d.spot.element) ∧
    if o.modes.rainbow then
      ∀ i c, (commands (written o ls))[i]? = some c →
        c.color = (({} : Rainbow).take i).2.next.1
    else
      List.Forall₂ (fun d c => c.color = d.spot.element.color.getD d.layer.color)
        (drawn o ls) (commands (written o ls)) := by
  obtain ⟨script, hscript, htext, -⟩ := compile_of_not_performance hperformance ls
  obtain ⟨s', hdraws⟩ := draws_written o ls
  refine ⟨⟨script, hscript, htext⟩, sound_inTickOrder o ls, hdraws.drawn, fun d hd => ?_, ?_⟩
  · obtain ⟨l, -, hd⟩ := List.mem_flatMap.mp hd
    exact getElem?_of_mem_layerSpots hd
  · have hcolors := hdraws.colors
    cases hrainbow : o.modes.rainbow with
    | true =>
      simp only [start, hrainbow, if_true, Running.colors] at hcolors ⊢
      intro i c hc
      have hi : i < (drawn o ls).length := by
        rw [hdraws.drawn.length_eq]
        exact (List.getElem?_eq_some_iff.mp hc).1
      have hcolor := congrArg (·[i]?) hcolors
      simp only [List.getElem?_map, hc, Rainbow.getElem?_take hi] at hcolor
      exact Option.some.inj hcolor
    | false =>
      simp only [start, hrainbow, Bool.false_eq_true, if_false, Running.colors] at hcolors ⊢
      rw [← List.forall₂_eq_eq_eq, List.forall₂_map_left_iff, List.forall₂_map_right_iff] at hcolors
      exact hcolors.flip

/-- A layer whose place is not a number. -/
def nowhere : Layer where
  elements := [⟨.free, ⟨0.0 / 0.0, 0.0⟩, 0.0, none, none, none⟩]

/-- A layer of two elements, of which the first one has a color of its own. -/
def pair : Layer where
  tickStart := 1
  elements :=
    [⟨.free, ⟨0.0, 0.0⟩, 0.0, some "#ffffff", none, none⟩,
     ⟨.free, ⟨1.0, 0.0⟩, 0.0, none, none, none⟩]

/-- A rainbow begins with the first layer that does not fail, and passes over the colors of
elements. Without one the commands of the same layers have colors of their own. -/
theorem color_of_command_pair :
    (fault? { modes := { rainbow := true } } nowhere).isSome ∧
      (∀ i c, (commands (written { modes := { rainbow := true } } [nowhere, pair]))[i]? = some c →
        c.color = (({} : Rainbow).take i).2.next.1) ∧
      List.Forall₂ (fun d c => c.color = d.spot.element.color.getD d.layer.color)
        (drawn {} [nowhere, pair]) (commands (written {} [nowhere, pair])) :=
  ⟨by decide, (color_of_command { modes := { rainbow := true } } [nowhere, pair] rfl).2.2.2.2,
    (color_of_command {} [nowhere, pair] rfl).2.2.2.2⟩

end ParticleScene
