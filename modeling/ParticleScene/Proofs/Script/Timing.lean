import ParticleScene.Proofs.Number.Characters
import ParticleScene.Proofs.Script.Composition
import ParticleScene.Proofs.Script.Cuts
import ParticleScene.Proofs.Script.DelayLines
import ParticleScene.Proofs.Script.Frames
import ParticleScene.Proofs.Script.TickOrder

/-!
# Performance mode keeps the timing

Collapsing a run of equal delays into one would make a script shorter in time. But no two delays of
a script stand next to each other: under the proximity animation each follows a command, under the
others each comes before the commands of a frame, and the name of a layer stands between its delays
and those of the layer before. So performance mode collapses only what stands between delays.
-/

namespace ParticleScene

open Compile

/-- At most one of two lines is a delay. -/
def Apart (x y : Line) : Prop :=
  ¬ (x.isPause ∧ y.isPause)

/-- No delay follows another, and none comes first. -/
structure OpensPlain (lines : List Line) : Prop where
  apart : lines.IsChain Apart
  head : ∀ x ∈ lines.head?, x.isPause = false

/-- No delay follows another, and none comes last. -/
structure ClosesPlain (lines : List Line) : Prop where
  apart : lines.IsChain Apart
  last : ∀ x ∈ lines.getLast?, x.isPause = false

lemma apart_left {x y : Line} (h : x.isPause = false) : Apart x y := by
  simp [Apart, h]

lemma apart_right {x y : Line} (h : y.isPause = false) : Apart x y := by
  simp [Apart, h]

lemma opensPlain_composes : Account.Composes fun _ _ lines _ => OpensPlain lines where
  nil _ := ⟨.nil, by simp⟩
  append := by
    intro _ _ _ _ _ lines more h h'
    refine ⟨h.apart.append h'.apart fun x _ y hy => apart_right (h'.head y hy), ?_⟩
    cases lines with
    | nil => exact h'.head
    | cons x lines => exact h.head

lemma closesPlain_composes : Account.Composes fun _ _ lines _ => ClosesPlain lines where
  nil _ := ⟨.nil, by simp⟩
  append := by
    intro _ _ _ _ _ lines more h h'
    refine ⟨h.apart.append h'.apart fun x hx y _ => apart_left (h.last x hx), ?_⟩
    cases more with
    | nil => simpa using h.last
    | cons y more =>
      rw [List.getLast?_append_of_ne_nil lines (List.cons_ne_nil y more)]
      exact h'.last

lemma opensPlain_of_plain {x : Line} (h : x.isPause = false) : OpensPlain [x] :=
  ⟨.singleton x, by simpa using h⟩

/-- Lines without a delay, one for each spot. -/
structure IsPlain (ds : List LayerSpot) (lines : List Line) : Prop where
  plain : ∀ x ∈ lines, x.isPause = false
  length_eq : lines.length = ds.length

lemma isPlain_composes : Account.Composes fun _ ds lines _ => IsPlain ds lines where
  nil _ := ⟨by simp, rfl⟩
  append h h' := ⟨List.forall_mem_append.mpr ⟨h.plain, h'.plain⟩, by
    rw [List.length_append, List.length_append, h.length_eq, h'.length_eq]⟩

variable {o : Options} {l : Layer} {s s' : Running} {lines block : List Line}

/-! ### The proximity animation -/

lemma opensPlain_emitSpot {m : Emitter} {spot : Spot}
    (h : m.emitSpot s spot = .ok (lines, s')) : OpensPlain lines := by
  obtain ⟨color, rainbow, -, rfl, -⟩ := Emitter.emitSpot_eq_ok h
  refine ⟨?_, by simp [Line.isPause]⟩
  cases m.animation.pauseAfter? (s.commands + 1) with
  | none => exact .singleton _
  | some p => exact .cons_cons (apart_left rfl) (.singleton _)

lemma opensPlain_emitLayer_of_isProximity (hproximity : o.modes.animation.isProximity = true)
    (h : emitLayer o l s = .ok (block, s')) : OpensPlain block := by
  refine emitLayer_composes opensPlain_composes (fun _ => opensPlain_emitSpot) ?_
    (fun _ => opensPlain_of_plain rfl) h
  intro f hf p hp
  rw [Animation.pause_eq_none hproximity hf] at hp
  cases hp

/-! ### The other animations -/

lemma isPlain_emitSpot {spot : Spot} (hproximity : o.modes.animation.isProximity = false)
    (h : (o.emitter l).emitSpot s spot = .ok (lines, s')) : IsPlain [⟨l, spot⟩] lines := by
  obtain ⟨color, rainbow, -, rfl, -⟩ := Emitter.emitSpot_eq_ok h
  have hpause : (o.emitter l).animation.pauseAfter? (s.commands + 1) = none :=
    Animation.pauseAfter?_eq_none hproximity _
  rw [hpause]
  exact ⟨by simp [Line.isPause], rfl⟩

/-- The lines of a frame close with a command, because a frame draws every element. -/
lemma closesPlain_emitFrame (hproximity : o.modes.animation.isProximity = false)
    (hl : l.elements ≠ []) {f : Frame} (hf : f ∈ o.frames l)
    (h : (o.emitter l).emitFrame s f = .ok (lines, s')) : ClosesPlain lines := by
  obtain ⟨spots, hspots, rfl⟩ := Emitter.emitFrame_eq_ok_iff.mp h
  rw [Emitter.emitSpots_eq_all] at hspots
  obtain ⟨hplain, hlength⟩ := Emission.all_composes isPlain_composes (fun spot => [⟨l, spot⟩])
    (fun _ _ => isPlain_emitSpot hproximity) hspots
  have hne : spots ≠ [] := by
    obtain ⟨spot, -, hplace⟩ := Animation.exists_spots_eq_place hproximity hf
    rw [← List.map_eq_flatMap, List.length_map, hplace, Animation.length_place] at hlength
    rw [← List.length_pos_iff, hlength]
    exact List.length_pos_iff.mpr hl
  have hchain : spots.IsChain Apart :=
    (List.pairwise_of_forall_mem_list fun x hx y _ => apart_left (hplain x hx)).isChain
  refine ⟨?_, ?_⟩
  · cases f.pause with
    | none => exact hchain
    | some p => exact hchain.cons fun y hy => apart_right (hplain y (List.mem_of_mem_head? hy))
  · intro x hx
    rw [List.getLast?_append_of_ne_nil _ hne] at hx
    exact hplain x (List.mem_of_getLast? hx)

lemma opensPlain_emitLayer (hl : l.elements ≠ []) (h : emitLayer o l s = .ok (block, s')) :
    OpensPlain block := by
  cases hproximity : o.modes.animation.isProximity with
  | true => exact opensPlain_emitLayer_of_isProximity hproximity h
  | false =>
    obtain ⟨lines, hframes, rfl⟩ := emitLayer_eq_ok_iff.mp h
    rw [Emitter.emitFrames_eq_all] at hframes
    have hlines := Emission.all_composes closesPlain_composes (fun _ => [])
      (fun _ hf => closesPlain_emitFrame hproximity hl hf) hframes
    exact ⟨hlines.apart.cons fun _ _ => apart_left rfl, by simp [Line.isPause]⟩

/-! ### Scripts -/

lemma opensPlain_written (o : Options) (ls : List Layer) : OpensPlain (written o ls) := by
  have hheader : OpensPlain (Line.header o.resolvedSkillName) :=
    ⟨.cons_cons (apart_left rfl) (.singleton _), by simp [Line.header, Line.isPause]⟩
  have hblock : ∀ l ∈ sound o ls, ∀ {s block s'}, emitLayer o l s = .ok (block, s') →
      OpensPlain block := by
    intro l hl s block s'
    have hshown := (mem_ordered.mp (List.mem_filter.mp hl).1).2
    rw [Layer.isShown, Bool.and_eq_true, Bool.not_eq_true', List.isEmpty_eq_false_iff] at hshown
    exact opensPlain_emitLayer hshown.2
  obtain ⟨-, h⟩ := written_composes opensPlain_composes hheader hblock
  exact h

/-- No two delay lines of a script stand next to each other. -/
lemma marksApart_written (o : Options) (ls : List Layer) :
    Runs.MarksApart Script.isDelayLine ((written o ls).map Line.text) := by
  rw [Runs.MarksApart, List.isChain_map]
  refine (opensPlain_written o ls).apart.imp_of_mem_imp fun x y hx hy h => ?_
  rwa [tellsDelays_written o ls x hx, tellsDelays_written o ls y hy]

/-- The same options with performance mode switched on or off. -/
def Options.withPerformance (o : Options) (performance : Bool) : Options :=
  { o with modes := { o.modes with performance } }

namespace Compile

/-- The lines of the script of a compilation that nobody cancels. -/
def scriptLines (o : Options) (ls : List Layer) : List String :=
  texts o (emitted o uncancelled ls).lines

lemma compile_eq_scriptLines (o : Options) (ls : List Layer) :
    ∃ script, (compile o uncancelled ls).result = .ok script ∧
      script.text = Text.unlines (scriptLines o ls) ∧
      script.lineCount = (scriptLines o ls).length :=
  ⟨script o ls, compile_uncancelled o ls, rfl, rfl⟩

/-- Performance mode has no part in what is written before runs are collapsed. -/
lemma written_withPerformance (o : Options) (performance : Bool) (ls : List Layer) :
    written (o.withPerformance performance) ls = written o ls := by
  obtain ⟨lines, s, hall, hwritten⟩ := written_eq_all o ls
  obtain ⟨lines', s', hall', hwritten'⟩ := written_eq_all (o.withPerformance performance) ls
  obtain ⟨rfl, -⟩ := Prod.mk.inj (Except.ok.inj (hall.symm.trans hall'))
  rw [hwritten, hwritten']
  rfl

lemma scriptLines_of_performance_off (o : Options) (ls : List Layer) :
    scriptLines (o.withPerformance false) ls = (written o ls).map Line.text := by
  rw [← written_withPerformance o false ls]
  rfl

lemma scriptLines_of_performance_on (o : Options) (ls : List Layer) :
    scriptLines (o.withPerformance true) ls =
      Runs.collapse (scriptLines (o.withPerformance false) ls) := by
  rw [scriptLines_of_performance_off, ← written_withPerformance o true ls]
  rfl

end Compile

/-! ### Delays in a row -/

lemma Pause.isNumeral_text (p : Pause) : Number.IsNumeral p.text := by
  cases p with
  | frame delay => exact Number.isNumeral_fixed 2 delay
  | ticks count => exact Number.isNumeral_toString_int count

/-- A delay is not taken for a particle command. -/
lemma Line.particleField?_pause (p : Pause) : Runs.particleField? (pause p).text = none := by
  have hbrace : '\x7b' ∉ (pause p).text.toList := by
    rw [text, String.toList_append, List.mem_append, not_or]
    exact ⟨by decide, fun h => absurd (p.isNumeral_text _ h) (by decide)⟩
  have hholds : ¬ Runs.holds Runs.particleMark (pause p).text.toList := by
    rw [Runs.holds_iff_infix]
    exact fun h => hbrace (h.subset (by decide))
  rw [Runs.particleField?, if_neg hholds]

/-- Collapsing makes one of two equal delays in a row. -/
lemma Line.collapse_pause_pause (p : Pause) :
    Runs.collapse [(pause p).text, (pause p).text] = [(pause p).text] := by
  have hgroup : Runs.group [(pause p).text, (pause p).text] = [((pause p).text, 2)] := by
    simp [Runs.group]
  have happly : Runs.applyRepeat (pause p).text 2 = (pause p).text := by
    rw [Runs.applyRepeat, if_neg (by decide), particleField?_pause]
  rw [Runs.collapse, hgroup, List.map_singleton]
  exact congrArg (fun line => [line]) happly

/-- Cut a script at its delays, which are known by how they begin: `first`, and then each delay
with the lines up to the next one. Performance mode collapses the runs of each segment and leaves
all delays where they are. That is owed to the order of the lines, as collapsing makes one of two
equal delays in a row. -/
theorem collapse_between_delays (o : Options) (ls : List Layer) :
    (∀ performance, ∃ script,
      (compile (o.withPerformance performance) uncancelled ls).result = .ok script ∧
      script.text = Text.unlines (scriptLines (o.withPerformance performance) ls) ∧
      script.lineCount = (scriptLines (o.withPerformance performance) ls).length) ∧
    scriptLines (o.withPerformance false) ls = (written o ls).map Line.text ∧
    (∀ x ∈ written o ls, Script.isDelayLine x.text = x.isPause) ∧
    (∃ first rest,
      Runs.IsCut Script.isDelayLine (scriptLines (o.withPerformance false) ls) first rest) ∧
    (∀ first rest,
      Runs.IsCut Script.isDelayLine (scriptLines (o.withPerformance false) ls) first rest →
      scriptLines (o.withPerformance true) ls =
        Runs.collapse first ++ rest.flatMap fun (delay, segment) =>
          delay :: Runs.collapse segment) ∧
    ∀ p, Runs.collapse [(Line.pause p).text, (Line.pause p).text] = [(Line.pause p).text] := by
  have hapart := marksApart_written o ls
  rw [← scriptLines_of_performance_off] at hapart
  refine ⟨fun _ => compile_eq_scriptLines _ ls, scriptLines_of_performance_off o ls,
    tellsDelays_written o ls, Runs.exists_isCut _ _, fun first rest hcut => ?_,
    Line.collapse_pause_pause⟩
  rw [scriptLines_of_performance_on]
  exact Runs.collapse_of_isCut hcut hapart

/-- Two elements at one place. -/
def twins : Layer where
  elements := List.replicate 2 ⟨.free, ⟨0.0, 0.0⟩, 0.0, none, none, none⟩

/-- A delay after each command. -/
def stepByStep : Options where
  modes := { proximity := { enabled := true, step := 1 } }

/-- Equal commands that a delay parts are not collapsed. -/
theorem collapse_between_delays_twins :
    ∃ first rest,
      Runs.IsCut Script.isDelayLine (scriptLines (stepByStep.withPerformance false) [twins]) first
        rest ∧
      scriptLines (stepByStep.withPerformance true) [twins] =
        Runs.collapse first ++ rest.flatMap fun (delay, segment) =>
          delay :: Runs.collapse segment := by
  obtain ⟨-, -, -, ⟨first, rest, hcut⟩, hcollapse, -⟩ := collapse_between_delays stepByStep [twins]
  exact ⟨first, rest, hcut, hcollapse first rest hcut⟩

end ParticleScene
