import ParticleScene.Proofs.Geometry.Tour
import ParticleScene.Proofs.Script.Colors
import ParticleScene.Proofs.Script.DelayLines

/-!
# Delays of the proximity animation

The commands of a script are numbered across its layers, and layers that fail do not count. Under
the proximity animation a delay follows a command just if the step divides the number of the
command, and there is no other delay. The commands of a layer stand in the order of its tour.
-/

namespace ParticleScene

namespace ProximityMode

variable {m : ProximityMode} {n : Nat}

/-- Whether the mode has delays at all. -/
def HasDelays (m : ProximityMode) : Prop :=
  0 < m.step ∧ 0 < m.delayTicks

instance (m : ProximityMode) : Decidable m.HasDelays :=
  inferInstanceAs (Decidable (_ ∧ _))

lemma isDue_iff : m.isDue n ↔ m.HasDelays ∧ m.step.toInt.toNat ∣ n := by
  simp [isDue, HasDelays, Nat.dvd_iff_mod_eq_zero]

/-- How many delays are due among the first commands. -/
def dueUpTo (m : ProximityMode) (n : Nat) : Nat :=
  if m.HasDelays then n / m.step.toInt.toNat else 0

lemma dueUpTo_succ (m : ProximityMode) (n : Nat) :
    m.dueUpTo (n + 1) = m.dueUpTo n + if m.isDue (n + 1) then 1 else 0 := by
  by_cases h : m.HasDelays
  · simp [dueUpTo, isDue_iff, h, Nat.succ_div]
  · simp [dueUpTo, isDue_iff, h]

end ProximityMode

/-- Each delay among lines, and nothing else, follows a command that calls for one, when `n`
commands stand before the lines. -/
def FollowsDue (m : ProximityMode) (n : Nat) (lines : List Line) : Prop :=
  ∀ before after, lines = before ++ after →
    ((∃ p, after.head? = some (.pause p)) ↔
      ∃ c, before.getLast? = some (.command c) ∧ m.isDue (n + (commands before).length))

variable {m : ProximityMode} {n : Nat} {lines more : List Line}

/-- No delay comes first. -/
lemma FollowsDue.head (h : FollowsDue m n lines) : ¬ ∃ p, lines.head? = some (.pause p) := by
  intro hp
  obtain ⟨c, hc, -⟩ := (h [] lines rfl).mp hp
  cases hc

/-- No delay is due at the end. -/
lemma FollowsDue.last (h : FollowsDue m n lines) :
    ¬ ∃ c, lines.getLast? = some (.command c) ∧ m.isDue (n + (commands lines).length) := by
  intro hdue
  obtain ⟨p, hp⟩ := (h lines [] (List.append_nil lines).symm).mpr hdue
  cases hp

/-- The numbers of the second part go on where those of the first one end. -/
lemma FollowsDue.append (h : FollowsDue m n lines)
    (hmore : FollowsDue m (n + (commands lines).length) more) :
    FollowsDue m n (lines ++ more) := by
  have hseam := iff_of_false hmore.head h.last
  intro before after heq
  rcases List.append_eq_append_iff.mp heq with ⟨mid, rfl, rfl⟩ | ⟨mid, rfl, rfl⟩
  · -- the place is in the second part
    cases mid with
    | nil => simpa using hseam
    | cons x mid =>
      have hplace := hmore (x :: mid) after rfl
      rwa [Nat.add_assoc, ← List.length_append, ← commands_append,
        ← List.getLast?_append_of_ne_nil lines (List.cons_ne_nil x mid)] at hplace
  · -- the place is in the first part
    cases mid with
    | nil => simpa using hseam
    | cons x mid => exact h before (x :: mid) rfl

lemma followsDue_of_plain {x : Line} (hpause : ∀ p, x ≠ .pause p) (hcommand : ∀ c, x ≠ .command c) :
    FollowsDue m n [x] := by
  intro before after heq
  rcases List.singleton_eq_append_iff.mp heq with ⟨rfl, rfl⟩ | ⟨rfl, rfl⟩
  · simp [hpause]
  · simp [hcommand]

lemma followsDue_command {c : Command} (hdue : m.isDue (n + 1) = false) :
    FollowsDue m n [.command c] := by
  intro before after heq
  rcases List.singleton_eq_append_iff.mp heq with ⟨rfl, rfl⟩ | ⟨rfl, rfl⟩
  · simp
  · simp [hdue]

lemma followsDue_command_pause {c : Command} {p : Pause} (hdue : m.isDue (n + 1) = true) :
    FollowsDue m n [.command c, .pause p] := by
  intro before after heq
  match before, heq with
  | [], heq =>
    subst heq
    simp
  | [_], heq =>
    cases heq
    simp [hdue]
  | [_, _], heq =>
    cases heq
    simp

/-! ### Blocks and scripts -/

/-- The delays among lines are those that are due, of the right length and number. -/
structure IsSpaced (m : ProximityMode) (s : Running) (lines : List Line) (s' : Running) :
    Prop where
  commands : s'.commands = s.commands + (commands lines).length
  followsDue : FollowsDue m s.commands lines
  ticks : ∀ p, .pause p ∈ lines → p = .ticks m.delayTicks.toInt
  count : m.dueUpTo s'.commands = m.dueUpTo s.commands + (lines.filter Line.isPause).length

lemma isSpaced_composes : Account.Composes fun s _ lines s' => IsSpaced m s lines s' where
  nil s := by
    refine ⟨rfl, ?_, by simp, rfl⟩
    intro before after heq
    obtain ⟨rfl, rfl⟩ := List.append_eq_nil_iff.mp heq.symm
    simp
  append := by
    intro s s₁ s₂ _ _ lines more h h'
    refine ⟨?_, ?_, ?_, ?_⟩
    · rw [h'.commands, h.commands, commands_append, List.length_append, Nat.add_assoc]
    · refine h.followsDue.append ?_
      rw [← h.commands]
      exact h'.followsDue
    · intro p hp
      exact (List.mem_append.mp hp).elim (h.ticks p) (h'.ticks p)
    · rw [h'.count, h.count, List.filter_append, List.length_append, Nat.add_assoc]

variable {o : Options} {l : Layer} {s s' : Running} {block : List Line}

lemma isSpaced_comment (name : String) (s : Running) : IsSpaced m s [.comment name] s :=
  ⟨rfl, followsDue_of_plain nofun nofun, by simp, rfl⟩

lemma isSpaced_header (skill : String) (s : Running) : IsSpaced m s (Line.header skill) s := by
  have htitle : FollowsDue m s.commands [.title skill] := followsDue_of_plain nofun nofun
  have hheading : FollowsDue m s.commands [.heading] := followsDue_of_plain nofun nofun
  exact ⟨rfl, htitle.append hheading, by simp [Line.header], rfl⟩

lemma isSpaced_emitSpot {spot : Spot} (hanimation : o.modes.animation = .proximity m)
    (h : (o.emitter l).emitSpot s spot = .ok (lines, s')) : IsSpaced m s lines s' := by
  obtain ⟨color, rainbow, -, rfl, rfl⟩ := Emitter.emitSpot_eq_ok h
  have hpause : (o.emitter l).animation.pauseAfter? (s.commands + 1) =
      if m.isDue (s.commands + 1) then some (.ticks m.delayTicks.toInt) else none := by
    simp only [Options.emitter, hanimation, Animation.pauseAfter?]
  have hcount := m.dueUpTo_succ s.commands
  rw [hpause]
  cases hdue : m.isDue (s.commands + 1) with
  | false =>
    rw [hdue] at hcount
    exact ⟨rfl, followsDue_command hdue, by simp, hcount⟩
  | true =>
    rw [hdue] at hcount
    exact ⟨rfl, followsDue_command_pause hdue, by simp, hcount⟩

lemma isSpaced_emitLayer (hanimation : o.modes.animation = .proximity m)
    (h : emitLayer o l s = .ok (block, s')) : IsSpaced m s block s' := by
  refine emitLayer_composes isSpaced_composes (fun _ => isSpaced_emitSpot hanimation) ?_
    (isSpaced_comment l.name) h
  intro f hf p hp
  have hnone : f.pause = none := Animation.pause_eq_none (by rw [hanimation]; rfl) hf
  rw [hnone] at hp
  cases hp

/-- The block of a layer in the order of its tour, which visits each element once. -/
structure IsTourBlock (o : Options) (l : Layer) (block : List Line) : Prop where
  head : block.head? = some (.comment l.name)
  perm : (Tour.order (l.elements.map Element.position)).Perm (List.range l.elements.length)
  commands : List.Forall₂
    (fun i c => ∃ e, l.elements[i]? = some e ∧
      IsDrawnAt o ⟨l, Animation.standing (l.yOffset + o.globalYOffset) i e⟩ c)
    (Tour.order (l.elements.map Element.position)) (commands block)

lemma isTourBlock_emitLayer (hanimation : o.modes.animation = .proximity m)
    (h : emitLayer o l s = .ok (block, s')) : IsTourBlock o l block := by
  have hperm := Tour.order_perm (l.elements.map Element.position)
  rw [List.length_map] at hperm
  refine ⟨?_, hperm, ?_⟩
  · obtain ⟨lines, -, rfl⟩ := emitLayer_eq_ok_iff.mp h
    rfl
  · have hdrawn := (draws_emitLayer h).drawn
    simp only [Options.layerSpots, Options.frames, hanimation, Animation.frames,
      List.flatMap_singleton, Animation.tourSpots] at hdrawn
    rw [List.forall₂_map_left_iff] at hdrawn
    refine (forall₂_of_filterMap (fun i hi => ?_) hdrawn).imp fun i c h => ?_
    · have hlt := List.mem_range.mp (hperm.mem_iff.mp hi)
      rw [List.getElem?_eq_getElem hlt]
      rfl
    · obtain ⟨_, hspot, hc⟩ := h
      obtain ⟨e, he, rfl⟩ := Option.map_eq_some_iff.mp hspot
      exact ⟨e, he, hc⟩

lemma isSpaced_written (hanimation : o.modes.animation = .proximity m) (ls : List Layer) :
    ∃ s', IsSpaced m (Compile.start o.modes) (Compile.written o ls) s' :=
  Compile.written_composes isSpaced_composes (isSpaced_header _ _) fun _ _ =>
    isSpaced_emitLayer hanimation

open Compile

/-- Under the proximity animation the script of the layers that do not fail is one block for each
of them, with its commands in the order of a tour. A delay stands at a place of the script just if
the line before is a command whose number, counted over the whole script, the step divides; all
delays have the length of the mode. If step or length are not positive there is no delay. -/
theorem pause_of_proximity {o : Options} {m : ProximityMode} (ls : List Layer)
    (hanimation : o.modes.animation = .proximity m) (hperformance : o.modes.performance = false) :
    (∃ script, (compile o uncancelled ls).result = .ok script ∧
      script.text = Text.unlines ((written o ls).map Line.text)) ∧
    InTickOrder (ls.filter fun l => l.isShown && (fault? o l).isNone) (sound o ls) ∧
    (∃ blocks, List.Forall₂ (IsTourBlock o) (sound o ls) blocks ∧
      written o ls = Line.header o.resolvedSkillName ++ blocks.flatten) ∧
    (∀ x ∈ written o ls, Script.isDelayLine x.text = x.isPause) ∧
    if 0 < m.step ∧ 0 < m.delayTicks then
      (∀ before after, written o ls = before ++ after →
        ((∃ p, after.head? = some (.pause p)) ↔
          ∃ c, before.getLast? = some (.command c) ∧
            m.step.toInt.toNat ∣ (commands before).length)) ∧
      (∀ p, .pause p ∈ written o ls →
        (Line.pause p).text = "  - delay " ++ toString m.delayTicks.toInt) ∧
      ((written o ls).filter Line.isPause).length =
        (commands (written o ls)).length / m.step.toInt.toNat
    else ∀ p, .pause p ∉ written o ls := by
  obtain ⟨script, hscript, htext, -⟩ := compile_of_not_performance hperformance ls
  obtain ⟨s', hspaced⟩ := isSpaced_written hanimation ls
  refine ⟨⟨script, hscript, htext⟩, sound_inTickOrder o ls, ?_, tellsDelays_written o ls, ?_⟩
  · obtain ⟨lines, t, hall, hwritten⟩ := written_eq_all o ls
    obtain ⟨blocks, hblocks, rfl⟩ := Emission.all_eq_flatten hall
    refine ⟨blocks, hblocks.imp fun l block h => ?_, hwritten⟩
    obtain ⟨t, t', h⟩ := h
    exact isTourBlock_emitLayer hanimation h
  · have hcount := hspaced.count
    rw [hspaced.commands] at hcount
    change if m.HasDelays then _ else _
    split
    · rename_i hdelays
      refine ⟨fun before after heq => ?_, fun p hp => ?_, ?_⟩
      · have h := hspaced.followsDue before after heq
        simpa [ProximityMode.isDue_iff, hdelays, start] using h
      · rw [hspaced.ticks p hp]
        rfl
      · simpa [ProximityMode.dueUpTo, hdelays, start] using hcount.symm
    · rename_i hdelays
      have hnone : ((written o ls).filter Line.isPause).length = 0 := by
        simpa only [ProximityMode.dueUpTo, hdelays, if_false, Nat.zero_add] using hcount.symm
      intro p hp
      exact List.filter_eq_nil_iff.mp (List.length_eq_zero_iff.mp hnone) _ hp rfl

/-- A delay of five ticks after every second command. -/
def everySecond : Options where
  modes := { proximity := { enabled := true, step := 2 } }

/-- Two layers of one element and three elements. -/
def oneAndThree : List Layer :=
  [{ elements := List.replicate 1 ⟨.free, ⟨0.0, 0.0⟩, 0.0, none, none, none⟩ },
   { elements := List.replicate 3 ⟨.free, ⟨1.0, 0.0⟩, 0.0, none, none, none⟩ }]

/-- The count of commands runs on into the second layer. -/
theorem pause_of_proximity_everySecond :
    (oneAndThree.all fun l => (fault? everySecond l).isNone) ∧
    everySecond.modes.animation = .proximity { enabled := true, step := 2 } ∧
    everySecond.modes.performance = false ∧
    (∀ before after, written everySecond oneAndThree = before ++ after →
      ((∃ p, after.head? = some (.pause p)) ↔
        ∃ c, before.getLast? = some (.command c) ∧ 2 ∣ (commands before).length)) ∧
    ((written everySecond oneAndThree).filter Line.isPause).length =
      (commands (written everySecond oneAndThree)).length / 2 := by
  have hanimation : everySecond.modes.animation = .proximity { enabled := true, step := 2 } := rfl
  obtain ⟨-, -, -, -, h⟩ := pause_of_proximity oneAndThree hanimation rfl
  rw [if_pos (by decide)] at h
  exact ⟨by decide, hanimation, rfl, h.1, h.2.2⟩

end ParticleScene
