import ParticleScene.Proofs.Script.Colors
import ParticleScene.Proofs.Script.CommandLines
import ParticleScene.Proofs.Script.Timing
import ParticleScene.Proofs.Text.Hex
import ParticleScene.Proofs.Text.Lines

/-!
# Line ends in shown texts

A script ends every line that is emitted with a line feed, and shows names, particles, colors and
targeters as they are given. So the lines that the script is split into are those that were emitted
if no such text holds a line feed and no name ends in a carriage return. Each line feed in one of
them makes a line that nothing emitted.
-/

namespace ParticleScene

open Text

lemma not_hasLineFeed_of_isNumeral {s : String} (h : Number.IsNumeral s) : ¬ HasLineFeed s :=
  fun hmem => absurd (h _ hmem) (by decide)

/-! ### Line ends in the text of a line -/

namespace Command

variable {c : Command}

lemma hasLineFeed_anchor_iff : HasLineFeed c.anchor ↔ HasLineFeed c.effect.targeter := by
  have hnumber (x : Float) : ¬ HasLineFeed (Number.fixed 4 x) :=
    not_hasLineFeed_of_isNumeral (Number.isNumeral_fixed 4 x)
  rw [anchor, hasLineFeed_append_right (by decide), hasLineFeed_append_right (hnumber _),
    hasLineFeed_append_right (by decide), hasLineFeed_append_right (hnumber _),
    hasLineFeed_append_right (by decide), hasLineFeed_append_right (hnumber _),
    hasLineFeed_append_right (by decide), hasLineFeed_append_left (by decide)]

lemma hasLineFeed_afterRepeat_iff :
    HasLineFeed c.afterRepeat ↔ HasLineFeed c.effect.targeter := by
  have hcount : ¬ HasLineFeed (toString c.effect.repeatInterval.toNat) :=
    not_hasLineFeed_of_isNumeral (Number.isNumeral_toString _)
  rw [afterRepeat_eq, hasLineFeed_append_left, hasLineFeed_anchor_iff]
  rwa [hasLineFeed_append_right (by decide), hasLineFeed_append_left (by decide)]

lemma hasLineFeed_text_iff :
    HasLineFeed c.text ↔
      HasLineFeed c.effect.particle ∨ HasLineFeed c.color ∨ HasLineFeed c.effect.targeter := by
  have halpha : ¬ HasLineFeed (Number.plain c.effect.alpha) :=
    not_hasLineFeed_of_isNumeral (Number.isNumeral_plain _)
  have hcount (n : Nat) : ¬ HasLineFeed (toString n) :=
    not_hasLineFeed_of_isNumeral (Number.isNumeral_toString n)
  cases hkind : c.effect.kind with
  | particles =>
    rw [text_of_particles hkind, hasLineFeed_append_left (by decide), hasLineFeed_append,
      hasLineFeed_append_left (by decide), hasLineFeed_append, hasLineFeed_append_left (by decide),
      hasLineFeed_append_left halpha, hasLineFeed_append_left (by decide),
      hasLineFeed_append_left (hcount _), hasLineFeed_afterRepeat_iff]
  | cloud duration =>
    rw [text_of_cloud hkind, hasLineFeed_append_left (by decide), hasLineFeed_append,
      hasLineFeed_append_left (by decide), hasLineFeed_append_left (hcount _),
      hasLineFeed_append_left (by decide), hasLineFeed_append, hasLineFeed_append_left (by decide),
      hasLineFeed_anchor_iff]

lemma exists_text_eq_append_anchor (c : Command) : ∃ start, c.text = start ++ c.anchor := by
  cases hkind : c.effect.kind with
  | particles =>
    rw [text_of_particles hkind]
    simp only [afterRepeat_eq, ← String.append_assoc]
    exact ⟨_, rfl⟩
  | cloud duration =>
    rw [text_of_cloud hkind]
    simp only [← String.append_assoc]
    exact ⟨_, rfl⟩

/-- A command ends in a closing brace. -/
lemma getLast?_text (c : Command) : c.text.toList.getLast? = some '\x7d' := by
  obtain ⟨start, hstart⟩ := c.exists_text_eq_append_anchor
  rw [hstart, anchor]
  exact getLast?_append_of_eq_some (getLast?_append_of_eq_some rfl)

lemma isUnbroken_text_iff :
    IsUnbroken c.text ↔ ¬ HasLineFeed c.effect.particle ∧ ¬ HasLineFeed c.color ∧
      ¬ HasLineFeed c.effect.targeter := by
  rw [IsUnbroken, hasLineFeed_text_iff, getLast?_text, not_or, not_or]
  exact and_iff_left (by decide)

end Command

namespace Line

lemma isUnbroken_title_iff {skill : String} :
    IsUnbroken (title skill).text ↔ ¬ HasLineFeed skill := by
  have hcolon : ":".toList.getLast? = some ':' := by decide
  rw [IsUnbroken, text, hasLineFeed_append_right (by decide), getLast?_append_of_eq_some hcolon]
  exact and_iff_left (by decide)

lemma isUnbroken_comment_iff {name : String} :
    IsUnbroken (comment name).text ↔ IsUnbroken name := by
  rw [IsUnbroken, text, hasLineFeed_append_left (by decide), Ne,
    getLast?_append_of_ne (by decide)]
  rfl

lemma isUnbroken_pause (p : Pause) : IsUnbroken (pause p).text := by
  rw [IsUnbroken, text, hasLineFeed_append_left (by decide), Ne,
    getLast?_append_of_ne (by decide)]
  refine ⟨not_hasLineFeed_of_isNumeral p.isNumeral_text, fun h => ?_⟩
  exact absurd (p.isNumeral_text _ (List.mem_of_getLast? h)) (by decide)

end Line

/-! ### Line ends in collapsed runs -/

namespace Runs

/-- A text whose middle is digits is broken where it is broken around them. -/
lemma isUnbroken_iff_of_digits {line : String} {before ds after : List Char}
    (hline : line.toList = before ++ (ds ++ after)) (hne : ds ≠ [])
    (hdigits : ∀ c ∈ ds, isDecimalDigit c) :
    IsUnbroken line ↔ '\n' ∉ before ∧ '\n' ∉ after ∧ after.getLast? ≠ some '\r' := by
  have hfeed : '\n' ∉ ds := fun h => absurd (hdigits _ h) (by decide)
  have hend : (before ++ (ds ++ after)).getLast? = some '\r' ↔ after.getLast? = some '\r' := by
    rw [List.getLast?_append_of_ne_nil _ (List.append_ne_nil_of_left_ne_nil hne after),
      List.getLast?_append]
    cases hafter : after.getLast? with
    | none =>
      refine iff_of_false (fun h => ?_) (by simp)
      exact absurd (hdigits _ (List.mem_of_getLast? h)) (by decide)
    | some c => rfl
  rw [IsUnbroken, HasLineFeed, hline, Ne, hend, List.mem_append, List.mem_append, not_or, not_or,
    and_assoc, and_iff_right hfeed]

lemma isUnbroken_applyRepeat_iff {line : String} (count : Nat) :
    IsUnbroken (applyRepeat line count) ↔ IsUnbroken line := by
  rw [applyRepeat]
  split
  · rfl
  · split
    · rfl
    · rename_i f n hfield
      obtain ⟨-, hf, -⟩ := particleField?_eq_some_iff.mp hfield
      have htext : (String.ofList f.before ++ toString (min (n * count) maxRepeat) ++
          String.ofList f.after).toList =
          f.before ++ (Nat.toDigits 10 (min (n * count) maxRepeat) ++ f.after) := by
        simp only [String.toList_append, String.toList_ofList, toList_toString, List.append_assoc]
      rw [isUnbroken_iff_of_digits hf.text_eq hf.digits_ne_nil hf.digits]
      exact isUnbroken_iff_of_digits htext Nat.toDigits_ne_nil fun c hc =>
        isDecimalDigit_of_isAsciiDigit (areDigits_toDigits _ c hc)

/-- Collapsing runs neither makes nor mends broken lines. -/
lemma forall_isUnbroken_collapse_iff {lines : List String} :
    (∀ line ∈ collapse lines, IsUnbroken line) ↔ ∀ line ∈ lines, IsUnbroken line := by
  have hruns : (∀ line ∈ lines, IsUnbroken line) ↔ ∀ run ∈ group lines, IsUnbroken run.1 := by
    conv_lhs => rw [← expand_group lines, expand]
    rw [List.forall_mem_flatMap]
    refine forall₂_congr fun run hrun => ?_
    have hne : run.2 ≠ 0 := Nat.ne_of_gt (group_pos hrun)
    simp [List.mem_replicate, hne]
  rw [hruns, collapse, List.forall_mem_map]
  exact forall₂_congr fun run _ => isUnbroken_applyRepeat_iff run.2

end Runs

/-! ### The texts that a script shows -/

lemma not_hasLineFeed_ofHue (hue : Float) : ¬ HasLineFeed (Color.ofHue hue) := by
  have hbyte (x : UInt8) : '\n' ∉ hexByte x := fun h =>
    absurd (mem_hexDigits_of_mem_hexByte h) (by decide)
  simp [Color.ofHue, Color.encode, HasLineFeed, hbyte]

lemma Rainbow.not_hasLineFeed_of_mem_take {r : Rainbow} {n : Nat} {color : String}
    (h : color ∈ (r.take n).1) : ¬ HasLineFeed color := by
  induction n generalizing r with
  | zero => cases h
  | succ n ih =>
    rw [take_succ] at h
    rcases List.mem_cons.mp h with rfl | h
    · exact not_hasLineFeed_ofHue r.hue
    · exact ih h

variable {o : Options} {l : Layer} {ls : List Layer} {s s' : Running} {block : List Line}

lemma mem_commands_iff {c : Command} {lines : List Line} :
    c ∈ commands lines ↔ Line.command c ∈ lines := by
  rw [commands, List.mem_filterMap]
  constructor
  · rintro ⟨x, hx, hc⟩
    cases x with
    | command c' =>
      cases hc
      exact hx
    | _ => cases hc
  · exact fun h => ⟨_, h, rfl⟩

/-- The only name in the block of a layer is that of the layer. -/
lemma comment_mem_emitLayer_iff {name : String} (h : emitLayer o l s = .ok (block, s')) :
    Line.comment name ∈ block ↔ l.name = name := by
  constructor
  · have hcomposes : Account.Composes fun _ _ lines _ =>
        Line.comment name ∈ lines → l.name = name :=
      ⟨by simp, fun h h' hmem => (List.mem_append.mp hmem).elim h h'⟩
    refine emitLayer_composes hcomposes (fun spot s lines s' hspot hmem => ?_) (by simp)
      (by simp +contextual) h
    obtain ⟨color, rainbow, -, rfl, -⟩ := Emitter.emitSpot_eq_ok hspot
    simp at hmem
  · rintro rfl
    obtain ⟨lines, -, rfl⟩ := emitLayer_eq_ok_iff.mp h
    exact List.mem_cons_self

/-- What the parts of a list hold can be read off what they belong to. -/
lemma mem_flatten_iff_of_forall₂ {α β : Type} {R : α → List β → Prop} {p : α → Prop} {b : β}
    {as : List α} {parts : List (List β)} (hR : ∀ a part, R a part → (b ∈ part ↔ p a))
    (h : List.Forall₂ R as parts) : b ∈ parts.flatten ↔ ∃ a ∈ as, p a := by
  induction h with
  | nil => simp
  | cons hpart _ ih =>
    rw [List.flatten_cons, List.mem_append, hR _ _ hpart, ih, List.exists_mem_cons_iff]

namespace Compile

/-- The names in a script are those of the layers that do not fail. -/
lemma comment_mem_written_iff {name : String} :
    Line.comment name ∈ written o ls ↔ ∃ l ∈ sound o ls, l.name = name := by
  obtain ⟨lines, s', hall, hwritten⟩ := written_eq_all o ls
  obtain ⟨blocks, hblocks, rfl⟩ := Emission.all_eq_flatten hall
  have hheader : Line.comment name ∉ Line.header o.resolvedSkillName := by simp [Line.header]
  rw [hwritten, List.mem_append, or_iff_right hheader]
  refine mem_flatten_iff_of_forall₂ (fun l block hemit => ?_) hblocks
  obtain ⟨t, t', hemit⟩ := hemit
  exact comment_mem_emitLayer_iff hemit

/-- The only title of a script is its first line. -/
lemma title_mem_written_iff {skill : String} :
    Line.title skill ∈ written o ls ↔ skill = o.resolvedSkillName := by
  constructor
  · intro h
    have hwritten : ∀ x ∈ written o ls, ∀ skill, x = .title skill → skill = o.resolvedSkillName :=
      forall_mem_written (by simp [Line.header]) (by simp) (by simp) (by simp)
    exact hwritten _ h skill rfl
  · rintro rfl
    exact List.mem_append_left _ List.mem_cons_self

lemma effects_written (o : Options) (ls : List Layer) :
    (commands (written o ls)).map Command.effect = (drawn o ls).map fun d =>
      Effect.ofLayer d.layer (o.modes.animation.commandKind o.effectKind) := by
  obtain ⟨s', hdraws⟩ := draws_written o ls
  rw [← List.forall₂_eq_eq_eq, List.forall₂_map_left_iff, List.forall₂_map_right_iff]
  exact (hdraws.drawn.imp fun _ _ h => h.effect).flip

lemma forall_effects_iff :
    (∀ c ∈ commands (written o ls),
      ¬ HasLineFeed c.effect.particle ∧ ¬ HasLineFeed c.effect.targeter) ↔
      ∀ d ∈ drawn o ls,
        ¬ HasLineFeed d.layer.particle ∧ ¬ HasLineFeed d.layer.targeter.text := by
  rw [← List.forall_mem_map (f := Command.effect)
    (P := fun e => ¬ HasLineFeed e.particle ∧ ¬ HasLineFeed e.targeter), effects_written,
    List.forall_mem_map]
  rfl

lemma forall_colors_iff :
    (∀ c ∈ commands (written o ls), ¬ HasLineFeed c.color) ↔
      (o.modes.rainbow = false → ∀ d ∈ drawn o ls, ¬ HasLineFeed d.ownColor) := by
  obtain ⟨s', hdraws⟩ := draws_written o ls
  rw [← List.forall_mem_map (f := Command.color) (P := fun color => ¬ HasLineFeed color),
    hdraws.colors]
  cases hrainbow : o.modes.rainbow with
  | true =>
    simp only [start, hrainbow, if_true, Running.colors]
    exact iff_of_true (fun _ => Rainbow.not_hasLineFeed_of_mem_take) (by simp)
  | false =>
    simp only [start, hrainbow, Bool.false_eq_true, if_false, Running.colors]
    rw [List.forall_mem_map, forall_true_left]

end Compile

open Compile

/-- Nothing that a script shows as it was given breaks a line. -/
structure KeepsLines (o : Options) (ls : List Layer) : Prop where
  skill : ¬ HasLineFeed o.resolvedSkillName
  names : ∀ l ∈ sound o ls, IsUnbroken l.name
  effects : ∀ d ∈ drawn o ls,
    ¬ HasLineFeed d.layer.particle ∧ ¬ HasLineFeed d.layer.targeter.text
  colors : o.modes.rainbow = false → ∀ d ∈ drawn o ls, ¬ HasLineFeed d.ownColor

lemma forall_isUnbroken_written_iff :
    (∀ x ∈ written o ls, IsUnbroken x.text) ↔ KeepsLines o ls := by
  constructor
  · intro h
    have hcommand : ∀ c ∈ commands (written o ls), ¬ HasLineFeed c.effect.particle ∧
        ¬ HasLineFeed c.color ∧ ¬ HasLineFeed c.effect.targeter := fun c hc =>
      Command.isUnbroken_text_iff.mp (h _ (mem_commands_iff.mp hc))
    refine ⟨?_, fun l hl => ?_, ?_, ?_⟩
    · exact Line.isUnbroken_title_iff.mp (h _ (title_mem_written_iff.mpr rfl))
    · exact Line.isUnbroken_comment_iff.mp (h _ (comment_mem_written_iff.mpr ⟨l, hl, rfl⟩))
    · exact forall_effects_iff.mp fun c hc => ⟨(hcommand c hc).1, (hcommand c hc).2.2⟩
    · exact forall_colors_iff.mp fun c hc => (hcommand c hc).2.1
  · intro h x hx
    cases x with
    | title skill =>
      obtain rfl := title_mem_written_iff.mp hx
      exact Line.isUnbroken_title_iff.mpr h.skill
    | heading => decide
    | comment name =>
      obtain ⟨l, hl, rfl⟩ := comment_mem_written_iff.mp hx
      exact Line.isUnbroken_comment_iff.mpr (h.names l hl)
    | pause p => exact Line.isUnbroken_pause p
    | command c =>
      have hc := mem_commands_iff.mpr hx
      obtain ⟨hparticle, htargeter⟩ := forall_effects_iff.mpr h.effects c hc
      have hcolor := forall_colors_iff.mpr h.colors c hc
      exact Command.isUnbroken_text_iff.mpr ⟨hparticle, hcolor, htargeter⟩

lemma forall_isUnbroken_scriptLines_iff :
    (∀ line ∈ scriptLines o ls, IsUnbroken line) ↔ KeepsLines o ls := by
  rw [← forall_isUnbroken_written_iff, ← List.forall_mem_map (f := Line.text) (P := IsUnbroken),
    scriptLines, texts]
  split
  · exact Runs.forall_isUnbroken_collapse_iff
  · rfl

/-- Each command is a line, and each run of equal ones if runs are collapsed. -/
lemma length_filter_scriptLines (o : Options) (ls : List Layer) :
    ((scriptLines o ls).filter Script.isCommandLine).length =
      if o.modes.performance then
        ((Runs.group ((written o ls).map Line.text)).filter fun run =>
          Script.isCommandLine run.1).length
      else (commands (written o ls)).length := by
  rw [scriptLines, texts]
  split
  · exact Runs.length_filter_isCommandLine_collapse _
  · exact length_filter_isCommandLine o ls

/-- A script is split into the lines that were emitted just if no shown text breaks a line; each
line feed in a shown text makes one line more than the script counts. The commands of a script
whose lines are kept are counted, and those of a run of equal lines once if runs are collapsed. -/
theorem lines_of_script (o : Options) (ls : List Layer) :
    scriptLines o ls = (if o.modes.performance then
      Runs.collapse ((written o ls).map Line.text) else (written o ls).map Line.text) ∧
    (∀ x ∈ written o ls, Script.isCommandLine x.text = x.isCommand) ∧
    ∃ script, (compile o uncancelled ls).result = .ok script ∧
      script.lineCount = (scriptLines o ls).length ∧
      script.lines.length =
        script.lineCount + ((scriptLines o ls).flatMap String.toList).count '\n' ∧
      (script.lines = scriptLines o ls ↔ KeepsLines o ls) ∧
      (KeepsLines o ls → script.commandCount =
        if o.modes.performance then
          ((Runs.group ((written o ls).map Line.text)).filter fun run =>
            Script.isCommandLine run.1).length
        else (commands (written o ls)).length) := by
  obtain ⟨script, hscript, htext, hcount⟩ := compile_eq_scriptLines o ls
  have hlines : script.lines = scriptLines o ls ↔ KeepsLines o ls := by
    rw [Script.lines, htext, lines_unlines_eq_iff, forall_isUnbroken_scriptLines_iff]
  refine ⟨rfl, tellsCommands_written o ls, script, hscript, hcount, ?_, hlines, fun hkeeps => ?_⟩
  · rw [Script.lines, htext, length_lines_unlines, hcount]
  · rw [Script.commandCount, hlines.mpr hkeeps, length_filter_scriptLines]

/-- A layer of one element whose name goes on as a delay. -/
def forged : Layer where
  name := "A\n  - delay 100"
  elements := [⟨.free, ⟨0.0, 0.0⟩, 0.0, none, none, none⟩]

/-- The command of that layer. -/
def forgedCommand : Command where
  effect := Effect.ofLayer forged .particles
  color := forged.color
  x := 0.0
  z := 0.0
  y := 0.0 + (0.0 + 0.0)

lemma scriptLines_forged :
    scriptLines {} [forged] =
      ["MySkill:", "  Skills:", "  # A\n  - delay 100", "  - delay 0", forgedCommand.text] := by
  have hordered : ordered [forged] = [forged] := by
    have hshown : [forged].filter Layer.isShown = [forged] := by rfl
    rw [ordered, hshown, List.mergeSort_singleton]
  rw [scriptLines, emitted, hordered]
  rfl

/-- A layer name with a line feed makes a delay line that nothing emitted. -/
theorem lines_of_forged :
    ∃ script, (compile {} uncancelled [forged]).result = .ok script ∧ script.lineCount = 5 ∧
      script.lines = ["MySkill:", "  Skills:", "  # A", "  - delay 100", "  - delay 0",
        forgedCommand.text] := by
  obtain ⟨script, hscript, htext, hcount⟩ := compile_eq_scriptLines {} [forged]
  rw [scriptLines_forged] at htext hcount
  have hname : lines ("  # A\n  - delay 100" ++ "\n") = ["  # A", "  - delay 100"] := by rfl
  have hcommand : IsUnbroken forgedCommand.text :=
    Command.isUnbroken_text_iff.mpr (by decide)
  have hrest : lines (unlines ["  - delay 0", forgedCommand.text]) =
      ["  - delay 0", forgedCommand.text] :=
    lines_unlines_eq_iff.mpr (List.forall_mem_cons.mpr ⟨by decide, by simpa using hcommand⟩)
  refine ⟨script, hscript, hcount, ?_⟩
  rw [Script.lines, htext, lines_unlines_cons, lines_unlines_cons, lines_unlines_cons, hname, hrest]
  rfl

end ParticleScene
