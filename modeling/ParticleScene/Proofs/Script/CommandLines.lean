import ParticleScene.Proofs.Script.DelayLines
import ParticleScene.Proofs.Script.RepeatField

/-!
# Command lines

A line of a script is known as a command by its first characters, as delays are. A number that is
written into a repeat field leaves them as they are, because no repeat field begins before the end
of what commands are known by.
-/

namespace ParticleScene

def Line.isCommand : Line → Bool
  | .command _ => true
  | _ => false

/-- The commands are the lines that are commands. -/
lemma length_commands (lines : List Line) :
    (commands lines).length = (lines.filter Line.isCommand).length := by
  rw [commands, List.length_filterMap_eq_countP, List.countP_eq_length_filter]
  refine congrArg List.length (List.filter_congr fun x _ => ?_)
  cases x <;> rfl

namespace Line

open Script

lemma isCommandLine_comment (name : String) : isCommandLine (comment name).text = false :=
  Bool.or_eq_false_iff.mpr
    ⟨not_begins_append (by decide) (by decide) name, not_begins_append (by decide) (by decide) name⟩

lemma isCommandLine_pause (p : Pause) : isCommandLine (pause p).text = false :=
  Bool.or_eq_false_iff.mpr
    ⟨not_begins_append (by decide) (by decide) _, not_begins_append (by decide) (by decide) _⟩

lemma isCommandLine_command (c : Command) : isCommandLine (command c).text = true := by
  rw [isCommandLine, Bool.or_eq_true, List.isPrefixOf_iff_prefix, List.isPrefixOf_iff_prefix, text]
  cases hkind : c.effect.kind with
  | particles =>
    rw [Command.text_of_particles hkind, String.toList_append]
    exact .inl (List.prefix_append_of_prefix (by decide))
  | cloud duration =>
    rw [Command.text_of_cloud hkind, String.toList_append]
    exact .inr (List.prefix_append_of_prefix (by decide))

lemma isCommandLine_title {skill : String} (h : Text.IsTrimmed skill.toList) :
    isCommandLine (title skill).text = false :=
  Bool.or_eq_false_iff.mpr ⟨not_begins_title rfl h, not_begins_title rfl h⟩

end Line

/-- In a script, the lines that begin as commands are the commands. -/
lemma tellsCommands_written (o : Options) (ls : List Layer) :
    ∀ x ∈ Compile.written o ls, Script.isCommandLine x.text = x.isCommand := by
  refine Compile.forall_mem_written ?_ Line.isCommandLine_comment Line.isCommandLine_pause
    Line.isCommandLine_command
  exact List.forall_mem_cons.mpr
    ⟨Line.isCommandLine_title o.resolvedSkillName_isTrimmed, by decide⟩

/-- Among the texts of a script, there are as many that begin as commands as there are commands. -/
lemma length_filter_isCommandLine (o : Options) (ls : List Layer) :
    (((Compile.written o ls).map Line.text).filter Script.isCommandLine).length =
      (commands (Compile.written o ls)).length := by
  rw [List.filter_map, List.length_map, length_commands]
  exact congrArg List.length (List.filter_congr (tellsCommands_written o ls))

/-! ### Collapsed runs -/

namespace Runs

/-- A mark without some character of `before` does not reach behind it. -/
lemma isPrefixOf_append_of_notMem {mark before : List Char} {c : Char} (hbefore : c ∈ before)
    (hmark : c ∉ mark) (after : List Char) :
    mark.isPrefixOf (before ++ after) = mark.isPrefixOf before := by
  rw [Bool.eq_iff_iff, List.isPrefixOf_iff_prefix, List.isPrefixOf_iff_prefix]
  refine ⟨fun h => ?_, fun h => h.trans (List.prefix_append before after)⟩
  rcases List.prefix_or_prefix_of_prefix h (List.prefix_append before after) with h | h
  · exact h
  · exact absurd (h.subset hbefore) hmark

/-- The equals sign before the digits is not part of what commands are known by. -/
lemma isCommandLine_of_isRepeatField {line : String} {f : RepeatField}
    (hf : IsRepeatField line.toList f) (rest : String) :
    Script.isCommandLine (String.ofList f.before ++ rest) = Script.isCommandLine line := by
  have hequals : '=' ∈ f.before := hf.mark_suffix.subset (by decide)
  have hmark : ∀ mark : List Char, '=' ∉ mark →
      mark.isPrefixOf (String.ofList f.before ++ rest).toList = mark.isPrefixOf line.toList := by
    intro mark hmark
    rw [String.toList_append, String.toList_ofList, hf.text_eq,
      isPrefixOf_append_of_notMem hequals hmark, isPrefixOf_append_of_notMem hequals hmark]
  exact congrArg₂ or (hmark _ (by decide)) (hmark _ (by decide))

lemma isCommandLine_applyRepeat (line : String) (count : Nat) :
    Script.isCommandLine (applyRepeat line count) = Script.isCommandLine line := by
  rw [applyRepeat]
  split
  · rfl
  · split
    · rfl
    · rename_i f n hfield
      obtain ⟨-, hf, -⟩ := particleField?_eq_some_iff.mp hfield
      rw [String.append_assoc]
      exact isCommandLine_of_isRepeatField hf _

/-- Collapsing leaves one command of each run of equal commands. -/
lemma length_filter_isCommandLine_collapse (lines : List String) :
    ((collapse lines).filter Script.isCommandLine).length =
      ((group lines).filter fun run => Script.isCommandLine run.1).length := by
  rw [collapse, List.filter_map, List.length_map]
  exact congrArg List.length
    (List.filter_congr fun run _ => isCommandLine_applyRepeat run.1 run.2)

end Runs

end ParticleScene
