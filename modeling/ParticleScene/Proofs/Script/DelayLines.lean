import ParticleScene.Proofs.Script.Composition
import ParticleScene.Proofs.Text.Blank

/-!
# Delay lines

A line of a script is known as a delay by its first characters. No other line begins with them,
whatever names, particles and colors it shows.
-/

namespace ParticleScene

namespace Script

/-- What delay lines begin with. -/
def delayMark : List Char := "  - delay ".toList

/-- Whether a line of a script is a delay. -/
def isDelayLine (line : String) : Bool :=
  delayMark.isPrefixOf line.toList

/-- A line that begins differently has nothing of a mark. -/
lemma not_begins_append {mark : List Char} {start : String}
    (hmark : mark.isPrefixOf start.toList = false) (hstart : start.toList.isPrefixOf mark = false)
    (rest : String) : mark.isPrefixOf (start ++ rest).toList = false := by
  rw [String.toList_append, Bool.eq_false_iff, Ne, List.isPrefixOf_iff_prefix]
  rw [Bool.eq_false_iff, Ne, List.isPrefixOf_iff_prefix] at hmark hstart
  intro h
  rcases List.prefix_or_prefix_of_prefix h (List.prefix_append start.toList rest.toList) with h | h
  · exact hmark h
  · exact hstart h

end Script

/-! ### The text of commands -/

namespace Command

variable {c : Command}

lemma afterRepeat_eq (c : Command) :
    c.afterRepeat =
      ";repeatInterval=" ++ toString c.effect.repeatInterval.toNat ++ "\x7d " ++ c.anchor := rfl

lemma text_of_particles (h : c.effect.kind = .particles) :
    c.text = "  - effect:particles\x7bp=" ++
      (c.effect.particle ++ (";c=" ++ (c.color ++ (";a=" ++ (Number.plain c.effect.alpha ++
        (";size=1;repeat=" ++ (toString c.effect.repeatCount.toNat ++ c.afterRepeat))))))) := by
  rw [text, h]
  simp only [← String.append_assoc]
  rfl

lemma text_of_cloud {duration : UInt32} (h : c.effect.kind = .cloud duration) :
    c.text = "  - summonareaeffectcloud\x7bparticle=" ++
      (c.effect.particle ++ (";d=" ++ (toString duration.toNat ++ (";r=1;color=" ++ (c.color ++
        ("\x7d " ++ c.anchor)))))) := by
  rw [text, h]
  simp only [← String.append_assoc]

end Command

/-! ### Which lines are delays -/

namespace Line

open Script

lemma isDelayLine_pause (p : Pause) : isDelayLine (pause p).text = true := by
  rw [isDelayLine, text, String.toList_append, List.isPrefixOf_iff_prefix]
  exact List.prefix_append ..

lemma isDelayLine_comment (name : String) : isDelayLine (comment name).text = false :=
  not_begins_append (by decide) (by decide) name

lemma isDelayLine_command (c : Command) : isDelayLine (command c).text = false := by
  rw [text]
  cases hkind : c.effect.kind with
  | particles =>
    rw [Command.text_of_particles hkind]
    exact not_begins_append (by decide) (by decide) _
  | cloud duration =>
    rw [Command.text_of_cloud hkind]
    exact not_begins_append (by decide) (by decide) _

/-- The title of a trimmed name begins with the name or with the colon, and not with a blank. -/
lemma not_begins_title {mark : List Char} (hmark : mark.head? = some ' ') {skill : String}
    (h : Text.IsTrimmed skill.toList) : mark.isPrefixOf (title skill).text.toList = false := by
  obtain ⟨mark, rfl⟩ := List.head?_eq_some_iff.mp hmark
  rw [text, String.toList_append, Bool.eq_false_iff, Ne, List.isPrefixOf_iff_prefix]
  rintro ⟨rest, hrest⟩
  have hhead : (skill.toList ++ ":".toList).head? = some ' ' := by
    rw [← hrest]
    rfl
  cases hskill : skill.toList with
  | nil =>
    rw [hskill] at hhead
    exact absurd hhead (by decide)
  | cons c chars =>
    rw [hskill] at hhead
    obtain rfl : c = ' ' := Option.some.inj hhead
    exact h.head ' ' (by rw [hskill]; rfl) (by decide)

end Line

lemma Options.resolvedSkillName_isTrimmed (o : Options) :
    Text.IsTrimmed o.resolvedSkillName.toList := by
  rw [resolvedSkillName]
  split
  · exact Text.isTrimmed_of_all (by decide)
  · rw [Text.trim, String.toList_ofList]
    exact Text.isTrimmed_trimChars _

/-- In a script, the lines that begin as delays are the delays. -/
lemma tellsDelays_written (o : Options) (ls : List Layer) :
    ∀ x ∈ Compile.written o ls, Script.isDelayLine x.text = x.isPause := by
  refine Compile.forall_mem_written ?_ Line.isDelayLine_comment Line.isDelayLine_pause
    Line.isDelayLine_command
  exact List.forall_mem_cons.mpr
    ⟨Line.not_begins_title rfl o.resolvedSkillName_isTrimmed, by decide⟩

end ParticleScene
