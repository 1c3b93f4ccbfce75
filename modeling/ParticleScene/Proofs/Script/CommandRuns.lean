import ParticleScene.Proofs.Number.Characters
import ParticleScene.Proofs.Script.DelayLines
import ParticleScene.Proofs.Script.JoinedFields

/-!
# Runs of a command

The length of a run goes into the first repeat field of the line. In the text of a particle command
this is the field of the command itself as long as its particle and its color hold none; otherwise
the first field in these texts is multiplied, and the command keeps its number. A cloud has no field
of its own. It stays as it is unless its texts show what particle commands are known by.
-/

namespace ParticleScene

open Text Runs

namespace Command

variable {c : Command} {n m : Nat}

/-! ### The parts of a command -/

/-- The text of a particle command with `m` in its repeat field. -/
def withRepeat (c : Command) (m : Nat) : String :=
  c.beforeRepeat ++ toString m ++ c.afterRepeat

def withParticle (c : Command) (particle : List Char) : Command :=
  { c with effect := { c.effect with particle := String.ofList particle } }

def withColor (c : Command) (color : List Char) : Command :=
  { c with color := String.ofList color }

def withTargeter (c : Command) (targeter : List Char) : Command :=
  { c with effect := { c.effect with targeter := String.ofList targeter } }

lemma text_eq_withRepeat (h : c.effect.kind = .particles) :
    c.text = c.withRepeat c.effect.repeatCount.toNat := by
  rw [text, h]
  rfl

/-- The field of a particle command, with what stands around it behind the color. -/
def ownField (c : Command) (m : Nat) : List Char :=
  ";a=".toList ++ ((Number.plain c.effect.alpha).toList ++ (";size=1;".toList ++
    (repeatMark ++ (Nat.toDigits 10 m ++ c.afterRepeat.toList))))

lemma toList_withRepeat (c : Command) (m : Nat) :
    (c.withRepeat m).toList = "  - effect:particles\x7bp=".toList ++ (c.effect.particle.toList ++
      (";c=".toList ++ (c.color.toList ++ c.ownField m))) := by
  have hfield : ";size=1;repeat=".toList = ";size=1;".toList ++ repeatMark := by decide
  unfold withRepeat beforeRepeat ownField
  simp only [String.toList_append, toList_toString, hfield, List.append_assoc]

/-- What stands between the particle and the color of a cloud. -/
def lasting (duration : UInt32) : String :=
  ";d=" ++ (toString duration.toNat ++ ";r=1;color=")

lemma head?_lasting (duration : UInt32) (t : List Char) :
    ((lasting duration).toList ++ t).head? = some ';' := by
  rw [lasting, String.toList_append, List.append_assoc]
  rfl

/-- The offsets from the anchor, behind their brace. -/
def offsets (c : Command) : String :=
  "xoffset=" ++ (Number.fixed 4 c.x ++ (";zoffset=" ++ (Number.fixed 4 c.z ++
    (";yoffset=" ++ (Number.fixed 4 c.y ++ "\x7d")))))

lemma toList_text_of_cloud {duration : UInt32} (h : c.effect.kind = .cloud duration) :
    c.text.toList = "  - summonareaeffectcloud\x7bparticle=".toList ++
      (c.effect.particle.toList ++ ((lasting duration).toList ++ (c.color.toList ++
        ("\x7d @".toList ++ (c.effect.targeter.toList ++
          ("\x7b".toList ++ c.offsets.toList)))))) := by
  have hat : "\x7d @".toList = "\x7d ".toList ++ "@".toList := by decide
  have hbrace : "\x7bxoffset=".toList = "\x7b".toList ++ "xoffset=".toList := by decide
  rw [text_of_cloud h]
  unfold lasting anchor offsets
  simp only [hat, hbrace, String.toList_append, List.append_assoc]

/-! ### Marks in clouds -/

/-- A text of a cloud shows what particle commands are known by. Behind the targeter there is an
opening brace, which may be the last character of the mark. -/
def ShowsMark (c : Command) : Prop :=
  particleMark <:+: c.effect.particle.toList ∨ particleMark <:+: c.color.toList ∨
    particleMark <:+: c.effect.targeter.toList ++ "\x7b".toList

variable {d : Char}

lemma notMem_lasting {duration : UInt32} (hd : ¬ Number.isNumeric d)
    (hwords : d ∉ ";d=;r=1;color=".toList) : d ∉ (lasting duration).toList := by
  have hsplit : ";d=;r=1;color=".toList = ";d=".toList ++ ";r=1;color=".toList := by decide
  have hcount : d ∉ (toString duration.toNat).toList := (Number.isNumeral_toString _).notMem hd
  unfold lasting
  simp only [hsplit, String.toList_append, List.mem_append, not_or] at *
  exact ⟨hwords.1, hcount, hwords.2⟩

lemma notMem_offsets (hd : ¬ Number.isNumeric d)
    (hwords : d ∉ "xoffset=;zoffset=;yoffset=\x7d".toList) : d ∉ c.offsets.toList := by
  have hsplit : "xoffset=;zoffset=;yoffset=\x7d".toList =
      "xoffset=".toList ++ (";zoffset=".toList ++ (";yoffset=".toList ++ "\x7d".toList)) := by
    decide
  have hnumber (x : Float) : d ∉ (Number.fixed 4 x).toList :=
    (Number.isNumeral_fixed 4 x).notMem hd
  unfold offsets
  simp only [hsplit, String.toList_append, List.mem_append, not_or] at *
  exact ⟨hwords.1, hnumber _, hwords.2.1, hnumber _, hwords.2.2.1, hnumber _, hwords.2.2.2⟩

/-- What particle commands are known by holds a colon. -/
lemma not_infix_of_notMem {t : List Char} (ht : ':' ∉ t) : ¬ particleMark <:+: t :=
  fun h => ht (h.subset (by decide))

lemma infix_text_of_cloud_iff {duration : UInt32} (h : c.effect.kind = .cloud duration) :
    particleMark <:+: c.text.toList ↔ c.ShowsMark := by
  have hopening : ¬ particleMark <:+: "  - summonareaeffectcloud\x7bparticle=".toList :=
    not_infix_of_notMem (by decide)
  have hlasting : ¬ particleMark <:+: (lasting duration).toList :=
    not_infix_of_notMem (notMem_lasting (by decide) (by decide))
  have hat : ¬ particleMark <:+: "\x7d @".toList := not_infix_of_notMem (by decide)
  have hoffsets : ¬ particleMark <:+: c.offsets.toList :=
    not_infix_of_notMem (notMem_offsets (by decide) (by decide))
  have hlast : (lasting duration).toList.getLast? = some '=' := by
    rw [lasting, String.toList_append, String.toList_append, ← List.append_assoc,
      List.getLast?_append_of_ne_nil _ (by decide)]
    decide
  have hx : c.offsets.toList.head? = some 'x' := by
    rw [offsets, String.toList_append]
    rfl
  rw [toList_text_of_cloud h, infix_append_iff '=' (by decide) (.inl (by decide)),
    infix_append_iff ';' (by decide) (.inr (head?_lasting _ _)),
    infix_append_iff '=' (by decide) (.inl hlast),
    infix_append_iff '\x7d' (by decide) (.inr (by rfl)),
    infix_append_iff '@' (by decide) (.inl (by decide)), ← List.append_assoc,
    infix_append_iff 'x' (by decide) (.inr hx)]
  simp only [hopening, hlasting, hat, hoffsets, false_or, or_false, ShowsMark]

/-! ### Fields in commands -/

/-- The first of particle, color and targeter that holds a field, multiplied. -/
def multiplyText (c : Command) (n : Nat) : Command :=
  if HoldsField c.effect.particle.toList then
    c.withParticle (multiplied n c.effect.particle.toList)
  else if HoldsField c.color.toList then c.withColor (multiplied n c.color.toList)
  else c.withTargeter (multiplied n c.effect.targeter.toList)

lemma multiplyText_of_not_holdsField (hparticle : ¬ HoldsField c.effect.particle.toList)
    (hcolor : ¬ HoldsField c.color.toList) (htargeter : ¬ HoldsField c.effect.targeter.toList)
    (n : Nat) : c.multiplyText n = c := by
  rw [multiplyText, if_neg hparticle, if_neg hcolor, multiplied_of_not_holdsField htargeter,
    withTargeter, String.ofList_toList]

/-- Multiplying a text leaves the form and the number of a command. -/
lemma effect_multiplyText (c : Command) (n : Nat) :
    (c.multiplyText n).effect.kind = c.effect.kind ∧
      (c.multiplyText n).effect.repeatCount = c.effect.repeatCount := by
  unfold multiplyText
  split_ifs
  · exact ⟨rfl, rfl⟩
  · exact ⟨rfl, rfl⟩
  · exact ⟨rfl, rfl⟩

lemma isSeparator_semicolon : IsSeparator ';' := by decide

lemma multiplied_ownField (hm : m ≤ maxRepeat) (n : Nat) :
    multiplied n (c.ownField m) = c.ownField (min (m * n) maxRepeat) := by
  have halpha : 'r' ∉ (Number.plain c.effect.alpha).toList :=
    (Number.isNumeral_plain _).notMem (by decide)
  have hafter : c.afterRepeat.toList.head? = some ';' := by
    rw [afterRepeat_eq, String.append_assoc, String.append_assoc, String.toList_append]
    rfl
  unfold ownField
  rw [multiplied_append_of_isClear (by decide),
    multiplied_append_of_isClear (isClear_of_notMem halpha),
    multiplied_append_of_isClear (by decide),
    multiplied_field hm (forall_head?_not_digit hafter isSeparator_semicolon.2)]

lemma ownField_injective (c : Command) : Function.Injective c.ownField := by
  intro m k h
  unfold ownField at h
  simp only [List.append_cancel_left_eq, List.append_cancel_right_eq] at h
  rw [← digitsValue_toDigits m, h, digitsValue_toDigits]

lemma multiplied_withRepeat (c : Command) (m n : Nat) :
    multiplied n (c.withRepeat m).toList = "  - effect:particles\x7bp=".toList ++
      if HoldsField c.effect.particle.toList then
        multiplied n c.effect.particle.toList ++ (";c=".toList ++ (c.color.toList ++ c.ownField m))
      else c.effect.particle.toList ++ (";c=".toList ++
        if HoldsField c.color.toList then multiplied n c.color.toList ++ c.ownField m
        else c.color.toList ++ multiplied n (c.ownField m)) := by
  rw [toList_withRepeat, multiplied_append_of_isClear (by decide),
    multiplied_append isSeparator_semicolon (by rfl), multiplied_append_of_isClear (by decide),
    multiplied_append isSeparator_semicolon (by rfl)]

lemma multiplied_withRepeat_own (hparticle : ¬ HoldsField c.effect.particle.toList)
    (hcolor : ¬ HoldsField c.color.toList) (hm : m ≤ maxRepeat) (n : Nat) :
    multiplied n (c.withRepeat m).toList = (c.withRepeat (min (m * n) maxRepeat)).toList := by
  rw [multiplied_withRepeat, if_neg hparticle, if_neg hcolor, multiplied_ownField hm,
    ← toList_withRepeat]

lemma multiplied_withRepeat_text
    (h : HoldsField c.effect.particle.toList ∨ HoldsField c.color.toList) (m n : Nat) :
    multiplied n (c.withRepeat m).toList = ((c.multiplyText n).withRepeat m).toList := by
  rw [multiplied_withRepeat, multiplyText, toList_withRepeat]
  split_ifs with hparticle hcolor
  · simp only [withParticle, String.toList_ofList]
    rfl
  · simp only [withColor, String.toList_ofList]
    rfl
  · exact absurd h (not_or.mpr ⟨hparticle, hcolor⟩)

lemma multiplied_text_of_cloud {duration : UInt32} (h : c.effect.kind = .cloud duration)
    (n : Nat) : multiplied n c.text.toList = (c.multiplyText n).text.toList := by
  have hlasting (t : List Char) : Leaves (lasting duration).toList t := by
    unfold lasting
    rw [String.toList_append, String.toList_append]
    have hcount : 'r' ∉ (toString duration.toNat).toList :=
      (Number.isNumeral_toString _).notMem (by decide)
    exact (leaves_of_isClear (by decide) _).append
      ((leaves_of_isClear (isClear_of_notMem hcount) _).append (leaves_of_isClear (by decide) _))
  have hopen : IsSeparator '\x7b' := by decide
  have hclose : IsSeparator '\x7d' := by decide
  have hrest : ¬ HoldsField ("\x7b".toList ++ c.offsets.toList) := by
    refine not_holdsField_of_notMem (List.not_mem_append (by decide) ?_)
    exact notMem_offsets (by decide) (by decide)
  -- from the front on, each text either is the one that is multiplied or leaves it to the rest
  rw [toList_text_of_cloud h, multiplied_append_of_isClear (by decide),
    multiplied_append isSeparator_semicolon (head?_lasting _ _), (hlasting _).multiplied_append,
    multiplied_append hclose (by rfl), multiplied_append_of_isClear (by decide),
    multiplied_append hopen (by rfl), multiplied_of_not_holdsField hrest,
    toList_text_of_cloud ((c.effect_multiplyText n).1.trans h), multiplyText]
  split_ifs with hparticle hcolor htargeter
  · simp only [withParticle, String.toList_ofList]
    rfl
  · simp only [withColor, String.toList_ofList]
    rfl
  · simp only [withTargeter, String.toList_ofList]
    rfl
  · simp only [withTargeter, String.toList_ofList, multiplied_of_not_holdsField htargeter]
    rfl

/-- A particle command whose texts are multiplied keeps its number. -/
lemma eq_of_multiplyText_withRepeat {k : Nat}
    (h : HoldsField c.effect.particle.toList ∨ HoldsField c.color.toList)
    (heq : (c.multiplyText n).withRepeat k = c.withRepeat m) : k = m := by
  have hlist := congrArg String.toList heq
  rw [← multiplied_withRepeat_text h, multiplied_withRepeat, toList_withRepeat,
    List.append_cancel_left_eq] at hlist
  have hcolors (t : List Char) : ∀ d ∈ (";c=".toList ++ t).head?, ¬ isDecimalDigit d :=
    forall_head?_not_digit rfl isSeparator_semicolon.2
  have hfield (i : Nat) : ∀ d ∈ (c.ownField i).head?, ¬ isDecimalDigit d :=
    forall_head?_not_digit rfl isSeparator_semicolon.2
  refine c.ownField_injective ?_
  split_ifs at hlist with hparticle hcolor
  · have hrest := eq_of_multiplied_append hparticle (hcolors _) (hcolors _) hlist
    exact List.append_cancel_left (List.append_cancel_left hrest)
  · have hrest := List.append_cancel_left (List.append_cancel_left hlist)
    exact eq_of_multiplied_append hcolor (hfield k) (hfield m) hrest
  · exact absurd h (not_or.mpr ⟨hparticle, hcolor⟩)

/-! ### Runs of commands -/

lemma infix_withRepeat (c : Command) (m : Nat) : particleMark <:+: (c.withRepeat m).toList := by
  have hopening : particleMark <:+: "  - effect:particles\x7bp=".toList :=
    ⟨"  - ".toList, "p=".toList, by decide⟩
  exact c.toList_withRepeat m ▸ List.infix_append_of_infix_left hopening

lemma repeatCount_lt (c : Command) : c.effect.repeatCount.toNat < maxRepeat :=
  Nat.lt_of_lt_of_le c.effect.repeatCount.toNat_lt (by decide)

section Particles

variable (hn : 2 ≤ n) (hkind : c.effect.kind = .particles)

include hn hkind

lemma applyRepeat_own (hparticle : ¬ HoldsField c.effect.particle.toList)
    (hcolor : ¬ HoldsField c.color.toList) :
    applyRepeat c.text n = c.withRepeat (min (c.effect.repeatCount.toNat * n) maxRepeat) := by
  rw [text_eq_withRepeat hkind, applyRepeat_of_mark hn (c.infix_withRepeat _),
    multiplied_withRepeat_own hparticle hcolor c.repeatCount_lt.le, String.ofList_toList]

variable (h : HoldsField c.effect.particle.toList ∨ HoldsField c.color.toList)

include h

lemma applyRepeat_foreign : applyRepeat c.text n = (c.multiplyText n).text := by
  obtain ⟨hkind', hrepeat⟩ := c.effect_multiplyText n
  rw [text_eq_withRepeat hkind, text_eq_withRepeat (hkind'.trans hkind), hrepeat,
    applyRepeat_of_mark hn (c.infix_withRepeat _), multiplied_withRepeat_text h,
    String.ofList_toList]

/-- A field in a text keeps the length of a run out of the own field. -/
lemma applyRepeat_foreign_ne (hrepeat : c.effect.repeatCount ≠ 0) :
    applyRepeat c.text n ≠ c.withRepeat (min (c.effect.repeatCount.toNat * n) maxRepeat) := by
  obtain ⟨hkind', hrepeat'⟩ := c.effect_multiplyText n
  rw [applyRepeat_foreign hn hkind h, text_eq_withRepeat (hkind'.trans hkind), hrepeat']
  intro heq
  -- the number that is kept would have to be its own multiple
  have hkept := eq_of_multiplyText_withRepeat h heq
  have hpos : 0 < c.effect.repeatCount.toNat :=
    Nat.pos_of_ne_zero fun hzero => hrepeat (UInt32.toNat_inj.mp hzero)
  have hmore : c.effect.repeatCount.toNat * 2 ≤ c.effect.repeatCount.toNat * n :=
    Nat.mul_le_mul_left _ hn
  have hlt := c.repeatCount_lt
  omega

end Particles

section Clouds

variable {duration : UInt32} (hkind : c.effect.kind = .cloud duration)

include hkind

lemma applyRepeat_cloud (h : ¬ c.ShowsMark) (n : Nat) : applyRepeat c.text n = c.text :=
  applyRepeat_of_not_mark (mt (infix_text_of_cloud_iff hkind).mp h) n

lemma applyRepeat_cloud_of_showsMark (hn : 2 ≤ n) (h : c.ShowsMark) :
    applyRepeat c.text n = (c.multiplyText n).text := by
  rw [applyRepeat_of_mark hn ((infix_text_of_cloud_iff hkind).mpr h),
    multiplied_text_of_cloud hkind, String.ofList_toList]

end Clouds

/-- The length of a run goes into the own field of a particle command if neither its particle nor
its color holds a field; otherwise the first of these fields is multiplied in its place. A run of
clouds is written as one of them, unless they show what particle commands are known by; then the
first field in a text of theirs is multiplied, if there is one. -/
theorem applyRepeat_text (c : Command) {n : Nat} (hn : 2 ≤ n) :
    (c.effect.kind = .particles →
      (¬ HoldsField c.effect.particle.toList ∧ ¬ HoldsField c.color.toList →
        applyRepeat c.text n =
          c.withRepeat (min (c.effect.repeatCount.toNat * n) maxRepeat)) ∧
      (HoldsField c.effect.particle.toList ∨ HoldsField c.color.toList →
        applyRepeat c.text n = (c.multiplyText n).text ∧
        (c.effect.repeatCount ≠ 0 → applyRepeat c.text n ≠
          c.withRepeat (min (c.effect.repeatCount.toNat * n) maxRepeat)))) ∧
    (∀ duration, c.effect.kind = .cloud duration →
      (¬ c.ShowsMark ∨ ¬ HoldsField c.effect.particle.toList ∧ ¬ HoldsField c.color.toList ∧
        ¬ HoldsField c.effect.targeter.toList → applyRepeat c.text n = c.text) ∧
      (c.ShowsMark → applyRepeat c.text n = (c.multiplyText n).text)) := by
  refine ⟨fun hkind => ⟨?_, ?_⟩, fun duration hkind => ⟨?_, ?_⟩⟩
  · rintro ⟨hparticle, hcolor⟩
    exact applyRepeat_own hn hkind hparticle hcolor
  · intro h
    exact ⟨applyRepeat_foreign hn hkind h, applyRepeat_foreign_ne hn hkind h⟩
  · rintro (hmark | ⟨hparticle, hcolor, htargeter⟩)
    · exact applyRepeat_cloud hkind hmark n
    · by_cases hmark : c.ShowsMark
      · rw [applyRepeat_cloud_of_showsMark hkind hn hmark,
          multiplyText_of_not_holdsField hparticle hcolor htargeter]
      · exact applyRepeat_cloud hkind hmark n
  · exact applyRepeat_cloud_of_showsMark hkind hn

/-- A command of two emissions. -/
def reddust : Command where
  effect :=
    { kind := .particles
      particle := "reddust"
      alpha := 1.0
      repeatCount := 2
      repeatInterval := 1
      targeter := "Origin" }
  color := "#ffffff"
  x := 0.0
  z := 0.0
  y := 0.0

/-- Three copies of two emissions are six. -/
theorem applyRepeat_text_reddust : applyRepeat reddust.text 3 = reddust.withRepeat 6 :=
  ((applyRepeat_text reddust (by decide)).1 rfl).1 ⟨by decide, by decide⟩

/-- That command with a particle that reads like a field. -/
def disguised : Command :=
  reddust.withParticle "repeat=5".toList

/-- A cloud whose particle reads like a particle command. -/
def disguisedCloud : Command where
  effect := { reddust.effect with
    kind := .cloud persistentDuration
    particle := "effect:particles\x7brepeat=5" }
  color := "#ffffff"
  x := 0.0
  z := 0.0
  y := 0.0

/-- Two copies of the disguised command do not make its two emissions four, and two copies of the
disguised cloud are not written as one of them. -/
theorem applyRepeat_disguised :
    applyRepeat disguised.text 2 ≠ disguised.withRepeat 4 ∧
      applyRepeat disguisedCloud.text 2 ≠ disguisedCloud.text := by
  refine ⟨applyRepeat_foreign_ne (Nat.le_refl 2) rfl (.inl (by decide)) (by decide), ?_⟩
  have hkind : disguisedCloud.effect.kind = .cloud persistentDuration := rfl
  have hmark : disguisedCloud.ShowsMark := .inl ⟨[], "repeat=5".toList, by decide⟩
  have hholds : HoldsField disguisedCloud.effect.particle.toList := by decide
  have hchanged : multiplied 2 disguisedCloud.effect.particle.toList ≠
      disguisedCloud.effect.particle.toList := by decide
  rw [applyRepeat_cloud_of_showsMark hkind (Nat.le_refl 2) hmark]
  intro heq
  have hlist := congrArg String.toList heq
  rw [← multiplied_text_of_cloud hkind, toList_text_of_cloud hkind,
    multiplied_append_of_isClear (by decide)] at hlist
  have hrest := List.append_cancel_left hlist
  rw [multiplied_append isSeparator_semicolon (head?_lasting _ _), if_pos hholds] at hrest
  exact hchanged (List.append_cancel_right hrest)

end Command

end ParticleScene
