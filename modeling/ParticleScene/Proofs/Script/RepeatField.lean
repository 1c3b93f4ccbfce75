import Mathlib.Data.List.TakeWhile
import ParticleScene.Proofs.Text.Digits
import ParticleScene.Script.Runs

/-!
# Repeat fields

`IsRepeatField` says without an algorithm which repeat field of a text is meant: the first place
where the mark stands before a digit, with as many digits as there are. `repeatField?` finds it.
Writing another number into the field of a particle command leaves a particle command whose field
stands at the same place.
-/

namespace ParticleScene.Runs

open Text

/-! ### Marks -/

lemma behind?_eq_some_iff {mark s r : List Char} : behind? mark s = some r ↔ s = mark ++ r := by
  unfold behind?
  split
  · rename_i h
    obtain ⟨t, rfl⟩ := List.isPrefixOf_iff_prefix.mp h
    simp
  · rename_i h
    rw [List.isPrefixOf_iff_prefix] at h
    simp only [reduceCtorEq, false_iff]
    rintro rfl
    exact h (List.prefix_append ..)

lemma holds_iff_infix {mark s : List Char} : holds mark s ↔ mark <:+: s := by
  induction s with
  | nil => simp [holds]
  | cons c rest ih =>
    rw [holds, Bool.or_eq_true, ih, List.infix_cons_iff, Option.isSome_iff_exists]
    simp only [behind?_eq_some_iff]
    exact or_congr_left ⟨fun ⟨r, h⟩ => ⟨r, h.symm⟩, fun ⟨r, h⟩ => ⟨r, h.symm⟩⟩

/-- A mark without any of the characters of a block does not reach into the block. -/
lemma infix_of_infix_around {mark before block after : List Char} (hblock : block ≠ [])
    (hmark : ∀ c ∈ mark, c ∉ block) (h : mark <:+: before ++ (block ++ after)) :
    mark <:+: before ∨ mark <:+: after := by
  obtain ⟨pre, post, h⟩ := h
  rw [List.append_assoc] at h
  rcases List.append_eq_append_iff.mp h with ⟨x, rfl, hx⟩ | ⟨x, rfl, hx⟩
  · rcases List.append_eq_append_iff.mp hx with ⟨y, rfl, -⟩ | ⟨y, rfl, hy⟩
    · exact .inl ⟨pre, y, by simp⟩
    · -- what of the mark lies behind `before` would open the block
      cases y with
      | nil => exact .inl ⟨pre, [], by simp⟩
      | cons c y =>
        obtain ⟨d, block, rfl⟩ := List.exists_cons_of_ne_nil hblock
        obtain rfl : d = c := (List.cons.inj hy).1
        exact absurd List.mem_cons_self (hmark d (by simp))
  · rcases List.append_eq_append_iff.mp hx with ⟨y, rfl, hy⟩ | ⟨y, rfl, hy⟩
    · exact .inr ⟨y, post, by simp [hy]⟩
    · -- the mark would open inside the block
      cases mark with
      | nil => exact .inl List.nil_infix
      | cons c mark =>
        cases y with
        | nil => exact .inr ⟨[], post, by simpa using hy⟩
        | cons d y =>
          obtain rfl : c = d := (List.cons.inj hy).1
          exact absurd (by simp) (hmark c List.mem_cons_self)

/-! ### The first repeat field -/

lemma repeatMark_ne_nil : repeatMark ≠ [] := by decide

/-- Digits end where something else follows. -/
lemma takeWhile_digits_append {ds rest : List Char} (hds : ∀ c ∈ ds, isDecimalDigit c)
    (hrest : ∀ c ∈ rest.head?, ¬ isDecimalDigit c) :
    (ds ++ rest).takeWhile isDecimalDigit = ds := by
  rw [List.takeWhile_append_of_pos hds]
  cases rest with
  | nil => simp
  | cons c rest => rw [List.takeWhile_cons_of_neg (hrest c rfl), List.append_nil]

/-- The mark stands before a digit behind `pre`. -/
def IsMatch (pre text : List Char) : Prop :=
  ∃ d post, text = pre ++ repeatMark ++ d :: post ∧ isDecimalDigit d

/-- The field `f` is the first match of the mark and digits in a text, with all digits that stand
there. -/
structure IsRepeatField (text : List Char) (f : RepeatField) : Prop where
  text_eq : text = f.before ++ (f.digits ++ f.after)
  mark_suffix : repeatMark <:+ f.before
  digits_ne_nil : f.digits ≠ []
  digits : ∀ c ∈ f.digits, isDecimalDigit c
  greedy : ∀ c ∈ f.after.head?, ¬ isDecimalDigit c
  first : ∀ pre, IsMatch pre text → f.before.length ≤ (pre ++ repeatMark).length

namespace IsRepeatField

variable {text : List Char} {f g : RepeatField}

/-- A field is a match. -/
lemma exists_match (h : IsRepeatField text f) :
    ∃ pre, f.before = pre ++ repeatMark ∧ IsMatch pre text := by
  obtain ⟨pre, hpre⟩ := h.mark_suffix
  obtain ⟨d, ds, hds⟩ := List.exists_cons_of_ne_nil h.digits_ne_nil
  refine ⟨pre, hpre.symm, d, ds ++ f.after, ?_, h.digits d (by simp [hds])⟩
  rw [hpre, h.text_eq, hds, List.cons_append]

private lemma takeWhile_digits (h : IsRepeatField text f) :
    (f.digits ++ f.after).takeWhile isDecimalDigit = f.digits :=
  takeWhile_digits_append h.digits h.greedy

lemma unique (hf : IsRepeatField text f) (hg : IsRepeatField text g) : f = g := by
  obtain ⟨pre, hpre, hmatch⟩ := hf.exists_match
  obtain ⟨pre', hpre', hmatch'⟩ := hg.exists_match
  have hlength : f.before.length = g.before.length := by
    refine Nat.le_antisymm ?_ ?_
    · rw [hpre']
      exact hf.first pre' hmatch'
    · rw [hpre]
      exact hg.first pre hmatch
  obtain ⟨hbefore, hrest⟩ := List.append_inj (hf.text_eq.symm.trans hg.text_eq) hlength
  have hdigits : f.digits = g.digits := by
    rw [← hf.takeWhile_digits, hrest, hg.takeWhile_digits]
  rw [hdigits] at hrest
  cases f
  cases g
  simp_all

end IsRepeatField

lemma isMatch_nil_iff {text : List Char} :
    IsMatch [] text ↔ ∃ s, behind? repeatMark text = some s ∧ s.takeWhile isDecimalDigit ≠ [] := by
  simp only [IsMatch, behind?_eq_some_iff, List.nil_append]
  constructor
  · rintro ⟨d, post, rfl, hd⟩
    exact ⟨d :: post, rfl, by simp [hd]⟩
  · rintro ⟨s, rfl, hs⟩
    cases s with
    | nil => simp at hs
    | cons d post =>
      refine ⟨d, post, rfl, ?_⟩
      by_contra hd
      exact hs (List.takeWhile_cons_of_neg hd)

lemma isMatch_cons_iff {c : Char} {pre rest : List Char} :
    IsMatch (c :: pre) (c :: rest) ↔ IsMatch pre rest := by
  simp [IsMatch]

/-- A match further on is a match in the rest of the text. -/
lemma IsMatch.of_cons {c : Char} {pre rest : List Char} (h : IsMatch pre (c :: rest))
    (hnil : ¬ IsMatch [] (c :: rest)) : ∃ pre', pre = c :: pre' ∧ IsMatch pre' rest := by
  cases pre with
  | nil => exact absurd h hnil
  | cons d pre =>
    obtain ⟨_, _, heq, _⟩ := id h
    obtain rfl : c = d := (List.cons.inj heq).1
    exact ⟨pre, rfl, isMatch_cons_iff.mp h⟩

lemma repeatField?_of_isMatch_nil {text s : List Char} (h : behind? repeatMark text = some s)
    (hs : s.takeWhile isDecimalDigit ≠ []) :
    repeatField? text =
      some ⟨repeatMark, s.takeWhile isDecimalDigit, s.dropWhile isDecimalDigit⟩ := by
  cases text with
  | nil => simp [behind?_eq_some_iff, repeatMark_ne_nil] at h
  | cons c rest => simp [repeatField?, h, hs]

lemma repeatField?_cons_of_not_isMatch {c : Char} {rest : List Char}
    (h : ¬ IsMatch [] (c :: rest)) :
    repeatField? (c :: rest) =
      (repeatField? rest).map fun f => { f with before := c :: f.before } := by
  rw [repeatField?]
  split
  · rename_i s hs
    have hempty : s.takeWhile isDecimalDigit = [] := by
      by_contra hne
      exact h (isMatch_nil_iff.mpr ⟨s, hs, hne⟩)
    simp [hempty]
  · rfl

lemma isRepeatField_of_repeatField? {text : List Char} {f : RepeatField}
    (h : repeatField? text = some f) : IsRepeatField text f := by
  induction text generalizing f with
  | nil => simp [repeatField?] at h
  | cons c rest ih =>
    by_cases hmatch : IsMatch [] (c :: rest)
    · obtain ⟨s, hs, hne⟩ := isMatch_nil_iff.mp hmatch
      rw [repeatField?_of_isMatch_nil hs hne] at h
      cases h
      constructor
      case text_eq =>
        rw [List.takeWhile_append_dropWhile]
        exact behind?_eq_some_iff.mp hs
      case mark_suffix => exact List.suffix_refl _
      case digits_ne_nil => exact hne
      case digits =>
        intro d hd
        exact List.mem_takeWhile_imp hd
      case greedy =>
        intro d hd
        have := List.head?_dropWhile_not isDecimalDigit s
        simp_all
      case first =>
        intro pre _
        simp
    · rw [repeatField?_cons_of_not_isMatch hmatch] at h
      obtain ⟨g, hg, rfl⟩ := Option.map_eq_some_iff.mp h
      obtain ⟨htext, hsuffix, hne, hdigits, hgreedy, hfirst⟩ := ih hg
      constructor
      case text_eq => rw [List.cons_append, ← htext]
      case mark_suffix => exact hsuffix.trans (List.suffix_cons ..)
      case digits_ne_nil => exact hne
      case digits => exact hdigits
      case greedy => exact hgreedy
      case first =>
        intro pre hpre
        obtain ⟨pre, rfl, hrest⟩ := hpre.of_cons hmatch
        simpa using hfirst pre hrest

/-- Where there is a match, a field is found. -/
lemma repeatField?_ne_none {pre text : List Char} (h : IsMatch pre text) :
    repeatField? text ≠ none := by
  induction text generalizing pre with
  | nil =>
    obtain ⟨d, post, heq, -⟩ := h
    simp at heq
  | cons c rest ih =>
    by_cases hmatch : IsMatch [] (c :: rest)
    · obtain ⟨s, hs, hne⟩ := isMatch_nil_iff.mp hmatch
      simp [repeatField?_of_isMatch_nil hs hne]
    · obtain ⟨pre, rfl, hrest⟩ := h.of_cons hmatch
      rw [repeatField?_cons_of_not_isMatch hmatch]
      simpa using ih hrest

lemma repeatField?_eq_some_iff {text : List Char} {f : RepeatField} :
    repeatField? text = some f ↔ IsRepeatField text f := by
  constructor
  · exact isRepeatField_of_repeatField?
  · intro h
    obtain ⟨pre, -, hmatch⟩ := h.exists_match
    obtain ⟨g, hg⟩ := Option.ne_none_iff_exists'.mp (repeatField?_ne_none hmatch)
    rw [hg, (isRepeatField_of_repeatField? hg).unique h]

/-! ### Another number in the field -/

/-- Other digits in a field do not move it. -/
lemma IsRepeatField.withDigits {text ds : List Char} {f : RepeatField} (h : IsRepeatField text f)
    (hne : ds ≠ []) (hds : ∀ c ∈ ds, isDecimalDigit c) :
    IsRepeatField (f.before ++ (ds ++ f.after)) { f with digits := ds } := by
  refine ⟨rfl, h.mark_suffix, hne, hds, h.greedy, ?_⟩
  rintro pre ⟨d, post, heq, hd⟩
  by_contra hlt
  -- a match that ends before the digits would be one in the old text as well
  rcases List.append_eq_append_iff.mp heq with ⟨x, hx, -⟩ | ⟨x, hx, hpost⟩
  · exact hlt (by simp [hx])
  · cases x with
    | nil => exact hlt (by simp [hx])
    | cons c x =>
      obtain rfl : d = c := (List.cons.inj hpost).1
      refine hlt (h.first pre ⟨d, x ++ (f.digits ++ f.after), ?_, hd⟩)
      rw [h.text_eq, hx, List.append_assoc, List.cons_append]

/-- What makes a line a particle command with a number in its repeat field. -/
lemma particleField?_eq_some_iff {line : String} {f : RepeatField} {n : Nat} :
    particleField? line = some (f, n) ↔
      particleMark <:+: line.toList ∧ IsRepeatField line.toList f ∧ f.value? = some n := by
  unfold particleField?
  rw [← repeatField?_eq_some_iff, ← holds_iff_infix]
  split
  · rename_i hmark
    simp only [hmark, true_and, Option.bind_eq_bind, Option.bind_eq_some_iff, Option.some.injEq,
      Prod.mk.injEq]
    constructor
    · rintro ⟨g, hg, m, hm, rfl, rfl⟩
      exact ⟨hg, hm⟩
    · rintro ⟨hf, hn⟩
      exact ⟨f, hf, n, hn, rfl, rfl⟩
  · rename_i hmark
    simp [hmark]

lemma value?_toDigits {before after : List Char} {m : Nat} (hm : m ≤ maxRepeat) :
    RepeatField.value? ⟨before, Nat.toDigits 10 m, after⟩ = some m := by
  simp [RepeatField.value?, natural?_toDigits, hm]

/-- A particle command with another number is a particle command with that number, and what
stands around the number is the same. -/
lemma particleField?_withNumber {line : String} {f : RepeatField} {n m : Nat}
    (h : particleField? line = some (f, n)) (hm : m ≤ maxRepeat) :
    particleField? (String.ofList f.before ++ toString m ++ String.ofList f.after) =
      some ({ f with digits := Nat.toDigits 10 m }, m) := by
  obtain ⟨hmark, hfield, -⟩ := particleField?_eq_some_iff.mp h
  have htext : (String.ofList f.before ++ toString m ++ String.ofList f.after).toList =
      f.before ++ (Nat.toDigits 10 m ++ f.after) := by
    simp
  rw [particleField?_eq_some_iff, htext]
  have hdigits : ∀ c ∈ Nat.toDigits 10 m, isDecimalDigit c := by
    intro c hc
    exact isDecimalDigit_of_isAsciiDigit (isAsciiDigit_of_mem_toDigits hc)
  refine ⟨?_, hfield.withDigits Nat.toDigits_ne_nil hdigits, value?_toDigits hm⟩
  -- the mark holds no digit, so it stands on one side of the number
  have hall : particleMark.all fun c => !isDecimalDigit c := by decide
  have hapart : ∀ c ∈ particleMark, c ∉ f.digits := by
    intro c hc hdigit
    have := List.all_eq_true.mp hall c hc
    simp [hfield.digits c hdigit] at this
  rw [hfield.text_eq] at hmark
  rcases infix_of_infix_around hfield.digits_ne_nil hapart hmark with hbefore | hafter
  · exact hbefore.trans (List.prefix_append ..).isInfix
  · exact hafter.trans ((List.suffix_append ..).trans (List.suffix_append ..)).isInfix

end ParticleScene.Runs
