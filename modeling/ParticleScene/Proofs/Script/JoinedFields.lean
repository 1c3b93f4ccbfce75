import ParticleScene.Proofs.Script.RepeatField

/-!
# Repeat fields of joined texts

In a text that is joined from parts, the first repeat field is that of the first part that holds
one, as long as no field begins in one part and ends in the next. A part keeps its fields to itself
when the character behind it has no place in a field, and a part without anything that a field
begins with leaves the fields to the text behind it.
-/

namespace ParticleScene.Runs

open Text

variable {n : Nat} {s t : List Char} {f : RepeatField}

/-- A mark does not reach over a character that has no place in it. -/
lemma infix_append_iff {mark : List Char} (c : Char) (hc : c ∉ mark)
    (hsep : s.getLast? = some c ∨ t.head? = some c) :
    mark <:+: s ++ t ↔ mark <:+: s ∨ mark <:+: t := by
  refine ⟨fun h => ?_, fun h =>
    h.elim List.infix_append_of_infix_left List.infix_append_of_infix_right⟩
  have hblock : ∀ d ∈ mark, d ∉ [c] := fun d hd hmem => hc (List.mem_singleton.mp hmem ▸ hd)
  rcases hsep with hsep | hsep
  · obtain ⟨s, rfl⟩ := List.getLast?_eq_some_iff.mp hsep
    rw [List.append_assoc] at h
    exact (infix_of_infix_around (List.cons_ne_nil _ _) hblock h).imp_left
      fun h => h.trans (List.prefix_append ..).isInfix
  · obtain ⟨t, rfl⟩ := List.head?_eq_some_iff.mp hsep
    exact (infix_of_infix_around (List.cons_ne_nil c []) hblock h).imp_right
      fun h => h.trans (List.suffix_cons ..).isInfix

/-! ### Fields that are multiplied -/

/-- The digits of a field whose number is multiplied; digits that are no number stay. -/
def RepeatField.times (n : Nat) (f : RepeatField) : List Char :=
  match f.value? with
  | some v => Nat.toDigits 10 (min (v * n) maxRepeat)
  | none => f.digits

/-- A text with the number in its first repeat field multiplied. -/
def multiplied (n : Nat) (s : List Char) : List Char :=
  match repeatField? s with
  | some f => f.before ++ (f.times n ++ f.after)
  | none => s

/-- Somewhere in a text the mark stands before a digit. -/
def HoldsField (s : List Char) : Prop :=
  ∃ pre, IsMatch pre s

lemma holdsField_iff : HoldsField s ↔ (repeatField? s).isSome := by
  rw [Option.isSome_iff_exists]
  refine ⟨fun ⟨_, hmatch⟩ => Option.ne_none_iff_exists'.mp (repeatField?_ne_none hmatch), ?_⟩
  rintro ⟨f, hf⟩
  obtain ⟨pre, -, hmatch⟩ := (isRepeatField_of_repeatField? hf).exists_match
  exact ⟨pre, hmatch⟩

lemma HoldsField.exists_isRepeatField (h : HoldsField s) : ∃ f, IsRepeatField s f := by
  obtain ⟨f, hf⟩ := Option.isSome_iff_exists.mp (holdsField_iff.mp h)
  exact ⟨f, isRepeatField_of_repeatField? hf⟩

instance : DecidablePred HoldsField :=
  fun _ => decidable_of_iff _ holdsField_iff.symm

lemma IsRepeatField.multiplied_eq (h : IsRepeatField s f) (n : Nat) :
    multiplied n s = f.before ++ (f.times n ++ f.after) := by
  rw [multiplied, repeatField?_eq_some_iff.mpr h]

lemma multiplied_of_not_holdsField (h : ¬ HoldsField s) (n : Nat) : multiplied n s = s := by
  rw [holdsField_iff, Option.not_isSome_iff_eq_none] at h
  rw [multiplied, h]

/-- A run of lines is written by multiplying the first field of a line with the mark. -/
lemma applyRepeat_of_mark (hn : 2 ≤ n) {line : String} (hmark : particleMark <:+: line.toList) :
    applyRepeat line n = String.ofList (multiplied n line.toList) := by
  have hholds : holds particleMark line.toList = true := holds_iff_infix.mpr hmark
  rw [applyRepeat, if_neg (Nat.not_le_of_lt hn), particleField?, if_pos hholds]
  cases hf : repeatField? line.toList with
  | none => simp [multiplied, hf]
  | some f =>
    have htext := (isRepeatField_of_repeatField? hf).text_eq
    cases hv : f.value? with
    | none => simp [multiplied, hf, RepeatField.times, hv, ← htext]
    | some v =>
      have htimes : f.times n = (toString (min (v * n) maxRepeat)).toList := by
        rw [RepeatField.times, hv, toList_toString]
      simp only [hf, hv, Option.bind_eq_bind, Option.bind_some, multiplied, htimes,
        String.ofList_append, String.ofList_toList, String.append_assoc]

lemma applyRepeat_of_not_mark {line : String} (hmark : ¬ particleMark <:+: line.toList) (n : Nat) :
    applyRepeat line n = line := by
  have hholds : ¬ holds particleMark line.toList = true := mt holds_iff_infix.mp hmark
  rw [applyRepeat, particleField?, if_neg hholds]
  split <;> rfl

/-! ### Parts that keep their fields -/

/-- A match with its digit in the front part is a match of that part. -/
lemma IsMatch.of_append {pre : List Char} (h : IsMatch pre (s ++ t))
    (hlength : (pre ++ repeatMark).length < s.length) : IsMatch pre s := by
  obtain ⟨d, post, heq, hd⟩ := h
  have hfront : pre ++ repeatMark ++ [d] <+: s ++ t := ⟨post, by simp [heq]⟩
  have hle : (pre ++ repeatMark ++ [d]).length ≤ s.length := by
    rwa [List.length_append]
  obtain ⟨rest, hrest⟩ := List.prefix_of_prefix_length_le hfront (List.prefix_append s t) hle
  exact ⟨d, rest, by simp [← hrest], hd⟩

lemma IsRepeatField.times_digits (h : IsRepeatField s f) (n : Nat) :
    ∀ c ∈ f.times n, isDecimalDigit c := by
  unfold RepeatField.times
  split
  · exact fun c hc => isDecimalDigit_of_isAsciiDigit (isAsciiDigit_of_mem_toDigits hc)
  · exact h.digits

lemma forall_head?_not_digit {c : Char} (ht : t.head? = some c) (hdigit : ¬ isDecimalDigit c) :
    ∀ d ∈ t.head?, ¬ isDecimalDigit d := by
  intro d hd
  obtain rfl : c = d := Option.some.inj (ht.symm.trans hd)
  exact hdigit

/-- Behind a field there is no digit, whatever is not a digit stands behind the text. -/
lemma IsRepeatField.head?_after_append (h : IsRepeatField s f)
    (ht : ∀ c ∈ t.head?, ¬ isDecimalDigit c) : ∀ c ∈ (f.after ++ t).head?, ¬ isDecimalDigit c := by
  cases hafter : f.after with
  | nil => exact ht
  | cons d after =>
    intro c hc
    exact h.greedy c (by rw [hafter]; exact hc)

lemma IsRepeatField.append_right (h : IsRepeatField s f)
    (ht : ∀ c ∈ t.head?, ¬ isDecimalDigit c) :
    IsRepeatField (s ++ t) { f with after := f.after ++ t } := by
  refine ⟨?_, h.mark_suffix, h.digits_ne_nil, h.digits, h.head?_after_append ht, ?_⟩
  · rw [h.text_eq, List.append_assoc, List.append_assoc]
  · intro pre hmatch
    by_contra hlt
    -- a match that ends before the digits lies in the front part
    refine hlt (h.first pre (hmatch.of_append ?_))
    have hlength := congrArg List.length h.text_eq
    rw [List.length_append] at hlength
    exact Nat.lt_of_lt_of_le (Nat.lt_of_not_le hlt) (hlength ▸ Nat.le_add_right ..)

/-- A text that holds a field is all that is multiplied, if no digit stands behind it. -/
lemma multiplied_append_right (hs : HoldsField s) (ht : ∀ c ∈ t.head?, ¬ isDecimalDigit c)
    (n : Nat) : multiplied n (s ++ t) = multiplied n s ++ t := by
  obtain ⟨f, hf⟩ := hs.exists_isRepeatField
  rw [hf.multiplied_eq, (hf.append_right ht).multiplied_eq, List.append_assoc, List.append_assoc]
  rfl

/-- What stands behind a field is told from what else could stand there. -/
lemma eq_of_multiplied_append {t' : List Char} (hs : HoldsField s)
    (ht : ∀ c ∈ t.head?, ¬ isDecimalDigit c) (ht' : ∀ c ∈ t'.head?, ¬ isDecimalDigit c)
    (heq : multiplied n s ++ t = s ++ t') : t = t' := by
  obtain ⟨f, hf⟩ := hs.exists_isRepeatField
  rw [hf.multiplied_eq] at heq
  rw [hf.text_eq] at heq
  simp only [List.append_assoc, List.append_cancel_left_eq] at heq
  have hdigits : f.times n = f.digits := by
    rw [← takeWhile_digits_append (hf.times_digits n) (hf.head?_after_append ht), heq,
      takeWhile_digits_append hf.digits (hf.head?_after_append ht')]
  rw [hdigits, List.append_cancel_left_eq, List.append_cancel_left_eq] at heq
  exact heq

/-! ### Parts that hold no field -/

/-- No field begins in `s` that ends in a text behind it. -/
def isClear : List Char → Bool
  | [] => true
  | c :: rest =>
    !(c :: rest).isPrefixOf repeatMark && !repeatMark.isPrefixOf (c :: rest) && isClear rest

/-- No match begins in `s`. -/
def Leaves (s t : List Char) : Prop :=
  ∀ pre, IsMatch pre (s ++ t) → s.length ≤ pre.length

lemma leaves_of_isClear (hs : isClear s) (t : List Char) : Leaves s t := by
  induction s with
  | nil => exact fun _ _ => Nat.zero_le _
  | cons c rest ih =>
    simp only [isClear, Bool.and_eq_true, Bool.not_eq_true', Bool.eq_false_iff, Ne,
      List.isPrefixOf_iff_prefix] at hs
    obtain ⟨⟨hshort, hlong⟩, hrest⟩ := hs
    intro pre hmatch
    cases pre with
    | nil =>
      obtain ⟨d, post, heq, -⟩ := hmatch
      rw [List.nil_append] at heq
      have hmark : repeatMark <+: c :: rest ++ t := heq ▸ List.prefix_append ..
      exact ((List.prefix_or_prefix_of_prefix hmark (List.prefix_append ..)).elim hlong
        hshort).elim
    | cons d pre =>
      obtain rfl : c = d := by
        obtain ⟨_, _, heq, -⟩ := hmatch
        exact (List.cons.inj heq).1
      exact Nat.succ_le_succ (ih hrest pre (isMatch_cons_iff.mp hmatch))

/-- A field begins with the first character of the mark. -/
lemma isClear_of_notMem (hs : 'r' ∉ s) : isClear s := by
  induction s with
  | nil => rfl
  | cons c rest ih =>
    simp only [List.mem_cons, not_or] at hs
    have hmark : repeatMark = 'r' :: "epeat=".toList := by decide
    simp [isClear, hmark, List.isPrefixOf, hs.1, Ne.symm hs.1, ih hs.2]

lemma not_holdsField_of_notMem (hs : 'r' ∉ s) : ¬ HoldsField s := by
  rintro ⟨pre, d, post, rfl, -⟩
  have hmark : 'r' ∈ repeatMark := by decide
  exact hs (List.mem_append_left _ (List.mem_append_right _ hmark))

/-- A character that has no place in a field. -/
def IsSeparator (c : Char) : Prop :=
  c ∉ repeatMark ∧ ¬ isDecimalDigit c

instance : DecidablePred IsSeparator :=
  fun c => inferInstanceAs (Decidable (c ∉ repeatMark ∧ ¬ isDecimalDigit c))

/-- A field does not reach over a separator. -/
lemma leaves_of_isSeparator {c : Char} (hs : ¬ HoldsField s) (hc : IsSeparator c)
    (ht : t.head? = some c) : Leaves s t := by
  intro pre hmatch
  by_contra hlt
  have hreach : s.length ≤ (pre ++ repeatMark).length := by
    by_contra hwithin
    exact hs ⟨pre, hmatch.of_append (Nat.lt_of_not_le hwithin)⟩
  obtain ⟨d, post, heq, hd⟩ := hmatch
  -- the character stands in the mark, or it is the digit
  have hplace : (pre ++ (repeatMark ++ d :: post))[s.length]? = some c := by
    rw [← List.append_assoc, ← heq, List.getElem?_append_right (Nat.le_refl _), Nat.sub_self,
      ← List.head?_eq_getElem?, ht]
  rw [List.getElem?_append_right (Nat.le_of_lt (Nat.lt_of_not_le hlt))] at hplace
  rw [List.length_append] at hreach
  rcases Nat.lt_or_ge (s.length - pre.length) repeatMark.length with hin | hbehind
  · rw [List.getElem?_append_left hin] at hplace
    exact hc.1 (List.mem_of_getElem? hplace)
  · have hend : s.length - pre.length - repeatMark.length = 0 := by omega
    rw [List.getElem?_append_right hbehind, hend] at hplace
    obtain rfl : d = c := Option.some.inj hplace
    exact hc.2 hd

lemma Leaves.exists_append (h : Leaves s t) {pre : List Char} (hmatch : IsMatch pre (s ++ t)) :
    ∃ pre', pre = s ++ pre' ∧ IsMatch pre' t := by
  have hlength := h pre hmatch
  obtain ⟨d, post, heq, hd⟩ := hmatch
  have hpre : pre <+: s ++ t := ⟨repeatMark ++ d :: post, by simp [heq]⟩
  obtain ⟨pre', rfl⟩ := List.prefix_of_prefix_length_le (List.prefix_append s t) hpre hlength
  refine ⟨pre', rfl, d, post, ?_, hd⟩
  simpa using heq

lemma Leaves.isRepeatField (h : Leaves s t) (hf : IsRepeatField t f) :
    IsRepeatField (s ++ t) { f with before := s ++ f.before } := by
  refine ⟨?_, hf.mark_suffix.trans (List.suffix_append ..), hf.digits_ne_nil, hf.digits, hf.greedy,
    fun pre hmatch => ?_⟩
  · rw [List.append_assoc, ← hf.text_eq]
  · obtain ⟨pre, rfl, hrest⟩ := h.exists_append hmatch
    have := hf.first pre hrest
    simp only [List.length_append] at *
    omega

lemma Leaves.append {u : List Char} (hs : Leaves s (t ++ u)) (ht : Leaves t u) :
    Leaves (s ++ t) u := by
  intro pre hmatch
  rw [List.append_assoc] at hmatch
  obtain ⟨pre, rfl, hrest⟩ := hs.exists_append hmatch
  rw [List.length_append, List.length_append]
  exact Nat.add_le_add_left (ht pre hrest) _

/-- A text that holds no field leaves the multiplying to the text behind it. -/
lemma Leaves.multiplied_append (h : Leaves s t) (n : Nat) :
    multiplied n (s ++ t) = s ++ multiplied n t := by
  by_cases ht : HoldsField t
  · obtain ⟨f, hf⟩ := ht.exists_isRepeatField
    rw [hf.multiplied_eq, (h.isRepeatField hf).multiplied_eq, List.append_assoc]
    rfl
  · have hst : ¬ HoldsField (s ++ t) := by
      rintro ⟨pre, hmatch⟩
      obtain ⟨pre, -, hrest⟩ := h.exists_append hmatch
      exact ht ⟨pre, hrest⟩
    rw [multiplied_of_not_holdsField ht, multiplied_of_not_holdsField hst]

lemma multiplied_append_of_isClear (hs : isClear s) (n : Nat) :
    multiplied n (s ++ t) = s ++ multiplied n t :=
  (leaves_of_isClear hs t).multiplied_append n

/-- Before a separator, a part is multiplied if it holds a field, and else the text behind it. -/
lemma multiplied_append {c : Char} (hc : IsSeparator c) (ht : t.head? = some c) (n : Nat) :
    multiplied n (s ++ t) =
      if HoldsField s then multiplied n s ++ t else s ++ multiplied n t := by
  split
  · rename_i hs
    exact multiplied_append_right hs (forall_head?_not_digit ht hc.2) n
  · rename_i hs
    exact (leaves_of_isSeparator hs hc ht).multiplied_append n

/-- The field that opens a text is the first one. -/
lemma multiplied_field {m : Nat} (hm : m ≤ maxRepeat) (ht : ∀ c ∈ t.head?, ¬ isDecimalDigit c)
    (n : Nat) :
    multiplied n (repeatMark ++ (Nat.toDigits 10 m ++ t)) =
      repeatMark ++ (Nat.toDigits 10 (min (m * n) maxRepeat) ++ t) := by
  have hf : IsRepeatField (repeatMark ++ (Nat.toDigits 10 m ++ t))
      ⟨repeatMark, Nat.toDigits 10 m, t⟩ := by
    refine ⟨rfl, List.suffix_refl _, Nat.toDigits_ne_nil, fun c hc => ?_, ht, fun pre _ => ?_⟩
    · exact isDecimalDigit_of_isAsciiDigit (isAsciiDigit_of_mem_toDigits hc)
    · simp
  rw [hf.multiplied_eq, RepeatField.times, value?_toDigits hm]

end ParticleScene.Runs
