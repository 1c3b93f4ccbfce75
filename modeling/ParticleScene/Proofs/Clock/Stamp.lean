import ParticleScene.Proofs.Clock.Date
import ParticleScene.Proofs.Text.Digits
import ParticleScene.Proofs.Text.Order

/-!
# Stamps in their order

Numbers that are padded to one width are ordered as texts as they are as numbers. So the stamps of
moments whose years have four digits are ordered as the moments are. They have one length, and are
made of digits and underscores.
-/

namespace ParticleScene.Moment

open Text

variable {m m' : Moment} {n n' width : Nat}

/-! ### Padded numbers -/

lemma toList_padded (width n : Nat) :
    (padded width n).toList =
      List.replicate (width - (Nat.toDigits 10 n).length) '0' ++ Nat.toDigits 10 n := by
  rw [padded, String.toList_append, toList_pushn, toList_toString, length_toString]
  rfl

lemma padded_one (h : n < 10) : (padded 1 n).toList = [n.digitChar] := by
  rw [toList_padded, Nat.toDigits_of_lt_base h]
  rfl

/-- The last digit is that of the ones. -/
lemma padded_succ (hwidth : 1 ≤ width) (n : Nat) :
    (padded (width + 1) n).toList = (padded width (n / 10)).toList ++ [(n % 10).digitChar] := by
  rw [toList_padded, toList_padded]
  by_cases hn : n < 10
  · rw [Nat.toDigits_of_lt_base hn, Nat.div_eq_of_lt hn, Nat.mod_eq_of_lt hn, Nat.toDigits_zero]
    obtain ⟨w, rfl⟩ := Nat.exists_eq_add_of_le' hwidth
    simp [List.replicate_succ']
  · rw [Nat.toDigits_of_base_le (by decide) (Nat.le_of_not_lt hn), List.length_append,
      List.length_singleton, Nat.add_sub_add_right, List.append_assoc]

lemma length_padded (hwidth : 1 ≤ width) (hn : n < 10 ^ width) :
    (padded width n).length = width := by
  rw [← String.length_toList]
  induction width, hwidth using Nat.le_induction generalizing n with
  | base => rw [padded_one hn, List.length_singleton]
  | succ width hwidth ih =>
    rw [padded_succ hwidth, List.length_append, List.length_singleton, ih]
    rw [Nat.pow_succ] at hn
    omega

/-- Numbers of one width are ordered as their texts. -/
lemma padded_lt_padded (hwidth : 1 ≤ width) (h : n < n') (hn' : n' < 10 ^ width) :
    padded width n < padded width n' := by
  rw [String.lt_iff]
  induction width, hwidth using Nat.le_induction generalizing n n' with
  | base =>
    have hdigits : ∀ n' < 10, ∀ n < n', [n.digitChar] < [n'.digitChar] := by decide
    rw [padded_one hn', padded_one (Nat.lt_trans h hn')]
    exact hdigits n' hn' n h
  | succ width hwidth ih =>
    have hdigits : ∀ n' < 10, ∀ n < n', [n.digitChar] < [n'.digitChar] := by decide
    rw [Nat.pow_succ] at hn'
    rw [padded_succ hwidth, padded_succ hwidth]
    rcases Nat.lt_or_eq_of_le (Nat.div_le_div_right (c := 10) (Nat.le_of_lt h)) with hlt | heq
    · refine append_lt_append_chars (ih hlt (by omega)) ?_ _ _
      rw [String.length_toList, String.length_toList, length_padded hwidth (by omega),
        length_padded hwidth (by omega)]
    · rw [heq]
      exact List.append_left_lt (hdigits _ (by omega) _ (by omega))

lemma padded_lex (hwidth : 1 ≤ width) (hn : n < 10 ^ width) (hn' : n' < 10 ^ width) {x y : String}
    (h : n < n' ∨ n = n' ∧ x < y) : padded width n ++ x < padded width n' ++ y := by
  refine append_lt_append_lex ?_ ?_
  · rw [length_padded hwidth hn, length_padded hwidth hn']
  · rcases h with h | ⟨rfl, h⟩
    · exact .inl (padded_lt_padded hwidth h hn')
    · exact .inr ⟨rfl, h⟩

/-- Padding hides no digit. -/
lemma padded_injective (width : Nat) : Function.Injective (padded width) := by
  intro n n' h
  have hvalue := congrArg (fun s => digitsValue s.toList) h
  simpa only [toList_padded, digitsValue_zeros, digitsValue_toDigits] using hvalue

/-! ### Stamps -/

lemma eq_of_millis_eq (h : m.millis = m'.millis) : m = m' := by
  cases m
  cases m'
  exact congrArg mk h

/-- The date of a moment. -/
def date (m : Moment) : Date :=
  Date.ofDays (m.millis.fdiv 86400000)

/-- The milliseconds since midnight. -/
def timeOfDay (m : Moment) : Nat :=
  (m.millis.fmod 86400000).toNat

/-- A moment whose year is shown with four digits and no sign. -/
def HasPlainYear (m : Moment) : Prop :=
  0 ≤ m.date.year ∧ m.date.year ≤ 9999

instance (m : Moment) : Decidable m.HasPlainYear :=
  inferInstanceAs (Decidable (_ ∧ _))

/-- The date and the time of day, from the greatest unit to the least. -/
lemma stamp_eq (hm : m.HasPlainYear) :
    m.stamp = padded 4 m.date.year.natAbs ++ (padded 2 m.date.month ++ (padded 2 m.date.day ++
      ("_" ++ (padded 2 (m.timeOfDay / 1000 / 3600) ++ (padded 2 (m.timeOfDay / 1000 / 60 % 60) ++
        (padded 2 (m.timeOfDay / 1000 % 60) ++ ("_" ++ padded 3 (m.timeOfDay % 1000)))))))) := by
  obtain ⟨hlow, hhigh⟩ := hm
  have hyear : yearText m.date.year = padded 4 m.date.year.natAbs := by
    rw [yearText, if_neg (by omega), if_neg (by omega), String.empty_append]
  have hstamp : m.stamp = yearText m.date.year ++ padded 2 m.date.month ++ padded 2 m.date.day ++
      "_" ++ padded 2 (m.timeOfDay / 1000 / 3600) ++ padded 2 (m.timeOfDay / 1000 / 60 % 60) ++
      padded 2 (m.timeOfDay / 1000 % 60) ++ "_" ++ padded 3 (m.timeOfDay % 1000) := rfl
  rw [hstamp, hyear]
  simp only [String.append_assoc]

lemma timeOfDay_lt (m : Moment) : m.timeOfDay < 86400000 := by
  have hlt := Int.fmod_lt_of_pos m.millis (by decide : (0 : Int) < 86400000)
  unfold timeOfDay
  omega

lemma length_stamp (hm : m.HasPlainYear) : m.stamp.length = 19 := by
  obtain ⟨hlow, hhigh⟩ := hm
  obtain ⟨hmonth, hday⟩ := Date.ofDays_lt (m.millis.fdiv 86400000)
  have htime := m.timeOfDay_lt
  simp only [stamp_eq ⟨hlow, hhigh⟩, String.length_append]
  rw [length_padded (by decide) (by omega), length_padded (by decide) hmonth,
    length_padded (by decide) hday, length_padded (by decide) (by omega),
    length_padded (by decide) (by omega), length_padded (by decide) (by omega),
    length_padded (by decide) (by omega)]
  rfl

/-- On one day the stamps are ordered as the times of day. -/
lemma time_lex {t t' : Nat} (h : t < t') (ht' : t' < 86400000) :
    padded 2 (t / 1000 / 3600) ++ (padded 2 (t / 1000 / 60 % 60) ++
      (padded 2 (t / 1000 % 60) ++ ("_" ++ padded 3 (t % 1000)))) <
    padded 2 (t' / 1000 / 3600) ++ (padded 2 (t' / 1000 / 60 % 60) ++
      (padded 2 (t' / 1000 % 60) ++ ("_" ++ padded 3 (t' % 1000)))) := by
  have horder : t / 1000 / 3600 < t' / 1000 / 3600 ∨ t / 1000 / 3600 = t' / 1000 / 3600 ∧
      (t / 1000 / 60 % 60 < t' / 1000 / 60 % 60 ∨ t / 1000 / 60 % 60 = t' / 1000 / 60 % 60 ∧
        (t / 1000 % 60 < t' / 1000 % 60 ∨ t / 1000 % 60 = t' / 1000 % 60 ∧
          t % 1000 < t' % 1000)) := by omega
  refine padded_lex (by decide) (by omega) (by omega)
    (horder.imp_right fun ⟨heq, horder⟩ => ⟨heq, ?_⟩)
  refine padded_lex (by decide) (by omega) (by omega)
    (horder.imp_right fun ⟨heq, horder⟩ => ⟨heq, ?_⟩)
  refine padded_lex (by decide) (by omega) (by omega)
    (horder.imp_right fun ⟨heq, horder⟩ => ⟨heq, ?_⟩)
  exact append_lt_append_left "_" (padded_lt_padded (by decide) horder (by omega))

/-- A later moment has a later date, or the same one and a later time of day. -/
lemma date_before_or (h : m.millis < m'.millis) :
    m.date.Before m'.date ∨ m.date = m'.date ∧ m.timeOfDay < m'.timeOfDay := by
  have hmillis := Int.fmod_add_mul_fdiv m.millis 86400000
  have hmillis' := Int.fmod_add_mul_fdiv m'.millis 86400000
  have hlt := Int.fmod_lt_of_pos m'.millis (by decide : (0 : Int) < 86400000)
  have hnonneg := Int.fmod_nonneg_of_pos m.millis (by decide : (0 : Int) < 86400000)
  by_cases hday : m.millis.fdiv 86400000 = m'.millis.fdiv 86400000
  · refine .inr ⟨congrArg Date.ofDays hday, ?_⟩
    unfold timeOfDay
    omega
  · exact .inl (Date.ofDays_before (by omega))

/-- A later moment has a greater stamp. -/
lemma stamp_lt_stamp (hm : m.HasPlainYear) (hm' : m'.HasPlainYear) (h : m.millis < m'.millis) :
    m.stamp < m'.stamp := by
  obtain ⟨hmonth, hday⟩ := Date.ofDays_lt (m.millis.fdiv 86400000)
  obtain ⟨hmonth', hday'⟩ := Date.ofDays_lt (m'.millis.fdiv 86400000)
  rw [stamp_eq hm, stamp_eq hm']
  obtain ⟨hlow, hhigh⟩ := hm
  obtain ⟨hlow', hhigh'⟩ := hm'
  rcases date_before_or h with hbefore | ⟨hdate, htime⟩
  · have horder : m.date.year.natAbs < m'.date.year.natAbs ∨
        m.date.year.natAbs = m'.date.year.natAbs ∧ (m.date.month < m'.date.month ∨
          m.date.month = m'.date.month ∧ m.date.day < m'.date.day) :=
      hbefore.imp (by omega) fun ⟨hyear, hbefore⟩ => ⟨congrArg _ hyear, hbefore⟩
    refine padded_lex (by decide) (by omega) (by omega)
      (horder.imp_right fun ⟨heq, horder⟩ => ⟨heq, ?_⟩)
    refine padded_lex (by decide) hmonth hmonth'
      (horder.imp_right fun ⟨heq, horder⟩ => ⟨heq, ?_⟩)
    exact padded_lex (by decide) hday hday' (.inl horder)
  · rw [hdate]
    refine append_lt_append_left _ (append_lt_append_left _ (append_lt_append_left _ ?_))
    exact append_lt_append_left _ (time_lex htime m'.timeOfDay_lt)

/-! ### The characters of stamps -/

/-- A text of digits and underscores. -/
def IsStampText (s : String) : Prop :=
  ∀ c ∈ s.toList, isAsciiDigit c || c = '_'

lemma IsStampText.append {s t : String} (hs : IsStampText s) (ht : IsStampText t) :
    IsStampText (s ++ t) := by
  rw [IsStampText, String.toList_append]
  exact List.forall_mem_append.mpr ⟨hs, ht⟩

lemma isStampText_padded (width n : Nat) : IsStampText (padded width n) := by
  rw [IsStampText, toList_padded]
  refine List.forall_mem_append.mpr ⟨fun c hc => ?_, fun c hc => ?_⟩
  · rw [List.eq_of_mem_replicate hc]
    decide
  · rw [areDigits_toDigits n c hc, Bool.true_or]

lemma slash_notMem_padded (width n : Nat) : '/' ∉ (padded width n).toList :=
  fun h => absurd (isStampText_padded width n _ h) (by decide)

/-- No stamp holds a slash, whatever its year is. -/
lemma slash_notMem_stamp (m : Moment) : '/' ∉ m.stamp.toList := by
  have hyear (year : Int) : '/' ∉ (yearText year).toList := by
    have hsign : '/' ∉ (if year < 0 then "-" else if 9999 < year then "+" else "").toList := by
      split_ifs <;> decide
    rw [yearText, String.toList_append, List.mem_append]
    exact not_or.mpr ⟨hsign, slash_notMem_padded _ _⟩
  have hline : '/' ∉ "_".toList := by decide
  unfold stamp
  simp only [String.toList_append, List.mem_append, not_or, slash_notMem_padded, hyear, hline,
    not_false_eq_true, and_self]

lemma isStampText_stamp (hm : m.HasPlainYear) : IsStampText m.stamp := by
  have hline : IsStampText "_" := List.all_eq_true.mp (by decide)
  rw [stamp_eq hm]
  exact (isStampText_padded _ _).append <| (isStampText_padded _ _).append <|
    (isStampText_padded _ _).append <| hline.append <| (isStampText_padded _ _).append <|
    (isStampText_padded _ _).append <| (isStampText_padded _ _).append <|
    hline.append <| isStampText_padded _ _

end ParticleScene.Moment
