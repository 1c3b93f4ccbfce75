import Mathlib.Tactic.ByContra
import Mathlib.Tactic.Lemma
import ParticleScene.Clock

/-!
# Dates in their order

The date of a day is computed with years that begin in March, in cycles of 400 years. The year of a
day in its cycle grows with the day and is exact on the first and on the last day of each year, so
that it is exact on all days between them. A later day has a later date.
-/

namespace ParticleScene.Moment.Date

/-! ### Years of a cycle -/

/-- The year in which a day of a cycle lies. -/
def yearOfCycle (day : Nat) : Nat :=
  (day - day / 1460 + day / 36524 - day / 146096) / 365

/-- The day of a cycle on which a year begins. -/
def yearStart (year : Nat) : Nat :=
  365 * year + year / 4 - year / 100

variable {day day' n n' : Nat} {year year' days days' : Int}

lemma yearOfCycle_mono (h : day ≤ day') : yearOfCycle day ≤ yearOfCycle day' := by
  have hfour : day - day / 1460 ≤ day' - day' / 1460 := by omega
  have hcentury : day / 36524 - day / 146096 ≤ day' / 36524 - day' / 146096 := by omega
  exact Nat.div_le_div_right (by omega)

lemma yearOfCycle_yearStart : ∀ year < 400, yearOfCycle (yearStart year) = year := by
  decide +kernel

lemma yearOfCycle_lt_of_lt :
    ∀ year < 400, ∀ day, day < yearStart year → yearOfCycle day < year := by
  have hlast : ∀ year < 400, yearOfCycle (yearStart year - 1) = year - 1 := by decide +kernel
  intro year hyear day hday
  have hpos : year ≠ 0 := by
    rintro rfl
    exact Nat.not_lt_zero day hday
  have hmono := yearOfCycle_mono (Nat.le_sub_one_of_lt hday)
  rw [hlast year hyear] at hmono
  omega

lemma yearOfCycle_le (h : day < 146097) : yearOfCycle day ≤ 399 :=
  Nat.le_trans (yearOfCycle_mono (Nat.le_of_lt_succ h)) (by decide)

/-- No day lies before the begin of its year. -/
lemma yearStart_le (h : day < 146097) : yearStart (yearOfCycle day) ≤ day := by
  by_contra hlt
  have hyear := yearOfCycle_le h
  exact Nat.lt_irrefl _ (yearOfCycle_lt_of_lt _ (by omega) day (by omega))

/-- No year has more than 366 days. -/
lemma dayOfYear_lt (h : day < 146097) : day - yearStart (yearOfCycle day) < 366 := by
  have hyear := yearOfCycle_le h
  by_contra hge
  have hnext : yearStart (yearOfCycle day + 1) ≤ day := by
    unfold yearStart at hge ⊢
    omega
  by_cases hlast : yearOfCycle day = 399
  · rw [hlast] at hge
    exact absurd h (by simp only [yearStart] at hge; omega)
  · have hmono := yearOfCycle_mono hnext
    rw [yearOfCycle_yearStart _ (by omega)] at hmono
    omega

/-! ### Dates -/

/-- The order of dates. -/
def Before (d e : Date) : Prop :=
  d.year < e.year ∨ d.year = e.year ∧ (d.month < e.month ∨ d.month = e.month ∧ d.day < e.day)

/-- The date of a day in a year that begins in March. -/
def ofMarch (year : Int) (dayOfYear : Nat) : Date :=
  let monthFromMarch := (5 * dayOfYear + 2) / 153
  let month := if monthFromMarch < 10 then monthFromMarch + 3 else monthFromMarch - 9
  { year := year + (if month ≤ 2 then 1 else 0)
    month
    day := dayOfYear - (153 * monthFromMarch + 2) / 5 + 1 }

/-- The day of its cycle. -/
def dayOfCycle (days : Int) : Nat :=
  ((days + 719468).fmod 146097).toNat

lemma ofDays_eq_ofMarch (days : Int) :
    ofDays days = ofMarch (yearOfCycle (dayOfCycle days) + (days + 719468).fdiv 146097 * 400)
      (dayOfCycle days - yearStart (yearOfCycle (dayOfCycle days))) := rfl

lemma month_ofMarch_lt (h : n < 366) : (ofMarch year n).month < 100 := by
  simp only [ofMarch]
  split <;> omega

lemma day_ofMarch_lt (year : Int) (n : Nat) : (ofMarch year n).day < 100 := by
  simp only [ofMarch]
  omega

/-- The months of a year go on from March to February of the next year. -/
lemma ofMarch_before_of_lt_day (h : n < n') (hn' : n' < 366) :
    (ofMarch year n).Before (ofMarch year n') := by
  simp only [ofMarch, Before]
  split <;> split <;> split <;> split <;> omega

lemma ofMarch_before_of_lt_year (h : year < year') (hn : n < 366) :
    (ofMarch year n).Before (ofMarch year' n') := by
  simp only [ofMarch, Before]
  split <;> split <;> split <;> split <;> omega

lemma dayOfCycle_lt (days : Int) : dayOfCycle days < 146097 := by
  have hlt := Int.fmod_lt_of_pos (days + 719468) (by decide : (0 : Int) < 146097)
  unfold dayOfCycle
  omega

/-- A later day has a later date. -/
lemma ofDays_before (h : days < days') : (ofDays days).Before (ofDays days') := by
  have hday := dayOfCycle_lt days
  have hday' := dayOfCycle_lt days'
  rw [ofDays_eq_ofMarch, ofDays_eq_ofMarch]
  have hyear := yearOfCycle_le hday
  have hyear' := yearOfCycle_le hday'
  by_cases hsame : (days + 719468).fdiv 146097 = (days' + 719468).fdiv 146097
  · have hcycle : dayOfCycle days < dayOfCycle days' := by
      have hmod := Int.fmod_add_mul_fdiv (days + 719468) 146097
      have hmod' := Int.fmod_add_mul_fdiv (days' + 719468) 146097
      have hnonneg := Int.fmod_nonneg_of_pos (days + 719468) (by decide : (0 : Int) < 146097)
      unfold dayOfCycle
      omega
    rw [hsame]
    rcases Nat.lt_or_eq_of_le (yearOfCycle_mono (Nat.le_of_lt hcycle)) with hlt | heq
    · exact ofMarch_before_of_lt_year (by omega) (dayOfYear_lt hday)
    · rw [heq]
      have hstart := yearStart_le hday
      rw [heq] at hstart
      exact ofMarch_before_of_lt_day (by omega) (dayOfYear_lt hday')
  · have hcycle : (days + 719468).fdiv 146097 < (days' + 719468).fdiv 146097 := by
      rw [Int.fdiv_eq_ediv_of_nonneg _ (by decide), Int.fdiv_eq_ediv_of_nonneg _ (by decide)]
        at hsame ⊢
      omega
    exact ofMarch_before_of_lt_year (by omega) (dayOfYear_lt hday)

/-- Months and days have two digits. -/
lemma ofDays_lt (days : Int) : (ofDays days).month < 100 ∧ (ofDays days).day < 100 := by
  rw [ofDays_eq_ofMarch]
  exact ⟨month_ofMarch_lt (dayOfYear_lt (dayOfCycle_lt days)), day_ofMarch_lt _ _⟩

end ParticleScene.Moment.Date
