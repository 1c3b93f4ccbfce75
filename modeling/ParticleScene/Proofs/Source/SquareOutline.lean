import Mathlib.Algebra.Order.Group.Abs
import Mathlib.Algebra.Order.Group.Int
import Mathlib.Tactic.Common
import ParticleScene.Proofs.Source.Drawing

/-!
# Square strokes

The half of the side of a square is a 64-bit number, and so is its opposite unless it is the least
one. From the one to the other the places on a side are a step apart, and each is taken on the two
sides of either direction. So a square stroke has four points for each place, all on the outline.
-/

namespace ParticleScene

namespace Number

lemma clampInt_mem {lo hi : Int} (hlo : lo ≤ 0) (hhi : 0 ≤ hi) (x : Float) :
    lo ≤ clampInt lo hi x ∧ clampInt lo hi x ≤ hi := by
  rw [clampInt]
  split_ifs <;> omega

end Number

namespace Stroke

variable {half : Int64} {step : Nat} {d : Int} {size : Float} {count : Nat}

/-! ### The half side -/

lemma toInt_halfSide (size : Float) :
    (halfSide size).toInt = Number.truncInt64 (Number.floor (size / 2.0)) := by
  obtain ⟨hlo, hhi⟩ :
      Int64.minValue.toInt ≤ Number.truncInt64 (Number.floor (size / 2.0)) ∧
        Number.truncInt64 (Number.floor (size / 2.0)) ≤ Int64.maxValue.toInt :=
    Number.clampInt_mem (by decide) (by decide) _
  exact Int64.toInt_ofInt_of_le hlo (Int.lt_of_le_of_lt hhi (by decide))

/-- Only the least number is its own opposite. -/
lemma toInt_neg (h : Int64.minValue.toInt < half.toInt) : (-half).toInt = -half.toInt := by
  have hhi := half.toInt_lt
  change -9223372036854775808 < half.toInt at h
  rw [Int64.toInt_neg]
  exact Int.bmod_eq_of_le (by omega) (by omega)

/-! ### Places on a side -/

/-- A side of whole length has a place for each step. -/
lemma sidePlaces_eq (h : 0 ≤ half.toInt) (step : Nat) :
    sidePlaces half step =
      (List.range ((2 * half.toInt).toNat / step + 1)).map
        fun i => -half.toInt + (i * step : Nat) := by
  have hneg := toInt_neg (Int.lt_of_lt_of_le (by decide) h)
  have hlength : half.toInt - -half.toInt = 2 * half.toInt := by omega
  simp only [sidePlaces, hneg, hlength]
  rw [if_neg (by omega)]

lemma sidePlaces_of_neg (hmin : Int64.minValue.toInt < half.toInt) (h : half.toInt < 0)
    (step : Nat) : sidePlaces half step = [] := by
  simp only [sidePlaces, toInt_neg hmin]
  rw [if_pos (by omega)]

lemma mem_sidePlaces_iff (h : 0 ≤ half.toInt) (hstep : 0 < step) :
    d ∈ sidePlaces half step ↔ ∃ i : Nat, d = -half.toInt + (i * step : Nat) ∧ d ≤ half.toInt := by
  rw [sidePlaces_eq h, List.mem_map]
  have hle (i : Nat) : i ∈ List.range ((2 * half.toInt).toNat / step + 1) ↔
      -half.toInt + (i * step : Nat) ≤ half.toInt := by
    rw [List.mem_range, Nat.lt_succ_iff, Nat.le_div_iff_mul_le hstep]
    omega
  constructor
  · rintro ⟨i, hi, rfl⟩
    exact ⟨i, rfl, (hle i).mp hi⟩
  · rintro ⟨i, rfl, hi⟩
    exact ⟨i, (hle i).mpr hi, rfl⟩

lemma sidePlaces_ascending (h : 0 ≤ half.toInt) (hstep : 0 < step) :
    (sidePlaces half step).Pairwise (· < ·) := by
  rw [sidePlaces_eq h, List.pairwise_map]
  refine List.pairwise_lt_range.imp fun hlt => ?_
  have hmul := Nat.mul_lt_mul_of_pos_right hlt hstep
  omega

lemma length_sidePlaces (h : 0 ≤ half.toInt) (step : Nat) :
    (sidePlaces half step).length = 2 * half.toInt.toNat / step + 1 := by
  rw [sidePlaces_eq h, List.length_map, List.length_range, Int.toNat_mul (by decide) h]
  rfl

/-! ### The outline -/

lemma outline_eq (h : Int64.minValue.toInt < half.toInt) (step : Nat) :
    outline half step =
      ((sidePlaces half step).flatMap fun d => [(d, -half.toInt), (d, half.toInt)]) ++
        ((sidePlaces half step).flatMap fun d => [(-half.toInt, d), (half.toInt, d)]) := by
  simp only [outline, toInt_neg h]

lemma length_outline (half : Int64) (step : Nat) :
    (outline half step).length = 4 * (sidePlaces half step).length := by
  rw [outline, List.length_append, length_flatMap_pair, length_flatMap_pair]
  omega

/-- The points of an outline are as far from the origin as half the side is long, along one axis
or the other. -/
lemma max_abs_of_mem_outline (h : 0 ≤ half.toInt) (hstep : 0 < step) {p : Int × Int}
    (hp : p ∈ outline half step) : max |p.1| |p.2| = half.toInt := by
  have habs : ∀ d ∈ sidePlaces half step, |d| ≤ half.toInt := by
    intro d hd
    obtain ⟨i, rfl, hle⟩ := (mem_sidePlaces_iff h hstep).mp hd
    exact abs_le.mpr ⟨by omega, hle⟩
  have hfar : |half.toInt| = half.toInt := abs_of_nonneg h
  rw [outline_eq (Int.lt_of_lt_of_le (by decide) h), List.mem_append, List.mem_flatMap,
    List.mem_flatMap] at hp
  rcases hp with ⟨d, hd, hp⟩ | ⟨d, hd, hp⟩
  all_goals
    rw [List.mem_cons, List.mem_singleton] at hp
    rcases hp with rfl | rfl
  · rw [abs_neg, hfar, max_eq_right (habs d hd)]
  · rw [hfar, max_eq_right (habs d hd)]
  · rw [abs_neg, hfar, max_eq_left (habs d hd)]
  · rw [hfar, max_eq_left (habs d hd)]

/-! ### Square strokes -/

/-- A square stroke whose half side is not negative has four points for each place on a side, all
of them on the outline: those of the top and bottom sides from left to right, then those of the
left and right sides. A square with a negative half side has none. A drawing has one element for
each pixel of its stroke without a mirror, and with one a second for its reflection right behind,
all of the kind of the stroke and in the window of the layer. -/
theorem square_stays_on_outline (centre : Pixel) (size scale : Float) (count : Nat) :
    let half := Number.truncInt64 (Number.floor (size * scale / 2.0))
    let step := max 1
      (Number.truncNat64 (Number.floor (size * scale / Float.ofNat (max count 1))))
    let pixels := (square centre size count).pixels scale
    (0 ≤ half →
      pixels.length = 4 * (2 * half.toNat / step + 1) ∧
      (∀ p ∈ pixels, ∃ d e : Int, max |d| |e| = half ∧
        p = ⟨centre.x + Float.ofInt d, centre.y + Float.ofInt e⟩) ∧
      ∃ places : List Int, places.Pairwise (· < ·) ∧
        (∀ d, d ∈ places ↔ ∃ i : Nat, d = -half + (i * step : Nat) ∧ d ≤ half) ∧
        pixels =
          (places.flatMap fun d => [shift centre (d, -half), shift centre (d, half)]) ++
            (places.flatMap fun d => [shift centre (-half, d), shift centre (half, d)])) ∧
    (Int64.minValue.toInt < half → half < 0 → pixels = []) ∧
    ∀ (d : Drawing) (l : Layer),
      (d.mirror = .off → d.elements l = (d.stroke.pixels d.scale).map (d.element l)) ∧
      (d.mirror ≠ .off → (d.elements l).length = 2 * (d.stroke.pixels d.scale).length ∧
        ∀ i p, (d.stroke.pixels d.scale)[i]? = some p →
          ∃ q, d.mirror.reflect? d.canvas p = some q ∧
            (d.elements l)[2 * i]? = some (d.element l p) ∧
            (d.elements l)[2 * i + 1]? = some (d.element l q)) ∧
      ∀ e ∈ d.elements l,
        e.kind = d.stroke.kind ∧ e.tickStart = some l.tickStart ∧ e.tickEnd = some l.tickEnd := by
  intro half step pixels
  have hhalf : (halfSide (size * scale)).toInt = half := toInt_halfSide _
  have hside : sideStep (size * scale) count = step := max_comm _ _
  have hpixels : pixels = (outline (halfSide (size * scale)) step).map (shift centre) := by
    rw [← hside]
    rfl
  have hstep : 0 < step := Nat.lt_of_lt_of_le Nat.one_pos (le_max_left _ _)
  refine ⟨fun h => ?_, fun hmin h => ?_, fun d l =>
    ⟨fun hoff => Drawing.elements_of_off hoff l, fun hon => Drawing.elements_of_ne_off hon l,
      fun e he => Drawing.of_mem_elements he⟩⟩
  · rw [← hhalf] at h
    refine ⟨?_, fun p hp => ?_, sidePlaces (halfSide (size * scale)) step,
      sidePlaces_ascending h hstep, fun d => ?_, ?_⟩
    · rw [hpixels, List.length_map, length_outline, length_sidePlaces h, hhalf]
    · rw [hpixels] at hp
      obtain ⟨⟨d, e⟩, hmem, rfl⟩ := List.mem_map.mp hp
      exact ⟨d, e, hhalf ▸ max_abs_of_mem_outline h hstep hmem, rfl⟩
    · rw [mem_sidePlaces_iff h hstep, hhalf]
    · rw [hpixels, outline_eq (Int.lt_of_lt_of_le (by decide) h), hhalf, List.map_append,
        List.map_flatMap, List.map_flatMap]
      rfl
  · rw [← hhalf] at hmin h
    rw [hpixels, outline_eq hmin, sidePlaces_of_neg hmin h]
    rfl

/-- A square of which the step does not divide the side, reflected left and right. -/
def uneven : Drawing where
  stroke := .square ⟨100.0, 50.0⟩ 20.0 3
  mirror := .x

theorem square_stays_on_outline_uneven :
    Number.truncInt64 (Number.floor ((20.0 : Float) * 1.0 / 2.0)) = 10 ∧
      Number.truncInt64 (Number.floor ((-20.0 : Float) * 1.0 / 2.0)) = -10 ∧
      uneven.mirror ≠ .off ∧
      (uneven.stroke.pixels uneven.scale).length = 16 ∧
      (∀ p ∈ uneven.stroke.pixels uneven.scale, ∃ d e : Int, max |d| |e| = 10 ∧
        p = ⟨100.0 + Float.ofInt d, 50.0 + Float.ofInt e⟩) ∧
      (uneven.elements {}).length = 32 ∧
      (square ⟨100.0, 50.0⟩ (-20.0) 3).pixels 1.0 = [] := by
  have hhalf : Number.truncInt64 (Number.floor ((20.0 : Float) * 1.0 / 2.0)) = 10 := by decide
  have hneg : Number.truncInt64 (Number.floor ((-20.0 : Float) * 1.0 / 2.0)) = -10 := by decide
  have hstep : max 1 (Number.truncNat64
    (Number.floor ((20.0 : Float) * 1.0 / Float.ofNat (max 3 1)))) = 6 := by decide
  have hon : uneven.mirror ≠ .off := by decide
  obtain ⟨hsquare, -, hdrawn⟩ := square_stays_on_outline ⟨100.0, 50.0⟩ 20.0 1.0 3
  obtain ⟨-, hnone, -⟩ := square_stays_on_outline ⟨100.0, 50.0⟩ (-20.0) 1.0 3
  obtain ⟨hlength, houtline, -⟩ := hsquare (by rw [hhalf]; decide)
  have hpixels : (uneven.stroke.pixels uneven.scale).length = 16 := by
    refine hlength.trans ?_
    rw [hhalf, hstep]
    rfl
  refine ⟨hhalf, hneg, hon, hpixels, fun p hp => ?_, ?_,
    hnone (by rw [hneg]; decide) (by rw [hneg]; decide)⟩
  · rw [← hhalf]
    exact houtline p hp
  · rw [((hdrawn uneven {}).2.1 hon).1, hpixels]

end Stroke

end ParticleScene
