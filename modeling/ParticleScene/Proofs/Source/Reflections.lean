import ParticleScene.Proofs.Number.WholeFloats
import ParticleScene.Proofs.Source.Drawing

/-!
# Reflections of points

Positions are measured from the middle pixel of a side, which is half the side rounded down, and a
mirror takes a place to the whole side less that place. So a reflection changes the sign of a
coordinate if the side is even. If it is odd, every reflection lies a pixel further, and that of the
middle pixel is its neighbour.
-/

namespace ParticleScene

open Number (tenth tenth_beq_tenth tenth_beq_neg_tenth ofInt_sub_ofInt)

namespace Canvas

variable {side : UInt32} {place : Int32} {a b : Float}

/-- How many pixels a place lies behind the middle of a side. -/
def offset (side : UInt32) (place : Int32) : Int :=
  place.toInt - (side.toNat / 2 : Nat)

lemma natAbs_offset_lt (side : UInt32) (place : Int32) : (offset side place).natAbs < 2 ^ 33 := by
  have hside := side.toNat_lt
  have hlo := place.le_toInt
  have hhi := place.toInt_lt
  rw [offset]
  omega

/-- A coordinate and its image in a mirror across the side. -/
structure Reflects (side : UInt32) (place : Int32) (a b : Float) : Prop where
  image_eq : b = tenth ((side.toNat % 2 : Nat) - offset side place)
  isOpposite_iff : b == -a ↔ side.toNat % 2 = 0
  isSame_iff : b == a ↔ 2 * place.toInt = side.toNat

lemma coordinate_eq (side : UInt32) (place : Int32) :
    (Float.ofInt place.toInt - middle side) / pixelsPerUnit = tenth (offset side place) := by
  have hside := side.toNat_lt
  have hlo := place.le_toInt
  have hhi := place.toInt_lt
  have hoffset := natAbs_offset_lt side place
  have hsub : Float.ofInt place.toInt - middle side = Float.ofInt (offset side place) :=
    ofInt_sub_ofInt (w := (side.toNat / 2 : Nat)) (by omega) (by omega) (by rw [← offset]; omega)
  rw [hsub]
  rfl

lemma reflected_eq (side : UInt32) (place : Int32) :
    (Float.ofNat side.toNat - Float.ofInt place.toInt - middle side) / pixelsPerUnit =
      tenth ((side.toNat % 2 : Nat) - offset side place) := by
  have hside := side.toNat_lt
  have hlo := place.le_toInt
  have hhi := place.toInt_lt
  have hacross : Float.ofNat side.toNat - Float.ofInt place.toInt =
      Float.ofInt (side.toNat - place.toInt) :=
    ofInt_sub_ofInt (z := side.toNat) (by omega) (by omega) (by omega)
  have hmiddle : Float.ofInt (side.toNat - place.toInt) - middle side =
      Float.ofInt (side.toNat - place.toInt - (side.toNat / 2 : Nat)) :=
    ofInt_sub_ofInt (w := (side.toNat / 2 : Nat)) (by omega) (by omega) (by omega)
  have hoffset : (side.toNat : Int) - place.toInt - (side.toNat / 2 : Nat) =
      (side.toNat % 2 : Nat) - offset side place := by
    rw [offset]
    omega
  rw [hacross, hmiddle, hoffset]
  rfl

lemma reflects (side : UInt32) (place : Int32) :
    Reflects side place ((Float.ofInt place.toInt - middle side) / pixelsPerUnit)
      ((Float.ofNat side.toNat - Float.ofInt place.toInt - middle side) / pixelsPerUnit) := by
  have hoffset := natAbs_offset_lt side place
  rw [coordinate_eq, reflected_eq]
  refine ⟨rfl, ?_, ?_⟩
  · rw [tenth_beq_neg_tenth (by omega) (by omega)]
    omega
  · rw [tenth_beq_tenth (by omega) (by omega), offset]
    omega

/-- The pixel of whole coordinates. -/
def wholePixel (x y : Int32) : Pixel :=
  ⟨Float.ofInt x.toInt, Float.ofInt y.toInt⟩

/-- A mirror leaves a coordinate as it is or reflects it across its side. -/
structure Mirrors (c : Canvas) (m : Mirror) (x y : Int32) (a b : Position) : Prop where
  x_eq (h : m = .z) : b.x = a.x
  z_eq (h : m = .x) : b.z = a.z
  x_reflects (h : m ≠ .z) : Reflects c.width x a.x b.x
  z_reflects (h : m ≠ .x) : Reflects c.height y a.z b.z

lemma mirrors_of_reflect? {c : Canvas} {m : Mirror} {x y : Int32} {q : Pixel}
    (h : m.reflect? c (wholePixel x y) = some q) :
    Mirrors c m x y (c.toScene (wholePixel x y)) (c.toScene q) := by
  have hx := reflects c.width x
  have hz := reflects c.height y
  cases m with
  | off => cases h
  | x =>
    obtain rfl := Option.some.inj h
    exact ⟨nofun, fun _ => rfl, fun _ => hx, fun h => absurd rfl h⟩
  | z =>
    obtain rfl := Option.some.inj h
    exact ⟨fun _ => rfl, nofun, fun h => absurd rfl h, fun _ => hz⟩
  | double =>
    obtain rfl := Option.some.inj h
    exact ⟨nofun, nofun, fun _ => hx, fun _ => hz⟩

end Canvas

namespace Drawing

open Canvas

/-- The element of a point in whole pixels is followed by that of its reflection, which differs in
the position alone. Each coordinate is left as it is or reflected across its side: to its opposite
exactly if the side is even, and to itself exactly at half of the whole side. -/
theorem elements_of_mirrored_point (c : Canvas) (m : Mirror) (x y : Int32) (scale : Float)
    (l : Layer) (hm : m ≠ .off) :
    ∃ p q : Element,
      elements { stroke := .point (wholePixel x y), canvas := c, mirror := m, scale } l = [p, q] ∧
      q = { p with position := q.position } ∧
      p.position = ⟨tenth (offset c.width x), tenth (offset c.height y)⟩ ∧
      Mirrors c m x y p.position q.position := by
  obtain ⟨reflection, hreflection⟩ := Mirror.exists_reflection hm c
  refine ⟨_, _, elements_of_reflection hreflection l, rfl, ?_,
    mirrors_of_reflect? (hreflection (wholePixel x y))⟩
  exact congrArg₂ Position.mk (coordinate_eq c.width x) (coordinate_eq c.height y)

/-- A canvas with one odd side. -/
def lopsided : Canvas :=
  ⟨201, 100⟩

theorem elements_of_mirrored_point_lopsided :
    Mirror.double ≠ .off ∧
      ∃ p q : Element,
        elements
          { stroke := .point (wholePixel 110 30), canvas := lopsided, mirror := .double } {} =
          [p, q] ∧
        p.position = ⟨tenth 10, tenth (-20)⟩ ∧
        (q.position.x == -p.position.x) = false ∧ q.position.z == -p.position.z := by
  have hm : Mirror.double ≠ .off := by decide
  obtain ⟨p, q, helements, -, hposition, hmirrors⟩ :=
    elements_of_mirrored_point lopsided .double 110 30 1.0 {} hm
  refine ⟨hm, p, q, helements, hposition, ?_, ?_⟩
  · rw [Bool.eq_false_iff, ne_eq, (hmirrors.x_reflects (by decide)).isOpposite_iff]
    decide
  · rw [(hmirrors.z_reflects (by decide)).isOpposite_iff]
    decide

/-- Left and right of an odd side a point and its reflection have no opposite coordinates, and the
middle pixel is not its own reflection. -/
theorem elements_of_point_lopsided :
    (∃ p q : Element,
      elements { stroke := .point (wholePixel 110 30), canvas := lopsided, mirror := .x } {} =
        [p, q] ∧
      p.position.x == 1.0 ∧ q.position.x == -0.9 ∧ (q.position.x == -p.position.x) = false) ∧
    ∃ p q : Element,
      elements { stroke := .point (wholePixel 100 30), canvas := lopsided, mirror := .x } {} =
        [p, q] ∧
      p.position.x == 0.0 ∧ (q.position.x == p.position.x) = false :=
  ⟨⟨_, _, rfl, by decide, by decide, by decide⟩, _, _, rfl, by decide, by decide⟩

end Drawing

end ParticleScene
