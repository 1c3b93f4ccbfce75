import ParticleScene.Proofs.Document.Storable
import ParticleScene.Proofs.Number.FiniteResults
import ParticleScene.Source.Mesh
import ParticleScene.Source.Picture

/-!
# Imported elements

The elements of meshes and pictures have whole windows of ticks. Those of a picture are finite,
unless its size is beyond all that a float can count, and they depend on no pixel but the sampled
ones. So a picture has the same elements with every resampler if its raster has the size already, or
a single color.
-/

namespace ParticleScene

variable {l : Layer} {e : Element}

lemma Mesh.fillTicks_of_mem_elements {m : Mesh} (h : e ∈ m.elements l) : e.fillTicks = e := by
  obtain ⟨v, -, rfl⟩ := List.mem_map.mp h
  rfl

namespace Picture

variable {p : Picture} {square square' : Raster} {resampler : Resampler}

lemma lt_of_mem_places {place : ℕ} (h : place ∈ p.places) : place < p.side := by
  obtain ⟨i, hi, rfl⟩ := List.mem_map.mp h
  have hlt := List.mem_range.mp hi
  omega

/-! ### Resampling -/

lemma elements_congr (h : ∀ x < p.side, ∀ y < p.side, square.pixel x y = square'.pixel x y) :
    p.elements l square = p.elements l square' := by
  refine List.flatMap_congr fun y hy => List.filterMap_congr fun x hx => ?_
  rw [element?, element?, h x (lt_of_mem_places hx) y (lt_of_mem_places hy)]

/-- A picture that has its size is not resampled. -/
lemma produce_of_fits (hwidth : p.raster.width = p.side) (hheight : p.raster.height = p.side) :
    (p.source resampler).produce l = .elements (p.elements l p.raster) := by
  obtain ⟨square, hsquare, hpixel⟩ := resampler.of_fits p.raster p.side hwidth hheight
  rw [source]
  simp only [hsquare, elements_congr hpixel]

/-- A picture of a single color has samples of that color, whatever its size. -/
lemma produce_of_uniform {width height : ℕ} {color : Rgba} (hwidth : 0 < width)
    (hheight : 0 < height) (hraster : p.raster = .uniform width height color)
    (hsquare : resampler.square? p.raster p.side = some square) :
    (p.source resampler).produce l = .elements (p.elements l (.uniform p.side p.side color)) := by
  have hpixel : ∀ x < p.side, ∀ y < p.side,
      square.pixel x y = (Raster.uniform p.side p.side color).pixel x y :=
    resampler.of_uniform width height color p.side square hwidth hheight (hraster ▸ hsquare)
  rw [source]
  simp only [hsquare, elements_congr hpixel]

/-- The elements that a picture produces are those of some square. -/
lemma exists_square_of_produce {es : List Element}
    (h : (p.source resampler).produce l = .elements es) : ∃ square, es = p.elements l square := by
  rw [source] at h
  split at h
  · cases h
    exact ⟨_, rfl⟩
  · cases h

/-! ### Finite elements -/

lemma isFinite_offset {place : ℕ} (hside : p.side < 2 ^ 52) (h : place ∈ p.places) :
    (p.offset place).isFinite := by
  have hplace := lt_of_mem_places h
  exact Number.isFinite_div_ten (Number.isFinite_sub (Number.hasRoom_ofNat (by omega))
    (Number.hasRoom_ofNat (by omega)))

lemma exists_of_mem_elements (h : e ∈ p.elements l square) :
    ∃ x ∈ p.places, ∃ y ∈ p.places, e.position = ⟨p.offset x, p.offset y⟩ ∧ e.yOffset = 0.0 ∧
      e.fillTicks = e := by
  obtain ⟨y, hy, he⟩ := List.mem_flatMap.mp h
  obtain ⟨x, hx, he⟩ := List.mem_filterMap.mp he
  rw [element?] at he
  split at he <;> cases he
  exact ⟨x, hx, y, hy, rfl, rfl, rfl⟩

/-- Every element of a picture is finite. -/
lemma isFinite_of_mem_elements (hside : p.side < 2 ^ 52) (h : e ∈ p.elements l square) :
    e.IsFinite := by
  obtain ⟨x, hx, y, hy, hposition, hoffset, -⟩ := exists_of_mem_elements h
  have hzero : e.yOffset.isFinite := by
    rw [hoffset]
    decide
  refine ⟨?_, ?_, hzero⟩
  · change e.position.x.isFinite = true
    rw [hposition]
    exact isFinite_offset hside hx
  · change e.position.z.isFinite = true
    rw [hposition]
    exact isFinite_offset hside hy

lemma side_lt (h : p.size < UInt32.size) : p.side < 2 ^ 52 := by
  have hside : p.side ≤ max p.size 4 := by
    rw [side]
    split <;> omega
  exact hside.trans_lt (max_lt (h.trans (by decide)) (by decide))

/-- A picture file of one red pixel: two headers, and the pixel with its blue first. -/
def redPixel : List UInt8 :=
  [0x42, 0x4d, 58, 0, 0, 0, 0, 0, 0, 0, 54, 0, 0, 0,
   40, 0, 0, 0, 1, 0, 0, 0, 1, 0, 0, 0, 1, 0, 24, 0, 0, 0, 0, 0, 4, 0, 0, 0,
   0x13, 0x0b, 0, 0, 0x13, 0x0b, 0, 0, 0, 0, 0, 0, 0, 0, 0, 0,
   0, 0, 255, 0]

/-- A decoder that knows the file of the red pixel. -/
def redPixelDecoder : PictureDecoder
  | .bmp, bytes => if bytes = redPixel then some (.uniform 1 1 ⟨⟨255, 0, 0⟩, 255⟩) else none
  | _, _ => none

end Picture

end ParticleScene
