import ParticleScene.Geometry.Motion

/-!
# Tours

A tour starts at the first position and goes on to the nearest position that it has not seen
yet. Of equally near positions it takes the one that is listed first.
-/

namespace ParticleScene.Tour

/-- The nearest of the remaining positions, as the place among them. A later position replaces
an earlier one unless its distance is at least as great. -/
def nearestFrom (here : Position) (best : Nat × Float) :
    Nat → List (Nat × Position) → Nat × Float
  | _, [] => best
  | place, (_, p) :: rest =>
    let d := here.distanceSq p
    nearestFrom here (if d ≥ best.2 then best else (place, d)) (place + 1) rest

/-- The place of the nearest position in a list. -/
def nearest (here : Position) : List (Nat × Position) → Nat
  | [] => 0
  | (_, p) :: rest => (nearestFrom here (0, here.distanceSq p) 1 rest).1

/-- The rest of a tour that stands at `here`, over the positions not seen yet. Each round takes
one of them. -/
def visit (here : Position) : Nat → List (Nat × Position) → List Nat
  | 0, _ => []
  | rounds + 1, unseen =>
    let place := nearest here unseen
    match unseen[place]? with
    | some (i, p) => i :: visit p rounds (unseen.eraseIdx place)
    | none => []

/-- The order in which a tour visits the positions, as indices. -/
def order (ps : List Position) : List Nat :=
  match ps with
  | [] => []
  | p :: rest => 0 :: visit p rest.length (rest.zipIdx 1 |>.map fun (q, i) => (i, q))

end ParticleScene.Tour
