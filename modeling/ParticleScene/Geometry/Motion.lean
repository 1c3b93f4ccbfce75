import ParticleScene.Number.Notation

/-!
# Positions and the motion of animated layers

Positions in the horizontal plane, and how they move: how many frames a motion has and how long each
lasts, where a point stands in a frame that is rotated about the origin or orbited about the point
itself, and the heights of a rise.
-/

namespace ParticleScene

/-! ### Positions -/

/-- An offset from the scene origin in the horizontal plane. -/
structure Position where
  x : Float
  z : Float
  deriving Repr, DecidableEq

namespace Position

def distanceSq (a b : Position) : Float :=
  let dx := a.x - b.x
  let dz := a.z - b.z
  dx * dx + dz * dz

def isFinite (p : Position) : Bool :=
  p.x.isFinite && p.z.isFinite

end Position

/-! ### Frames -/

def pi : Float := 3.141592653589793

def fullTurn : Float := 6.283185307179586

def radians (degrees : Float) : Float :=
  degrees * (pi / 180.0)

/-- The speed that counts for frames: finite and at least one. -/
def effectiveSpeed (speed : Float) : Float :=
  if speed.isFinite then (if speed < 1.0 then 1.0 else speed) else 1.0

/-- Number and duration of the frames of one animated layer. -/
structure FramePlan where
  frames : Nat
  delay : Float
  deriving Repr

namespace FramePlan

def minFrames : Nat := 10

/-- The whole part of `120 - 1.1 * speed`, but at least ten. -/
def frameCount (speed : Float) : Nat :=
  let frames := Number.floor (120.0 - effectiveSpeed speed * 1.1)
  if frames < Float.ofNat minFrames then minFrames else Number.truncNat64 frames

/-- Ticks of one frame: ten at speed one, less at higher speeds, never below one. -/
def frameDelay (speed : Float) : Float :=
  Number.cut 1.0 10.0 (10.0 - (effectiveSpeed speed - 1.0) * (4.0 / 99.0))

/-- The plan for a speed. -/
def forSpeed (speed : Float) : FramePlan where
  frames := frameCount speed
  delay := frameDelay speed

/-- The angle between two frames; the last frame closes the circle. -/
def angleStep (plan : FramePlan) : Float :=
  fullTurn / Float.ofNat plan.frames

/-- The duration of a frame with two decimal places. -/
def delayText (plan : FramePlan) : String :=
  Number.fixed 2 plan.delay

end FramePlan

namespace Position

/-- A position turned about the origin. -/
def rotate (p : Position) (theta : Float) : Position :=
  let sin := theta.sin
  let cos := theta.cos
  ⟨p.x * cos - p.z * sin, p.x * sin + p.z * cos⟩

/-- Where an orbiting point stands relative to the centre of its orbit in a frame. The phase
advances by `speed` degrees a frame. -/
def orbitOffset (radius speed : Float) (frame : Nat) : Position :=
  let phi := Float.ofNat frame * radians speed
  ⟨radius * phi.cos, radius * phi.sin⟩

def orbit (p : Position) (radius speed : Float) (frame : Nat) : Position :=
  let offset := orbitOffset radius speed frame
  ⟨p.x + offset.x, p.z + offset.z⟩

end Position

/-- A rise by `speed` a step up to `limit`. -/
structure Rise where
  speed : Float
  limit : Float
  deriving Repr

namespace Rise

def maxSteps : Nat := 1000

/-- Whether a rise can run: speed and limit are finite and positive, and the limit is reached
within the greatest number of steps. -/
def isValid (r : Rise) : Bool :=
  r.speed.isFinite && r.limit.isFinite && r.speed > 0.0 && r.limit > 0.0 &&
    r.limit / r.speed ≤ Float.ofNat maxSteps

/-- The heights of a rise that runs on its own: zero, and one more step at a time while the
limit is not passed. -/
def heights? (r : Rise) : Option (List Float) :=
  if r.isValid then
    let steps := Number.truncNat64 (Number.floor (r.limit / r.speed))
    some (((List.range (steps + 1)).map fun i => Float.ofNat i * r.speed).filter
      fun h => h ≤ r.limit + 1e-9)
  else none

/-- The height one step further, held at the limit. -/
def climb (r : Rise) (height : Float) : Float :=
  Number.lesser (height + r.speed) r.limit

/-- The next `n` heights of a climb that stands at `height`. -/
def climbFrom (r : Rise) (height : Float) : Nat → List Float
  | 0 => []
  | n + 1 => height :: r.climbFrom (r.climb height) n

end Rise

end ParticleScene
