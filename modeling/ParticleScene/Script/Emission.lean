import ParticleScene.Color
import ParticleScene.Geometry.Tour
import ParticleScene.Script.Line

/-!
# Emission

An animation lays a layer out in frames: a delay, and where each element is drawn. Emission
turns the frames into lines. It fails at the first place that is not finite, and then the
layer contributes nothing.
-/

namespace ParticleScene

/-- Where an element is drawn in a frame. -/
structure Spot where
  /-- The index of the element in its layer. -/
  index : Nat
  element : Element
  x : Float
  z : Float
  y : Float

def Spot.isFinite (s : Spot) : Bool :=
  s.x.isFinite && s.z.isFinite && s.y.isFinite

/-- A delay, if there is one, and the elements that are drawn after it. -/
structure Frame where
  pause : Option Pause
  spots : List Spot

namespace Animation

/-- The elements of a layer, each placed by its index and itself. -/
def place (l : Layer) (spot : Nat → Element → Spot) : List Spot :=
  l.elements.zipIdx.map fun (e, i) => spot i e

/-- An element where it stands, raised by `lift`. -/
def standing (lift : Float) (i : Nat) (e : Element) : Spot :=
  ⟨i, e, e.position.x, e.position.z, e.yOffset + lift⟩

/-- The heights under the frames of a rotation: those of a rise, or zero throughout. -/
def lifts (frames : Nat) : Option Rise → List Float
  | some r => r.climbFrom 0.0 frames
  | none => List.replicate frames 0.0

def rotationFrame (l : Layer) (layerY : Float) (plan : FramePlan) (frame : Nat) (lift : Float) :
    Frame where
  pause := some (.frame plan.delay)
  spots := place l fun i e =>
    let p := e.position.rotate (Float.ofNat frame * plan.angleStep)
    ⟨i, e, p.x, p.z, e.yOffset + layerY + lift⟩

def orbitFrame (l : Layer) (layerY : Float) (plan : FramePlan) (radius speed : Float)
    (frame : Nat) : Frame where
  pause := some (.frame plan.delay)
  spots := place l fun i e =>
    let p := e.position.orbit radius speed frame
    ⟨i, e, p.x, p.z, e.yOffset + layerY⟩

/-- Ticks before each step of a rise. -/
def risePause : Pause := .ticks 3

/-- One step of a rise; the height takes the place of all vertical offsets. -/
def riseFrame (l : Layer) (height : Float) : Frame where
  pause := some risePause
  spots := place l fun i e => ⟨i, e, e.position.x, e.position.z, height⟩

/-- The elements of a layer in the order of a tour. -/
def tourSpots (l : Layer) (layerY : Float) : List Spot :=
  (Tour.order (l.elements.map Element.position)).filterMap fun i =>
    l.elements[i]?.map (standing layerY i)

/-- The frames of a layer whose vertical offset, with that of the whole script, is `layerY`. -/
def frames (a : Animation) (l : Layer) (layerY : Float) : List Frame :=
  match a with
  | rotation speed lift =>
    let plan := FramePlan.forSpeed speed
    (lifts plan.frames lift).zipIdx.map fun (h, frame) => rotationFrame l layerY plan frame h
  | orbit radius speed =>
    let plan := FramePlan.forSpeed speed
    (List.range plan.frames).map (orbitFrame l layerY plan radius speed)
  | rise r => (r.heights?.getD []).map (riseFrame l)
  | proximity _ => [⟨none, tourSpots l layerY⟩]
  | persistent => [⟨none, place l (standing layerY)⟩]
  | single => [⟨some (.ticks l.tickStart.toInt), place l (standing layerY)⟩]

/-- The form of the commands under an animation; persistent layers are made of clouds. -/
def commandKind (a : Animation) (kind : EffectKind) : CommandKind :=
  match a with
  | persistent => .cloud persistentDuration
  | _ => .ofEffect kind

/-- The delay after the command of a number, counted from one over the whole script. -/
def pauseAfter? (a : Animation) (count : Nat) : Option Pause :=
  match a with
  | proximity m => if m.isDue count then some (.ticks m.delayTicks.toInt) else none
  | _ => none

end Animation

/-- What runs on from layer to layer of a script. -/
structure Running where
  /-- The hue of the next command of a rainbow script. -/
  rainbow : Option Rainbow := none
  /-- The number of commands so far. -/
  commands : Nat := 0

/-- What the lines of one layer depend on. -/
structure Emitter where
  layer : Layer
  animation : Animation
  effect : Effect

namespace Emitter

/-- The color of a command, and what runs on after it. -/
def color (m : Emitter) (s : Running) (e : Element) : String × Running :=
  match s.rainbow with
  | some r =>
    let (color, r) := r.next
    (color, { s with rainbow := some r })
  | none => (e.effectiveColor m.layer.color, s)

/-- The command of a spot and the delay that is due after it. -/
def emitSpot (m : Emitter) (s : Running) (spot : Spot) : Except Failure (List Line × Running) :=
  if spot.isFinite then
    let (color, s) := m.color s spot.element
    let s := { s with commands := s.commands + 1 }
    let command := Line.command ⟨m.effect, color, spot.x, spot.z, spot.y⟩
    let pause := (m.animation.pauseAfter? s.commands).toList.map Line.pause
    .ok (command :: pause, s)
  else .error (.nonFiniteCoordinate m.layer.name spot.index)

def emitSpots (m : Emitter) (s : Running) : List Spot → Except Failure (List Line × Running)
  | [] => .ok ([], s)
  | spot :: rest =>
    match m.emitSpot s spot with
    | .error why => .error why
    | .ok (lines, s) =>
      match emitSpots m s rest with
      | .error why => .error why
      | .ok (more, s) => .ok (lines ++ more, s)

/-- The lines of a frame: its delay, then its spots. -/
def emitFrame (m : Emitter) (s : Running) (f : Frame) : Except Failure (List Line × Running) :=
  (m.emitSpots s f.spots).map fun (lines, s) => (f.pause.toList.map Line.pause ++ lines, s)

def emitFrames (m : Emitter) (s : Running) : List Frame → Except Failure (List Line × Running)
  | [] => .ok ([], s)
  | f :: rest =>
    match m.emitFrame s f with
    | .error why => .error why
    | .ok (lines, s) =>
      match emitFrames m s rest with
      | .error why => .error why
      | .ok (more, s) => .ok (lines ++ more, s)

end Emitter

/-- The block of a layer: its name, then its frames. -/
def emitLayer (o : Options) (l : Layer) (s : Running) : Except Failure (List Line × Running) :=
  let animation := o.modes.animation
  let effect := Effect.ofLayer l (animation.commandKind o.effectKind)
  let frames := animation.frames l (l.yOffset + o.globalYOffset)
  (Emitter.emitFrames ⟨l, animation, effect⟩ s frames).map fun (lines, s) =>
    (.comment l.name :: lines, s)

end ParticleScene
