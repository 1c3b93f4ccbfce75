import ParticleScene.Geometry.Motion
import ParticleScene.Json.Printer
import ParticleScene.Json.Reader
import ParticleScene.Json.Record
import ParticleScene.Failure
import ParticleScene.Text.Blank

/-!
# Script options

What a compilation needs besides the layers: the name of the skill, the kind of commands, a
vertical offset for everything, and the modes. Options are kept in settings files; a field that
is missing there, at any level, has its default value.
-/

namespace ParticleScene

/-- The kind of commands that a script is made of. -/
inductive EffectKind where
  | particles
  | clouds
  deriving Repr, DecidableEq

/-- Rotation of whole layers about the origin. -/
structure RotateMode where
  enabled : Bool := false
  speed : Float := 2.0
  deriving Repr

/-- Elements that orbit about their own positions. -/
structure OrbitMode where
  enabled : Bool := false
  radius : Float := 0.4
  /-- Degrees of phase per frame. -/
  speed : Float := 1.0
  deriving Repr

/-- A rise, on its own or on top of a rotation. -/
structure RiseMode where
  enabled : Bool := false
  speed : Float := 0.1
  limit : Float := 10.0
  deriving Repr

/-- Elements in the order of a tour, with a delay now and then. -/
structure ProximityMode where
  enabled : Bool := false
  /-- Commands from one delay to the next; none when it is not positive. -/
  step : Int64 := 5
  /-- Length of a delay; none when it is not positive. -/
  delayTicks : Int64 := 5
  deriving Repr

/-- All modes. Several animations may be switched on at once; one of them counts. -/
structure Modes where
  rotate : RotateMode := {}
  orbit : OrbitMode := {}
  rise : RiseMode := {}
  proximity : ProximityMode := {}
  persistent : Bool := false
  rainbow : Bool := false
  performance : Bool := false
  deriving Repr

/-- Options of one compilation. -/
structure Options where
  skillName : String := "MySkill"
  effectKind : EffectKind := .particles
  globalYOffset : Float := 0.0
  modes : Modes := {}
  deriving Repr

def RiseMode.rise (m : RiseMode) : Rise :=
  ⟨m.speed, m.limit⟩

/-- Whether the rise is switched on and can run. -/
def RiseMode.isActive (m : RiseMode) : Bool :=
  m.enabled && m.rise.isValid

/-- Whether a delay follows the command of a number, counted from one. -/
def ProximityMode.isDue (m : ProximityMode) (count : Nat) : Bool :=
  0 < m.step && 0 < m.delayTicks && count % m.step.toInt.toNat = 0

/-- The one animation that a compilation applies to every layer. -/
inductive Animation where
  | rotation (speed : Float) (lift : Option Rise)
  | orbit (radius speed : Float)
  | rise (rise : Rise)
  | proximity (mode : ProximityMode)
  | persistent
  | single

namespace Modes

def activeRise? (m : Modes) : Option Rise :=
  if m.rise.isActive then some m.rise.rise else none

/-- The animation that counts: rotation before orbit before rise before proximity before
persistence. A rise that cannot run counts as switched off. -/
def animation (m : Modes) : Animation :=
  if m.rotate.enabled then .rotation m.rotate.speed m.activeRise?
  else if m.orbit.enabled then .orbit m.orbit.radius m.orbit.speed
  else match m.activeRise? with
    | some r => .rise r
    | none =>
      if m.proximity.enabled then .proximity m.proximity
      else if m.persistent then .persistent
      else .single

/-- Whether a rise is switched on that cannot run. -/
def isRiseDisabled (m : Modes) : Bool :=
  m.rise.enabled && !m.rise.isActive

end Modes

namespace Options

/-- The name of the skill without blanks around it; a blank name is the default one. -/
def resolvedSkillName (o : Options) : String :=
  let name := Text.trim o.skillName
  if name.isEmpty then "MySkill" else name

end Options

/-! ### Options and JSON -/

open Json (FloatReader)

def EffectKind.word : EffectKind → String
  | particles => "particles"
  | clouds => "clouds"

def EffectKind.ofWord? : String → Option EffectKind
  | "particles" => some particles
  | "clouds" => some clouds
  | _ => none

/-- Read a kind of commands: its word, or an object with the word as its only key and null as
the value. -/
def EffectKind.ofJson? : Json → Option EffectKind
  | .string word => ofWord? word
  | .object [(word, .null)] => ofWord? word
  | _ => none

namespace RotateMode

/-- Read the mode; missing fields have their defaults. -/
def ofJson? (reader : FloatReader) (j : Json) : Option RotateMode :=
  match j.fields? ["enabled", "speed"] with
  | some [enabled, speed] => do
    let enabled ← Json.orDefault false Json.bool? enabled
    let speed ← Json.orDefault 2.0 (Json.float? reader) speed
    some { enabled, speed }
  | _ => none

def toJson (m : RotateMode) : Json :=
  .object [("enabled", .bool m.enabled), ("speed", .ofFloat m.speed)]

end RotateMode

namespace OrbitMode

/-- Read the mode; missing fields have their defaults. -/
def ofJson? (reader : FloatReader) (j : Json) : Option OrbitMode :=
  match j.fields? ["enabled", "radius", "speed"] with
  | some [enabled, radius, speed] => do
    let enabled ← Json.orDefault false Json.bool? enabled
    let radius ← Json.orDefault 0.4 (Json.float? reader) radius
    let speed ← Json.orDefault 1.0 (Json.float? reader) speed
    some { enabled, radius, speed }
  | _ => none

def toJson (m : OrbitMode) : Json :=
  .object
    [("enabled", .bool m.enabled), ("radius", .ofFloat m.radius), ("speed", .ofFloat m.speed)]

end OrbitMode

namespace RiseMode

/-- Read the mode; missing fields have their defaults. -/
def ofJson? (reader : FloatReader) (j : Json) : Option RiseMode :=
  match j.fields? ["enabled", "speed", "limit"] with
  | some [enabled, speed, limit] => do
    let enabled ← Json.orDefault false Json.bool? enabled
    let speed ← Json.orDefault 0.1 (Json.float? reader) speed
    let limit ← Json.orDefault 10.0 (Json.float? reader) limit
    some { enabled, speed, limit }
  | _ => none

def toJson (m : RiseMode) : Json :=
  .object
    [("enabled", .bool m.enabled), ("speed", .ofFloat m.speed), ("limit", .ofFloat m.limit)]

end RiseMode

namespace ProximityMode

/-- Read the mode; missing fields have their defaults. -/
def ofJson? (j : Json) : Option ProximityMode :=
  match j.fields? ["enabled", "step", "delay_ticks"] with
  | some [enabled, step, delayTicks] => do
    let enabled ← Json.orDefault false Json.bool? enabled
    let step ← Json.orDefault 5 Json.int64? step
    let delayTicks ← Json.orDefault 5 Json.int64? delayTicks
    some { enabled, step, delayTicks }
  | _ => none

def toJson (m : ProximityMode) : Json :=
  .object
    [("enabled", .bool m.enabled), ("step", .ofInt m.step.toInt),
     ("delay_ticks", .ofInt m.delayTicks.toInt)]

end ProximityMode

namespace Modes

def keys : List String :=
  ["rotate", "local_rotate", "rise", "proximity", "persistent", "rainbow", "performance"]

/-- Read the modes; missing fields have their defaults. -/
def ofJson? (reader : FloatReader) (j : Json) : Option Modes :=
  match j.fields? keys with
  | some [rotate, orbit, rise, proximity, persistent, rainbow, performance] => do
    let rotate ← Json.orDefault {} (RotateMode.ofJson? reader) rotate
    let orbit ← Json.orDefault {} (OrbitMode.ofJson? reader) orbit
    let rise ← Json.orDefault {} (RiseMode.ofJson? reader) rise
    let proximity ← Json.orDefault {} ProximityMode.ofJson? proximity
    let persistent ← Json.orDefault false Json.bool? persistent
    let rainbow ← Json.orDefault false Json.bool? rainbow
    let performance ← Json.orDefault false Json.bool? performance
    some { rotate, orbit, rise, proximity, persistent, rainbow, performance }
  | _ => none

def toJson (m : Modes) : Json :=
  .object
    [("rotate", m.rotate.toJson), ("local_rotate", m.orbit.toJson), ("rise", m.rise.toJson),
     ("proximity", m.proximity.toJson), ("persistent", .bool m.persistent),
     ("rainbow", .bool m.rainbow), ("performance", .bool m.performance)]

end Modes

namespace Options

def keys : List String :=
  ["skill_name", "effect_kind", "global_y_offset", "modes"]

/-- Read options from a tree; missing fields have their defaults. -/
def ofJson? (reader : FloatReader) (j : Json) : Option Options :=
  match j.fields? keys with
  | some [skillName, effectKind, globalYOffset, modes] => do
    let skillName ← Json.orDefault "MySkill" Json.string? skillName
    let effectKind ← Json.orDefault .particles EffectKind.ofJson? effectKind
    let globalYOffset ← Json.orDefault 0.0 (Json.float? reader) globalYOffset
    let modes ← Json.orDefault {} (Modes.ofJson? reader) modes
    some { skillName, effectKind, globalYOffset, modes }
  | _ => none

def toJson (o : Options) : Json :=
  .object
    [("skill_name", .string o.skillName), ("effect_kind", .string o.effectKind.word),
     ("global_y_offset", .ofFloat o.globalYOffset), ("modes", o.modes.toJson)]

/-- Read options from the characters of a settings file. -/
def ofSource (reader : FloatReader) (s : Json.Source) : Except Failure Options :=
  match (Json.ofSource? s).bind (ofJson? reader) with
  | some o => .ok o
  | none => .error .malformedJson

def ofText (reader : FloatReader) (text : String) : Except Failure Options :=
  ofSource reader (text.toList.map some)

def text (o : Options) : String :=
  o.toJson.indented

end Options

end ParticleScene
