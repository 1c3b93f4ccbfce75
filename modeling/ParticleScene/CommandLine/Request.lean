import ParticleScene.CommandLine.Arguments
import ParticleScene.Number.Reader
import ParticleScene.Script.Options

/-!
# Requests

What a command line asks for. Each command word has a form: how many positional arguments it
takes, which options it knows, and the request they add up to.
-/

namespace ParticleScene.CommandLine

/-- Options of a compilation that the command line sets over those of a settings file. -/
structure Overrides where
  /-- The settings file. -/
  config : Option String := none
  skillName : Option String := none
  rotateSpeed : Option Float := none
  orbitSpeed : Option Float := none
  orbitRadius : Option Float := none
  riseSpeed : Option Float := none
  riseLimit : Option Float := none
  proximityStep : Option Int64 := none
  proximityDelay : Option Int64 := none
  persistent : Bool := false
  rainbow : Bool := false
  performance : Bool := false
  clouds : Bool := false
  yOffset : Option Float := none
  deriving Repr

namespace Overrides

/-- The rotation: a speed switches it on. -/
def rotate (v : Overrides) (m : RotateMode) : RotateMode :=
  match v.rotateSpeed with
  | some speed => { enabled := true, speed }
  | none => m

/-- The orbit: a speed switches it on, a radius alone does not. -/
def orbit (v : Overrides) (m : OrbitMode) : OrbitMode where
  enabled := m.enabled || v.orbitSpeed.isSome
  speed := v.orbitSpeed.getD m.speed
  radius := v.orbitRadius.getD m.radius

/-- The rise: a speed or a limit switches it on. -/
def rise (v : Overrides) (m : RiseMode) : RiseMode where
  enabled := m.enabled || v.riseSpeed.isSome || v.riseLimit.isSome
  speed := v.riseSpeed.getD m.speed
  limit := v.riseLimit.getD m.limit

/-- The order by proximity: a step or a delay switches it on. -/
def proximity (v : Overrides) (m : ProximityMode) : ProximityMode where
  enabled := m.enabled || v.proximityStep.isSome || v.proximityDelay.isSome
  step := v.proximityStep.getD m.step
  delayTicks := v.proximityDelay.getD m.delayTicks

def apply (v : Overrides) (o : Options) : Options where
  skillName := v.skillName.getD o.skillName
  effectKind := if v.clouds then .clouds else o.effectKind
  globalYOffset := v.yOffset.getD o.globalYOffset
  modes :=
    { rotate := v.rotate o.modes.rotate
      orbit := v.orbit o.modes.orbit
      rise := v.rise o.modes.rise
      proximity := v.proximity o.modes.proximity
      persistent := o.modes.persistent || v.persistent
      rainbow := o.modes.rainbow || v.rainbow
      performance := o.modes.performance || v.performance }

end Overrides

/-- What a command line asks for. -/
inductive Request where
  /-- Make a scene with one empty layer. -/
  | create (scene : String)
  /-- List the layers. -/
  | info (scene : String)
  /-- Compile a scene to a file or to the terminal. A strict compilation fails if a layer has
  to be left out. -/
  | compile (scene : String) (overrides : Overrides) (output : Option String) (strict : Bool)
  /-- Add the vertices of a mesh to a layer. -/
  | importMesh (scene mesh : String) (layer : Nat) (scale : Float) (sparse : Bool)
  /-- Put the samples of a picture in the place of a layer's elements. -/
  | importPicture (scene picture : String) (layer : Nat) (size : Nat) (realColor sparse : Bool)
  /-- Write the points of a scene to a file or to the terminal. -/
  | preview (scene : String) (output : Option String)

/-! ### Values -/

/-- A path, which is not empty. -/
def path? (text : String) : Option String :=
  if text.isEmpty then none else some text

/-- Any text. -/
def text? (text : String) : Option String := some text

/-- A size of at most 32 bits; it is read as a signed number. -/
def size? (text : String) : Option Nat :=
  (Number.int64? text).bind fun n =>
    if 0 ≤ n.toInt ∧ n.toInt < UInt32.size then some n.toInt.toNat else none

/-! ### Forms -/

/-- What may follow a command word. -/
structure Form where
  positionals : Nat
  parameters : List Parameter
  /-- The request, unless a value cannot be read. -/
  request? : Given → Option Request

def verboseFlag : Parameter where
  name := "verbose"
  letter? := some 'v'

def outputOption : Parameter where
  name := "output"
  kind := .value
  letter? := some 'o'

def layerOption : Parameter where
  name := "layer"
  kind := .value
  letter? := some 'l'

def scenePath? (g : Given) : Option String :=
  g.positionals[0]?.bind path?

def sourcePath? (g : Given) : Option String :=
  g.positionals[1]?.bind path?

def overrideParameters : List Parameter :=
  [⟨"config", .value, none⟩, ⟨"skill-name", .value, none⟩, ⟨"rotate", .value, none⟩,
   ⟨"local-rotate", .value, none⟩, ⟨"radius", .value, none⟩, ⟨"rise-speed", .value, none⟩,
   ⟨"rise-limit", .value, none⟩, ⟨"proximity-step", .value, none⟩,
   ⟨"proximity-delay", .value, none⟩, ⟨"persistent", .flag, none⟩, ⟨"rainbow", .flag, none⟩,
   ⟨"performance", .flag, none⟩, ⟨"clouds", .flag, none⟩, ⟨"y-offset", .anyValue, none⟩]

/-- The settings that are given. A radius needs the speed of the orbit beside it. -/
def Overrides.ofGiven? (g : Given) : Option Overrides := do
  let v : Overrides :=
    { config := ← g.read? path? "config"
      skillName := ← g.read? text? "skill-name"
      rotateSpeed := ← g.read? Number.float? "rotate"
      orbitSpeed := ← g.read? Number.float? "local-rotate"
      orbitRadius := ← g.read? Number.float? "radius"
      riseSpeed := ← g.read? Number.float? "rise-speed"
      riseLimit := ← g.read? Number.float? "rise-limit"
      proximityStep := ← g.read? Number.int64? "proximity-step"
      proximityDelay := ← g.read? Number.int64? "proximity-delay"
      persistent := g.flag "persistent"
      rainbow := g.flag "rainbow"
      performance := g.flag "performance"
      clouds := g.flag "clouds"
      yOffset := ← g.read? Number.float? "y-offset" }
  if v.orbitRadius.isSome && v.orbitSpeed.isNone then none else some v

def createForm : Form where
  positionals := 1
  parameters := []
  request? g := return .create (← scenePath? g)

def infoForm : Form where
  positionals := 1
  parameters := []
  request? g := return .info (← scenePath? g)

def compileForm : Form where
  positionals := 1
  parameters := overrideParameters ++ [outputOption, ⟨"strict", .flag, none⟩]
  request? g := do
    let scene ← scenePath? g
    let overrides ← Overrides.ofGiven? g
    let output ← g.read? path? "output"
    return .compile scene overrides output (g.flag "strict")

def meshForm : Form where
  positionals := 2
  parameters := [layerOption, ⟨"scale", .value, none⟩, ⟨"performance", .flag, none⟩]
  request? g := do
    let scene ← scenePath? g
    let mesh ← sourcePath? g
    let layer ← g.read? Number.count? "layer"
    let scale ← g.read? Number.float? "scale"
    return .importMesh scene mesh (layer.getD 0) (scale.getD 1.0) (g.flag "performance")

def pictureForm : Form where
  positionals := 2
  parameters :=
    [layerOption, ⟨"size", .value, none⟩, ⟨"real-color", .flag, none⟩,
     ⟨"performance", .flag, none⟩]
  request? g := do
    let scene ← scenePath? g
    let picture ← sourcePath? g
    let layer ← g.read? Number.count? "layer"
    let size ← g.read? size? "size"
    return .importPicture scene picture (layer.getD 0) (size.getD 20) (g.flag "real-color")
      (g.flag "performance")

def previewForm : Form where
  positionals := 1
  parameters := [outputOption]
  request? g := do
    let scene ← scenePath? g
    let output ← g.read? path? "output"
    return .preview scene output

def form? : String → Option Form
  | "new" => some createForm
  | "info" => some infoForm
  | "compile" => some compileForm
  | "import-obj" => some meshForm
  | "import-image" => some pictureForm
  | "preview" => some previewForm
  | _ => none

/-! ### Whole command lines -/

/-- What the program is called for. -/
inductive Call where
  /-- Show what the program is. -/
  | banner
  /-- Show the version. -/
  | version
  /-- The arguments are refused. -/
  | usage
  | request (verbose : Bool) (r : Request)

namespace Call

/-- Read the arguments behind a command word; `verbose` says whether the flag stood before. -/
def ofForm (verbose : Bool) (f : Form) (tokens : List String) : Call :=
  let request? := do
    let g ← scan? (verboseFlag :: f.parameters) f.positionals tokens
    let r ← f.request? g
    return request (verbose || g.flag verboseFlag.name) r
  request?.getD usage

/-- Letters before the command word. The version is shown at once. -/
def letters (verbose : Bool) : List Char → Except Call Bool
  | [] => .ok verbose
  | 'v' :: rest => if verbose then .error usage else letters true rest
  | 'V' :: _ => .error version
  | _ => .error usage

/-- An argument before the command word: whether the program is verbose now, or what it is
called for. -/
def option (verbose : Bool) (token : String) : Except Call Bool :=
  if token = "--verbose" then letters verbose ['v']
  else if token = "--version" then letters verbose ['V']
  else
    match token.toList with
    | '-' :: '-' :: _ => .error usage
    | '-' :: c :: rest => letters verbose (c :: rest)
    | _ => .error usage

/-- Read arguments up to the command word, and what follows by its form. -/
def read (verbose : Bool) : List String → Call
  | [] => banner
  | token :: rest =>
    if token = "--" then if rest.isEmpty then banner else usage
    else
      match form? token with
      | some f => ofForm verbose f rest
      | none =>
        match option verbose token with
        | .ok verbose => read verbose rest
        | .error call => call

def ofArguments (tokens : List String) : Call :=
  read false tokens

end Call

end ParticleScene.CommandLine
