import ParticleScene.Text.Split

/-!
# Arguments

How the arguments behind a command word are taken apart: into flags, options with values, and
positional arguments. Any fault refuses all of them.
-/

namespace ParticleScene.CommandLine

open Text

/-- What stands behind the name of an option. -/
inductive ParameterKind where
  /-- Nothing. -/
  | flag
  /-- A value, which starts with a minus sign only if it is attached. -/
  | value
  /-- A value, whatever it starts with. -/
  | anyValue
  deriving Repr, DecidableEq

/-- An option that a command knows. -/
structure Parameter where
  /-- The name behind two minus signs. -/
  name : String
  kind : ParameterKind := .flag
  /-- The letter behind one minus sign. -/
  letter? : Option Char := none
  deriving Repr, DecidableEq

/-- Whether a token, as an argument of its own, can be the value of the option. -/
def Parameter.admits (p : Parameter) (token : String) : Bool :=
  match p.kind, token.toList with
  | .flag, _ => false
  | .anyValue, _ => true
  | .value, '-' :: _ :: _ => false
  | .value, _ => true

/-- Arguments that were taken apart. -/
structure Given where
  flags : List String := []
  values : List (String × String) := []
  positionals : List String := []
  deriving Repr, DecidableEq

namespace Given

def flag (g : Given) (name : String) : Bool :=
  g.flags.contains name

def value? (g : Given) (name : String) : Option String :=
  (g.values.find? fun (n, _) => n = name).map (·.2)

def mentions (g : Given) (name : String) : Bool :=
  g.flag name || (g.value? name).isSome

/-- Add a flag, which may be given once. -/
def addFlag (g : Given) (name : String) : Option Given :=
  if g.mentions name then none else some { g with flags := g.flags ++ [name] }

/-- Add an option with its value; it may be given once. -/
def addValue (g : Given) (name value : String) : Option Given :=
  if g.mentions name then none else some { g with values := g.values ++ [(name, value)] }

def addPositional (g : Given) (token : String) : Given :=
  { g with positionals := g.positionals ++ [token] }

/-- Read the value of an option that may be missing; nothing if the value cannot be read. -/
def read? {α : Type} (read : String → Option α) (g : Given) (name : String) :
    Option (Option α) :=
  match g.value? name with
  | none => some none
  | some text => (read text).map some

end Given

/-- The state between two arguments. -/
structure Scan where
  given : Given := {}
  /-- The option whose value comes next. -/
  waiting? : Option Parameter := none
  /-- Whether all that follows is positional. -/
  literal : Bool := false

namespace Scan

/-- An option by its name, with the value attached to it. -/
def long (ps : List Parameter) (s : Scan) (text : List Char) : Option Scan := do
  let (name, attached?) := match cutAt? '=' text with
    | some (name, value) => (name, some (String.ofList value))
    | none => (text, none)
  let p ← ps.find? fun p => p.name = String.ofList name
  match p.kind, attached? with
  | .flag, none => return { s with given := ← s.given.addFlag p.name }
  | .flag, some _ => none
  | _, some value => return { s with given := ← s.given.addValue p.name value }
  | _, none => return { s with waiting? := some p }

/-- Options by their letters. What follows the letter of an option with a value is the value;
an equals sign may stand between. -/
def letters (ps : List Parameter) (s : Scan) : List Char → Option Scan
  | [] => some s
  | c :: rest => do
    let p ← ps.find? fun p => p.letter? = some c
    match p.kind, rest with
    | .flag, _ =>
      let given ← s.given.addFlag p.name
      letters ps { s with given } rest
    | _, [] => return { s with waiting? := some p }
    | _, '=' :: value => return { s with given := ← s.given.addValue p.name (String.ofList value) }
    | _, value => return { s with given := ← s.given.addValue p.name (String.ofList value) }

def step (ps : List Parameter) (s : Scan) (token : String) : Option Scan :=
  match s.waiting? with
  | some p =>
    if p.admits token then do
      return { s with given := ← s.given.addValue p.name token, waiting? := none }
    else none
  | none =>
    if s.literal then some { s with given := s.given.addPositional token }
    else
      match token.toList with
      | ['-', '-'] => some { s with literal := true }
      | '-' :: '-' :: text => s.long ps text
      | '-' :: c :: text => s.letters ps (c :: text)
      | _ => some { s with given := s.given.addPositional token }

end Scan

/-- Take arguments apart that have to hold a number of positional ones. -/
def scan? (ps : List Parameter) (positionals : Nat) (tokens : List String) : Option Given := do
  let s ← tokens.foldlM (Scan.step ps) {}
  if s.waiting?.isNone && s.given.positionals.length = positionals then some s.given else none

end ParticleScene.CommandLine
