import ParticleScene.Text.Blank
import ParticleScene.Text.Split

/-!
# Targeters

A targeter names the anchor that the offsets of commands are relative to: a name, and possibly
parameters in braces, each a key and a value. Every text is a targeter; one without a closed
block of parameters is a bare name.
-/

namespace ParticleScene

open Text

/-- An anchor with its parameters in the order in which their keys first appeared. -/
structure Targeter where
  name : String
  params : List (String × String) := []
  deriving Repr, DecidableEq

namespace Targeter

def defaultName : String := "Origin"

/-- A bare name without blanks around it; a blank name is the default one. -/
def named (name : String) : Targeter :=
  ⟨if (trim name).isEmpty then defaultName else trim name, []⟩

/-- Set the value of a key: in its place if the key is there, at the end if not. -/
def putParam (key value : String) : List (String × String) → List (String × String)
  | [] => [(key, value)]
  | (k, v) :: rest => if k = key then (k, value) :: rest else (k, v) :: putParam key value rest

def withParam (t : Targeter) (key value : String) : Targeter :=
  { t with params := putParam key value t.params }

/-- Key and value of a parameter text; without an equals sign all of it is the key. -/
def readParam (text : List Char) : String × String :=
  match cutAt? '=' text with
  | some (key, value) => (String.ofList (trimChars key), String.ofList (trimChars value))
  | none => (String.ofList (trimChars text), "")

/-- The parameters of a block, without the blank ones. -/
def readParams (body : List Char) : List (String × String) :=
  ((splitOn ';' body).filter fun part => !part.all isBlank).map readParam

/-- Name and parameter block of a text that has an opening brace and ends in a closing one. -/
def splitBlock? (text : List Char) : Option (List Char × List Char) := do
  let (name, rest) ← cutAt? '\x7b' text
  if rest.getLast? = some '\x7d' then some (name, rest.dropLast) else none

def parse (text : String) : Targeter :=
  match splitBlock? (trimChars text.toList) with
  | none => named text
  | some (name, body) =>
    (readParams body).foldl (fun t (key, value) => t.withParam key value)
      (named (String.ofList name))

def paramText (param : String × String) : String :=
  param.1 ++ "=" ++ param.2

def text (t : Targeter) : String :=
  if t.params.isEmpty then t.name
  else t.name ++ "\x7b" ++ String.intercalate ";" (t.params.map paramText) ++ "\x7d"

def origin : Targeter := named defaultName

end Targeter

end ParticleScene
