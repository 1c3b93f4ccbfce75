import ParticleScene.Json.Basic
import ParticleScene.Text.Digits

/-!
# Printed JSON

The compact text of a tree, and the indented text that document and settings files hold.
-/

namespace ParticleScene.Json

open Text

/-- A character inside a string literal. Quotes, backslashes and control characters are
escaped, with a short form where one exists. -/
def escape (c : Char) : List Char :=
  if c = '"' then ['\\', '"']
  else if c = '\\' then ['\\', '\\']
  else if c = '\n' then ['\\', 'n']
  else if c = '\r' then ['\\', 'r']
  else if c = '\t' then ['\\', 't']
  else if c = '\x08' then ['\\', 'b']
  else if c = '\x0c' then ['\\', 'f']
  else if c.toNat < 32 then ['\\', 'u', '0', '0', hexDigit (c.toNat / 16), hexDigit (c.toNat % 16)]
  else [c]

def quote (s : String) : String :=
  String.ofList ('"' :: s.toList.flatMap escape ++ ['"'])

/-- How the parts of a tree are set apart. -/
structure Layout where
  /-- What stands before an item or a closing bracket at a depth. -/
  newline : Nat → String
  /-- What stands between a key and its value. -/
  colon : String

def Layout.compact : Layout where
  newline _ := ""
  colon := ":"

/-- One item a line, two blanks deeper at each level. -/
def Layout.indented : Layout where
  newline depth := "\n".pushn ' ' (2 * depth)
  colon := ": "

/-- Items between brackets; nothing stands between the brackets of an empty list. -/
def Layout.bracket (layout : Layout) (depth : Nat) (left right : String)
    (items : List String) : String :=
  match items with
  | [] => left ++ right
  | items =>
    left ++ String.intercalate "," (items.map (layout.newline (depth + 1) ++ ·)) ++
      layout.newline depth ++ right

mutual

def print (layout : Layout) (depth : Nat) : Json → String
  | .null => "null"
  | .bool true => "true"
  | .bool false => "false"
  | .number n => n.text
  | .string s => quote s
  | .garbled => "null"
  | .array items => layout.bracket depth "[" "]" (printItems layout (depth + 1) items)
  | .object members =>
    layout.bracket depth "\x7b" "\x7d" (printMembers layout (depth + 1) members)

def printItems (layout : Layout) (depth : Nat) : List Json → List String
  | [] => []
  | item :: rest => print layout depth item :: printItems layout depth rest

def printMembers (layout : Layout) (depth : Nat) : List (String × Json) → List String
  | [] => []
  | (key, value) :: rest =>
    (quote key ++ layout.colon ++ print layout depth value) :: printMembers layout depth rest

end

def compact (j : Json) : String :=
  print .compact 0 j

def indented (j : Json) : String :=
  print .indented 0 j

end ParticleScene.Json
