import ParticleScene.Failure

/-!
# History

A history is a bounded list of snapshots with a cursor at the current one. Undo and redo move
the cursor; recording a snapshot drops what lies ahead of it.
-/

namespace ParticleScene

/-- What made a snapshot. -/
inductive Action where
  | initial
  | layerChange
  | layerEdit
  | elementChange
  | imported
  | load
  deriving Repr, DecidableEq

def Action.label : Action → String
  | initial => "Initial"
  | layerChange => "Layer Change"
  | layerEdit => "Layer Edit"
  | elementChange => "Element Change"
  | imported => "Import"
  | load => "Load"

/-- A snapshot with the action that made it. -/
structure Entry (α : Type) where
  action : Action
  description : String
  snapshot : α

/-- Snapshots, oldest first, and the place of the current one. -/
structure History (α : Type) where
  entries : List (Entry α)
  cursor : Nat
  limit : Nat
  /-- How many snapshots were given up to stay within the limit, or by a reset. -/
  discarded : Nat

namespace History

variable {α : Type}

def defaultLimit : Nat := 50

/-- A history that starts with one snapshot. A limit of zero counts as one. -/
def start (limit : Nat) (snapshot : α) : History α where
  entries := [⟨.initial, "Initial state", snapshot⟩]
  cursor := 0
  limit := max limit 1
  discarded := 0

/-- Give up one snapshot: the oldest while one lies behind the cursor, else the newest. -/
def dropOne (h : History α) : History α :=
  if 0 < h.cursor then
    { h with entries := h.entries.drop 1, cursor := h.cursor - 1, discarded := h.discarded + 1 }
  else { h with entries := h.entries.dropLast, discarded := h.discarded + 1 }

/-- Give up snapshots until the limit is kept. -/
def trim (h : History α) : History α :=
  Nat.repeat dropOne (h.entries.length - h.limit) h

/-- Record a snapshot behind the current one. -/
def push (h : History α) (action : Action) (description : String) (snapshot : α) : History α :=
  let entries := h.entries.take (h.cursor + 1) ++ [⟨action, description, snapshot⟩]
  trim { h with entries, cursor := entries.length - 1 }

/-- The snapshot at the cursor. -/
def current? (h : History α) : Option (Entry α) :=
  h.entries[h.cursor]?

def canUndo (h : History α) : Bool :=
  0 < h.cursor

def canRedo (h : History α) : Bool :=
  h.cursor + 1 < h.entries.length

def undoCount (h : History α) : Nat :=
  h.cursor

def redoCount (h : History α) : Nat :=
  h.entries.length - 1 - h.cursor

/-- Move the cursor to a place, and the entry there. -/
def goTo (h : History α) (place : Nat) (otherwise : Failure) :
    Except Failure (Entry α × History α) :=
  match h.entries[place]? with
  | some e => .ok (e, { h with cursor := place })
  | none => .error otherwise

def undo (h : History α) : Except Failure (Entry α × History α) :=
  if h.cursor = 0 then .error .nothingToUndo else h.goTo (h.cursor - 1) .nothingToUndo

def redo (h : History α) : Except Failure (Entry α × History α) :=
  h.goTo (h.cursor + 1) .nothingToRedo

/-- Set the limit and keep it. A limit of zero counts as one. -/
def setLimit (h : History α) (limit : Nat) : History α :=
  trim { h with limit := max limit 1 }

/-- Give up everything and start again from a snapshot. -/
def reset (h : History α) (action : Action) (description : String) (snapshot : α) : History α :=
  { h with
    entries := [⟨action, description, snapshot⟩]
    cursor := 0
    discarded := h.discarded + h.entries.length }

end History

end ParticleScene
