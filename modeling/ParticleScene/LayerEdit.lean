import ParticleScene.Layer
import ParticleScene.Number.Reader

/-!
# Layer edits

An edit sets one field of a layer. Edits come typed, or from the raw text of an input field: a
text that does not parse as a value of the field keeps the value that the layer has.
-/

namespace ParticleScene

/-- The change of one field. The color of a layer is no such field, because its elements take
it over. -/
inductive LayerEdit where
  | name (value : String)
  | visible (value : Bool)
  | tickStart (value : Int64)
  | tickEnd (value : Int64)
  | tickDelay (value : Int64)
  | particle (value : String)
  | alpha (value : Float)
  | shapeSize (value : Float)
  | repeatCount (value : UInt32)
  | repeatInterval (value : UInt32)
  | yOffset (value : Float)
  | targeter (value : Targeter)

namespace LayerEdit

/-- The value that a text spells, or the last value. -/
def readOr {α : Type} (read? : String → Option α) (raw : String) (last : α) : α :=
  (read? (Text.trim raw)).getD last

/-- A finite float that a text spells. -/
def finite? (s : String) : Option Float :=
  (Number.float? s).filter Float.isFinite

/-- The edit that a raw text asks for on a named field; nothing for an unknown field. -/
def ofInput? (field raw : String) (l : Layer) : Option LayerEdit :=
  match field with
  | "name" => some (.name raw)
  | "visible" => some (.visible (readOr Number.bool? raw l.visible))
  | "tick_start" => some (.tickStart (readOr Number.int64? raw l.tickStart))
  | "tick_end" => some (.tickEnd (readOr Number.int64? raw l.tickEnd))
  | "tick_delay" => some (.tickDelay (readOr Number.int64? raw l.tickDelay))
  | "particle" => some (.particle (Text.trim raw))
  | "alpha" => some (.alpha (readOr finite? raw l.alpha))
  | "shape_size" => some (.shapeSize (readOr finite? raw l.shapeSize))
  | "repeat" => some (.repeatCount (readOr Number.uint32? raw l.repeatCount))
  | "repeat_interval" => some (.repeatInterval (readOr Number.uint32? raw l.repeatInterval))
  | "y_offset" => some (.yOffset (readOr finite? raw l.yOffset))
  | "targeter" => some (.targeter (.parse raw))
  | _ => none

def field : LayerEdit → String
  | name _ => "name"
  | visible _ => "visible"
  | tickStart _ => "tick_start"
  | tickEnd _ => "tick_end"
  | tickDelay _ => "tick_delay"
  | particle _ => "particle"
  | alpha _ => "alpha"
  | shapeSize _ => "shape_size"
  | repeatCount _ => "repeat"
  | repeatInterval _ => "repeat_interval"
  | yOffset _ => "y_offset"
  | targeter _ => "targeter"

def set (l : Layer) : LayerEdit → Layer
  | name v => { l with name := v }
  | visible v => { l with visible := v }
  | tickStart v => { l with tickStart := v }
  | tickEnd v => { l with tickEnd := v }
  | tickDelay v => { l with tickDelay := v }
  | particle v => { l with particle := v }
  | alpha v => { l with alpha := v }
  | shapeSize v => { l with shapeSize := v }
  | repeatCount v => { l with repeatCount := v }
  | repeatInterval v => { l with repeatInterval := v }
  | yOffset v => { l with yOffset := v }
  | targeter v => { l with targeter := v }

/-- Write the value and bring the layer into range. -/
def apply (e : LayerEdit) (l : Layer) : Layer :=
  (e.set l).normalize

end LayerEdit

end ParticleScene
