import ParticleScene.Layer

/-!
# Element sources

A source produces the elements that an import puts into a layer: a drawing tool, a mesh, an
image.
-/

namespace ParticleScene

/-- Whether imported elements follow the old ones or take their place. -/
inductive ImportMode where
  | append
  | replace
  deriving Repr, DecidableEq

/-- A layer with imported elements. -/
def Layer.merge (l : Layer) (mode : ImportMode) (es : List Element) : Layer :=
  match mode with
  | .append => { l with elements := l.elements ++ es }
  | .replace => { l with elements := es }

/-- What became of a source that was asked for elements. -/
inductive Production where
  | elements (es : List Element)
  | refused (why : Failure)
  /-- The source stopped without an answer. -/
  | crashed

/-- The elements, or the failure that the one who asked sees. -/
def Production.outcome : Production → Except Failure (List Element)
  | elements es => .ok es
  | refused why => .error why
  | crashed => .error .workerStopped

/-- Something that produces elements for a layer. Only the production may stop without an answer.
The mode and the description are data, so it cannot be said here that a source stops when it is
asked for one of them. -/
structure Source where
  produce : Layer → Production
  mode : ImportMode := .append
  /-- The text of the history entry. -/
  description : String := "Add elements"

namespace Source

def ofElements (es : List Element) (mode : ImportMode := .append) : Source where
  produce _ := .elements es
  mode := mode

end Source

end ParticleScene
