/-!
# Failures

Everything that an operation can refuse to do, by cause. Numbers that do not parse are no
failures: input fields keep their last value instead.
-/

namespace ParticleScene

/-- Why an operation did not succeed. -/
inductive Failure where
  | fileNotFound (path : String)
  | fileUnreadable (path cause : String)
  | fileUnwritable (path cause : String)
  | directoryNotMade (path cause : String)
  | invalidScene (reason : String)
  | invalidColor (value : String)
  | layerNotFound (index count : Nat)
  | elementNotFound (layer : String) (index : Nat)
  | nothingToUndo
  | nothingToRedo
  | malformedMesh (line : Nat) (reason : String)
  | undecodableImage
  | emissionFault (layer reason : String)
  | nonFiniteCoordinate (layer : String) (element : Nat)
  | cancelled
  | workerStopped
  | lockPoisoned
  | malformedJson
  deriving Repr, DecidableEq

namespace Failure

def message : Failure → String
  | fileNotFound path => s!"File not found: {path}"
  | fileUnreadable path cause => s!"Failed to read file: {path}: {cause}"
  | fileUnwritable path cause => s!"Failed to write file: {path}: {cause}"
  | directoryNotMade path cause => s!"Directory creation failed: {path}: {cause}"
  | invalidScene reason => s!"Invalid scene document: {reason}"
  | invalidColor value => s!"Invalid color '{value}' (expected #rrggbb)"
  | layerNotFound index count => s!"Layer index {index} out of range ({count} layers)"
  | elementNotFound layer index => s!"Element index {index} out of range in layer '{layer}'"
  | nothingToUndo => "Nothing to undo"
  | nothingToRedo => "Nothing to redo"
  | malformedMesh line reason => s!"OBJ parse error on line {line}: {reason}"
  | undecodableImage => "Image error"
  | emissionFault layer reason => s!"Emission failed for layer '{layer}': {reason}"
  | nonFiniteCoordinate layer element =>
    s!"Non-finite coordinate for element {element} of layer '{layer}'"
  | cancelled => "Operation cancelled"
  | workerStopped => "Background worker stopped unexpectedly"
  | lockPoisoned => "Scene lock poisoned"
  | malformedJson => "JSON serialization error"

/-- The stable name of the cause. -/
def code : Failure → String
  | fileNotFound .. => "FILE_NOT_FOUND"
  | fileUnreadable .. => "FILE_READ_ERROR"
  | fileUnwritable .. => "FILE_WRITE_ERROR"
  | directoryNotMade .. => "DIRECTORY_CREATE_ERROR"
  | invalidScene .. => "INVALID_SCENE"
  | invalidColor .. => "INVALID_COLOR"
  | layerNotFound .. => "LAYER_NOT_FOUND"
  | elementNotFound .. => "ELEMENT_NOT_FOUND"
  | nothingToUndo => "NOTHING_TO_UNDO"
  | nothingToRedo => "NOTHING_TO_REDO"
  | malformedMesh .. => "OBJ_PARSE_ERROR"
  | undecodableImage => "IMAGE_ERROR"
  | emissionFault .. => "EMISSION_FAULT"
  | nonFiniteCoordinate .. => "NON_FINITE_COORDINATE"
  | cancelled => "CANCELLED"
  | workerStopped => "WORKER_DISCONNECTED"
  | lockPoisoned => "LOCK_POISONED"
  | malformedJson => "JSON_ERROR"

/-- Whether the user can go on after mending the input. -/
def isRecoverable : Failure → Bool
  | fileNotFound .. | invalidColor .. | nothingToUndo | nothingToRedo | cancelled
  | nonFiniteCoordinate .. => true
  | _ => false

def suggestion? : Failure → Option String
  | fileNotFound .. => some "Check the file path and try again."
  | invalidScene .. => some "The scene file may be damaged. Try the latest autosave."
  | invalidColor .. => some "Use a six digit hex color such as #ff8800."
  | nothingToUndo => some "There are no actions to undo."
  | nothingToRedo => some "There are no undone actions to redo."
  | nonFiniteCoordinate .. =>
    some "Move or delete the element with the broken position and compile again."
  | cancelled => some "Start the operation again to finish it."
  | _ => none

/-- The text of the cause below, for a failure that passes one on. The texts of the JSON reader
and of the image decoder are empty. -/
def innerCause? : Failure → Option String
  | fileUnreadable _ cause | fileUnwritable _ cause | directoryNotMade _ cause => some cause
  | undecodableImage | malformedJson => some ""
  | _ => none

end Failure

end ParticleScene
