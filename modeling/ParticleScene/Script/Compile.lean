import ParticleScene.Script.Emission
import ParticleScene.Script.Runs
import ParticleScene.Text.Split

/-!
# Compilation

A compilation takes the visible layers in the order of their start ticks, emits each as a
block, and writes the lines into one text. A layer that cannot be emitted is left out with a
warning. Progress is reported after each layer, and with every hundredth line that is written.
Whether cancellation has been asked for is looked up before each layer and before each hundredth
line; the request is a function of the number of reports that have been delivered by then.
-/

namespace ParticleScene

/-- A report of a running compilation. -/
inductive Progress where
  /-- The part of all elements whose layers are done. -/
  | processing (fraction : Float)
  /-- The part of all lines that are written. -/
  | writing (fraction : Float)

def fraction (part whole : Nat) : Float :=
  Float.ofNat part / Float.ofNat whole

/-- A problem that leaves the rest of a script intact. -/
inductive Warning where
  /-- The rise that was asked for cannot run. -/
  | riseDisabled (rise : Rise)
  /-- A layer could not be emitted. -/
  | layerSkipped (layer reason : String)

def Warning.text : Warning → String
  | riseDisabled r =>
    "rise disabled: speed (" ++ Number.plain r.speed ++ ") and limit (" ++
      Number.plain r.limit ++ ") must be positive and reach the limit within " ++
      toString Rise.maxSteps ++ " steps"
  | layerSkipped layer reason => "layer '" ++ layer ++ "' skipped: " ++ reason

/-- A finished script. -/
structure Script where
  text : String
  lineCount : Nat
  warnings : List Warning

namespace Script

def isCommandLine (line : String) : Bool :=
  "  - effect:particles".toList.isPrefixOf line.toList ||
    "  - summonareaeffectcloud".toList.isPrefixOf line.toList

def lines (s : Script) : List String :=
  Text.lines s.text

def commandCount (s : Script) : Nat :=
  (s.lines.filter isCommandLine).length

def isClean (s : Script) : Bool :=
  s.warnings.isEmpty

/-- The first layer that was left out, as a failure. -/
def checkFaults (s : Script) : Except Failure Unit :=
  let fault? := s.warnings.findSome? fun
    | .layerSkipped layer reason => some (Failure.emissionFault layer reason)
    | .riseDisabled _ => none
  match fault? with
  | some why => .error why
  | none => .ok ()

end Script

namespace Compile

/-- Whether cancellation has been asked for when some number of reports have been delivered. -/
abbrev Signal := Nat → Bool

def uncancelled : Signal := fun _ => false

/-- The layers that take part, in the order of their start ticks; equal ones keep their
order. -/
def ordered (ls : List Layer) : List Layer :=
  (ls.filter Layer.isShown).mergeSort fun a b => a.tickStart.toInt ≤ b.tickStart.toInt

def elementTotal (ls : List Layer) : Nat :=
  (ls.flatMap fun l => l.elements).length

/-- What came of a part of a compilation. -/
structure Part (α : Type) where
  lines : List α
  warnings : List Warning
  reports : List Progress
  cancelled : Bool

/-- The part that a cancelled compilation ends with. -/
def Part.stopped {α : Type} : Part α := ⟨[], [], [], true⟩

/-- The blocks of layers. `processed` counts the elements of the layers before, `reported` the
reports before. -/
def emitLayers (o : Options) (signal : Signal) (total : Nat) :
    List Layer → Running → Nat → Nat → Part Line
  | [], _, _, _ => ⟨[], [], [], false⟩
  | l :: rest, s, processed, reported =>
    if signal reported then .stopped
    else
      let processed := processed + l.elements.length
      let (block, warnings, s) : List Line × List Warning × Running :=
        match emitLayer o l s with
        | .ok (block, s) => (block, [], s)
        | .error why => ([], [.layerSkipped l.name why.message], s)
      let part := emitLayers o signal total rest s processed (reported + 1)
      { lines := block ++ part.lines
        warnings := warnings ++ part.warnings
        reports := .processing (fraction processed total) :: part.reports
        cancelled := part.cancelled }

/-- Lines between two looks at the signal and two reports. -/
def batch : Nat := 100

/-- Write lines, of which `written` stand before. Reports come with the first line of each batch
and with the last line. -/
def writeLines (signal : Signal) (total : Nat) : List String → Nat → Nat → Part String
  | [], _, _ => ⟨[], [], [], false⟩
  | line :: rest, written, reported =>
    if written % batch = 0 && signal reported then .stopped
    else
      let report := written % batch = 0 || written + 1 = total
      let reports : List Progress :=
        if report then [.writing (fraction (written + 1) total)] else []
      let part := writeLines signal total rest (written + 1) (reported + reports.length)
      { part with lines := line :: part.lines, reports := reports ++ part.reports }

def riseWarnings (m : Modes) : List Warning :=
  if m.isRiseDisabled then [.riseDisabled m.rise.rise] else []

def start (m : Modes) : Running :=
  { rainbow := if m.rainbow then some {} else none }

/-- All lines of a script before they are written, with what came of the layers. -/
def emitted (o : Options) (signal : Signal) (ls : List Layer) : Part Line :=
  let shown := ordered ls
  emitLayers o signal (elementTotal shown) shown (start o.modes) 0 0

/-- The texts of emitted lines under the header, with runs collapsed in performance mode. -/
def texts (o : Options) (lines : List Line) : List String :=
  let texts := (Line.header o.resolvedSkillName ++ lines).map Line.text
  if o.modes.performance then Runs.collapse texts else texts

/-- A compilation: the script, or that it was cancelled, and the reports that were
delivered. -/
structure Outcome where
  result : Except Failure Script
  reports : List Progress

end Compile

open Compile in
/-- Compile layers into a script. -/
def compile (o : Options) (signal : Signal) (ls : List Layer) : Outcome :=
  let layers := emitted o signal ls
  if layers.cancelled then ⟨.error .cancelled, layers.reports⟩
  else
    let texts := texts o layers.lines
    let part := writeLines signal texts.length texts 0 layers.reports.length
    let reports := layers.reports ++ part.reports
    if part.cancelled then ⟨.error .cancelled, reports⟩
    else
      { result := .ok
          { text := Text.unlines part.lines
            lineCount := texts.length
            warnings := riseWarnings o.modes ++ layers.warnings }
        reports }

end ParticleScene
