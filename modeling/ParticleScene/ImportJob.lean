import ParticleScene.Scene

/-!
# Import jobs

An import that runs beside the editor. It copies its target layer, lets the source produce
elements without holding the lock, and then works in steps that each hold the lock once: drop
the old elements if they are to be replaced, append one chunk at a time, record one snapshot. The
request to cancel is looked up before each chunk. Between two steps anyone may change the scene.
-/

namespace ParticleScene

open Compile (Signal)

/-- How an import ended. -/
structure ImportSummary where
  /-- Elements that the source produced. -/
  total : Nat
  /-- Elements that were added. -/
  appended : Nat
  cancelled : Bool
  deriving Repr, DecidableEq

/-- What an import job does next. -/
inductive ImportStage where
  /-- Copy the target layer and produce elements for it. -/
  | reading
  /-- Drop the old elements of the target. -/
  | clearing (chunks : List (List Element))
  /-- Append the chunks that are left. -/
  | appending (chunks : List (List Element))
  | ended (result : Except Failure ImportSummary)

/-- An import job between two steps. -/
structure ImportJob where
  /-- The index of the target layer. -/
  target : Nat
  source : Source
  /-- Elements appended in one step. -/
  chunkSize : Nat
  stage : ImportStage := .reading
  total : Nat := 0
  appended : Nat := 0
  /-- The parts of all elements that were appended so far, after each chunk. -/
  reports : List Float := []

namespace ImportJob

def defaultChunk : Nat := 100

/-- Parts of a list with `size` items each; the last may be shorter. -/
def chunks {α : Type} (size : Nat) : Nat → List α → List (List α)
  | 0, _ => []
  | _ + 1, [] => []
  | rounds + 1, xs => xs.take size :: chunks size rounds (xs.drop size)

/-- A job at its start. A chunk size of zero counts as one. -/
def start (target : Nat) (source : Source) (chunkSize : Nat) : ImportJob where
  target := target
  source := source
  chunkSize := max chunkSize 1

/-- The job after it ended with a result. -/
def finish (j : ImportJob) (result : Except Failure ImportSummary) : ImportJob :=
  { j with stage := .ended result }

/-- Change the target layer without recording it. -/
def updateTarget (j : ImportJob) (s : Scene) (f : Layer → Layer) : Except Failure Scene := do
  let l ← s.layerAt j.target
  return { s with layers := s.layers.set j.target (f l) }

/-- What a job does first: the elements in chunks, and whether old ones are dropped. -/
def read (j : ImportJob) (s : Scene) : ImportJob :=
  match s.layerAt j.target >>= fun l => (j.source.produce l).outcome with
  | .error why => j.finish (.error why)
  | .ok es =>
    let parts := chunks j.chunkSize es.length es
    { j with
      total := es.length
      stage := match j.source.mode with
        | .replace => .clearing parts
        | .append => .appending parts }

/-- Record the import and end. -/
def close (j : ImportJob) (s : Scene) (cancelled : Bool) : ImportJob × Scene :=
  (j.finish (.ok ⟨j.total, j.appended, cancelled⟩), s.commit .imported j.source.description)

/-- One step of a job, on the scene as it is now. `cancelled` says whether cancellation has been
asked for. -/
def step (cancelled : Bool) (j : ImportJob) (s : Scene) : ImportJob × Scene :=
  match j.stage with
  | .reading => (j.read s, s)
  | .clearing parts =>
    match j.updateTarget s fun l => { l with elements := [] } with
    | .ok s => ({ j with stage := .appending parts }, s)
    | .error why => (j.finish (.error why), s)
  | .appending [] => j.close s false
  | .appending (part :: parts) =>
    if cancelled then j.close s true
    else
      match j.updateTarget s fun l => { l with elements := l.elements ++ part } with
      | .ok s =>
        let appended := j.appended + part.length
        ({ j with
            stage := .appending parts
            appended
            reports := j.reports ++ [fraction appended j.total] }, s)
      | .error why => (j.finish (.error why), s)
  | .ended _ => (j, s)

def result? (j : ImportJob) : Option (Except Failure ImportSummary) :=
  match j.stage with
  | .ended r => some r
  | _ => none

/-- Take a number of steps in a row; the signal is asked with the number of reports. -/
def steps (signal : Signal) : Nat → ImportJob → Scene → ImportJob × Scene
  | 0, j, s => (j, s)
  | n + 1, j, s =>
    let (j, s) := j.step (signal j.reports.length) s
    steps signal n j s

/-- Run a job that nobody interrupts to its end. After reading there is a step to clear, one for
each chunk, and one to close. -/
def run (signal : Signal) (j : ImportJob) (s : Scene) : ImportJob × Scene :=
  let (j, s) := j.step (signal 0) s
  steps signal (j.total + 2) j s

/-- What a job that has run answers: its summary or why it failed. -/
def outcome (j : ImportJob) : Except Failure ImportSummary :=
  j.result?.getD (.error .workerStopped)

end ImportJob

namespace SharedScene

/-- Run an import on a shared scene: the job after it has ended, and the scene. -/
def runImport (s : SharedScene) (signal : Signal) (j : ImportJob) : ImportJob × SharedScene :=
  match s.read with
  | .error why => (j.finish (.error why), s)
  | .ok scene =>
    let (j, scene) := j.run signal scene
    (j, { s with scene })

end SharedScene

end ParticleScene
