import Mathlib.Data.List.Basic
import ParticleScene.Script.Compile

/-!
# Compilation that nobody cancels

Without cancellation a compilation always gives a script. Its text is made of the emitted lines
alone; what is reported on the way leaves no trace in it.
-/

namespace ParticleScene.Compile

@[simp] lemma emitLayers_uncancelled (o : Options) (total : Nat) (ls : List Layer) (s : Running)
    (processed reported : Nat) :
    (emitLayers o uncancelled total ls s processed reported).cancelled = false := by
  induction ls generalizing s processed reported with
  | nil => rfl
  | cons l rest ih => simp [emitLayers, uncancelled, ih]

/-- The script of a compilation that nobody cancels. -/
def script (o : Options) (ls : List Layer) : Script :=
  let layers := emitted o uncancelled ls
  { text := Text.unlines (texts o layers.lines)
    lineCount := (texts o layers.lines).length
    warnings := riseWarnings o.modes ++ layers.warnings }

lemma writeLines_uncancelled (total : Nat) (lines : List String) (written reported : Nat) :
    (writeLines uncancelled total lines written reported).cancelled = false ∧
      (writeLines uncancelled total lines written reported).lines = lines := by
  induction lines generalizing written reported with
  | nil => exact ⟨rfl, rfl⟩
  | cons line rest ih => simp [writeLines, uncancelled, ih]

lemma compile_uncancelled (o : Options) (ls : List Layer) :
    (compile o uncancelled ls).result = .ok (script o ls) := by
  have hlayers : (emitted o uncancelled ls).cancelled = false :=
    emitLayers_uncancelled ..
  simp only [compile, hlayers, script, writeLines_uncancelled, Bool.false_eq_true, if_false]

end ParticleScene.Compile
