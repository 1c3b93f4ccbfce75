import Mathlib.Data.List.Forall2
import ParticleScene.Proofs.Script.Fault
import ParticleScene.Proofs.Script.TickOrder
import ParticleScene.Proofs.Script.Uncancelled

/-!
# Layers are emitted whole or not at all

A layer that fails leaves no line behind, and what runs on after it is what ran on before it.
So a compilation gives the script that it would give if the failing layers were not there, and
`compile_without_faulty` compares the two compilations.
-/

namespace ParticleScene

namespace Compile

/-- Whether a layer takes part in a compilation and fails. -/
def isFaulty (o : Options) (l : Layer) : Bool :=
  l.isShown && (fault? o l).isSome

/-- The warning `w` is about the failure of the layer `l`. -/
def WarnsOf (o : Options) (l : Layer) (w : Warning) : Prop :=
  ∃ why, fault? o l = some why ∧ w = .layerSkipped l.name why.message

variable {o : Options}

/-- The two compilations in lockstep: where the first one skips a layer, the second one does not
meet it, and what runs on is the same in both at every layer that they share. -/
lemma lines_emitLayers_without_faults (total total' : Nat) (ls : List Layer) (s : Running)
    (processed processed' reported reported' : Nat) :
    (emitLayers o uncancelled total ls s processed reported).lines =
      (emitLayers o uncancelled total' (ls.filter fun l => (fault? o l).isNone) s processed'
        reported').lines := by
  induction ls generalizing s processed processed' reported reported' with
  | nil => rfl
  | cons l rest ih =>
    cases hemit : emitLayer o l s with
    | error why =>
      have hfault : fault? o l = some why := emitLayer_eq_error_iff.mp hemit
      rw [List.filter_cons_of_neg (by simp [hfault])]
      simp only [emitLayers, uncancelled, hemit, Bool.false_eq_true, if_false, List.nil_append]
      exact ih ..
    | ok out =>
      have hfault : fault? o l = none := fault?_eq_none_of_emitLayer hemit
      rw [List.filter_cons_of_pos (by simp [hfault])]
      simp only [emitLayers, uncancelled, hemit, Bool.false_eq_true, if_false]
      exact congrArg (out.1 ++ ·) (ih ..)

/-- One warning for each layer that fails, in the order of the layers. -/
lemma warnings_emitLayers (total : Nat) (ls : List Layer) (s : Running)
    (processed reported : Nat) :
    List.Forall₂ (WarnsOf o) (ls.filter fun l => (fault? o l).isSome)
      (emitLayers o uncancelled total ls s processed reported).warnings := by
  induction ls generalizing s processed reported with
  | nil => exact .nil
  | cons l rest ih =>
    cases hemit : emitLayer o l s with
    | error why =>
      have hfault : fault? o l = some why := emitLayer_eq_error_iff.mp hemit
      rw [List.filter_cons_of_pos (by simp [hfault])]
      simp only [emitLayers, uncancelled, hemit, Bool.false_eq_true, if_false]
      exact .cons ⟨why, hfault, rfl⟩ (ih ..)
    | ok out =>
      have hfault : fault? o l = none := fault?_eq_none_of_emitLayer hemit
      rw [List.filter_cons_of_neg (by simp [hfault])]
      simp only [emitLayers, uncancelled, hemit, Bool.false_eq_true, if_false, List.nil_append]
      exact ih ..

lemma warnings_emitLayers_without_faults (total : Nat) (ls : List Layer) (s : Running)
    (processed reported : Nat) :
    (emitLayers o uncancelled total (ls.filter fun l => (fault? o l).isNone) s processed
      reported).warnings = [] := by
  have h := warnings_emitLayers (o := o) total (ls.filter fun l => (fault? o l).isNone) s
    processed reported
  rwa [List.filter_eq_nil_iff.mpr, List.forall₂_nil_left_iff] at h
  intro l hl
  simp [Option.isNone_iff_eq_none.mp (List.mem_filter.mp hl).2]

/-- Among the layers that take part, those that fail are the faulty ones. -/
lemma filter_isFaulty_ordered (ls : List Layer) :
    (ordered ls).filter (isFaulty o) = (ordered ls).filter fun l => (fault? o l).isSome := by
  apply List.filter_congr
  intro l hl
  simp [isFaulty, (mem_ordered.mp hl).2]

lemma ordered_without_faulty (ls : List Layer) :
    ordered (ls.filter fun l => !isFaulty o l) =
      (ordered ls).filter fun l => (fault? o l).isNone := by
  rw [ordered_filter]
  apply List.filter_congr
  intro l hl
  simp [isFaulty, (mem_ordered.mp hl).2]

lemma faulty_inTickOrder (ls : List Layer) :
    InTickOrder (ls.filter (isFaulty o)) ((ordered ls).filter (isFaulty o)) := by
  have h := (ordered_inTickOrder ls).filter (isFaulty o)
  rw [List.filter_filter] at h
  have hshown : ∀ l ∈ ls, (isFaulty o l && l.isShown) = isFaulty o l := by
    intro l _
    cases hl : l.isShown <;> simp [isFaulty, hl]
  rwa [List.filter_congr hshown] at h

end Compile

open Compile

variable {o : Options}

/-- The first layer that was left out fails the check; a rise that cannot run does not. -/
lemma Script.checkFaults_of_forall₂ {script : Script} {es : List Layer} {skips : List Warning}
    (hwarnings : script.warnings = riseWarnings o.modes ++ skips)
    (hskips : List.Forall₂ (WarnsOf o) es skips) :
    (script.checkFaults = .ok () ↔ es = []) ∧
      ∀ first ∈ es.head?, ∃ why, fault? o first = some why ∧
        script.checkFaults = .error (.emissionFault first.name why.message) := by
  have hrise : ∀ f : Warning → Option Failure, (∀ r, f (.riseDisabled r) = none) →
      (riseWarnings o.modes).findSome? f = none := by
    intro f hf
    unfold riseWarnings
    split <;> simp [hf]
  cases hskips with
  | nil => simp [checkFaults, hwarnings, hrise]
  | @cons first _ _ _ hfirst _ =>
    obtain ⟨why, hfault, rfl⟩ := hfirst
    constructor
    · simp [checkFaults, hwarnings, List.findSome?_append, hrise]
    · intro first' hfirst'
      obtain rfl : first = first' := by simpa using hfirst'
      refine ⟨why, hfault, ?_⟩
      simp [checkFaults, hwarnings, List.findSome?_append, hrise]

/-- Compiling some layers gives the script of the layers among them that do not fail. Each
failing layer costs one warning, and whether a layer fails does not depend on the layers before
it. -/
theorem compile_without_faulty (o : Options) (ls : List Layer) :
    (∀ l s why, emitLayer o l s = .error why ↔ fault? o l = some why) ∧
      ∃ whole sound : Script,
        (compile o uncancelled ls).result = .ok whole ∧
        (compile o uncancelled (ls.filter fun l => !isFaulty o l)).result = .ok sound ∧
        whole.text = sound.text ∧
        whole.lineCount = sound.lineCount ∧
        sound.warnings = riseWarnings o.modes ∧
        ∃ es skips, InTickOrder (ls.filter (isFaulty o)) es ∧
          whole.warnings = riseWarnings o.modes ++ skips ∧
          List.Forall₂ (WarnsOf o) es skips ∧
          (whole.checkFaults = .ok () ↔ ls.filter (isFaulty o) = []) ∧
          ∀ first ∈ es.head?, ∃ why, fault? o first = some why ∧
            whole.checkFaults = .error (.emissionFault first.name why.message) := by
  refine ⟨fun _ _ _ => emitLayer_eq_error_iff, script o ls, script o _, compile_uncancelled o ls,
    compile_uncancelled o _, ?_⟩
  have hlines : (emitted o uncancelled ls).lines =
      (emitted o uncancelled (ls.filter fun l => !isFaulty o l)).lines := by
    simp only [emitted, ordered_without_faulty]
    exact lines_emitLayers_without_faults ..
  have hskips : List.Forall₂ (WarnsOf o) ((ordered ls).filter (isFaulty o))
      (emitted o uncancelled ls).warnings := by
    rw [filter_isFaulty_ordered]
    exact warnings_emitLayers ..
  have hsound : (emitted o uncancelled (ls.filter fun l => !isFaulty o l)).warnings = [] := by
    simp only [emitted, ordered_without_faulty]
    exact warnings_emitLayers_without_faults ..
  have horder := faulty_inTickOrder (o := o) ls
  have hwarnings : (script o ls).warnings =
      riseWarnings o.modes ++ (emitted o uncancelled ls).warnings := rfl
  obtain ⟨hok, hfirst⟩ := Script.checkFaults_of_forall₂ hwarnings hskips
  refine ⟨?_, ?_, ?_, _, _, horder, hwarnings, hskips, ?_, hfirst⟩
  · simp only [script, hlines]
  · simp only [script, hlines]
  · simp only [script, hsound, List.append_nil]
  · exact hok.trans horder.eq_nil_iff

end ParticleScene
