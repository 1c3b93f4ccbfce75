import Mathlib.Data.List.Forall2
import ParticleScene.Proofs.Script.Fault
import ParticleScene.Proofs.Script.TickOrder
import ParticleScene.Proofs.Script.Uncancelled

/-!
# What is shown decides about the script

Of a list of layers a compilation uses only which layers are shown at each tick and in which
order. Hidden and empty layers, and the order of layers that start at different ticks, make no
difference to the script, the warnings and the reports. The blocks of the script stand in the
order of start ticks, and those of one tick in the order of the list.
-/

namespace ParticleScene

open Compile

variable {o : Options} {signal : Signal} {ls ls' : List Layer}

/-! ### Lists that show the same -/

/-- Two lists show the same layers in the same order at every tick. -/
def ShowSame (ls ls' : List Layer) : Prop :=
  ∀ t, (ls.filter Layer.isShown).filter (Layer.startsAt t) =
    (ls'.filter Layer.isShown).filter (Layer.startsAt t)

lemma ShowSame.ordered_eq (h : ShowSame ls ls') : ordered ls = ordered ls' := by
  have h' := ordered_inTickOrder ls'
  have hsame : InTickOrder (ls.filter Layer.isShown) (ordered ls') :=
    ⟨h'.ascending, fun t => (h'.stable t).trans (h t).symm⟩
  exact (ordered_inTickOrder ls).unique hsame

lemma ShowSame.compile_eq (h : ShowSame ls ls') : compile o signal ls = compile o signal ls' := by
  have hemitted : emitted o signal ls = emitted o signal ls' := by
    rw [emitted, emitted, h.ordered_eq]
  rw [compile, compile, hemitted]

/-- A layer that is hidden or empty makes no difference, wherever it stands. -/
lemma showSame_of_not_isShown {l : Layer} (hl : l.isShown = false) (before after : List Layer) :
    ShowSame (before ++ l :: after) (before ++ after) := by
  intro t
  rw [List.filter_append, List.filter_cons_of_neg (by rw [hl]; exact Bool.false_ne_true),
    ← List.filter_append]

/-- Neighbours that start at different ticks may change places. -/
lemma showSame_swap {l k : Layer} (htick : l.tickStart ≠ k.tickStart)
    (before after : List Layer) :
    ShowSame (before ++ l :: k :: after) (before ++ k :: l :: after) := by
  intro t
  simp only [List.filter_append, List.filter_filter]
  congr 1
  by_cases hl : l.tickStart = t
  · -- the other layer does not start at this tick
    have hk : Layer.startsAt t k = false := decide_eq_false fun hk => htick (hl.trans hk.symm)
    simp only [List.filter_cons, hk, Bool.false_and, Bool.false_eq_true, if_false]
  · have hl' : Layer.startsAt t l = false := decide_eq_false hl
    simp only [List.filter_cons, hl', Bool.false_and, Bool.false_eq_true, if_false]

/-! ### Blocks -/

/-- The lines that a layer contributes: its emission in what runs on before it, or none if it
fails. -/
def IsBlockOf (o : Options) (l : Layer) (block : List Line) : Prop :=
  match fault? o l with
  | some _ => block = []
  | none => ∃ s s', emitLayer o l s = .ok (block, s')

/-- The lines of layers are their blocks, one after the other. -/
lemma lines_emitLayers_eq_flatten (total : Nat) (ls : List Layer) (s : Running)
    (processed reported : Nat) :
    ∃ blocks, List.Forall₂ (IsBlockOf o) ls blocks ∧
      (emitLayers o uncancelled total ls s processed reported).lines = blocks.flatten := by
  induction ls generalizing s processed reported with
  | nil => exact ⟨[], .nil, rfl⟩
  | cons l rest ih =>
    cases hemit : emitLayer o l s with
    | error why =>
      have hblock : IsBlockOf o l [] := by
        rw [IsBlockOf, emitLayer_eq_error_iff.mp hemit]
      obtain ⟨blocks, hblocks, hlines⟩ := ih s (processed + l.elements.length) (reported + 1)
      refine ⟨[] :: blocks, .cons hblock hblocks, ?_⟩
      simp only [emitLayers, uncancelled, hemit, Bool.false_eq_true, if_false, List.flatten_cons]
      exact congrArg ([] ++ ·) hlines
    | ok out =>
      have hblock : IsBlockOf o l out.1 := by
        rw [IsBlockOf, fault?_eq_none_of_emitLayer hemit]
        exact ⟨s, out.2, hemit⟩
      obtain ⟨blocks, hblocks, hlines⟩ :=
        ih out.2 (processed + l.elements.length) (reported + 1)
      refine ⟨out.1 :: blocks, .cons hblock hblocks, ?_⟩
      simp only [emitLayers, uncancelled, hemit, Bool.false_eq_true, if_false, List.flatten_cons]
      exact congrArg (out.1 ++ ·) hlines

/-- Lists that show the same layers in the same order at every tick compile to the same script,
with the same warnings and reports. The script is made of one block for each shown layer, and the
blocks stand in the order of start ticks and, for one tick, in the order of the list. So hidden
and empty layers may come and go, and neighbours that start at different ticks may be swapped. -/
theorem compile_eq_of_showSame (o : Options) (signal : Signal) :
    (∀ ls ls', ShowSame ls ls' → compile o signal ls = compile o signal ls') ∧
    (∀ ls, ∃ sorted blocks script, InTickOrder (ls.filter Layer.isShown) sorted ∧
      List.Forall₂ (IsBlockOf o) sorted blocks ∧
      (compile o uncancelled ls).result = .ok script ∧
      script.text = Text.unlines (texts o blocks.flatten) ∧
      script.lineCount = (texts o blocks.flatten).length) ∧
    (∀ before after l, l.isShown = false →
      compile o signal (before ++ l :: after) = compile o signal (before ++ after)) ∧
    ∀ before after l k, l.tickStart ≠ k.tickStart →
      compile o signal (before ++ l :: k :: after) =
        compile o signal (before ++ k :: l :: after) := by
  refine ⟨fun ls ls' h => h.compile_eq, fun ls => ?_, fun before after l hl => ?_,
    fun before after l k htick => ?_⟩
  · obtain ⟨blocks, hblocks, hlines⟩ :=
      lines_emitLayers_eq_flatten (o := o) (elementTotal (ordered ls)) (ordered ls)
        (start o.modes) 0 0
    refine ⟨ordered ls, blocks, script o ls, ordered_inTickOrder ls, hblocks,
      compile_uncancelled o ls, ?_, ?_⟩
    · rw [← hlines]
      rfl
    · rw [← hlines]
      rfl
  · exact (showSame_of_not_isShown hl before after).compile_eq
  · exact (showSame_swap htick before after).compile_eq

namespace ShowSame

/-- A layer of one element, with a name and a start tick. -/
def dot (name : String) (tickStart : Int64) : Layer where
  name := name
  tickStart := tickStart
  elements := [⟨.free, ⟨0.0, 0.0⟩, 0.0, none, none, none⟩]

/-- A hidden layer between two of different ticks. -/
def lateFirst : List Layer :=
  [dot "Late" 5, { dot "Hidden" 0 with visible := false }, dot "Early" 0]

def earlyFirst : List Layer :=
  [dot "Early" 0, dot "Late" 5]

/-- The colors of a rainbow run through the layers in one order, however these are listed, and
the hidden one takes no color. -/
theorem compile_lateFirst_rainbow :
    ShowSame lateFirst earlyFirst ∧
      compile { modes := { rainbow := true } } uncancelled lateFirst =
        compile { modes := { rainbow := true } } uncancelled earlyFirst := by
  have hhidden : ShowSame lateFirst [dot "Late" 5, dot "Early" 0] :=
    showSame_of_not_isShown rfl [dot "Late" 5] [dot "Early" 0]
  have hswap : ShowSame [dot "Late" 5, dot "Early" 0] earlyFirst :=
    showSame_swap (by decide) [] []
  have hsame : ShowSame lateFirst earlyFirst := fun t => (hhidden t).trans (hswap t)
  exact ⟨hsame, (compile_eq_of_showSame { modes := { rainbow := true } } uncancelled).1 _ _ hsame⟩

end ShowSame

end ParticleScene
