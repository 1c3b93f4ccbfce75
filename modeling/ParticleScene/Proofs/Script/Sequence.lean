import Mathlib.Tactic.Lemma
import ParticleScene.Script.Emission

/-!
# Emission one after the other

Spots are emitted one after the other, and so are frames. What can be said of every emission of
a list is said here once: when it fails, what it preserves, and when two of them agree.
-/

namespace ParticleScene

/-- The emission of an item in what runs on before it. -/
abbrev Emission (α : Type) := Running → α → Except Failure (List Line × Running)

namespace Emission

variable {α β : Type} {emit : Emission α}

/-- The lines of items, one after the other. -/
def all (emit : Emission α) (s : Running) : List α → Except Failure (List Line × Running)
  | [] => .ok ([], s)
  | a :: rest =>
    match emit s a with
    | .error why => .error why
    | .ok (lines, s) =>
      match all emit s rest with
      | .error why => .error why
      | .ok (more, s) => .ok (lines ++ more, s)

/-- If each item fails for a reason of its own, a list fails for the first of these reasons. -/
lemma all_eq_error_iff {fault? : α → Option Failure}
    (hfault : ∀ s a why, emit s a = .error why ↔ fault? a = some why) {s : Running} {as : List α}
    {why : Failure} : emit.all s as = .error why ↔ as.findSome? fault? = some why := by
  induction as generalizing s with
  | nil => simp [all]
  | cons a rest ih =>
    cases hemit : emit s a with
    | error why' =>
      have ha : fault? a = some why' := (hfault s a why').mp hemit
      simp [all, hemit, ha]
    | ok out =>
      obtain ⟨lines, s'⟩ := out
      have ha : fault? a = none := by
        rw [Option.eq_none_iff_forall_ne_some]
        intro why' hsome
        rw [(hfault s a why').mpr hsome] at hemit
        cases hemit
      rw [List.findSome?_cons, ha, ← ih (s := s')]
      simp only [all, hemit]
      split
      · rename_i hrest
        rw [hrest, Except.error.injEq]
      · rename_i hrest
        simp [hrest]

/-- What each item preserves of what runs on, a list preserves. -/
lemma all_preserves {P : Running → Prop}
    (hstep : ∀ {s a lines s'}, emit s a = .ok (lines, s') → P s → P s') {s s' : Running}
    {as : List α} {lines : List Line} (h : emit.all s as = .ok (lines, s')) (hs : P s) : P s' := by
  induction as generalizing s lines with
  | nil =>
    cases h
    exact hs
  | cons a rest ih =>
    rw [all] at h
    split at h
    · cases h
    · rename_i hemit
      split at h
      · cases h
      · rename_i hrest
        cases h
        exact ih hrest (hstep hemit hs)

/-- Two emissions that agree on items agree on lists, as long as what runs on has a property
that the items preserve. -/
lemma all_map {emit' : Emission β} {f : α → β} {P : Running → Prop}
    (hagree : ∀ {s}, P s → ∀ a, emit' s (f a) = emit s a)
    (hstep : ∀ {s a lines s'}, emit s a = .ok (lines, s') → P s → P s') {s : Running} (hs : P s)
    (as : List α) : emit'.all s (as.map f) = emit.all s as := by
  induction as generalizing s with
  | nil => rfl
  | cons a rest ih =>
    rw [List.map_cons, all, all, hagree hs]
    cases hemit : emit s a with
    | error why => rfl
    | ok out =>
      obtain ⟨lines, s'⟩ := out
      simp only [ih (hstep hemit hs)]

end Emission

namespace Emitter

lemma emitSpots_eq_all (m : Emitter) (s : Running) (spots : List Spot) :
    m.emitSpots s spots = Emission.all m.emitSpot s spots := by
  induction spots generalizing s with
  | nil => rfl
  | cons spot rest ih =>
    cases hspot : m.emitSpot s spot with
    | error why => simp [emitSpots, Emission.all, hspot]
    | ok out =>
      cases hrest : Emission.all m.emitSpot out.2 rest with
      | error why => simp [emitSpots, Emission.all, hspot, ih, hrest]
      | ok more => simp [emitSpots, Emission.all, hspot, ih, hrest]

lemma emitFrames_eq_all (m : Emitter) (s : Running) (fs : List Frame) :
    m.emitFrames s fs = Emission.all m.emitFrame s fs := by
  induction fs generalizing s with
  | nil => rfl
  | cons f rest ih =>
    cases hframe : m.emitFrame s f with
    | error why => simp [emitFrames, Emission.all, hframe]
    | ok out =>
      cases hrest : Emission.all m.emitFrame out.2 rest with
      | error why => simp [emitFrames, Emission.all, hframe, ih, hrest]
      | ok more => simp [emitFrames, Emission.all, hframe, ih, hrest]

end Emitter

end ParticleScene
