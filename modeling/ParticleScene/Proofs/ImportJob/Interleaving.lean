import Mathlib.Data.List.Induction
import ParticleScene.Proofs.ImportJob
import ParticleScene.Proofs.Scene.Coherence

/-!
# Import jobs beside other work

Between two steps of an import job anyone may carry out operations on the scene. While the job is
at work, its layer may hold elements that nobody has recorded, but then the layer is still there:
whoever makes the list of layers shorter records or restores it. So the scene is in step with its
history before the job writes for the first time, and again after it has ended, even if it ended
because its layer was gone.
-/

namespace ParticleScene.ImportJob

/-- What happens next to a scene that an import job and others work on. -/
inductive Turn where
  /-- The job takes a step; the flag says whether its cancellation has been asked for. -/
  | job (cancelled : Bool)
  /-- Somebody else carries out an operation. -/
  | other (op : Operation)

/-- A job and its scene after one turn. -/
def afterTurn : ImportJob × Scene → Turn → ImportJob × Scene
  | (j, s), .job cancelled => j.step cancelled s
  | (j, s), .other op => (j, (s.perform op).2)

/-- A job and its scene after turns in any order. -/
def interleave (j : ImportJob) (s : Scene) (turns : List Turn) : ImportJob × Scene :=
  turns.foldl afterTurn (j, s)

/-- Whether the next step of a job takes the scene to write to it. -/
def writesNext (j : ImportJob) : Bool :=
  match j.stage with
  | .clearing _ | .appending _ => true
  | .reading | .ended _ => false

/-- One of the turns was a step in which the job wrote. -/
def HasWritten (j : ImportJob) (s : Scene) (turns : List Turn) : Prop :=
  ∃ before cancelled, before ++ [.job cancelled] <+: turns ∧ (interleave j s before).1.writesNext

/-! ### Steps -/

variable {j : ImportJob} {s : Scene} {turns : List Turn} {cancelled : Bool}

lemma interleave_concat (t : Turn) :
    interleave j s (turns ++ [t]) = afterTurn (interleave j s turns) t := by
  simp only [interleave, List.foldl_append, List.foldl_cons, List.foldl_nil]

/-- The target layer can be changed when it is there. -/
lemma updateTarget_of_lt (hlt : j.target < s.layers.length) (f : Layer → Layer) :
    j.updateTarget s f = .ok { s with layers := s.layers.modify j.target f } := by
  rw [updateTarget_eq_ok (List.getElem?_eq_getElem hlt), List.modify_eq_set_getElem?,
    List.getElem?_eq_getElem hlt]
  rfl

lemma updateTarget_of_le (hle : s.layers.length ≤ j.target) (f : Layer → Layer) :
    j.updateTarget s f = .error (.layerNotFound j.target s.layers.length) := by
  simp only [updateTarget, Scene.layerAt, List.getElem?_eq_none hle]
  rfl

lemma step_of_not_writesNext (h : j.writesNext = false) : (j.step cancelled s).2 = s := by
  rw [step]
  rw [writesNext] at h
  cases hstage : j.stage with
  | reading => rfl
  | ended result => rfl
  | clearing parts => simp [hstage] at h
  | appending parts => simp [hstage] at h

/-! ### What the scene may be ahead of -/

/-- The history of the scene is well-formed, and the scene is in step with it unless the job is
appending to a layer that is there. -/
structure Accounted (j : ImportJob) (s : Scene) : Prop where
  wellFormed : s.history.WellFormed
  coherent_or_appending :
    s.Coherent ∨ (∃ parts, j.stage = .appending parts) ∧ j.target < s.layers.length

lemma Accounted.of_coherent (j : ImportJob) (h : s.Coherent) : Accounted j s :=
  ⟨h.wellFormed, .inl h⟩

lemma Accounted.coherent_of_stage (h : Accounted j s)
    (hstage : ∀ parts, j.stage ≠ .appending parts) : s.Coherent := by
  obtain hcoherent | ⟨⟨parts, hparts⟩, -⟩ := h.coherent_or_appending
  · exact hcoherent
  · exact absurd hparts (hstage parts)

lemma commit_coherent (hwf : s.history.WellFormed) (action : Action) (description : String) :
    (s.commit action description).Coherent := by
  refine ⟨History.push_wellFormed hwf .., ?_⟩
  simp only [Scene.commit, History.current?_push hwf, Option.map_some]

lemma Accounted.step (h : Accounted j s) (cancelled : Bool) :
    Accounted (j.step cancelled s).1 (j.step cancelled s).2 := by
  rw [ImportJob.step]
  cases hstage : j.stage with
  | reading =>
    exact .of_coherent _ (h.coherent_of_stage (by simp [hstage]))
  | ended result =>
    exact .of_coherent _ (h.coherent_of_stage (by simp [hstage]))
  | clearing parts =>
    have hcoherent : s.Coherent := h.coherent_of_stage (by simp [hstage])
    obtain hlt | hle := Nat.lt_or_ge j.target s.layers.length
    · simp only [updateTarget_of_lt hlt]
      exact ⟨h.wellFormed, .inr ⟨⟨parts, rfl⟩, by rwa [List.length_modify]⟩⟩
    · simp only [updateTarget_of_le hle]
      exact .of_coherent _ hcoherent
  | appending parts =>
    cases parts with
    | nil => exact .of_coherent _ (commit_coherent h.wellFormed ..)
    | cons part parts =>
      dsimp only
      split
      · exact .of_coherent _ (commit_coherent h.wellFormed ..)
      obtain hlt | hle := Nat.lt_or_ge j.target s.layers.length
      · simp only [updateTarget_of_lt hlt]
        exact ⟨h.wellFormed, .inr ⟨⟨parts, rfl⟩, by rwa [List.length_modify]⟩⟩
      · -- The layer is gone, so somebody has recorded or restored the layers since the last step.
        obtain hcoherent | ⟨-, hlt⟩ := h.coherent_or_appending
        · simp only [updateTarget_of_le hle]
          exact .of_coherent _ hcoherent
        · exact absurd hlt (Nat.not_lt_of_le hle)

lemma Accounted.perform (h : Accounted j s) (op : Operation) :
    Accounted j (s.perform op).2 := by
  have hchange := s.perform_change op
  obtain hcoherent | ⟨hwf, hlayers, hcurrent⟩ := hchange.coherent_or_unchanged h.wellFormed
  · exact .of_coherent j hcoherent
  · refine ⟨hwf, ?_⟩
    obtain hcoherent | happending := h.coherent_or_appending
    · exact .inl (hchange.coherent hcoherent)
    · exact .inr (by rwa [hlayers])

/-- Whatever the turns were, the scene is accounted for. -/
lemma accounted_interleave (hs : s.Coherent) (turns : List Turn) :
    Accounted (interleave j s turns).1 (interleave j s turns).2 := by
  induction turns using List.reverseRecOn with
  | nil => exact .of_coherent j hs
  | append_singleton turns t ih =>
    rw [interleave_concat]
    cases t with
    | job cancelled => exact ih.step cancelled
    | other op => exact ih.perform op

/-! ### Before the first write and after the end -/

/-- A job that has not written yet leaves the scene to the others. -/
lemma coherent_of_not_hasWritten (hs : s.Coherent) (hwritten : ¬ HasWritten j s turns) :
    (interleave j s turns).2.Coherent := by
  induction turns using List.reverseRecOn with
  | nil => exact hs
  | append_singleton turns t ih =>
    have hbefore : ¬ HasWritten j s turns := by
      rintro ⟨before, cancelled, hstarts, hwrites⟩
      exact hwritten ⟨before, cancelled, hstarts.trans (List.prefix_append turns [t]), hwrites⟩
    rw [interleave_concat]
    cases t with
    | job cancelled =>
      have hwrites : (interleave j s turns).1.writesNext = false :=
        Bool.eq_false_iff.mpr fun hwrites =>
          hwritten ⟨turns, cancelled, List.prefix_refl _, hwrites⟩
      have hsame : (afterTurn (interleave j s turns) (.job cancelled)).2 =
          (interleave j s turns).2 := step_of_not_writesNext hwrites
      rw [hsame]
      exact ih hbefore
    | other op => exact ((interleave j s turns).2.perform_change op).coherent (ih hbefore)

lemma coherent_of_ended (hs : s.Coherent) {result : Except Failure ImportSummary}
    (hended : (interleave j s turns).1.stage = .ended result) :
    (interleave j s turns).2.Coherent :=
  (accounted_interleave hs turns).coherent_of_stage (by simp [hended])

/-- However the steps of an import job and the operations of others fall between each other, the
live layers are those of the entry under the cursor until the job first writes, and again from the
moment at which it has ended, with a summary or with a failure. -/
theorem current_interleave (hs : s.Coherent) (index : Nat) (source : Source) (chunkSize : Nat)
    (turns : List Turn) :
    let now := interleave (start index source chunkSize) s turns
    ¬ HasWritten (start index source chunkSize) s turns ∨ now.1.result?.isSome →
      now.2.history.entries[now.2.history.cursor]?.map Entry.snapshot = some now.2.layers := by
  intro now h
  obtain hwritten | hended := h
  · exact (coherent_of_not_hasWritten hs hwritten).current
  · obtain ⟨result, hresult⟩ := Option.isSome_iff_exists.mp hended
    rw [result?] at hresult
    split at hresult
    · exact (coherent_of_ended hs ‹_›).current
    · cases hresult

/-- Two layers of which the second one is the target of a job. -/
def twoLayers : Scene := .ofLayers [onePoint, onePoint]

/-- The target is cleared and gets a chunk, and then the layer before it is removed. -/
def layerRemoved : List Turn :=
  [.job false, .job false, .other (.setLimit 0), .job false, .other (.removeLayer 0), .job false]

/-- The job ends with a failure at its second chunk, and what the removal recorded is what is
there. -/
theorem current_interleave_layerRemoved :
    let now := interleave (start 1 threePoints 2) twoLayers layerRemoved
    twoLayers.Coherent ∧
      HasWritten (start 1 threePoints 2) twoLayers layerRemoved ∧
      now.1.result? = some (.error (.layerNotFound 1 1)) ∧
      now.2.history.entries[now.2.history.cursor]?.map Entry.snapshot = some now.2.layers :=
  have hs : twoLayers.Coherent := Scene.ofLayers_coherent _
  have hwritten : HasWritten (start 1 threePoints 2) twoLayers layerRemoved :=
    ⟨[.job false], false, ⟨layerRemoved.drop 2, rfl⟩, rfl⟩
  have hresult : (interleave (start 1 threePoints 2) twoLayers layerRemoved).1.result? =
      some (.error (.layerNotFound 1 1)) := rfl
  ⟨hs, hwritten, hresult, current_interleave hs 1 threePoints 2 layerRemoved (.inr (by
    rw [hresult]
    rfl))⟩

end ParticleScene.ImportJob
