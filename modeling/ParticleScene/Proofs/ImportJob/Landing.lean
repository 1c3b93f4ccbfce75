import ParticleScene.Proofs.ImportJob.Interleaving
import ParticleScene.Proofs.Scene.Arrangement

/-!
# Where imported elements land

A job addresses its layer anew in each step, by the index that it was given, and whoever reorders
layers between two steps may put another layer there. `follow` says where the layer stands that
the job has read. The main statement: while others add, rename, edit and reorder layers, an import
lands whole in that layer, wherever it stands in the end, and no other layer is touched, provided
that it stands at the index of the job whenever the job writes. Otherwise the chunks of one import
are scattered over the layers that come to stand there.
-/

namespace ParticleScene.ImportJob

open Scene (HoldsAt)

/-- The operations that others carry out. -/
def others (turns : List Turn) : List Operation :=
  turns.filterMap fun
    | .job _ => none
    | .other op => some op

/-- Where the layer that stands at a place comes to stand by turns. -/
def follow (now : ImportJob × Scene) (place : Nat) : List Turn → Nat
  | [] => place
  | .job cancelled :: turns => follow (afterTurn now (.job cancelled)) place turns
  | .other op :: turns => follow (afterTurn now (.other op)) (op.place now.2 place) turns

/-- Whenever the job writes, the layer that stood at its index at first stands there. -/
def WritesInPlace (j : ImportJob) (s : Scene) (turns : List Turn) : Prop :=
  ∀ before cancelled, before ++ [.job cancelled] <+: turns →
    (interleave j s before).1.writesNext → follow (j, s) j.target before = j.target

/-! ### Turns -/

variable {j : ImportJob} {s : Scene} {turns : List Turn} {now : ImportJob × Scene}

lemma others_concat_job (turns : List Turn) (cancelled : Bool) :
    others (turns ++ [.job cancelled]) = others turns := by
  simp [others]

lemma others_concat_other (turns : List Turn) (op : Operation) :
    others (turns ++ [.other op]) = others turns ++ [op] := by
  simp [others]

lemma performAll_concat (s : Scene) (ops : List Operation) (op : Operation) :
    s.performAll (ops ++ [op]) = ((s.performAll ops).perform op).2 := by
  simp only [Scene.performAll, List.foldl_append, List.foldl_cons, List.foldl_nil]

lemma follow_concat_job (turns : List Turn) (cancelled : Bool) (now : ImportJob × Scene)
    (place : Nat) : follow now place (turns ++ [.job cancelled]) = follow now place turns := by
  induction turns generalizing now place with
  | nil => rfl
  | cons t turns ih => cases t <;> exact ih ..

lemma follow_concat_other (turns : List Turn) (op : Operation) (now : ImportJob × Scene)
    (place : Nat) :
    follow now place (turns ++ [.other op]) =
      op.place (turns.foldl afterTurn now).2 (follow now place turns) := by
  induction turns generalizing now place with
  | nil => rfl
  | cons t turns ih => cases t <;> exact ih ..

/-! ### Progress of an import -/

lemma flatten_chunks {α : Type} {size : Nat} (hsize : 1 ≤ size) {rounds : Nat} {xs : List α}
    (hrounds : xs.length ≤ rounds) : (chunks size rounds xs).flatten = xs := by
  induction rounds generalizing xs with
  | zero => rw [List.length_eq_zero_iff.mp (Nat.le_zero.mp hrounds), chunks, List.flatten_nil]
  | succ rounds ih =>
    cases xs with
    | nil => rfl
    | cons x xs =>
      have hdrop : ((x :: xs).drop size).length ≤ rounds := by
        rw [List.length_drop, List.length_cons] at *
        omega
      rw [chunks, List.flatten_cons, ih hdrop, List.take_append_drop]
      rintro ⟨⟩

variable {l : Layer} {mode : ImportMode} {es held : List Element} {index place : Nat}

/-- What the layer holds that an import of some elements goes to, at a stage of the job. -/
def Progress (l : Layer) (mode : ImportMode) (es held : List Element) : ImportStage → Prop
  | .reading => False
  | .clearing parts => mode = .replace ∧ parts.flatten = es
  | .appending parts =>
    ∃ done, done ++ parts.flatten = es ∧ SameButColors held (l.merge mode done).elements
  | .ended result =>
    ∀ summary, result = .ok summary → summary.cancelled = false →
      SameButColors held (l.merge mode es).elements

lemma SameButColors.append {as as' bs : List Element} (h : SameButColors as as') :
    SameButColors (as ++ bs) (as' ++ bs) := by
  rw [SameButColors, List.map_append, List.map_append, h]

lemma Progress.of_sameButColors {held' : List Element} {stage : ImportStage}
    (h : Progress l mode es held stage) (hheld : SameButColors held' held) :
    Progress l mode es held' stage := by
  cases stage with
  | reading => exact h
  | clearing parts => exact h
  | appending parts =>
    obtain ⟨done, hdone, hsame⟩ := h
    exact ⟨done, hdone, hheld.trans hsame⟩
  | ended result => exact fun summary hok hwhole => hheld.trans (h summary hok hwhole)

/-- A job changes what the layer at its index holds. -/
lemma exists_updateTarget {ls : List Layer} (h : HoldsAt s.layers ls place held)
    (hj : j.target = place) (k : List Element → List Element) :
    ∃ ls', j.updateTarget s (fun l => { l with elements := k l.elements }) =
        .ok { s with layers := ls' } ∧ HoldsAt ls' ls place (k held) := by
  subst hj
  have hlt : j.target < s.layers.length := h.length_eq.symm ▸ h.place_lt
  refine ⟨_, updateTarget_of_lt hlt _, h.place_lt, ?_⟩
  rw [h.eq_modify, List.modify_modify_eq]
  rfl

/-- An import on its way to the layer at a place: `ls` are the layers without the job. -/
structure Landing (l : Layer) (mode : ImportMode) (es : List Element) (index : Nat)
    (now : ImportJob × Scene) (ls : List Layer) (place : Nat) : Prop where
  target_eq : now.1.target = index
  exists_held : ∃ held, HoldsAt now.2.layers ls place held ∧ Progress l mode es held now.1.stage

variable {ls : List Layer}

lemma Landing.step (h : Landing l mode es index (j, s) ls place) (cancelled : Bool)
    (hplace : j.writesNext → place = index) :
    Landing l mode es index (j.step cancelled s) ls place := by
  obtain ⟨htarget, held, hholds, hprogress⟩ := h
  dsimp only at htarget hholds hprogress
  rw [writesNext] at hplace
  rw [ImportJob.step]
  cases hstage : j.stage with
  | reading =>
    rw [hstage] at hprogress
    exact hprogress.elim
  | ended result =>
    rw [hstage] at hprogress
    dsimp only
    exact ⟨htarget, held, hholds, hstage ▸ hprogress⟩
  | clearing parts =>
    rw [hstage] at hprogress hplace
    obtain ⟨hmode, hparts⟩ := hprogress
    obtain ⟨ls', hupdate, hholds'⟩ :=
      exists_updateTarget hholds (htarget.trans (hplace rfl).symm) fun _ => []
    simp only [hupdate]
    exact ⟨htarget, [], hholds', [], hparts, by rw [hmode]; rfl⟩
  | appending parts =>
    rw [hstage] at hprogress hplace
    obtain ⟨done, hdone, hsame⟩ := hprogress
    cases parts with
    | nil =>
      rw [List.flatten_nil, List.append_nil] at hdone
      subst hdone
      exact ⟨htarget, held, hholds, fun _ _ _ => hsame⟩
    | cons part parts =>
      dsimp only
      split_ifs with hcancelled
      · refine ⟨htarget, held, hholds, fun summary hok hwhole => ?_⟩
        cases hok
        cases hwhole
      · obtain ⟨ls', hupdate, hholds'⟩ :=
          exists_updateTarget hholds (htarget.trans (hplace rfl).symm) (· ++ part)
        simp only [hupdate]
        refine ⟨htarget, held ++ part, hholds', done ++ part, ?_, ?_⟩
        · rw [List.append_assoc, ← List.flatten_cons, hdone]
        · have hmerge := congrArg Layer.elements (l.merge_append mode done part)
          rw [← hmerge]
          exact SameButColors.append hsame

lemma Landing.perform {t : Scene} (h : Landing l mode es index (j, s) t.layers place)
    {op : Operation} (hop : op.arranges) :
    Landing l mode es index (j, (s.perform op).2) (t.perform op).2.layers (op.place s place) := by
  obtain ⟨htarget, held, hholds, hprogress⟩ := h
  obtain ⟨held', hsame, hholds'⟩ := hholds.perform hop
  exact ⟨htarget, held', hholds', hprogress.of_sameButColors hsame⟩

/-! ### Whole imports -/

variable {source : Source} {chunkSize : Nat} {cancelled : Bool}

/-- A job that has read its layer has not changed it. -/
lemma landing_read (hl : s.layers[index]? = some l) (hes : source.produce l = .elements es)
    (chunkSize : Nat) (cancelled : Bool) :
    Landing l source.mode es index ((start index source chunkSize).step cancelled s) s.layers
      index := by
  have hself : s.layers = s.layers.modify index (Layer.holding l.elements) := by
    obtain ⟨hlt, hget⟩ := List.getElem?_eq_some_iff.mp hl
    rw [List.modify_eq_set_getElem?, hl, ← hget]
    exact (List.set_getElem_self hlt).symm
  have hholds : HoldsAt s.layers s.layers index l.elements :=
    ⟨(List.getElem?_eq_some_iff.mp hl).1, hself⟩
  have hflatten : (chunks (max chunkSize 1) es.length es).flatten = es :=
    flatten_chunks (Nat.le_max_right chunkSize 1) (Nat.le_refl _)
  have hstep : (start index source chunkSize).step cancelled s =
      ((start index source chunkSize).read s, s) := rfl
  rw [hstep, read_of_elements hl hes]
  cases hmode : source.mode with
  | replace => exact ⟨rfl, l.elements, hholds, rfl, hflatten⟩
  | append =>
    refine ⟨rfl, l.elements, hholds, [], ?_, ?_⟩
    · simpa only [Nat.sub_zero, Nat.zero_mul, List.drop_zero, List.nil_append] using hflatten
    · rw [Layer.merge, List.append_nil]
      rfl

/-- What is appended in place goes to the layer that was read, wherever others have moved it. -/
lemma landing_interleave (hl : s.layers[index]? = some l)
    (hes : source.produce l = .elements es) (hothers : ∀ op ∈ others turns, op.arranges)
    (hplace : WritesInPlace (start index source chunkSize) s (.job cancelled :: turns)) :
    Landing l source.mode es index
      (interleave (start index source chunkSize) s (.job cancelled :: turns))
      (s.performAll (others turns)).layers
      (follow (start index source chunkSize, s) index (.job cancelled :: turns)) := by
  induction turns using List.reverseRecOn with
  | nil => exact landing_read hl hes chunkSize cancelled
  | append_singleton turns t ih =>
    have hbefore : WritesInPlace (start index source chunkSize) s (.job cancelled :: turns) :=
      fun before c hstarts => hplace before c (hstarts.trans ⟨[t], rfl⟩)
    rw [← List.cons_append, interleave_concat]
    cases t with
    | job c =>
      rw [others_concat_job] at hothers ⊢
      rw [follow_concat_job]
      exact (ih hothers hbefore).step c
        (hplace (.job cancelled :: turns) c (List.prefix_refl _))
    | other op =>
      rw [others_concat_other] at hothers ⊢
      rw [follow_concat_other, performAll_concat]
      exact (ih (fun op hop => hothers op (List.mem_append_left _ hop)) hbefore).perform
        (hothers op (by simp))

/-- An import that is not cancelled lands whole in the layer that the job has read, if that layer
stands at the index of the job whenever the job writes: the layers are those that the others make
without the job, but for the layer where it stands now, which holds the elements of a direct import
(colors aside). -/
theorem landing_of_writesInPlace (hl : s.layers[index]? = some l)
    (hes : source.produce l = .elements es) (hothers : ∀ op ∈ others turns, op.arranges)
    (hplace : WritesInPlace (start index source chunkSize) s (.job cancelled :: turns))
    {total appended : Nat}
    (hended : (interleave (start index source chunkSize) s (.job cancelled :: turns)).1.result? =
      some (.ok ⟨total, appended, false⟩)) :
    ∃ held, SameButColors held (l.merge source.mode es).elements ∧
      HoldsAt (interleave (start index source chunkSize) s (.job cancelled :: turns)).2.layers
        (s.performAll (others turns)).layers
        (follow (start index source chunkSize, s) index (.job cancelled :: turns)) held := by
  obtain ⟨-, held, hholds, hprogress⟩ := landing_interleave hl hes hothers hplace
  refine ⟨held, ?_, hholds⟩
  rw [result?] at hended
  split at hended
  · cases hended
    rename_i hstage
    rw [hstage] at hprogress
    exact hprogress _ rfl rfl
  · cases hended

/-- Two layers that are told apart by their names. -/
def namedLayers : Scene := .ofLayers [{ name := "A" }, { name := "B" }]

def twoPoints : Source := .ofElements [pointAt 1.0, pointAt 2.0]

/-- Between two chunks the target is moved away and back again, and gets a color. -/
def movedBack : List Turn :=
  [.job false, .other (.moveLayerDown 0), .other (.addLayer "C" 0), .other (.moveLayerUp 1),
    .other (.setLayerColor 0 "#ff0000"), .job false, .job false]

lemma writesInPlace_movedBack :
    WritesInPlace (start 0 twoPoints 1) namedLayers (.job false :: movedBack) := by
  intro before cancelled hstarts _
  have hlength : before.length < 8 := by
    have h := hstarts.length_le
    simp only [movedBack, List.length_append, List.length_cons, List.length_nil] at h
    omega
  have hget : (.job false :: movedBack)[before.length]? = some (.job cancelled) := by
    obtain ⟨rest, hrest⟩ := hstarts
    rw [← hrest, List.append_assoc, List.getElem?_append_right (Nat.le_refl _), Nat.sub_self]
    rfl
  have htake : before = (.job false :: movedBack).take before.length :=
    List.prefix_iff_eq_take.mp ((List.prefix_append before _).trans hstarts)
  generalize before.length = n at hlength hget htake
  subst htake
  match n with
  | 0 | 1 | 6 | 7 => rfl
  | 2 | 3 | 4 | 5 => cases hget

/-- A layer that is back at its index when the second chunk comes gets it, too. -/
theorem landing_movedBack :
    let turns := .job false :: movedBack
    let now := interleave (start 0 twoPoints 1) namedLayers turns
    namedLayers.layers[0]? = some { name := "A" } ∧
      (∀ op ∈ others movedBack, op.arranges) ∧
      WritesInPlace (start 0 twoPoints 1) namedLayers turns ∧
      now.1.result? = some (.ok ⟨2, 2, false⟩) ∧
      ∃ held, SameButColors held [pointAt 1.0, pointAt 2.0] ∧
        HoldsAt now.2.layers (namedLayers.performAll (others movedBack)).layers 0 held :=
  have hl : namedLayers.layers[0]? = some { name := "A" } := rfl
  have hothers : ∀ op ∈ others movedBack, op.arranges := by decide
  ⟨hl, hothers, writesInPlace_movedBack, rfl,
    landing_of_writesInPlace hl rfl hothers writesInPlace_movedBack rfl⟩

/-- A layer that is moved between two chunks and not back: the second point goes to the layer that
has come to stand at the index, though the import ends well. -/
theorem scattered_of_moveLayerDown :
    let turns := [.job false, .job false, .other (.moveLayerDown 0), .job false, .job false]
    let now := interleave (start 0 twoPoints 1) namedLayers turns
    (∀ op ∈ others turns, op.arranges) ∧
      now.1.result? = some (.ok ⟨2, 2, false⟩) ∧
      follow (start 0 twoPoints 1, namedLayers) 0 turns = 1 ∧
      now.2.layers =
        [{ name := "B", elements := [pointAt 2.0] }, { name := "A", elements := [pointAt 1.0] }] ∧
      ¬ ∃ held, SameButColors held [pointAt 1.0, pointAt 2.0] ∧
        HoldsAt now.2.layers (namedLayers.performAll (others turns)).layers 1 held := by
  refine ⟨by decide, rfl, rfl, rfl, ?_⟩
  rintro ⟨held, hsame, hholds⟩
  have hlength : held.length = 2 := by simpa using congrArg List.length hsame
  have hget := congrArg (fun ls : List Layer => ls[1]?.map (List.length ∘ Layer.elements))
    hholds.eq_modify
  change some 1 = some held.length at hget
  rw [hlength] at hget
  cases hget

end ParticleScene.ImportJob
