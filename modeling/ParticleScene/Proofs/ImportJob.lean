import Mathlib.Algebra.Order.Floor.Div
import ParticleScene.ImportJob
import ParticleScene.Proofs.Except

/-!
# Import jobs that nobody interrupts

An import job that has the scene to itself is known by the number of chunks it has appended:
`afterChunks` is the job then, and `withElements` the scene, in which nothing is recorded yet. One
step leads from a number to the next, until the chunks are used up or the signal is found set.
Then the import is recorded once. So a job that is not cancelled leaves the scene of a direct
import, and one that is cancelled leaves that of a direct import of its first chunks.
-/

namespace ParticleScene

open Compile (Signal)

/-! ### Elements put into a layer part by part -/

lemma Layer.merge_append (l : Layer) (mode : ImportMode) (es more : List Element) :
    { l.merge mode es with elements := (l.merge mode es).elements ++ more } =
      l.merge mode (es ++ more) := by
  cases mode with
  | append => simp only [merge, List.append_assoc]
  | replace => rfl

namespace ImportJob

/-- A job that has appended `n` chunks of the elements `es`. -/
def afterChunks (index : Nat) (source : Source) (size : Nat) (es : List Element) (n : Nat) :
    ImportJob where
  target := index
  source := source
  chunkSize := size
  stage := .appending (chunks size (es.length - n) (es.drop (n * size)))
  total := es.length
  appended := min (n * size) es.length
  reports := (List.range n).map fun i => fraction (min ((i + 1) * size) es.length) es.length

/-- A scene with elements in the layer at an index that nobody has recorded. -/
def withElements (s : Scene) (index : Nat) (l : Layer) (mode : ImportMode) (es : List Element) :
    Scene :=
  { s with layers := s.layers.set index (l.merge mode es) }

variable {s : Scene} {index n size : Nat} {l : Layer} {source : Source} {es : List Element}
variable {signal : Signal}

lemma layerAt_bind_outcome (source : Source) (hl : s.layers[index]? = some l) :
    (s.layerAt index >>= fun l => (source.produce l).outcome) = (source.produce l).outcome := by
  simp only [Scene.layerAt, hl]
  rfl

lemma updateTarget_eq_ok {j : ImportJob} (hl : s.layers[j.target]? = some l) (f : Layer → Layer) :
    j.updateTarget s f = .ok { s with layers := s.layers.set j.target (f l) } := by
  simp only [updateTarget, Scene.layerAt, hl]
  rfl

lemma updateTarget_withElements (hl : s.layers[index]? = some l) {j : ImportJob}
    (hj : j.target = index) (mode : ImportMode) (part : List Element) :
    j.updateTarget (withElements s index l mode es)
        (fun l => { l with elements := l.elements ++ part }) =
      .ok (withElements s index l mode (es ++ part)) := by
  subst hj
  have hlt : j.target < s.layers.length := (List.getElem?_eq_some_iff.mp hl).1
  rw [updateTarget_eq_ok (l := l.merge mode es) (List.getElem?_set_self hlt), l.merge_append]
  simp only [withElements, List.set_set]

/-! ### One step -/

lemma stage_afterChunks_of_lt (hsize : 1 ≤ size) (hn : n * size < es.length) :
    (afterChunks index source size es n).stage = .appending
      ((es.drop (n * size)).take size ::
        chunks size (es.length - (n + 1)) (es.drop ((n + 1) * size))) := by
  have hle : n ≤ n * size := Nat.le_mul_of_pos_right n hsize
  obtain ⟨e, rest, hrest⟩ := List.exists_cons_of_ne_nil
    (List.ne_nil_of_length_pos (l := es.drop (n * size)) (by rw [List.length_drop]; omega))
  have hrounds : es.length - n = es.length - (n + 1) + 1 := by omega
  have hdrop : es.drop ((n + 1) * size) = (es.drop (n * size)).drop size := by
    rw [List.drop_drop, Nat.succ_mul]
  rw [afterChunks, hrounds, hdrop, hrest]
  rfl

lemma stage_afterChunks_of_le (hn : es.length ≤ n * size) :
    (afterChunks index source size es n).stage = .appending [] := by
  rw [afterChunks, List.drop_of_length_le hn]
  cases es.length - n <;> rfl

/-- A step that finds a chunk and no request to cancel appends the chunk. -/
lemma step_afterChunks (hl : s.layers[index]? = some l) (hsize : 1 ≤ size)
    (hn : n * size < es.length) :
    (afterChunks index source size es n).step false
        (withElements s index l source.mode (es.take (n * size))) =
      (afterChunks index source size es (n + 1),
        withElements s index l source.mode (es.take ((n + 1) * size))) := by
  have hnext : (n + 1) * size = n * size + size := Nat.succ_mul n size
  have htake : es.take (n * size) ++ (es.drop (n * size)).take size =
      es.take ((n + 1) * size) := by
    rw [hnext, List.take_add]
  have happended : min (n * size) es.length + ((es.drop (n * size)).take size).length =
      min ((n + 1) * size) es.length := by
    rw [List.length_take, List.length_drop, hnext]
    omega
  have hreports : (afterChunks index source size es n).reports ++
      [fraction (min ((n + 1) * size) es.length) es.length] =
        (afterChunks index source size es (n + 1)).reports := by
    simp only [afterChunks, List.range_succ, List.map_append, List.map_singleton]
  have hupdate : (afterChunks index source size es n).updateTarget
      (withElements s index l source.mode (es.take (n * size)))
        (fun l => { l with elements := l.elements ++ (es.drop (n * size)).take size }) =
          .ok (withElements s index l source.mode (es.take ((n + 1) * size))) := by
    rw [← htake]
    exact updateTarget_withElements hl rfl source.mode _
  simp only [step, stage_afterChunks_of_lt hsize hn, hupdate, Bool.false_eq_true, if_false]
  simp only [afterChunks, happended] at hreports ⊢
  rw [hreports]

/-- A step that finds no chunk, or a request to cancel, records what was appended and ends. -/
lemma step_close (hsize : 1 ≤ size) (hstop : es.length ≤ n * size ∨ signal n = true) :
    (afterChunks index source size es n).step (signal n)
        (withElements s index l source.mode (es.take (n * size))) =
      ((afterChunks index source size es n).finish
          (.ok ⟨es.length, min (n * size) es.length, decide (n * size < es.length)⟩),
        s.put index .imported source.description (l.merge source.mode (es.take (n * size)))) := by
  by_cases hn : n * size < es.length
  · have hset : signal n = true := hstop.resolve_left (Nat.not_le_of_lt hn)
    simp only [step, stage_afterChunks_of_lt hsize hn, hset, if_true, hn, decide_true]
    rfl
  · simp only [step, stage_afterChunks_of_le (Nat.le_of_not_lt hn), hn, decide_false]
    rfl

/-! ### Whole runs -/

lemma steps_of_ended {j : ImportJob} {r : Except Failure ImportSummary} (hj : j.stage = .ended r)
    (k : Nat) (s : Scene) : steps signal k j s = (j, s) := by
  induction k with
  | zero => rfl
  | succ k ih =>
    simp only [steps, step, hj]
    exact ih

/-- As long as the signal is not found set, each step appends one more chunk. -/
lemma steps_afterChunks (hl : s.layers[index]? = some l) (hsize : 1 ≤ size)
    (hmore : ∀ i < n, i * size < es.length) (hunset : ∀ i < n, signal i = false) (k : Nat) :
    steps signal (n + k) (afterChunks index source size es 0)
        (withElements s index l source.mode []) =
      steps signal k (afterChunks index source size es n)
        (withElements s index l source.mode (es.take (n * size))) := by
  induction n generalizing k with
  | zero => simp
  | succ n ih =>
    have hreports : (afterChunks index source size es n).reports.length = n := by
      simp [afterChunks]
    rw [Nat.add_right_comm, Nat.add_assoc,
      ih (fun i hi => hmore i (Nat.lt_succ_of_lt hi)) (fun i hi => hunset i (Nat.lt_succ_of_lt hi)),
      steps, hreports, hunset n (Nat.lt_succ_self n),
      step_afterChunks hl hsize (hmore n (Nat.lt_succ_self n))]

variable {chunkSize : Nat}

/-- A job that gets no elements ends at once and leaves the scene alone. -/
lemma run_of_error {why : Failure}
    (hread : (s.layerAt index >>= fun l => (source.produce l).outcome) = .error why) :
    run signal (start index source chunkSize) s =
      ((start index source chunkSize).finish (.error why), s) := by
  have hstep : (start index source chunkSize).step (signal 0) s =
      ((start index source chunkSize).finish (.error why), s) := by
    simp only [step, start, read, hread]
  rw [run, hstep]
  exact steps_of_ended rfl _ s

lemma withElements_append_nil (hl : s.layers[index]? = some l) :
    withElements s index l .append [] = s := by
  obtain ⟨hlt, hget⟩ := List.getElem?_eq_some_iff.mp hl
  have hsame : l.merge .append [] = s.layers[index] := by
    rw [hget, Layer.merge, List.append_nil]
  rw [withElements, hsame, List.set_getElem_self]

lemma read_of_elements (hl : s.layers[index]? = some l) (hes : source.produce l = .elements es) :
    (start index source chunkSize).read s =
      let j := afterChunks index source (max chunkSize 1) es 0
      match source.mode with
      | .replace => { j with stage := .clearing (chunks (max chunkSize 1) es.length es) }
      | .append => j := by
  have hread : (s.layerAt index >>= fun l => (source.produce l).outcome) = .ok es := by
    rw [layerAt_bind_outcome source hl, hes]
    rfl
  simp only [read, start, hread, afterChunks, Nat.zero_mul, List.drop_zero, Nat.zero_min,
    Nat.sub_zero, List.range_zero, List.map_nil]
  cases source.mode <;> rfl

lemma step_clearing {j : ImportJob} {parts : List (List Element)}
    (hl : s.layers[j.target]? = some l) (hstage : j.stage = .clearing parts) (cancelled : Bool) :
    j.step cancelled s =
      ({ j with stage := .appending parts }, withElements s j.target l .replace []) := by
  simp only [step, hstage, updateTarget_eq_ok hl]
  rfl

/-- After it has read its elements, and dropped the old ones if they are to be replaced, a job
has appended no chunk. -/
lemma run_eq_steps (signal : Signal) (chunkSize : Nat) (hl : s.layers[index]? = some l)
    (hes : source.produce l = .elements es) :
    ∃ k, run signal (start index source chunkSize) s =
      steps signal (es.length + 1 + k) (afterChunks index source (max chunkSize 1) es 0)
        (withElements s index l source.mode []) := by
  have hfirst : (start index source chunkSize).step (signal 0) s =
      ((start index source chunkSize).read s, s) := rfl
  rw [run, hfirst, read_of_elements hl hes]
  cases source.mode with
  | append => exact ⟨1, by rw [withElements_append_nil hl]; rfl⟩
  | replace =>
    have hstage : (afterChunks index source (max chunkSize 1) es 0).stage =
        .appending (chunks (max chunkSize 1) es.length es) := by
      simp only [afterChunks, Nat.sub_zero, Nat.zero_mul, List.drop_zero]
    refine ⟨0, ?_⟩
    change steps signal (es.length + 1 + 1) _ s = _
    rw [steps, step_clearing hl rfl, ← hstage]
    rfl

/-- A run is known by the number of chunks until there are none left or the signal is found
set. -/
lemma run_of_elements (hl : s.layers[index]? = some l) (hes : source.produce l = .elements es)
    (hmore : ∀ i < n, i * max chunkSize 1 < es.length) (hunset : ∀ i < n, signal i = false)
    (hstop : es.length ≤ n * max chunkSize 1 ∨ signal n = true) :
    run signal (start index source chunkSize) s =
      ((afterChunks index source (max chunkSize 1) es n).finish
          (.ok ⟨es.length, min (n * max chunkSize 1) es.length,
            decide (n * max chunkSize 1 < es.length)⟩),
        s.put index .imported source.description
          (l.merge source.mode (es.take (n * max chunkSize 1)))) := by
  have hsize : 1 ≤ max chunkSize 1 := Nat.le_max_right chunkSize 1
  have hn : n ≤ es.length := by
    cases n with
    | zero => exact Nat.zero_le _
    | succ n =>
      have hlt := hmore n (Nat.lt_succ_self n)
      exact Nat.lt_of_le_of_lt (Nat.le_mul_of_pos_right n hsize) hlt
  have hreports : (afterChunks index source (max chunkSize 1) es n).reports.length = n := by
    simp [afterChunks]
  obtain ⟨k, hrun⟩ := run_eq_steps signal chunkSize hl hes
  have hsteps : es.length + 1 + k = n + (es.length - n + k + 1) := by omega
  rw [hrun, hsteps, steps_afterChunks hl hsize hmore hunset, steps, hreports,
    step_close hsize hstop]
  exact steps_of_ended rfl _ _

/-! ### Jobs and direct imports -/

/-- Chunk number `i`, counted from zero, exists when fewer elements lie before it than there
are. -/
lemma lt_chunkCount_iff (hsize : 0 < size) (i count : Nat) :
    i < count ⌈/⌉ size ↔ i * size < count := by
  rw [← Nat.not_le, ceilDiv_le_iff_le_mul hsize, Nat.not_le, Nat.mul_comm]

/-- A job that nobody cancels leaves what a direct import leaves. -/
lemma run_uncancelled (hl : s.layers[index]? = some l) (hes : source.produce l = .elements es)
    (hunset : ∀ i, i * max chunkSize 1 < es.length → signal i = false) :
    run signal (start index source chunkSize) s =
      ((afterChunks index source (max chunkSize 1) es
            (es.length ⌈/⌉ max chunkSize 1)).finish
          (.ok ⟨es.length, es.length, false⟩),
        s.put index .imported source.description (l.merge source.mode es)) := by
  have hcount := lt_chunkCount_iff (Nat.le_max_right chunkSize 1)
  have hall : es.length ≤ es.length ⌈/⌉ max chunkSize 1 * max chunkSize 1 :=
    Nat.le_of_not_lt fun h => Nat.lt_irrefl _ ((hcount _ _).mpr h)
  rw [run_of_elements hl hes (fun i hi => (hcount i _).mp hi)
    (fun i hi => hunset i ((hcount i _).mp hi)) (.inl hall), Nat.min_eq_right hall,
    List.take_of_length_le hall, decide_eq_false (Nat.not_lt_of_le hall)]

lemma importElements_of_elements (hl : s.layers[index]? = some l)
    (hes : source.produce l = .elements es) :
    s.importElements index source =
      .ok (es.length,
        s.put index .imported source.description (l.merge source.mode es)) := by
  simp only [Scene.importElements, Scene.layerAt, hl, bind, Except.bind, hes, Production.outcome]
  rfl

lemma importElements_of_error {why : Failure}
    (hread : (s.layerAt index >>= fun l => (source.produce l).outcome) = .error why) :
    s.importElements index source = .error why := by
  cases hl : s.layerAt index with
  | error why' =>
    rw [hl] at hread
    cases hread
    simp only [Scene.importElements, hl]
    rfl
  | ok l =>
    rw [hl] at hread
    have hout : (source.produce l).outcome = .error why := hread
    simp only [Scene.importElements, hl, bind, Except.bind, hout]

lemma runImport_eq_run (s : Scene) (signal : Signal) (j : ImportJob) :
    SharedScene.runImport { scene := s } signal j =
      ((j.run signal s).1, { scene := (j.run signal s).2 }) := rfl

/-- A job that has the scene to itself fails as a direct import does, and then leaves the scene
alone. If nobody cancels it, it leaves the scene of a direct import, recorded once, and reports
each chunk. If the signal is found set before a chunk, the elements before that chunk are put
into the layer in the same way and recorded once. -/
theorem runImport_start (s : Scene) (index : Nat) (source : Source) (chunkSize : Nat)
    (signal : Signal) :
    let size := max chunkSize 1
    let run := SharedScene.runImport { scene := s } signal (start index source chunkSize)
    (s.layers.length ≤ index →
      s.importElements index source = .error (.layerNotFound index s.layers.length) ∧
      run.1.outcome = .error (.layerNotFound index s.layers.length) ∧
      run.2 = { scene := s }) ∧
    ∀ l, s.layers[index]? = some l →
      (∀ why, source.produce l = .refused why →
        s.importElements index source = .error why ∧
        run.1.outcome = .error why ∧
        run.2 = { scene := s }) ∧
      (source.produce l = .crashed →
        run.1.outcome = .error .workerStopped ∧
        run.2 = { scene := s }) ∧
      ∀ es, source.produce l = .elements es →
        ((∀ i, i * size < es.length → signal i = false) →
          s.importElements index source = .ok (es.length, run.2.scene) ∧
          run.2.scene.layers = s.layers.set index (l.merge source.mode es) ∧
          run.2.scene.history =
            s.history.push .imported source.description run.2.scene.layers ∧
          run.1.outcome = .ok ⟨es.length, es.length, false⟩ ∧
          run.1.reports = (List.range (es.length ⌈/⌉ size)).map fun i =>
            fraction (min ((i + 1) * size) es.length) es.length) ∧
        ∀ n, n * size < es.length → (∀ i < n, signal i = false) → signal n = true →
          run.2.scene.layers = s.layers.set index (l.merge source.mode (es.take (n * size))) ∧
          run.2.scene.history =
            s.history.push .imported source.description run.2.scene.layers ∧
          run.1.outcome = .ok ⟨es.length, min (n * size) es.length, true⟩ ∧
          run.1.reports = (List.range n).map fun i =>
            fraction (min ((i + 1) * size) es.length) es.length := by
  dsimp only
  rw [runImport_eq_run]
  refine ⟨fun hindex => ?missing, fun l hl => ⟨fun why hwhy => ?refused, fun hcrashed => ?crashed,
    fun es hes => ⟨fun hunset => ?whole, fun n hn hbefore hset => ?cancelled⟩⟩⟩
  case missing =>
    have hread : (s.layerAt index >>= fun l => (source.produce l).outcome) =
        .error (.layerNotFound index s.layers.length) := by
      simp only [Scene.layerAt, List.getElem?_eq_none hindex]
      rfl
    rw [run_of_error hread]
    exact ⟨importElements_of_error hread, rfl, rfl⟩
  case refused =>
    have hread := layerAt_bind_outcome source hl
    rw [hwhy] at hread
    rw [run_of_error hread]
    exact ⟨importElements_of_error hread, rfl, rfl⟩
  case crashed =>
    have hread := layerAt_bind_outcome source hl
    rw [hcrashed] at hread
    rw [run_of_error hread]
    exact ⟨rfl, rfl⟩
  case whole =>
    rw [run_uncancelled hl hes hunset]
    exact ⟨importElements_of_elements hl hes, rfl, rfl, rfl, rfl⟩
  case cancelled =>
    have hmore : ∀ i < n, i * max chunkSize 1 < es.length := fun i hi =>
      Nat.lt_of_le_of_lt (Nat.mul_le_mul_right _ (Nat.le_of_lt hi)) hn
    rw [run_of_elements hl hes hmore hbefore (.inr hset), decide_eq_true hn]
    exact ⟨rfl, rfl, rfl, rfl⟩

/-- An element that stands at a place of the first axis. -/
def pointAt (x : Float) : Element where
  kind := .point
  position := ⟨x, 0.0⟩

def onePoint : Layer where
  elements := [pointAt 0.0]

/-- A source of three points that take the place of what was there. -/
def threePoints : Source :=
  .ofElements [pointAt 1.0, pointAt 2.0, pointAt 3.0] .replace

/-- A job in chunks of two that is cancelled after its first report has dropped the old point and
keeps two of the new ones. -/
theorem runImport_start_threePoints :
    let s : Scene := .ofLayers [onePoint]
    let signal : Signal := fun reported => 1 ≤ reported
    let run := SharedScene.runImport { scene := s } signal (start 0 threePoints 2)
    s.layers[0]? = some onePoint ∧
      1 * 2 < [pointAt 1.0, pointAt 2.0, pointAt 3.0].length ∧
      (∀ i < 1, signal i = false) ∧ signal 1 = true ∧
      run.2.scene.layers = [{ onePoint with elements := [pointAt 1.0, pointAt 2.0] }] ∧
      run.2.scene.history =
        s.history.push .imported "Add elements" run.2.scene.layers ∧
      run.1.outcome = .ok ⟨3, 2, true⟩ ∧
      run.1.reports = [fraction 2 3] := by
  have hbefore : ∀ i < 1, decide (1 ≤ i) = false := fun i hi =>
    decide_eq_false (Nat.not_le_of_lt hi)
  obtain ⟨hlayers, hhistory, houtcome, hreports⟩ :=
    (((runImport_start (.ofLayers [onePoint]) 0 threePoints 2 fun reported => 1 ≤ reported).2
      onePoint rfl).2.2 _ rfl).2 1 (by decide) hbefore rfl
  exact ⟨rfl, by decide, hbefore, rfl, hlayers, hhistory, houtcome, hreports⟩

end ImportJob

end ParticleScene
