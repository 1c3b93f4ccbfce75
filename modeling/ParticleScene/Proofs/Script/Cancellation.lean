import ParticleScene.Proofs.Script.Runs
import ParticleScene.Proofs.Script.Uncancelled

/-!
# Cancelled compilations

A compilation looks at the signal before each layer and before each batch of lines, and each of
these looks comes one report after the look before it. So the looks are numbered by the reports
that have been delivered: those up to the number of layers, and one more for each further batch.
The first look that finds the signal set ends the compilation, and the reports until then are
those of the compilation that nobody cancels. Without such a look the signal makes no difference.
-/

namespace ParticleScene.Compile

variable {o : Options} {signal : Signal} {total processed written reported base n : Nat}
variable {s : Running} {ls : List Layer}

/-! ### The layers -/

lemma length_reports_emitLayers :
    (emitLayers o uncancelled total ls s processed reported).reports.length = ls.length := by
  induction ls generalizing s processed reported with
  | nil => rfl
  | cons l rest ih => simp [emitLayers, uncancelled, ih]

/-- A signal that no look finds set makes no difference to the layers. -/
lemma emitLayers_of_unset (hunset : ∀ i < ls.length, signal (reported + i) = false) :
    emitLayers o signal total ls s processed reported =
      emitLayers o uncancelled total ls s processed reported := by
  induction ls generalizing s processed reported with
  | nil => rfl
  | cons l rest ih =>
    have hnow : signal reported = false := hunset 0 (Nat.zero_lt_succ _)
    have hrest : ∀ i < rest.length, signal (reported + 1 + i) = false := by
      intro i hi
      rw [Nat.add_right_comm]
      exact hunset (i + 1) (Nat.succ_lt_succ hi)
    simp only [emitLayers, hnow, uncancelled, Bool.false_eq_true, if_false]
    rw [ih hrest]

/-- The look before the layer at place `n` finds the signal set, and no look before it does. -/
lemma emitLayers_of_set (hn : n < ls.length) (hbefore : ∀ i < n, signal (reported + i) = false)
    (hset : signal (reported + n) = true) :
    (emitLayers o signal total ls s processed reported).cancelled = true ∧
      (emitLayers o signal total ls s processed reported).reports =
        (emitLayers o uncancelled total ls s processed reported).reports.take n := by
  induction ls generalizing s processed reported n with
  | nil => exact absurd hn (Nat.not_lt_zero n)
  | cons l rest ih =>
    cases n with
    | zero =>
      have hnow : signal reported = true := hset
      simp [emitLayers, hnow, Part.stopped]
    | succ n =>
      have hnow : signal reported = false := hbefore 0 (Nat.zero_lt_succ n)
      have hrest : ∀ i < n, signal (reported + 1 + i) = false := by
        intro i hi
        rw [Nat.add_right_comm]
        exact hbefore (i + 1) (Nat.succ_lt_succ hi)
      have hset' : signal (reported + 1 + n) = true := by
        rw [Nat.add_right_comm]
        exact hset
      simp only [emitLayers, hnow, uncancelled, Bool.false_eq_true, if_false, List.take_succ_cons]
      obtain ⟨hcancelled, hreports⟩ := ih (Nat.lt_of_succ_lt_succ hn) hrest hset'
      exact ⟨hcancelled, congrArg (_ :: ·) hreports⟩

/-! ### The lines -/

/-- What is reported with the line at place `written`. -/
def lineReports (total written : Nat) : List Progress :=
  if written % batch = 0 || written + 1 = total then [.writing (fraction (written + 1) total)]
  else []

/-- How many batches begin with one of the first `written` lines. -/
def batchesBegun (written : Nat) : Nat :=
  (written + (batch - 1)) / batch

/-- A line that is not the last is reported when a batch begins with it. -/
lemma batchesBegun_succ (hmore : written + 1 < total) :
    batchesBegun (written + 1) = batchesBegun written + (lineReports total written).length := by
  have hlast : written + 1 ≠ total := Nat.ne_of_lt hmore
  by_cases hbatch : written % batch = 0
  · simp only [lineReports, hbatch, decide_true, Bool.true_or, if_true, List.length_singleton]
    simp only [batchesBegun, batch] at *
    omega
  · simp only [lineReports, hbatch, hlast, decide_false, Bool.or_self, Bool.false_eq_true,
      if_false, List.length_nil]
    simp only [batchesBegun, batch] at *
    omega

variable {line : String} {lines : List String}

/-- A line is written unless a batch begins with it and the signal is set. -/
lemma writeLines_cons (hunset : written % batch = 0 → signal reported = false) :
    writeLines signal total (line :: lines) written reported =
      let part := writeLines signal total lines (written + 1)
        (reported + (lineReports total written).length)
      { part with
        lines := line :: part.lines
        reports := lineReports total written ++ part.reports } := by
  have hlook : (decide (written % batch = 0) && signal reported) = false := by
    by_cases hbatch : written % batch = 0
    · simp [hunset hbatch]
    · simp [hbatch]
  simp only [writeLines, hlook, Bool.false_eq_true, if_false, lineReports]

/-- A signal that no look finds set makes no difference to the lines. -/
lemma writeLines_of_unset (base : Nat) (hlines : written + lines.length = total)
    (hreported : written < total → reported = base + batchesBegun written)
    (hunset : ∀ i, written ≤ batch * i → batch * i < total → signal (base + i) = false) :
    writeLines signal total lines written reported =
      writeLines uncancelled total lines written reported := by
  induction lines generalizing written reported with
  | nil => rfl
  | cons line rest ih =>
    rw [List.length_cons] at hlines
    have hnow : written % batch = 0 → signal reported = false := by
      intro hbatch
      rw [hreported (by omega)]
      apply hunset
      all_goals
        simp only [batchesBegun, batch] at *
        omega
    have hreported' : written + 1 < total →
        reported + (lineReports total written).length = base + batchesBegun (written + 1) := by
      intro hmore
      rw [hreported (Nat.lt_of_succ_lt hmore), batchesBegun_succ hmore, Nat.add_assoc]
    rw [writeLines_cons hnow, writeLines_cons fun _ => rfl,
      ih (by omega) hreported' fun i hi => hunset i (Nat.le_of_succ_le hi)]

/-- The look before batch `n` finds the signal set, and no look before it does. -/
lemma writeLines_of_set (base : Nat) (hlines : written + lines.length = total)
    (hreported : written < total → reported = base + batchesBegun written)
    (hwritten : written ≤ batch * n) (hn : batch * n < total)
    (hbefore : ∀ i < n, signal (base + i) = false) (hset : signal (base + n) = true) :
    (writeLines signal total lines written reported).cancelled = true ∧
      (writeLines signal total lines written reported).reports =
        (writeLines uncancelled total lines written reported).reports.take
          (n - batchesBegun written) ∧
      n - batchesBegun written ≤
        (writeLines uncancelled total lines written reported).reports.length := by
  induction lines generalizing written reported with
  | nil =>
    rw [List.length_nil] at hlines
    omega
  | cons line rest ih =>
    rw [List.length_cons] at hlines
    by_cases hend : written = batch * n
    · have hbegun : batchesBegun written = n := by
        simp only [batchesBegun, batch] at *
        omega
      have hnow : signal reported = true := by
        rw [hreported (by omega), hbegun]
        exact hset
      have hbatch : written % batch = 0 := by
        rw [hend]
        exact Nat.mul_mod_right batch n
      simp [writeLines, hnow, hbatch, hbegun, Part.stopped]
    · have hmore : written + 1 < total := by omega
      have hnow : written % batch = 0 → signal reported = false := by
        intro hbatch
        rw [hreported (by omega)]
        apply hbefore
        simp only [batchesBegun, batch] at *
        omega
      have hbegun := batchesBegun_succ hmore
      have hreported' : reported + (lineReports total written).length =
          base + batchesBegun (written + 1) := by
        rw [hreported (by omega), hbegun, Nat.add_assoc]
      have hle : batchesBegun (written + 1) ≤ n := by
        simp only [batchesBegun, batch] at *
        omega
      have hsplit : n - batchesBegun written =
          (lineReports total written).length + (n - batchesBegun (written + 1)) := by omega
      obtain ⟨hcancelled, hreports, hlength⟩ :=
        ih (by omega) (fun _ => hreported') (by omega)
      rw [writeLines_cons hnow, writeLines_cons fun _ => rfl, hsplit]
      refine ⟨hcancelled, ?_, ?_⟩
      · rw [List.take_length_add_append]
        exact congrArg (lineReports total written ++ ·) hreports
      · rw [List.length_append]
        exact Nat.add_le_add_left hlength _

/-! ### The whole compilation -/

/-- What comes of the lines when nobody cancels before they are written. -/
def writing (o : Options) (signal : Signal) (ls : List Layer) : Part String :=
  writeLines signal (script o ls).lineCount (texts o (emitted o uncancelled ls).lines) 0
    (ordered ls).length

lemma length_reports_emitted : (emitted o uncancelled ls).reports.length = (ordered ls).length :=
  length_reports_emitLayers

/-- Cancellation is asked for while report number `n` is delivered, or from the start for zero. -/
def cancelledAfter (n : Nat) : Signal := fun reported => n ≤ reported

lemma texts_length_pos (lines : List Line) : 0 < (texts o lines).length := by
  obtain ⟨m, runs, hgroup⟩ := Runs.group_cons_eq (Line.title o.resolvedSkillName).text
    ((Line.heading :: lines).map Line.text)
  unfold texts
  split
  · simp only [Runs.collapse, Line.header, List.cons_append, List.nil_append, List.map_cons,
      List.length_map] at *
    rw [hgroup]
    exact Nat.zero_lt_succ _
  · simp [Line.header]

end ParticleScene.Compile

namespace ParticleScene

open Compile

variable {o : Options} {signal : Signal} {ls : List Layer}

/-- Whether a look at the signal follows report number `n`: one comes before each of `shown`
layers and before each batch of `count` lines. -/
def IsLook (shown count n : Nat) : Prop :=
  n ≤ shown ∨ batch * (n - shown) < count

/-- A signal that is found set before no layer leaves the lines to decide. -/
lemma compile_of_emitted (h : emitted o signal ls = emitted o uncancelled ls) :
    compile o signal ls =
      { result := if (writing o signal ls).cancelled then .error .cancelled
          else .ok { script o ls with text := Text.unlines (writing o signal ls).lines }
        reports := (emitted o uncancelled ls).reports ++ (writing o signal ls).reports } := by
  have hlayers : (emitted o uncancelled ls).cancelled = false := emitLayers_uncancelled ..
  simp only [compile, h, hlayers, length_reports_emitted, Bool.false_eq_true, if_false]
  change (if (writing o signal ls).cancelled then _ else _) = _
  cases (writing o signal ls).cancelled <;> rfl

/-- A signal that no look finds set makes no difference. -/
lemma compile_of_unset
    (hunset : ∀ i, IsLook (ordered ls).length (script o ls).lineCount i → signal i = false) :
    compile o signal ls = compile o uncancelled ls := by
  have hlayers : emitted o signal ls = emitted o uncancelled ls := by
    apply emitLayers_of_unset
    intro i hi
    rw [Nat.zero_add]
    exact hunset i (.inl (Nat.le_of_lt hi))
  have hlines : writing o signal ls = writing o uncancelled ls := by
    apply writeLines_of_unset (ordered ls).length (Nat.zero_add _) fun _ => rfl
    intro i _ hi
    exact hunset _ (.inr (by rwa [Nat.add_sub_cancel_left]))
  rw [compile_of_emitted hlayers, compile_of_emitted rfl, hlines]

/-- The first look that finds the signal set ends the compilation with the reports until then. -/
lemma compile_of_set {n : Nat} (hlook : IsLook (ordered ls).length (script o ls).lineCount n)
    (hbefore : ∀ i < n, signal i = false) (hset : signal n = true) :
    (compile o signal ls).result = .error .cancelled ∧
      (compile o signal ls).reports = (compile o uncancelled ls).reports.take n ∧
      n ≤ (compile o uncancelled ls).reports.length := by
  have hwhole : (compile o uncancelled ls).reports =
      (emitted o uncancelled ls).reports ++ (writing o uncancelled ls).reports := by
    rw [compile_of_emitted rfl]
  rw [hwhole, List.length_append, length_reports_emitted]
  by_cases hn : n < (ordered ls).length
  · -- the look before a layer
    obtain ⟨hcancelled, hreports⟩ : (emitted o signal ls).cancelled = true ∧
        (emitted o signal ls).reports = (emitted o uncancelled ls).reports.take n :=
      emitLayers_of_set hn (by simpa using hbefore) (by rwa [Nat.zero_add])
    have hle : n ≤ (emitted o uncancelled ls).reports.length := by
      rw [length_reports_emitted]
      exact Nat.le_of_lt hn
    rw [List.take_append_of_le_length hle, ← hreports]
    simp only [compile, hcancelled, if_true]
    exact ⟨trivial, trivial, Nat.le_add_right_of_le (Nat.le_of_lt hn)⟩
  · -- the look before a batch of lines
    obtain ⟨m, rfl⟩ := Nat.exists_eq_add_of_le (Nat.le_of_not_lt hn)
    have hm : batch * m < (script o ls).lineCount := by
      rcases hlook with hlook | hlook
      · obtain rfl : m = 0 := by omega
        exact texts_length_pos _
      · rwa [Nat.add_sub_cancel_left] at hlook
    have hlayers : emitted o signal ls = emitted o uncancelled ls :=
      emitLayers_of_unset fun i hi => hbefore _ (by rw [Nat.zero_add]; exact Nat.lt_add_right m hi)
    obtain ⟨hcancelled, hreports, hlength⟩ : (writing o signal ls).cancelled = true ∧
        (writing o signal ls).reports = (writing o uncancelled ls).reports.take m ∧
        m ≤ (writing o uncancelled ls).reports.length :=
      writeLines_of_set (ordered ls).length (Nat.zero_add _) (fun _ => rfl) (Nat.zero_le _) hm
        (fun i hi => hbefore _ (Nat.add_lt_add_left hi _)) hset
    rw [compile_of_emitted hlayers, hcancelled, hreports, ← length_reports_emitted,
      List.take_length_add_append]
    exact ⟨rfl, rfl, Nat.add_le_add_left hlength _⟩

/-- Cancelling with report number `n` ends a compilation just if a look follows that report, and
then the reports are the first `n` of all. Otherwise the request comes too late and changes
nothing. -/
theorem compile_cancelledAfter (o : Options) (ls : List Layer) (n : Nat) :
    ∃ whole : Script,
      (compile o uncancelled ls).result = .ok whole ∧
      ((compile o (cancelledAfter n) ls).result = .error .cancelled ↔
        n ≤ (ls.filter Layer.isShown).length ∨
          100 * (n - (ls.filter Layer.isShown).length) < whole.lineCount) ∧
      if n ≤ (ls.filter Layer.isShown).length ∨
          100 * (n - (ls.filter Layer.isShown).length) < whole.lineCount then
        (compile o (cancelledAfter n) ls).reports = (compile o uncancelled ls).reports.take n ∧
          (compile o (cancelledAfter n) ls).reports.length = n
      else compile o (cancelledAfter n) ls = compile o uncancelled ls := by
  have hshown : (ls.filter Layer.isShown).length = (ordered ls).length :=
    (List.length_mergeSort _).symm
  have hwhole := compile_uncancelled o ls
  refine ⟨script o ls, hwhole, ?_⟩
  rw [hshown]
  by_cases hlook : n ≤ (ordered ls).length ∨
      100 * (n - (ordered ls).length) < (script o ls).lineCount
  · have hbefore : ∀ i < n, cancelledAfter n i = false := fun i hi =>
      decide_eq_false (Nat.not_le_of_lt hi)
    have hset : cancelledAfter n n = true := decide_eq_true (Nat.le_refl n)
    obtain ⟨hresult, hreports, hn⟩ := compile_of_set hlook hbefore hset
    refine ⟨⟨fun _ => hlook, fun _ => hresult⟩, ?_⟩
    rw [if_pos hlook, hreports, List.length_take, Nat.min_eq_left hn]
    exact ⟨rfl, rfl⟩
  · have hsame : compile o (cancelledAfter n) ls = compile o uncancelled ls := by
      apply compile_of_unset
      intro i hi
      apply decide_eq_false
      intro hni
      -- looks are numbered without a gap
      apply hlook
      simp only [IsLook, batch] at *
      omega
    have hresult : (compile o (cancelledAfter n) ls).result ≠ .error .cancelled := by
      rw [hsame, hwhole]
      intro h
      cases h
    refine ⟨⟨fun h => absurd h hresult, fun h => absurd h hlook⟩, ?_⟩
    rwa [if_neg hlook]

end ParticleScene
