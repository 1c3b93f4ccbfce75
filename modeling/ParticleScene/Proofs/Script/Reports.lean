import Mathlib.Data.List.Sort
import ParticleScene.Proofs.Script.Cancellation
import ParticleScene.Proofs.Script.TickOrder

/-!
# The reports of a compilation

A compilation that nobody cancels reports after each layer how many of all elements are done, and
while it writes, with the first line of each batch and with the last line, how many of all lines
are written. Both counts grow from report to report up to the whole, and neither is a part of
nothing.
-/

namespace ParticleScene.Compile

variable {o : Options} {total processed written reported count : Nat}
variable {s : Running} {ls : List Layer}

/-! ### Counts -/

/-- How many elements are done after each layer. -/
def elementsDone (ls : List Layer) : List Nat :=
  (List.range ls.length).map fun i => elementTotal (ls.take (i + 1))

/-- How many of `count` lines are written with the first line of each batch. -/
def batchStarts (count : Nat) : List Nat :=
  ((List.range count).filter fun j => batch * j < count).map fun j => batch * j + 1

/-- How many of `count` lines are written at each report: with the first line of each batch, and
with the last line unless a batch begins with it. -/
def linesDone (count : Nat) : List Nat :=
  if (batchStarts count).getLast? = some count then batchStarts count
  else batchStarts count ++ [count]

lemma elementTotal_cons (l : Layer) (ls : List Layer) :
    elementTotal (l :: ls) = l.elements.length + elementTotal ls := by
  simp [elementTotal]

lemma elementsDone_cons (l : Layer) (ls : List Layer) :
    elementsDone (l :: ls) =
      l.elements.length :: (elementsDone ls).map fun p => l.elements.length + p := by
  simp only [elementsDone, List.length_cons, List.range_succ_eq_map, List.map_cons, List.map_map,
    List.take_succ_cons, elementTotal_cons]
  rfl

lemma getLast?_elementsDone (hne : ls ≠ []) :
    (elementsDone ls).getLast? = some (elementTotal ls) := by
  obtain ⟨n, hn⟩ := Nat.exists_eq_add_one_of_ne_zero (List.length_pos_of_ne_nil hne).ne'
  rw [elementsDone, hn, List.range_succ, List.map_append, List.map_singleton,
    List.getLast?_concat, ← hn, List.take_length]

lemma pos_of_mem_elementsDone (hls : ∀ l ∈ ls, l.elements ≠ []) {n : Nat}
    (hn : n ∈ elementsDone ls) : 0 < n := by
  cases ls with
  | nil => exact absurd hn List.not_mem_nil
  | cons l rest =>
    have hl := List.length_pos_of_ne_nil (hls l List.mem_cons_self)
    rw [elementsDone_cons] at hn
    rcases List.mem_cons.mp hn with rfl | hn
    · exact hl
    · obtain ⟨p, -, rfl⟩ := List.mem_map.mp hn
      exact Nat.add_pos_left hl p

/-- Where no layer is empty, more elements are done after each layer than before it. -/
lemma pairwise_elementsDone (hls : ∀ l ∈ ls, l.elements ≠ []) :
    (elementsDone ls).Pairwise (· < ·) := by
  induction ls with
  | nil => exact .nil
  | cons l rest ih =>
    obtain ⟨hl, hrest⟩ := List.forall_mem_cons.mp hls
    rw [elementsDone_cons, List.pairwise_cons]
    refine ⟨fun n hn => ?_, List.pairwise_map.mpr ((ih hrest).imp (Nat.add_lt_add_left · _))⟩
    obtain ⟨p, hp, rfl⟩ := List.mem_map.mp hn
    exact Nat.lt_add_of_pos_right (pos_of_mem_elementsDone hrest hp)

lemma mem_batchStarts {n : Nat} :
    n ∈ batchStarts count ↔ ∃ j, batch * j < count ∧ n = batch * j + 1 := by
  simp only [batchStarts, List.mem_map, List.mem_filter, List.mem_range, decide_eq_true_eq]
  constructor
  · rintro ⟨j, ⟨-, hj⟩, rfl⟩
    exact ⟨j, hj, rfl⟩
  · rintro ⟨j, hj, rfl⟩
    refine ⟨j, ⟨?_, hj⟩, rfl⟩
    simp only [batch] at hj
    omega

lemma pairwise_batchStarts (count : Nat) : (batchStarts count).Pairwise (· < ·) := by
  refine List.pairwise_map.mpr ((List.pairwise_lt_range.sublist List.filter_sublist).imp ?_)
  intro i j hij
  simp only [batch]
  omega

lemma le_of_mem_batchStarts {n : Nat} (hn : n ∈ batchStarts count) : n ≤ count := by
  obtain ⟨j, hj, rfl⟩ := mem_batchStarts.mp hn
  exact hj

/-- The greatest count is the last one. -/
lemma getLast?_batchStarts (hcount : count ∈ batchStarts count) :
    (batchStarts count).getLast? = some count := by
  obtain ⟨before, after, heq⟩ := List.append_of_mem hcount
  cases after with
  | nil => rw [heq, List.getLast?_concat]
  | cons n rest =>
    have hn : n ≤ count := le_of_mem_batchStarts (heq ▸ by simp)
    have hascending := heq ▸ pairwise_batchStarts count
    have hlt : count < n :=
      List.rel_of_pairwise_cons (List.pairwise_append.mp hascending).2.1 List.mem_cons_self
    exact absurd hn (Nat.not_le_of_lt hlt)

lemma mem_linesDone {n : Nat} :
    n ∈ linesDone count ↔ (∃ j, batch * j < count ∧ n = batch * j + 1) ∨ n = count := by
  rw [← mem_batchStarts, linesDone]
  split
  · rename_i hlast
    refine ⟨.inl, fun h => h.elim id ?_⟩
    rintro rfl
    exact List.mem_of_getLast? hlast
  · rw [List.mem_append, List.mem_singleton]

lemma pairwise_linesDone (count : Nat) : (linesDone count).Pairwise (· < ·) := by
  rw [linesDone]
  split
  · exact pairwise_batchStarts count
  · rename_i hlast
    refine List.pairwise_append.mpr ⟨pairwise_batchStarts count, List.pairwise_singleton .., ?_⟩
    intro n hn m hm
    obtain rfl := List.mem_singleton.mp hm
    refine lt_of_le_of_ne (le_of_mem_batchStarts hn) ?_
    rintro rfl
    exact hlast (getLast?_batchStarts hn)

lemma getLast?_linesDone (count : Nat) : (linesDone count).getLast? = some count := by
  rw [linesDone]
  split
  · assumption
  · exact List.getLast?_concat

/-! ### The layers -/

lemma reports_emitLayers :
    (emitLayers o uncancelled total ls s processed reported).reports =
      (elementsDone ls).map fun p => .processing (fraction (processed + p) total) := by
  induction ls generalizing s processed reported with
  | nil => rfl
  | cons l rest ih =>
    simp only [emitLayers, uncancelled, Bool.false_eq_true, if_false, elementsDone_cons,
      List.map_cons, List.map_map]
    rw [ih]
    simp [Function.comp_def, Nat.add_assoc]

/-! ### The lines -/

lemma reports_writeLines {lines : List String} :
    (writeLines uncancelled total lines written reported).reports =
      (List.range' written lines.length).flatMap (lineReports total) := by
  induction lines generalizing written reported with
  | nil => rfl
  | cons line rest ih =>
    rw [writeLines_cons fun _ => rfl, List.length_cons, List.range'_succ, List.flatMap_cons, ← ih]

/-- The lines that are reported, counted from one. -/
lemma linesDone_eq (hcount : 0 < count) :
    linesDone count =
      ((List.range count).filter fun i => i % batch = 0 || i + 1 = count).map (· + 1) := by
  have hascending : (((List.range count).filter
      fun i => i % batch = 0 || i + 1 = count).map (· + 1)).Pairwise (· < ·) :=
    List.pairwise_map.mpr
      ((List.pairwise_lt_range.sublist List.filter_sublist).imp Nat.succ_lt_succ)
  refine (pairwise_linesDone count).eq_of_mem_iff hascending fun n => ?_
  simp only [mem_linesDone, List.mem_map, List.mem_filter, List.mem_range, Bool.or_eq_true,
    decide_eq_true_eq]
  simp only [batch]
  constructor
  · rintro (⟨j, hj, rfl⟩ | rfl)
    · exact ⟨100 * j, ⟨hj, .inl (Nat.mul_mod_right 100 j)⟩, rfl⟩
    · exact ⟨n - 1, by omega, by omega⟩
  · rintro ⟨i, ⟨hi, hbatch | hlast⟩, rfl⟩
    · exact .inl ⟨i / 100, by omega, by omega⟩
    · exact .inr hlast

/-- The reports of all lines. -/
lemma flatMap_lineReports (hcount : 0 < count) :
    (List.range count).flatMap (lineReports count) =
      (linesDone count).map fun n => .writing (fraction n count) := by
  rw [linesDone_eq hcount, List.map_map]
  generalize List.range count = places
  induction places with
  | nil => rfl
  | cons i rest ih =>
    rw [List.flatMap_cons, ih, lineReports, List.filter_cons]
    split <;> rfl

/-! ### The whole compilation -/

lemma reports_emitted :
    (emitted o uncancelled ls).reports =
      (elementsDone (ordered ls)).map
        fun n => .processing (fraction n (elementTotal (ordered ls))) := by
  simp only [emitted, reports_emitLayers, Nat.zero_add]

lemma reports_writing :
    (writing o uncancelled ls).reports =
      (linesDone (script o ls).lineCount).map
        fun n => .writing (fraction n (script o ls).lineCount) := by
  have hpos : 0 < (script o ls).lineCount := texts_length_pos _
  rw [writing, reports_writeLines, ← flatMap_lineReports hpos, List.range_eq_range']
  rfl

end ParticleScene.Compile

namespace ParticleScene

open Compile

/-- The reports of a compilation that nobody cancels: after each shown layer how many elements are
done, then how many lines are written, as parts of a whole that is not zero. The counts of either
kind grow up to the whole, which is reported once. -/
theorem reports_of_compile (o : Options) (ls : List Layer) :
    ∃ (shown : List Layer) (whole : Script),
      InTickOrder (ls.filter Layer.isShown) shown ∧
      (compile o uncancelled ls).result = .ok whole ∧
      (compile o uncancelled ls).reports =
        (elementsDone shown).map (fun n => .processing (fraction n (elementTotal shown))) ++
          (linesDone whole.lineCount).map (fun n => .writing (fraction n whole.lineCount)) ∧
      (elementsDone shown).Pairwise (· < ·) ∧
      (shown ≠ [] → 0 < elementTotal shown ∧
        (elementsDone shown).getLast? = some (elementTotal shown)) ∧
      (linesDone whole.lineCount).Pairwise (· < ·) ∧
      0 < whole.lineCount ∧
      (linesDone whole.lineCount).getLast? = some whole.lineCount ∧
      (linesDone whole.lineCount).count whole.lineCount = 1 := by
  have hfull : ∀ l ∈ ordered ls, l.elements ≠ [] := by
    intro l hl
    have hshown := (mem_ordered.mp hl).2
    simp only [Layer.isShown, Bool.and_eq_true, Bool.not_eq_true',
      List.isEmpty_eq_false_iff] at hshown
    exact hshown.2
  have hpos : 0 < (script o ls).lineCount := texts_length_pos _
  have hlast := getLast?_linesDone (script o ls).lineCount
  have hlines := pairwise_linesDone (script o ls).lineCount
  refine ⟨ordered ls, script o ls, ordered_inTickOrder ls, compile_uncancelled o ls, ?_,
    pairwise_elementsDone hfull, fun hne => ?_, hlines, hpos, hlast,
    List.count_eq_one_of_mem (hlines.imp Nat.ne_of_lt) (List.mem_of_getLast? hlast)⟩
  · rw [compile_of_emitted rfl, reports_emitted, reports_writing]
  · have hlast := getLast?_elementsDone hne
    exact ⟨pos_of_mem_elementsDone hfull (List.mem_of_getLast? hlast), hlast⟩

end ParticleScene
