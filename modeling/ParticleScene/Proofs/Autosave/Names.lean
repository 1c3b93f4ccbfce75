import Mathlib.Data.List.Sort
import ParticleScene.Autosave
import ParticleScene.Proofs.Clock.Stamp
import ParticleScene.Proofs.Files.Directory
import ParticleScene.Proofs.Text.Bytes

/-!
# The names of successive autosaves

Each autosave is named for its moment, with the number of autosaves that were written before it at
the same moment. As long as a moment has no more than a thousand autosaves, later ones have greater
names: those of a later moment because of its stamp, those of the same moment because of their
number.
-/

namespace ParticleScene.Autosaver

open Moment Text

variable {m m' now : Moment} {ws older : List Moment} {name : String} {i j : Nat}

/-! ### One name -/

/-- What stands behind the stamp in a name. -/
def ending : Nat → String
  | 0 => nameEnd
  | n + 1 => "_" ++ (padded 3 (n + 1) ++ nameEnd)

lemma autosaveName_eq (stamp : String) (i : Nat) :
    autosaveName stamp i = nameStart ++ (stamp ++ ending i) := by
  cases i with
  | zero => rw [autosaveName, ending, String.append_assoc]
  | succ n => simp only [autosaveName, ending, String.append_assoc]

lemma ending_lt_ending (h : i < j) (hj : j < 1000) : ending i < ending j := by
  obtain _ | n := j
  · omega
  · cases i with
    | zero =>
      rw [String.lt_iff, ending, ending, String.toList_append]
      exact List.cons_lt_cons_iff.mpr (.inl (by decide))
    | succ k =>
      exact append_lt_append_left "_" (padded_lex (by decide) (by omega) hj (.inl h))

lemma autosaveName_lt_of_number (stamp : String) (h : i < j) (hj : j < 1000) :
    autosaveName stamp i < autosaveName stamp j := by
  rw [autosaveName_eq, autosaveName_eq]
  exact append_lt_append_left _ (append_lt_append_left _ (ending_lt_ending h hj))

lemma autosaveName_lt_of_moment (hm : m.HasPlainYear) (hm' : m'.HasPlainYear)
    (h : m.millis < m'.millis) (i j : Nat) :
    autosaveName m.stamp i < autosaveName m'.stamp j := by
  have hlength : m.stamp.length = m'.stamp.length := by rw [length_stamp hm, length_stamp hm']
  rw [autosaveName_eq, autosaveName_eq]
  exact append_lt_append_left _ (append_lt_append (stamp_lt_stamp hm hm' h) hlength _ _)

/-- Names tell moments and numbers apart. -/
lemma autosaveName_inj (hm : m.HasPlainYear) (hm' : m'.HasPlainYear) (hi : i < 1000)
    (hj : j < 1000) : autosaveName m.stamp i = autosaveName m'.stamp j ↔ m = m' ∧ i = j := by
  refine ⟨fun h => ?_, fun ⟨hm, hi⟩ => by rw [hm, hi]⟩
  rcases lt_trichotomy m.millis m'.millis with hlt | heq | hgt
  · exact absurd h (autosaveName_lt_of_moment hm hm' hlt i j).ne
  · obtain rfl := eq_of_millis_eq heq
    refine ⟨rfl, ?_⟩
    rcases Nat.lt_trichotomy i j with hlt | rfl | hgt
    · exact absurd h (autosaveName_lt_of_number m.stamp hlt hj).ne
    · rfl
    · exact absurd h (autosaveName_lt_of_number m.stamp hgt hi).ne'
  · exact absurd h (autosaveName_lt_of_moment hm' hm hgt j i).ne'

lemma isAutosaveName_autosaveName (stamp : String) (i : Nat) :
    isAutosaveName (autosaveName stamp i) = true := by
  rw [isAutosaveName, Bool.and_eq_true, List.isPrefixOf_iff_prefix, List.isSuffixOf_iff_suffix]
  constructor
  · rw [autosaveName_eq, String.toList_append]
    exact List.prefix_append ..
  · cases i with
    | zero =>
      rw [autosaveName, String.toList_append]
      exact List.suffix_append ..
    | succ n =>
      rw [autosaveName, String.toList_append]
      exact List.suffix_append ..

/-! ### The characters of names -/

/-- The characters of names. -/
def isNameChar (c : Char) : Bool :=
  isAsciiDigit c || (nameStart ++ nameEnd).toList.contains c

/-- A text of such characters. -/
def IsNameText (s : String) : Prop :=
  ∀ c ∈ s.toList, isNameChar c

lemma IsNameText.append {s t : String} (hs : IsNameText s) (ht : IsNameText t) :
    IsNameText (s ++ t) := by
  rw [IsNameText, String.toList_append]
  exact List.forall_mem_append.mpr ⟨hs, ht⟩

lemma isNameText_of_isStampText {s : String} (hs : IsStampText s) : IsNameText s := by
  intro c hc
  rcases Bool.or_eq_true_iff.mp (hs c hc) with hdigit | hline
  · rw [isNameChar, hdigit, Bool.true_or]
  · rw [of_decide_eq_true hline]
    decide

lemma isNameText_ending (i : Nat) : IsNameText (ending i) := by
  have hend : IsNameText nameEnd := List.all_eq_true.mp (by decide)
  have hline : IsNameText "_" := List.all_eq_true.mp (by decide)
  cases i with
  | zero => exact hend
  | succ n => exact hline.append ((isNameText_of_isStampText (isStampText_padded _ _)).append hend)

lemma isNameText_autosaveName (hm : m.HasPlainYear) (i : Nat) :
    IsNameText (autosaveName m.stamp i) := by
  have hstart : IsNameText nameStart := List.all_eq_true.mp (by decide)
  rw [autosaveName_eq]
  exact hstart.append ((isNameText_of_isStampText (isStampText_stamp hm)).append
    (isNameText_ending i))

/-- The name of an autosave is one step down from its directory, whatever its moment is. -/
lemma isName_autosaveName (m : Moment) (i : Nat) : Path.IsName (autosaveName m.stamp i) := by
  have hstart : (autosaveName m.stamp i).toList.head? = some 'a' := by
    rw [autosaveName_eq, String.toList_append]
    rfl
  have hne (other : String) (hother : other.toList.head? ≠ some 'a') :
      autosaveName m.stamp i ≠ other := by
    rintro rfl
    exact hother hstart
  refine ⟨hne _ (by decide), ?_, hne _ (by decide), hne _ (by decide)⟩
  rw [autosaveName_eq, String.toList_append, String.toList_append, List.mem_append, List.mem_append]
  rintro (hslash | hslash | hslash)
  · exact absurd hslash (by decide)
  · exact slash_notMem_stamp m hslash
  · exact absurd (isNameText_ending i _ hslash) (by decide)

lemma toNat_lt_of_isNameChar {c : Char} (h : isNameChar c) : c.toNat < 128 := by
  rcases Bool.or_eq_true_iff.mp h with hdigit | hletter
  · rw [isAsciiDigit, Bool.and_eq_true, decide_eq_true_eq, decide_eq_true_eq] at hdigit
    exact Nat.lt_of_le_of_lt hdigit.2 (by decide)
  · have hletters : (nameStart ++ nameEnd).toList.all fun c => decide (c.toNat < 128) := by decide
    exact of_decide_eq_true (List.all_eq_true.mp hletters c (List.contains_iff_mem.mp hletter))

/-- Each character of a name takes one byte. -/
lemma utf8ByteSize_of_isNameText {s : String} (h : IsNameText s) : s.utf8ByteSize = s.length := by
  obtain ⟨cs, rfl⟩ := s.exists_eq_ofList
  rw [IsNameText, String.toList_ofList] at h
  rw [utf8ByteSize_ofList fun c hc => utf8Size_eq_one (toNat_lt_of_isNameChar (h c hc)),
    String.length_ofList]

lemma length_autosaveName_le (hm : m.HasPlainYear) (hi : i < 1000) :
    (autosaveName m.stamp i).length ≤ 38 := by
  have hending : (ending i).length ≤ 10 := by
    cases i with
    | zero => decide
    | succ n =>
      rw [ending, String.length_append, String.length_append, length_padded (by decide) hi]
      decide
  have hstart : nameStart.length = 9 := by decide
  rw [autosaveName_eq, String.length_append, String.length_append, length_stamp hm, hstart]
  omega

/-- The greatest number of bytes by which the path of an autosave is longer than that of its
directory. -/
def roomForName : Nat := 39

/-- In a directory whose path leaves room, no path of an autosave is refused. -/
lemma fits_autosaveName (hm : m.HasPlainYear) (hi : i < 1000) {directory : String}
    (hnul : Path.hasNul directory = false)
    (hroom : directory.utf8ByteSize + roomForName ≤ FileTree.maxPath) :
    FileTree.Fits directory (autosaveName m.stamp i) := by
  have hsize : (autosaveName m.stamp i).utf8ByteSize ≤ 38 := by
    rw [utf8ByteSize_of_isNameText (isNameText_autosaveName hm i)]
    exact length_autosaveName_le hm hi
  have hname : Path.hasNul (autosaveName m.stamp i) = false := by
    rw [Path.hasNul, Bool.eq_false_iff, Ne, List.contains_iff_mem]
    exact fun h => absurd (isNameText_autosaveName hm i _ h) (by decide)
  have hjoin := Path.utf8ByteSize_join_le directory (autosaveName m.stamp i)
  have hempty : (Path.join directory (autosaveName m.stamp i)).isEmpty = false := by
    rw [Bool.eq_false_iff, Ne, String.isEmpty_iff]
    exact Path.join_ne_empty (isName_autosaveName m i).ne_empty
  refine ⟨?_, Nat.le_trans hsize (by decide)⟩
  rw [FileTree.pathFault?, Path.hasNul_join hnul hname, hempty]
  rw [roomForName] at hroom
  simp only [Bool.false_eq_true, if_false]
  exact if_neg (by omega)

/-! ### Successive names -/

/-- The names of autosaves that were written at given moments, all of them latest first. -/
def names : List Moment → List String
  | [] => []
  | m :: earlier => autosaveName m.stamp (earlier.count m) :: names earlier

lemma length_names (ws : List Moment) : (names ws).length = ws.length := by
  induction ws with
  | nil => rfl
  | cons w ws ih => rw [names, List.length_cons, List.length_cons, ih]

lemma mem_names_iff : name ∈ names ws ↔ ∃ m i, i < ws.count m ∧ name = autosaveName m.stamp i := by
  induction ws with
  | nil => simp [names]
  | cons w ws ih =>
    rw [names, List.mem_cons, ih]
    constructor
    · rintro (rfl | ⟨m, i, hi, rfl⟩)
      · exact ⟨w, ws.count w, by simp, rfl⟩
      · exact ⟨m, i, Nat.lt_of_lt_of_le hi (List.count_le_count_cons ..), rfl⟩
    · rintro ⟨m, i, hi, rfl⟩
      by_cases hm : w = m
      · subst hm
        rw [List.count_cons_self] at hi
        rcases Nat.lt_or_eq_of_le (Nat.le_of_lt_succ hi) with hlt | rfl
        · exact .inr ⟨w, i, hlt, rfl⟩
        · exact .inl rfl
      · rw [List.count_cons_of_ne hm] at hi
        exact .inr ⟨m, i, hi, rfl⟩

/-- Moments of autosaves, latest first, with plain years and at most a thousand of a kind. -/
structure Orderly (ws : List Moment) : Prop where
  latest_first : ws.Pairwise fun later earlier => earlier.millis ≤ later.millis
  plain : ∀ m ∈ ws, m.HasPlainYear
  count_le : ∀ m, ws.count m ≤ 1000

lemma Orderly.tail (h : Orderly (m :: ws)) : Orderly ws where
  latest_first := (List.pairwise_cons.mp h.latest_first).2
  plain := fun m hm => h.plain m (List.mem_cons_of_mem _ hm)
  count_le := fun m => Nat.le_trans (List.count_le_count_cons ..) (h.count_le m)

/-- Later autosaves have greater names. -/
lemma Orderly.names_descending (h : Orderly ws) : (names ws).Pairwise (· > ·) := by
  induction ws with
  | nil => exact .nil
  | cons w ws ih =>
    refine List.pairwise_cons.mpr ⟨fun name hname => ?_, ih h.tail⟩
    obtain ⟨m, i, hi, rfl⟩ := mem_names_iff.mp hname
    have hmem : m ∈ ws := List.count_pos_iff.mp (Nat.zero_lt_of_lt hi)
    have hle := (List.pairwise_cons.mp h.latest_first).1 m hmem
    rcases Int.lt_or_eq_of_le hle with hlt | heq
    · exact autosaveName_lt_of_moment (h.plain m (List.mem_cons_of_mem _ hmem))
        (h.plain w List.mem_cons_self) hlt _ _
    · obtain rfl := eq_of_millis_eq heq
      have hcount := h.count_le m
      rw [List.count_cons_self] at hcount
      exact autosaveName_lt_of_number m.stamp hi (by omega)

/-- The autosaves of the latest moment come first. -/
lemma exists_eq_replicate_append (hws : ws.Pairwise fun later earlier =>
    earlier.millis ≤ later.millis) (hnow : ∀ m ∈ ws, m.millis ≤ now.millis) :
    ∃ older, now ∉ older ∧ ws = List.replicate (ws.count now) now ++ older := by
  induction ws with
  | nil => exact ⟨[], by simp, rfl⟩
  | cons w ws ih =>
    obtain ⟨hw, hrest⟩ := List.pairwise_cons.mp hws
    by_cases heq : w = now
    · subst heq
      obtain ⟨older, hnot, holder⟩ := ih hrest hw
      refine ⟨older, hnot, ?_⟩
      rw [List.count_cons_self, List.replicate_succ, List.cons_append, ← holder]
    · have hnot : now ∉ w :: ws := by
        intro hmem
        rcases List.mem_cons.mp hmem with rfl | hmem
        · exact heq rfl
        · exact heq (eq_of_millis_eq (Int.le_antisymm (hnow w List.mem_cons_self) (hw now hmem)))
      exact ⟨w :: ws, hnot, by rw [List.count_eq_zero.mpr hnot]; rfl⟩

/-- The autosaves of one moment are numbered from zero on. -/
lemma names_replicate_append (holder : now ∉ older) (count : Nat) :
    names (List.replicate count now ++ older) =
      ((List.range count).map (autosaveName now.stamp)).reverse ++ names older := by
  induction count with
  | zero => rfl
  | succ count ih =>
    rw [List.replicate_succ, List.cons_append, names, ih, List.count_append,
      List.count_replicate_self, List.count_eq_zero.mpr holder, List.range_succ, List.map_append,
      List.reverse_append]
    rfl

lemma exists_names_eq_append (hws : Orderly ws) (hnow : ∀ m ∈ ws, m.millis ≤ now.millis) :
    ∃ older, now ∉ older ∧ older.Sublist ws ∧ names ws =
      ((List.range (ws.count now)).map (autosaveName now.stamp)).reverse ++ names older := by
  obtain ⟨older, hnot, hsplit⟩ := exists_eq_replicate_append hws.latest_first hnow
  refine ⟨older, hnot, ?_, ?_⟩
  · rw [hsplit]
    exact List.sublist_append_right ..
  · rw [← names_replicate_append hnot, ← hsplit]

/-- The first names are those of the latest moment with the greatest numbers. -/
lemma mem_take_names_iff (hws : Orderly ws) (hnow : ∀ m ∈ ws, m.millis ≤ now.millis)
    (hplain : now.HasPlainYear) (hi : i < 1000) {n : Nat} :
    autosaveName now.stamp i ∈ (names ws).take n ↔ i < ws.count now ∧ ws.count now ≤ i + n := by
  obtain ⟨older, hnot, holder, hnames⟩ := exists_names_eq_append hws hnow
  have hnumber : ∀ j < ws.count now,
      (autosaveName now.stamp j = autosaveName now.stamp i ↔ j = i) := by
    intro j hj
    have hthousand := Nat.lt_of_lt_of_le hj (hws.count_le now)
    exact (autosaveName_inj hplain hplain hthousand hi).trans (and_iff_right rfl)
  have hold (k : Nat) : autosaveName now.stamp i ∉ (names older).take k := by
    intro hmem
    obtain ⟨m, j, hj, heq⟩ := mem_names_iff.mp (List.mem_of_mem_take hmem)
    have hm := List.count_pos_iff.mp (Nat.zero_lt_of_lt hj)
    have hthousand := Nat.lt_of_lt_of_le hj
      (Nat.le_trans (holder.count_le m) (hws.count_le m))
    have hplain' := hws.plain m (holder.subset hm)
    exact hnot (((autosaveName_inj hplain hplain' hi hthousand).mp heq).1 ▸ hm)
  rw [hnames, List.take_append, List.mem_append, or_iff_left (hold _), List.take_reverse,
    List.mem_reverse, ← List.map_drop, List.range_eq_range', List.drop_range', List.mem_map,
    List.length_map, List.length_range']
  constructor
  · rintro ⟨j, hj, heq⟩
    rw [List.mem_range'_1] at hj
    obtain rfl := (hnumber j (by omega)).mp heq
    omega
  · exact fun hi => ⟨i, List.mem_range'_1.mpr (by omega), rfl⟩

/-- As many of the first names as there are of the latest moment are of that moment. -/
lemma exists_of_mem_take_names (hws : Orderly ws) (hnow : ∀ m ∈ ws, m.millis ≤ now.millis) {n : Nat}
    (hn : n ≤ ws.count now) (hmem : name ∈ (names ws).take n) :
    ∃ i < ws.count now, name = autosaveName now.stamp i := by
  obtain ⟨older, -, -, hnames⟩ := exists_names_eq_append hws hnow
  rw [hnames, List.take_append_of_le_length (by simpa using hn)] at hmem
  obtain ⟨i, hi, rfl⟩ := List.mem_map.mp (List.mem_reverse.mp (List.mem_of_mem_take hmem))
  exact ⟨i, List.mem_range.mp hi, rfl⟩

end ParticleScene.Autosaver
