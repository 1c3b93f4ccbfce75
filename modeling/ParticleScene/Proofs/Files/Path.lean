import Mathlib.Data.List.Basic
import ParticleScene.Files.Path
import ParticleScene.Proofs.Text.Split

/-!
# Paths of names in directories

The path of a name in a directory goes on from the directory with one more step. A slash at the end
of the directory makes no difference.
-/

namespace ParticleScene.Path

open Text

/-- A name that is one step down from a directory. -/
structure IsName (name : String) : Prop where
  ne_empty : name ≠ ""
  no_slash : '/' ∉ name.toList
  ne_dot : name ≠ "."
  ne_dots : name ≠ ".."

variable {directory name : String}

lemma IsName.ne_root (h : IsName name) : name ≠ root := by
  rintro rfl
  exact h.no_slash (by decide)

/-! ### Parts -/

lemma parts_append_slash (s t : String) : parts (s ++ "/" ++ t) = parts s ++ parts t := by
  rw [parts, parts, parts, String.toList_append, String.toList_append, List.append_assoc,
    splitOn_eq_listSplitOn, splitOn_eq_listSplitOn, splitOn_eq_listSplitOn]
  exact (congrArg _ (List.splitOn_append_cons_self ..)).trans List.map_append

lemma parts_of_notMem (h : '/' ∉ name.toList) : parts name = [name] := by
  rw [parts, splitOn_eq_listSplitOn, List.splitOn_eq_singleton h, List.map_singleton,
    String.ofList_toList]

/-! ### Joined paths -/

/-- A joined path has one slash between the directory and the name. -/
lemma exists_join_eq (hdirectory : directory ≠ "") (name : String) :
    ∃ base, join directory name = base ++ "/" ++ name ∧
      (directory = base ∨ directory = base ++ "/") := by
  have hempty : directory.isEmpty = false := by
    rw [Bool.eq_false_iff, Ne, String.isEmpty_iff]
    exact hdirectory
  cases hslash : endsWithSlash directory with
  | false =>
    refine ⟨directory, ?_, .inl rfl⟩
    rw [join, hempty, hslash]
    rfl
  | true =>
    obtain ⟨chars, hchars⟩ := List.getLast?_eq_some_iff.mp (of_decide_eq_true hslash)
    have hbase : directory = String.ofList chars ++ "/" := by
      rw [← String.toList_inj, String.toList_append, String.toList_ofList]
      exact hchars
    refine ⟨String.ofList chars, ?_, .inr hbase⟩
    rw [join, hempty, hslash, ← hbase]
    rfl

lemma head?_join (hdirectory : directory ≠ "") (name : String) :
    (join directory name).toList.head? = directory.toList.head? := by
  have hne : directory.toList ≠ [] := fun h => hdirectory (String.toList_eq_nil_iff.mp h)
  rw [join]
  split
  · rw [String.toList_append, List.head?_append_of_ne_nil _ hne]
  · rw [String.toList_append, String.toList_append, List.append_assoc,
      List.head?_append_of_ne_nil _ hne]

lemma join_ne_empty (hname : name ≠ "") : join directory name ≠ "" := by
  rw [join]
  split
  · rw [Ne, String.append_eq_empty_iff]
    exact fun h => hname h.2
  · rw [Ne, String.append_eq_empty_iff]
    exact fun h => hname h.2

lemma utf8ByteSize_join_le (directory name : String) :
    (join directory name).utf8ByteSize ≤ directory.utf8ByteSize + 1 + name.utf8ByteSize := by
  have hslash : "/".utf8ByteSize = 1 := by decide
  rw [join]
  split
  · rw [String.utf8ByteSize_append]
    omega
  · refine Nat.le_of_eq ?_
    rw [String.utf8ByteSize_append, String.utf8ByteSize_append, hslash]

lemma hasNul_join (hdirectory : hasNul directory = false) (hname : hasNul name = false) :
    hasNul (join directory name) = false := by
  rw [hasNul, Bool.eq_false_iff, Ne, List.contains_iff_mem] at hdirectory hname ⊢
  rw [join]
  split
  · rw [String.toList_append, List.mem_append]
    exact not_or.mpr ⟨hdirectory, hname⟩
  · rw [String.toList_append, String.toList_append, List.mem_append, List.mem_append]
    exact not_or.mpr ⟨not_or.mpr ⟨hdirectory, by decide⟩, hname⟩

lemma components_join (hdirectory : directory ≠ "") (hname : IsName name) :
    components (join directory name) = components directory ++ [name] := by
  obtain ⟨base, hjoin, hbase⟩ := exists_join_eq hdirectory name
  have hnames : (parts (join directory name)).filter (fun part => !part.isEmpty) =
      (parts directory).filter (fun part => !part.isEmpty) ++ [name] := by
    have hlast : [name].filter (fun part => !part.isEmpty) = [name] := by
      simp [hname.ne_empty]
    rw [hjoin, parts_append_slash, List.filter_append, parts_of_notMem hname.no_slash, hlast]
    rcases hbase with rfl | rfl
    · rfl
    · have hempty : (parts "").filter (fun part => !part.isEmpty) = [] := by decide
      rw [← String.append_empty (s := base ++ "/"), parts_append_slash, List.filter_append, hempty,
        List.append_nil]
  rw [components, components, head?_join hdirectory, hnames]
  split
  · rfl
  · rfl

lemma endsWithSlash_join (hdirectory : directory ≠ "") (hname : IsName name) :
    endsWithSlash (join directory name) = false := by
  obtain ⟨base, hjoin, -⟩ := exists_join_eq hdirectory name
  have hne : name.toList ≠ [] := fun h => hname.ne_empty (String.toList_eq_nil_iff.mp h)
  rw [endsWithSlash, decide_eq_false_iff_not, hjoin, String.toList_append,
    List.getLast?_append_of_ne_nil _ hne]
  exact fun h => hname.no_slash (List.mem_of_getLast? h)

/-- The walk to a name takes one step from the directory. -/
lemma steps_join (hdirectory : directory ≠ "") (hname : IsName name) :
    steps (join directory name) = components directory ++ [name] := by
  rw [steps, endsWithSlash_join hdirectory hname, components_join hdirectory hname]
  rfl

end ParticleScene.Path
