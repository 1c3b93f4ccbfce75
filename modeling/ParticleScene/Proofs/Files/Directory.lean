import Mathlib.Data.List.Nodup
import Mathlib.Data.List.Perm.Subperm
import ParticleScene.Proofs.Files.Path
import ParticleScene.Proofs.Files.Tree

/-!
# Names in a directory

What stands in a directory is known by its name there: the path of a name leads to the place one
step below the directory, and the names of the files in the directory are those with a file at that
place.
-/

namespace ParticleScene.FileTree

variable {t t' : FileTree} {directory name : String} {place next : Location} {n : Node}

/-- A path leads to a directory at some place. -/
structure IsDirectoryAt (t : FileTree) (directory : String) (place : Location) : Prop where
  locate : t.locate directory = .ok place
  node : t.node? place = some .directory

lemma file_ne_directory (content : Content) : some (Node.file content) ≠ some .directory := by
  rintro ⟨⟩

/-- Whatever stands at a place has a name that is one step down from there. -/
def HasNames (t : FileTree) (place : Location) : Prop :=
  ∀ name, t.nodes[place ++ [name]]? ≠ none → Path.IsName name

/-- No path of a name in a directory is refused for its length or its characters. -/
def Fits (directory name : String) : Prop :=
  pathFault? (Path.join directory name) = none ∧ name.utf8ByteSize ≤ maxName

namespace IsDirectoryAt

lemma of_keepsDirectories (h : t.IsDirectoryAt directory place) (hkeeps : t.KeepsDirectories t') :
    t'.IsDirectoryAt directory place :=
  ⟨locate_of_keepsDirectories hkeeps h.locate, hkeeps place h.node⟩

lemma ne_empty (h : t.IsDirectoryAt directory place) : directory ≠ "" := by
  rintro rfl
  exact absurd h.locate (by rw [FileTree.locate, walk]; exact error_ne_ok)

lemma hasNul (h : t.IsDirectoryAt directory place) : Path.hasNul directory = false := by
  have hlocate := h.locate
  rw [FileTree.locate, walk, pathFault?] at hlocate
  split at hlocate
  · cases hlocate
  · rename_i hfault
    exact Bool.eq_false_iff.mpr fun hnul =>
      Option.some_ne_none _ ((if_pos hnul).symm.trans hfault)

/-- A slash at the end of the path stays in the directory. -/
lemma foldlM_components (h : t.IsDirectoryAt directory place) :
    (Path.components directory).foldlM t.step [] = .ok place := by
  have hlocate := h.locate
  rw [FileTree.locate, walk] at hlocate
  split at hlocate
  · cases hlocate
  · by_cases hslash : Path.endsWithSlash directory
    · rw [Path.steps, if_pos hslash, List.foldlM_append] at hlocate
      obtain ⟨here, hwalk, hstay⟩ := bind_eq_ok_iff.mp hlocate
      rw [List.foldlM_cons] at hstay
      obtain ⟨there, hstep, hend⟩ := bind_eq_ok_iff.mp hstay
      have hdirectory := node?_of_step hstep
      rw [step, hdirectory] at hstep
      cases hstep
      cases hend
      exact hwalk
    · rwa [Path.steps, if_neg hslash] at hlocate

/-- The path of a name leads one step down, unless it is refused. -/
lemma locate_join_iff (h : t.IsDirectoryAt directory place) (hname : Path.IsName name) :
    t.locate (Path.join directory name) = .ok next ↔
      Fits directory name ∧ next = place ++ [name] := by
  rw [FileTree.locate, walk, Path.steps_join h.ne_empty hname, Fits]
  cases hfault : pathFault? (Path.join directory name) with
  | some why => exact iff_of_false error_ne_ok fun h => Option.some_ne_none _ h.1.1
  | none =>
    have hwalk : (Path.components directory ++ [name]).foldlM t.step [] = t.step place name := by
      rw [List.foldlM_append, h.foldlM_components]
      exact bind_pure (t.step place name)
    simp only [hwalk, step, h.node, if_neg hname.ne_dot, if_neg hname.ne_dots,
      if_neg hname.ne_root]
    split
    · rename_i hlong
      exact iff_of_false error_ne_ok fun h => absurd h.1.2 (Nat.not_le_of_lt hlong)
    · rename_i hshort
      rw [Except.ok.injEq, eq_comm]
      exact (and_iff_right ⟨trivial, Nat.le_of_not_lt hshort⟩).symm

lemma exists? (h : t.IsDirectoryAt directory place) : t.exists? directory = true := by
  simp only [FileTree.exists?, lookup, h.locate, bind, Except.bind, h.node]
  rfl

lemma exists?_join_iff (h : t.IsDirectoryAt directory place) (hname : Path.IsName name) :
    t.exists? (Path.join directory name) = true ↔
      Fits directory name ∧ t.node? (place ++ [name]) ≠ none := by
  rw [FileTree.exists?, lookup]
  cases hlocate : t.locate (Path.join directory name) with
  | error why =>
    refine iff_of_false Bool.false_ne_true fun hfits => ?_
    rw [(h.locate_join_iff hname).mpr ⟨hfits.1, rfl⟩] at hlocate
    cases hlocate
  | ok next =>
    obtain ⟨hfits, rfl⟩ := (h.locate_join_iff hname).mp hlocate
    simp only [bind, Except.bind]
    cases t.node? (place ++ [name]) with
    | none => exact iff_of_false Bool.false_ne_true fun h => h.2 rfl
    | some n => exact iff_of_true rfl ⟨hfits, Option.some_ne_none _⟩

lemma readText_join {text : String} (h : t.IsDirectoryAt directory place)
    (hname : Path.IsName name) (hfits : Fits directory name)
    (hnode : t.node? (place ++ [name]) = some (.file (.text text))) :
    t.readText (Path.join directory name) = .ok text := by
  simp only [readText, read, lookup, (h.locate_join_iff hname).mpr ⟨hfits, rfl⟩, bind, Except.bind,
    hnode]
  rfl

lemma write_join (h : t.IsDirectoryAt directory place) (hname : Path.IsName name)
    (hfits : Fits directory name) (hfile : t.node? (place ++ [name]) ≠ some .directory)
    (content : Content) :
    t.write (Path.join directory name) content = .ok (t.put (place ++ [name]) (.file content)) := by
  rw [write, Path.endsWithSlash_join h.ne_empty hname]
  simp only [Bool.false_eq_true, if_false, (h.locate_join_iff hname).mpr ⟨hfits, rfl⟩, bind,
    Except.bind]

/-- Only a path that is not refused is written. -/
lemma fits_of_write_join {content : Content} (h : t.IsDirectoryAt directory place)
    (hname : Path.IsName name) (hwrite : t.write (Path.join directory name) content = .ok t') :
    Fits directory name := by
  rw [write, Path.endsWithSlash_join h.ne_empty hname] at hwrite
  obtain ⟨next, hlocate, -⟩ := bind_eq_ok_iff.mp hwrite
  exact ((h.locate_join_iff hname).mp hlocate).1

end IsDirectoryAt

/-! ### The nodes at names -/

/-- Below a directory nothing is there by itself. -/
lemma node?_name (hname : Path.IsName name) (t : FileTree) (place : Location) :
    t.node? (place ++ [name]) = t.nodes[place ++ [name]]? := by
  have haround : Location.isAround (place ++ [name]) = false := by
    simp [Location.isAround, hname.ne_dots]
  have hroot : place ++ [name] ≠ [Path.root] := by
    intro h
    have hlast := congrArg List.getLast? h
    rw [List.getLast?_concat, List.getLast?_singleton] at hlast
    exact hname.ne_root (Option.some.inj hlast)
  rw [node?, haround, decide_eq_false hroot]
  rfl

/-- Taking names away leaves the other names. -/
lemma getElem?_eraseAll_name (t : FileTree) (place : Location) (names : List String)
    (name : String) : (t.eraseAll (names.map (place ++ [·]))).nodes[place ++ [name]]? =
      if name ∈ names then none else t.nodes[place ++ [name]]? := by
  rw [getElem?_eraseAll]
  refine if_congr (List.mem_map_of_injective fun one other h => ?_) rfl rfl
  exact List.singleton_inj.mp (List.append_cancel_left h)

/-- Putting something at a name leaves the other names. -/
lemma getElem?_put_name (t : FileTree) (place : Location) (name other : String) (n : Node) :
    (t.put (place ++ [name]) n).nodes[place ++ [other]]? =
      if other = name then some n else t.nodes[place ++ [other]]? := by
  rw [put, Std.TreeMap.getElem?_insert]
  refine if_congr ?_ rfl rfl
  rw [Std.compare_eq_iff_eq, List.append_cancel_left_eq, List.singleton_inj, eq_comm]

lemma eq_concat_of_getLast? {l : Location}
    (h : (if l.dropLast = place then l.getLast? else none) = some name) : l = place ++ [name] := by
  split at h
  · rename_i hplace
    obtain ⟨front, rfl⟩ := List.getLast?_eq_some_iff.mp h
    rw [← hplace, List.dropLast_concat]
  · cases h

/-- The names of the files in a directory are those with a file one step below it. -/
lemma mem_fileNames_iff : name ∈ t.fileNames place ↔
    ∃ content, t.nodes[place ++ [name]]? = some (.file content) := by
  simp only [← Std.TreeMap.mem_toList_iff_getElem?_eq_some]
  rw [fileNames, List.mem_filterMap]
  constructor
  · rintro ⟨⟨l, _ | content⟩, hmem, hname⟩
    · cases hname
    · obtain rfl := eq_concat_of_getLast? hname
      exact ⟨content, hmem⟩
  · rintro ⟨content, hmem⟩
    exact ⟨_, hmem, by simp⟩

lemma nodup_fileNames (t : FileTree) (place : Location) : (t.fileNames place).Nodup := by
  refine Std.TreeMap.distinct_keys_toList.filterMap _ ?_
  rintro ⟨l, _ | content⟩ ⟨l', _ | content'⟩ hne name hname name' hname' rfl
  · cases hname
  · cases hname
  · cases hname'
  · obtain rfl := eq_concat_of_getLast? hname
    obtain rfl := eq_concat_of_getLast? hname'
    exact hne Std.ReflCmp.compare_self

lemma length_fileNames_le (t : FileTree) (place : Location) :
    (t.fileNames place).length ≤ t.nodes.size := by
  rw [← Std.TreeMap.length_toList]
  exact List.length_filterMap_le ..

/-- How many nodes stand directly in the directory at a place. -/
def entryCount (t : FileTree) (place : Location) : Nat :=
  t.nodes.keys.countP fun l => l ≠ [] ∧ l.dropLast = place

lemma entryCount_le_size (t : FileTree) (place : Location) : t.entryCount place ≤ t.nodes.size := by
  rw [entryCount, ← Std.TreeMap.length_keys]
  exact List.countP_le_length

/-- Different names that are taken are no more than the nodes in the directory. -/
lemma length_le_entryCount {names : List String} (hnames : names.Nodup)
    (htaken : ∀ name ∈ names, t.nodes[place ++ [name]]? ≠ none) :
    names.length ≤ t.entryCount place := by
  have hplaces : (names.map (place ++ [·])).Nodup := by
    refine hnames.map fun one other h => ?_
    exact List.singleton_inj.mp (List.append_cancel_left h)
  have hsubset : names.map (place ++ [·]) ⊆
      t.nodes.keys.filter fun l => l ≠ [] ∧ l.dropLast = place := by
    intro l hl
    obtain ⟨name, hname, rfl⟩ := List.mem_map.mp hl
    refine List.mem_filter.mpr ⟨Std.TreeMap.mem_keys.mpr ?_, by simp⟩
    rw [← Std.TreeMap.isSome_getElem?_iff_mem]
    exact Option.isSome_iff_ne_none.mpr (htaken name hname)
  rw [entryCount, List.countP_eq_length_filter]
  calc names.length = (names.map (place ++ [·])).length := by rw [List.length_map]
    _ ≤ _ := (hplaces.subperm hsubset).length_le

end ParticleScene.FileTree
