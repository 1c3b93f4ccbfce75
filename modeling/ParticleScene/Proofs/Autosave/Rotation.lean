import Mathlib.Data.List.Sort
import Mathlib.Data.String.Basic
import ParticleScene.Autosave
import ParticleScene.Proofs.Files.Directory
import ParticleScene.Proofs.Files.Stored

/-!
# Listing and rotating autosaves

The autosaves of a directory are listed in strictly descending order, so that a list with the same
names in that order is the list. A rotation takes the files beyond the first few of the list away
and leaves the others as they are.
-/

namespace ParticleScene.Autosaver

open FileAction

variable {t t' : FileTree} {directory path name : String} {place : Location} {a : Autosaver}
variable {names : List String}

/-! ### The list -/

lemma mem_autosaveNames_iff (h : t.locate directory = .ok place) :
    name ∈ autosaveNames t directory ↔
      isAutosaveName name ∧ ∃ content, t.nodes[place ++ [name]]? = some (.file content) := by
  rw [autosaveNames, h, List.mem_mergeSort, List.mem_filter, FileTree.mem_fileNames_iff, and_comm]

lemma autosaveNames_descending (h : t.locate directory = .ok place) :
    (autosaveNames t directory).Pairwise (· > ·) := by
  have hsorted : (autosaveNames t directory).Pairwise fun x y => !decide (x < y) := by
    rw [autosaveNames, h]
    refine List.pairwise_mergeSort (fun x y z hxy hyz => ?_) (fun x y => ?_) _
    · simp only [Bool.not_eq_true', decide_eq_false_iff_not, not_lt] at hxy hyz ⊢
      exact le_trans hyz hxy
    · simp only [Bool.or_eq_true, Bool.not_eq_true', decide_eq_false_iff_not, not_lt]
      exact le_total y x
  have hnodup : (autosaveNames t directory).Nodup := by
    rw [autosaveNames, h, (List.mergeSort_perm _ _).nodup_iff]
    exact (FileTree.nodup_fileNames t place).filter _
  refine hsorted.imp₂ (fun x y hle hne => ?_) hnodup
  simp only [Bool.not_eq_true', decide_eq_false_iff_not, not_lt] at hle
  exact lt_of_le_of_ne hle hne.symm

/-- A descending list of the names is the list of autosaves. -/
lemma autosaveNames_eq_of_descending (h : t.locate directory = .ok place)
    (hnames : names.Pairwise (· > ·))
    (hmem : ∀ name, name ∈ names ↔
      isAutosaveName name ∧ ∃ content, t.nodes[place ++ [name]]? = some (.file content)) :
    autosaveNames t directory = names :=
  (autosaveNames_descending h).eq_of_mem_iff hnames fun name => by
    rw [mem_autosaveNames_iff h, hmem]

lemma length_autosaveNames_le (t : FileTree) (directory : String) :
    (autosaveNames t directory).length ≤ t.nodes.size := by
  rw [autosaveNames]
  split
  · rw [List.length_mergeSort]
    exact Nat.le_trans (List.length_filter_le ..) (t.length_fileNames_le _)
  · exact Nat.zero_le _

/-! ### Taking files away -/

lemma removeFile_join_eq_ok (hdirectory : t.IsDirectoryAt directory place)
    (hname : Path.IsName name) : removeFile (Path.join directory name) t = (.ok (), t') ↔
      FileTree.Fits directory name ∧ t' = t.erase (place ++ [name]) := by
  rw [removeFile, change_eq_ok, refuse_eq_ok, map_eq_ok_iff]
  simp only [hdirectory.locate_join_iff hname]
  constructor
  · rintro ⟨_, ⟨hfits, rfl⟩, rfl⟩
    exact ⟨hfits, rfl⟩
  · rintro ⟨hfits, rfl⟩
    exact ⟨_, ⟨hfits, rfl⟩, rfl⟩

/-- Taking files away succeeds when the path of none is refused, and takes nothing else away. -/
lemma forM_removeFile_eq_ok (hdirectory : t.IsDirectoryAt directory place)
    (hnames : ∀ name ∈ names, Path.IsName name)
    (hfiles : ∀ name ∈ names, t.node? (place ++ [name]) ≠ some .directory) :
    ((names.map (Path.join directory)).forM removeFile) t = (.ok (), t') ↔
      (∀ name ∈ names, FileTree.Fits directory name) ∧
        t' = t.eraseAll (names.map (place ++ [·])) := by
  induction names generalizing t with
  | nil =>
    rw [and_iff_right (List.forall_mem_nil _)]
    exact ⟨fun h => (congrArg Prod.snd h).symm, fun h => by rw [h]; rfl⟩
  | cons first rest ih =>
    obtain ⟨hname, hnames⟩ := List.forall_mem_cons.mp hnames
    obtain ⟨hfile, hfiles⟩ := List.forall_mem_cons.mp hfiles
    have hdirectory' : (t.erase (place ++ [first])).IsDirectoryAt directory place :=
      hdirectory.of_keepsDirectories
        (FileTree.keepsDirectories_eraseAll (List.forall_mem_singleton.mpr hfile))
    have hfiles' : ∀ name ∈ rest,
        (t.eraseAll [place ++ [first]]).node? (place ++ [name]) ≠ some .directory :=
      fun name hmem h => hfiles name hmem (FileTree.directory_of_eraseAll h)
    rw [List.map_cons, List.forM, bind_eq_ok]
    simp only [removeFile_join_eq_ok hdirectory hname]
    constructor
    · rintro ⟨_, _, ⟨hfits, rfl⟩, hrest⟩
      obtain ⟨hall, rfl⟩ := (ih hdirectory' hnames hfiles').mp hrest
      exact ⟨List.forall_mem_cons.mpr ⟨hfits, hall⟩, rfl⟩
    · rintro ⟨hfits, rfl⟩
      obtain ⟨hfits, hall⟩ := List.forall_mem_cons.mp hfits
      exact ⟨(), _, ⟨hfits, rfl⟩, (ih hdirectory' hnames hfiles').mpr ⟨hall, rfl⟩⟩

lemma mem_take_iff {α : Type} {l : List α} (hl : l.Nodup) (n : Nat) (x : α) :
    x ∈ l.take n ↔ x ∈ l ∧ x ∉ (l.drop n).reverse := by
  rw [List.mem_reverse]
  constructor
  · exact fun h => ⟨List.mem_of_mem_take h, List.disjoint_take_drop hl (Nat.le_refl n) h⟩
  · rintro ⟨hmem, hnot⟩
    rw [← List.take_append_drop n l] at hmem
    exact (List.mem_append.mp hmem).resolve_right hnot

/-- The names of the autosaves beyond the greatest number, oldest first. -/
def outdated (a : Autosaver) (t : FileTree) : List String :=
  ((autosaveNames t a.directory).drop a.settings.maxAutosaves.toNat).reverse

/-- The tree without the autosaves beyond the greatest number. -/
def rotated (a : Autosaver) (t : FileTree) (place : Location) : FileTree :=
  t.eraseAll ((a.outdated t).map (place ++ [·]))

lemma mem_autosaveNames_of_mem_outdated (h : name ∈ a.outdated t) :
    name ∈ autosaveNames t a.directory :=
  List.mem_of_mem_drop (List.mem_reverse.mp h)

lemma node?_of_mem_outdated (hdirectory : t.IsDirectoryAt a.directory place)
    (hname : Path.IsName name) (h : name ∈ a.outdated t) :
    t.node? (place ++ [name]) ≠ some .directory := by
  obtain ⟨-, content, hcontent⟩ :=
    (mem_autosaveNames_iff hdirectory.locate).mp (mem_autosaveNames_of_mem_outdated h)
  rw [FileTree.node?_name hname, hcontent]
  exact FileTree.file_ne_directory content

/-- A rotation succeeds when the path of no file that it takes away is refused. -/
lemma rotate_eq_ok_iff (hdirectory : t.IsDirectoryAt a.directory place)
    (hnames : ∀ name ∈ autosaveNames t a.directory, Path.IsName name) :
    a.rotate t = (.ok (), t') ↔
      (∀ name ∈ a.outdated t, FileTree.Fits a.directory name) ∧ t' = a.rotated t place := by
  have hold : ∀ name ∈ a.outdated t, Path.IsName name := fun name hmem =>
    hnames name (mem_autosaveNames_of_mem_outdated hmem)
  have hrotate : a.rotate t =
      (((a.outdated t).map (Path.join a.directory)).forM removeFile) t := by
    rw [rotate, list, ← List.map_drop, ← List.map_reverse]
    rfl
  rw [hrotate, forM_removeFile_eq_ok hdirectory hold fun name hmem =>
    node?_of_mem_outdated hdirectory (hold name hmem) hmem]
  rfl

lemma rotated_isDirectoryAt (hdirectory : t.IsDirectoryAt a.directory place)
    (hnames : ∀ name ∈ autosaveNames t a.directory, Path.IsName name) :
    (a.rotated t place).IsDirectoryAt a.directory place := by
  refine hdirectory.of_keepsDirectories (FileTree.keepsDirectories_eraseAll ?_)
  intro l hl
  obtain ⟨name, hmem, rfl⟩ := List.mem_map.mp hl
  exact node?_of_mem_outdated hdirectory (hnames name (mem_autosaveNames_of_mem_outdated hmem)) hmem

/-- The first autosaves of the list are left. -/
lemma autosaveNames_rotated (hdirectory : t.IsDirectoryAt a.directory place)
    (hnames : ∀ name ∈ autosaveNames t a.directory, Path.IsName name) :
    autosaveNames (a.rotated t place) a.directory =
      (autosaveNames t a.directory).take a.settings.maxAutosaves.toNat := by
  have hdescending := autosaveNames_descending hdirectory.locate
  refine autosaveNames_eq_of_descending (rotated_isDirectoryAt hdirectory hnames).locate
    (hdescending.sublist (List.take_sublist _ _)) fun name => ?_
  rw [mem_take_iff hdescending.nodup, mem_autosaveNames_iff hdirectory.locate, rotated,
    FileTree.getElem?_eraseAll_name]
  by_cases hmem : name ∈ a.outdated t
  · exact iff_of_false (fun h => h.2 hmem) (by simp [hmem])
  · rw [if_neg hmem]
    exact and_iff_left hmem

/-- A rotation keeps the first autosaves of the list. -/
lemma exists_rotate (hdirectory : t.IsDirectoryAt a.directory place)
    (hnames : ∀ name ∈ autosaveNames t a.directory,
      Path.IsName name ∧ FileTree.Fits a.directory name) :
    ∃ t', a.rotate t = (.ok (), t') ∧ t'.IsDirectoryAt a.directory place ∧
      autosaveNames t' a.directory =
        (autosaveNames t a.directory).take a.settings.maxAutosaves.toNat ∧
      ∀ name, t'.nodes[place ++ [name]]? =
        if name ∈ a.outdated t then none else t.nodes[place ++ [name]]? := by
  have hproper : ∀ name ∈ autosaveNames t a.directory, Path.IsName name :=
    fun name hmem => (hnames name hmem).1
  have hfits : ∀ name ∈ a.outdated t, FileTree.Fits a.directory name :=
    fun name hmem => (hnames name (mem_autosaveNames_of_mem_outdated hmem)).2
  exact ⟨a.rotated t place, (rotate_eq_ok_iff hdirectory hproper).mpr ⟨hfits, rfl⟩,
    rotated_isDirectoryAt hdirectory hproper, autosaveNames_rotated hdirectory hproper,
    t.getElem?_eraseAll_name place _⟩

/-- A rotation of few enough autosaves does nothing. -/
lemma rotate_of_length_le
    (h : (autosaveNames t a.directory).length ≤ a.settings.maxAutosaves.toNat) :
    a.rotate t = (.ok (), t) := by
  rw [rotate, list, ← List.map_drop, List.drop_eq_nil_of_le h]
  rfl

end ParticleScene.Autosaver
