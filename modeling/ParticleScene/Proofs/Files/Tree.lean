import Mathlib.Tactic.SplitIfs
import ParticleScene.Files.Tree
import ParticleScene.Proofs.Except

/-!
# Files written and read

A walk passes only through directories, so what is put in place of a file, or where nothing is, does
not stand in its way. What a file is written with is read from it again.
-/

namespace ParticleScene.FileTree

variable {t t' : FileTree} {place here next : Location} {n : Node} {path name : String}
variable {content : Content}

/-! ### Nodes put into a tree -/

lemma node?_put_self (h : t.node? place ≠ some .directory) :
    (t.put place n).node? place = some n := by
  by_cases hfixed : (place.isAround || place = [Path.root]) = true
  · exact absurd (if_pos hfixed) h
  · rw [node?, if_neg hfixed]
    exact Std.TreeMap.getElem?_insert_self

lemma node?_put_of_ne (h : here ≠ place) : (t.put place n).node? here = t.node? here := by
  have hget : (t.put place n).nodes[here]? = t.nodes[here]? := by
    rw [put, Std.TreeMap.getElem?_insert, if_neg (fun heq => h (Std.compare_eq_iff_eq.mp heq).symm)]
  rw [node?, node?, hget]

/-! ### Walks -/

/-- A step starts in a directory. -/
lemma node?_of_step (h : t.step here name = .ok next) : t.node? here = some .directory := by
  rw [step] at h
  cases hnode : t.node? here with
  | none => rw [hnode] at h; cases h
  | some n =>
    cases n with
    | directory => rfl
    | file content => rw [hnode] at h; cases h

/-- Every directory of a tree is one of another tree. -/
def KeepsDirectories (t t' : FileTree) : Prop :=
  ∀ place, t.node? place = some .directory → t'.node? place = some .directory

lemma step_of_keepsDirectories (hkeeps : t.KeepsDirectories t') (h : t.step here name = .ok next) :
    t'.step here name = .ok next := by
  have hdirectory := node?_of_step h
  rw [← h, step, step, hdirectory, hkeeps here hdirectory]

/-- A walk leads to the same place as long as the directories on the way are kept. -/
lemma foldlM_step_of_keepsDirectories (hkeeps : t.KeepsDirectories t') {steps : List String}
    (h : steps.foldlM t.step here = .ok next) : steps.foldlM t'.step here = .ok next := by
  induction steps generalizing here with
  | nil => exact h
  | cons name rest ih =>
    rw [List.foldlM_cons] at h ⊢
    obtain ⟨there, hstep, hrest⟩ := bind_eq_ok_iff.mp h
    rw [step_of_keepsDirectories hkeeps hstep]
    exact ih hrest

lemma locate_of_keepsDirectories (hkeeps : t.KeepsDirectories t')
    (h : t.locate path = .ok next) : t'.locate path = .ok next := by
  rw [locate, walk] at h ⊢
  cases hfault : pathFault? path with
  | some why => rw [hfault] at h; cases h
  | none =>
    rw [hfault] at h
    exact foldlM_step_of_keepsDirectories hkeeps h

/-- What is no directory is not on the way to anything. -/
lemma keepsDirectories_put (hplace : t.node? place ≠ some .directory) (n : Node) :
    t.KeepsDirectories (t.put place n) := by
  intro here hhere
  rw [node?_put_of_ne, hhere]
  rintro rfl
  exact hplace hhere

lemma locate_put (hplace : t.node? place ≠ some .directory) (n : Node)
    (h : t.locate path = .ok next) : (t.put place n).locate path = .ok next :=
  locate_of_keepsDirectories (keepsDirectories_put hplace n) h

/-! ### Nodes taken away -/

/-- Take the nodes at some places away. -/
def eraseAll (t : FileTree) (places : List Location) : FileTree :=
  places.foldl erase t

lemma getElem?_eraseAll (t : FileTree) (places : List Location) (here : Location) :
    (t.eraseAll places).nodes[here]? = if here ∈ places then none else t.nodes[here]? := by
  induction places generalizing t with
  | nil => rw [if_neg List.not_mem_nil, eraseAll, List.foldl_nil]
  | cons place places ih =>
    rw [eraseAll, List.foldl_cons, ← eraseAll, ih, erase, Std.TreeMap.getElem?_erase]
    by_cases hhere : here = place
    · rw [if_pos (Std.compare_eq_iff_eq.mpr hhere.symm), ite_self,
        if_pos (List.mem_cons.mpr (.inl hhere))]
    · rw [if_neg fun heq => hhere (Std.compare_eq_iff_eq.mp heq).symm]
      simp only [List.mem_cons, hhere, false_or]

/-- Nothing becomes a directory. -/
lemma directory_of_eraseAll {places : List Location}
    (h : (t.eraseAll places).node? here = some .directory) : t.node? here = some .directory := by
  rw [node?, getElem?_eraseAll] at h
  rw [node?]
  split_ifs at h ⊢
  · exact h
  · exact h

lemma keepsDirectories_eraseAll {places : List Location}
    (h : ∀ place ∈ places, t.node? place ≠ some .directory) :
    t.KeepsDirectories (t.eraseAll places) := by
  intro here hhere
  have hnot : here ∉ places := fun hmem => h here hmem hhere
  rw [node?, getElem?_eraseAll, if_neg hnot]
  exact hhere

/-! ### Written files -/

/-- A file is written in place of a file, or where nothing is. -/
lemma write_eq_ok (h : t.write path content = .ok t') :
    ∃ place, t.locate path = .ok place ∧ t.node? place ≠ some .directory ∧
      t' = t.put place (.file content) := by
  rw [write] at h
  split_ifs at h with hslash
  · obtain ⟨_, -, hrefused⟩ := bind_eq_ok_iff.mp h
    cases hrefused
  · obtain ⟨place, hplace, hput⟩ := bind_eq_ok_iff.mp h
    refine ⟨place, hplace, ?_⟩
    split at hput
    · cases hput
    · rename_i hnode
      exact ⟨hnode, (Except.ok.inj hput).symm⟩

lemma lookup_of_write (h : t.write path content = .ok t') :
    t'.lookup path = .ok (.file content) := by
  obtain ⟨place, hlocate, hplace, rfl⟩ := write_eq_ok h
  simp only [lookup, locate_put hplace _ hlocate, bind, Except.bind, node?_put_self hplace]

lemma read_of_write (h : t.write path content = .ok t') : t'.read path = .ok content := by
  rw [read, lookup_of_write h]
  rfl

/-- The text that was written to a file is read from it. -/
lemma readText_of_write {text : String} (h : t.write path (.text text) = .ok t') :
    t'.readText path = .ok text := by
  rw [readText, read_of_write h]
  rfl

/-! ### Files that can be read -/

lemma exists?_of_read (h : t.read path = .ok content) : t.exists? path = true := by
  obtain ⟨n, hlookup, -⟩ := bind_eq_ok_iff.mp h
  rw [exists?, hlookup]
  rfl

lemma read_of_readText {text : String} (h : t.readText path = .ok text) :
    t.read path = .ok (.text text) := by
  obtain ⟨content, hread, htext⟩ := bind_eq_ok_iff.mp h
  cases content <;> cases htext
  exact hread

end ParticleScene.FileTree
