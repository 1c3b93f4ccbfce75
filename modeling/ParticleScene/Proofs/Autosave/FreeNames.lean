import ParticleScene.Proofs.Autosave.Rotation
import ParticleScene.Proofs.Autosave.Writing

/-!
# Free names

The search for the path of the next autosave tries one numbered name after the other. Different
numbers make different names, so of more names than the directory has entries one is free, and the
search ends there. What is written at its end takes the place of nothing.
-/

namespace ParticleScene.Autosaver

open Moment

variable {t t' : FileTree} {directory stamp path : String} {place : Location} {m now : Moment}
variable {content : Content} {i number : Nat}

/-! ### Numbers in names -/

lemma ending_injective : Function.Injective ending := by
  intro i j h
  have hfirst (n : Nat) : ending 0 ≠ ending (n + 1) := by
    intro h
    have hhead := congrArg (fun s => s.toList.head?) h
    simp only [ending, String.toList_append] at hhead
    cases hhead
  cases i with
  | zero =>
    cases j with
    | zero => rfl
    | succ j => exact absurd h (hfirst j)
  | succ i =>
    cases j with
    | zero => exact absurd h.symm (hfirst i)
    | succ j =>
      rw [ending, ending, String.append_right_inj, String.append_left_inj] at h
      exact padded_injective 3 h

/-- No two autosaves of a stamp have one name. -/
lemma autosaveName_injective (stamp : String) : Function.Injective (autosaveName stamp) := by
  intro i j h
  rw [autosaveName_eq, autosaveName_eq, String.append_right_inj, String.append_right_inj] at h
  exact ending_injective h

/-- A name that leads to something is that of an entry. -/
lemma getElem?_of_taken (h : t.IsDirectoryAt directory place)
    (htaken : t.exists? (Path.join directory (autosaveName m.stamp i)) = true) :
    t.nodes[place ++ [autosaveName m.stamp i]]? ≠ none := by
  have hname := isName_autosaveName m i
  rw [← FileTree.node?_name hname]
  exact ((h.exists?_join_iff hname).mp htaken).2

/-- A name that leads to nothing is that of no entry, unless its path is refused. -/
lemma getElem?_of_free (h : t.IsDirectoryAt directory place)
    (hfree : t.exists? (Path.join directory (autosaveName m.stamp i)) = false)
    (hfits : FileTree.Fits directory (autosaveName m.stamp i)) :
    t.nodes[place ++ [autosaveName m.stamp i]]? = none := by
  have hname := isName_autosaveName m i
  rw [← FileTree.node?_name hname]
  by_contra hnode
  exact absurd ((h.exists?_join_iff hname).mpr ⟨hfits, hnode⟩) (Bool.eq_false_iff.mp hfree)

/-- One of the names is free, with no more names before it than there are entries. -/
lemma exists_free (h : t.IsDirectoryAt directory place) (m : Moment) :
    ∃ number ≤ t.entryCount place,
      t.exists? (Path.join directory (autosaveName m.stamp number)) = false ∧
      ∀ i < number, t.exists? (Path.join directory (autosaveName m.stamp i)) = true := by
  have hfree : ∃ number, number ≤ t.entryCount place ∧
      t.exists? (Path.join directory (autosaveName m.stamp number)) = false := by
    by_contra hnone
    have hall : ∀ name ∈ (List.range (t.entryCount place + 1)).map (autosaveName m.stamp),
        t.nodes[place ++ [name]]? ≠ none := by
      intro name hname
      obtain ⟨i, hi, rfl⟩ := List.mem_map.mp hname
      refine getElem?_of_taken h (Bool.eq_true_of_not_eq_false fun hfalse => hnone ⟨i, ?_, hfalse⟩)
      exact Nat.le_of_lt_succ (List.mem_range.mp hi)
    have hle := FileTree.length_le_entryCount
      (List.Nodup.map (autosaveName_injective m.stamp) List.nodup_range) hall
    rw [List.length_map, List.length_range] at hle
    exact Nat.not_succ_le_self _ hle
  obtain ⟨hle, hnumber⟩ := Nat.find_spec hfree
  refine ⟨Nat.find hfree, hle, hnumber, fun i hi => ?_⟩
  exact Bool.eq_true_of_not_eq_false fun hfalse =>
    Nat.find_min hfree hi ⟨(Nat.le_of_lt hi).trans hle, hfalse⟩

/-! ### The search -/

/-- The path that the search makes of its counter. -/
def countedPath (directory stamp : String) (counter : Int32) : String :=
  Path.join directory
    (nameStart ++ stamp ++ "_" ++ padded 3 counter.toNatClampNeg ++ nameEnd)

/-- The search for a free path with a counter of 32 bits. It stands at a path and ends there if that
leads to nothing. Otherwise it makes the next path of the counter and counts up, for which there has
to be room. -/
inductive Search (t : FileTree) (directory stamp : String) : String → Int32 → String → Prop
  | free {path : String} {counter : Int32} (h : t.exists? path = false) :
    Search t directory stamp path counter path
  | taken {path found : String} {counter : Int32} (h : t.exists? path = true)
    (hroom : counter < Int32.maxValue)
    (hrest : Search t directory stamp (countedPath directory stamp counter) (counter + 1) found) :
    Search t directory stamp path counter found

lemma countedPath_ofNat (directory stamp : String) (hi : i + 1 < 2 ^ 31) :
    countedPath directory stamp (.ofNat (i + 1)) =
      Path.join directory (autosaveName stamp (i + 1)) := by
  rw [countedPath, Int32.toNatClampNeg_ofNat_of_lt hi, autosaveName]

/-- The search goes through the names that are taken and ends at the first free one. -/
lemma search_of_free
    (hfree : t.exists? (Path.join directory (autosaveName stamp number)) = false)
    (htaken : ∀ i < number, t.exists? (Path.join directory (autosaveName stamp i)) = true)
    (hnumber : number < 2 ^ 31 - 1) (hi : i ≤ number) :
    Search t directory stamp (Path.join directory (autosaveName stamp i)) (.ofNat (i + 1))
      (Path.join directory (autosaveName stamp number)) := by
  induction hi using Nat.decreasingInduction with
  | self => exact .free hfree
  | of_succ i hi ih =>
    have hcounter : (Int32.ofNat (i + 1)).toInt = (i + 1 : ℕ) :=
      Int32.toInt_ofNat_of_lt (by omega)
    refine .taken (htaken i hi) ?_ ?_
    · rw [Int32.lt_iff_toInt_lt, hcounter]
      change ((i + 1 : ℕ) : ℤ) < 2147483647
      omega
    · rw [countedPath_ofNat directory stamp (by omega)]
      exact Int32.ofNat_add (i + 1) 1 ▸ ih

/-! ### The path that is found -/

/-- What is written where nothing was leaves all else, and is listed if it has the name of an
autosave. -/
lemma write_autosaveName (h : t.IsDirectoryAt directory place)
    (hfree : t.exists? (Path.join directory (autosaveName m.stamp i)) = false)
    (hwrite : t.write (Path.join directory (autosaveName m.stamp i)) content = .ok t') :
    (∀ (l : Location) (n : Node), t.nodes[l]? = some n → t'.nodes[l]? = some n) ∧
      Path.join directory (autosaveName m.stamp i) ∈ list t' directory := by
  obtain ⟨l, hlocate, hplace, rfl⟩ := FileTree.write_eq_ok hwrite
  obtain ⟨hfits, rfl⟩ := (h.locate_join_iff (isName_autosaveName m i)).mp hlocate
  have hnode := getElem?_of_free h hfree hfits
  constructor
  · intro l n hl
    rw [FileTree.put, Std.TreeMap.getElem?_insert, if_neg, hl]
    rw [Std.compare_eq_iff_eq]
    rintro rfl
    rw [hnode] at hl
    cases hl
  · refine List.mem_map.mpr ⟨_, ?_, rfl⟩
    rw [mem_autosaveNames_iff (FileTree.locate_put hplace _ h.locate), FileTree.getElem?_put_name,
      if_pos rfl]
    exact ⟨isAutosaveName_autosaveName _ _, content, rfl⟩

/-- Whatever stands in the directory and whatever the clock shows, the search ends at a path that
leads to nothing and has the name of an autosave, after no more names than there are entries. With
fewer entries than its counter can count, the counter does not overflow. So an autosave overwrites
nothing. -/
theorem nextPath_overwrites_nothing (h : t.IsDirectoryAt directory place) (now : Moment) :
    ∃ number ≤ t.entryCount place,
      nextPath t directory now = Path.join directory (autosaveName now.stamp number) ∧
      isAutosaveName (autosaveName now.stamp number) ∧
      t.exists? (nextPath t directory now) = false ∧
      (FileTree.Fits directory (autosaveName now.stamp number) →
        t.nodes[place ++ [autosaveName now.stamp number]]? = none) ∧
      (∀ i < number, t.exists? (Path.join directory (autosaveName now.stamp i)) = true) ∧
      (t.entryCount place < Int32.maxValue.toInt → Search t directory now.stamp
        (Path.join directory (autosaveName now.stamp 0)) 1 (nextPath t directory now)) ∧
      ∀ content t', t.write (nextPath t directory now) content = .ok t' →
        (∀ (l : Location) (n : Node), t.nodes[l]? = some n → t'.nodes[l]? = some n) ∧
        nextPath t directory now ∈ list t' directory := by
  obtain ⟨number, hle, hfree, htaken⟩ := exists_free h now
  have hpath : nextPath t directory now = Path.join directory (autosaveName now.stamp number) := by
    have hsize := t.entryCount_le_size place
    exact freePath_eq htaken hfree (Nat.zero_le _) (by omega)
  rw [hpath]
  refine ⟨number, hle, rfl, isAutosaveName_autosaveName _ _, hfree, getElem?_of_free h hfree,
    htaken, fun hroom => ?_, fun content t' => write_autosaveName h hfree⟩
  change (t.entryCount place : ℤ) < 2147483647 at hroom
  exact search_of_free hfree htaken (by omega) (Nat.zero_le number)

/-- A directory in which the first name of a moment is that of a file and the second one that of a
directory. -/
def occupied : FileTree :=
  ((FileTree.put {} ["backups"] .directory).put
    ["backups", "autosave_19700101_000000_000.fxgen"] (.file (.text "{}"))).put
    ["backups", "autosave_19700101_000000_000_001.fxgen"] .directory

lemma occupied_isDirectoryAt : occupied.IsDirectoryAt "backups" ["backups"] where
  locate := by decide
  node := by rfl

theorem nextPath_overwrites_nothing_occupied :
    occupied.IsDirectoryAt "backups" ["backups"] ∧ occupied.entryCount ["backups"] = 2 ∧
      nextPath occupied "backups" ⟨0⟩ =
        "backups/autosave_19700101_000000_000_002.fxgen" ∧
      occupied.exists? "backups/autosave_19700101_000000_000_002.fxgen" = false ∧
      Search occupied "backups" "19700101_000000_000"
        "backups/autosave_19700101_000000_000.fxgen" 1
        "backups/autosave_19700101_000000_000_002.fxgen" ∧
      ∃ t', occupied.write "backups/autosave_19700101_000000_000_002.fxgen" (.text "[]") = .ok t' ∧
        t'.nodes[["backups", "autosave_19700101_000000_000.fxgen"]]? =
          some (.file (.text "{}")) ∧
        "backups/autosave_19700101_000000_000_002.fxgen" ∈ list t' "backups" := by
  have hpath : nextPath occupied "backups" ⟨0⟩ =
    "backups/autosave_19700101_000000_000_002.fxgen" := by decide +kernel
  have hcount : occupied.entryCount ["backups"] = 2 := by decide +kernel
  obtain ⟨number, -, -, -, hfree, -, -, hsearch, hwrite⟩ :=
    nextPath_overwrites_nothing occupied_isDirectoryAt ⟨0⟩
  rw [hpath] at hfree hsearch hwrite
  obtain ⟨hkeeps, hlisted⟩ := hwrite (.text "[]") _ rfl
  exact ⟨occupied_isDirectoryAt, hcount, hpath, hfree, hsearch (by rw [hcount]; decide), _, rfl,
    hkeeps _ _ rfl, hlisted⟩

end ParticleScene.Autosaver
