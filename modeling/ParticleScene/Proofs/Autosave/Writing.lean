import ParticleScene.Proofs.Autosave.Names
import ParticleScene.Proofs.Autosave.Rotation

/-!
# Writing the next autosave

After a number of writes the directory holds the first of their names. The next write takes the
first number that is not among them: the number of writes so far at its moment, as long as all of
those are kept.
-/

namespace ParticleScene.Autosaver

open FileAction Moment

variable {known : Scene → Prop} {a : Autosaver} {t : FileTree} {place : Location}
variable {ws : List Moment} {now : Moment} {s : Scene} {directory stamp name : String}

/-! ### The next name -/

/-- The first name that is free among enough names. -/
lemma freePath_eq {number : Nat}
    (htaken : ∀ i < number, t.exists? (Path.join directory (autosaveName stamp i)) = true)
    (hfree : t.exists? (Path.join directory (autosaveName stamp number)) = false) {tries n : Nat}
    (hn : n ≤ number) (htries : number ≤ n + tries) :
    freePath t directory stamp tries n = Path.join directory (autosaveName stamp number) := by
  induction tries generalizing n with
  | zero =>
    obtain rfl : n = number := by omega
    rfl
  | succ tries ih =>
    rw [freePath]
    rcases Nat.lt_or_eq_of_le hn with hlt | rfl
    · rw [htaken n hlt, if_pos rfl]
      exact ih hlt (by omega)
    · rw [hfree]
      rfl

/-! ### What is kept of a number of writes -/

/-- The autosaver when it has written a scene. -/
def afterWriting (a : Autosaver) (now : Moment) (s : Scene) : Autosaver :=
  { a with lastSave := some now, lastFingerprint := some s.document.fingerprint }

@[simp] lemma directory_afterWriting (a : Autosaver) (now : Moment) (s : Scene) :
    (a.afterWriting now s).directory = a.directory := rfl

@[simp] lemma settings_afterWriting (a : Autosaver) (now : Moment) (s : Scene) :
    (a.afterWriting now s).settings = a.settings := rfl

/-- The directory holds the newest of the autosaves that were written at some moments, and the
latest of them is the document that the autosaver remembers. -/
structure HasWritten (known : Scene → Prop) (a : Autosaver) (t : FileTree) (place : Location)
    (ws : List Moment) : Prop where
  orderly : Orderly ws
  directory : t.IsDirectoryAt a.directory place
  fits : ∀ name ∈ autosaveNames t a.directory, FileTree.Fits a.directory name
  listed : autosaveNames t a.directory = (names ws).take a.settings.maxAutosaves.toNat
  no_directory : ∀ name, isAutosaveName name → t.nodes[place ++ [name]]? ≠ some .directory
  last : ∀ fingerprint, a.lastFingerprint = some fingerprint → ∃ name s,
    (names ws).head? = some name ∧ known s ∧ s.document.fingerprint = fingerprint ∧
      t.nodes[place ++ [name]]? = some (.file (.text s.document.text))

namespace HasWritten

lemma isName_of_listed (h : HasWritten known a t place ws)
    (hmem : name ∈ autosaveNames t a.directory) :
    Path.IsName name ∧ FileTree.Fits a.directory name := by
  refine ⟨?_, h.fits name hmem⟩
  rw [h.listed] at hmem
  obtain ⟨m, i, -, rfl⟩ := mem_names_iff.mp (List.mem_of_mem_take hmem)
  exact isName_autosaveName m i

/-- Nothing is at a name that is not listed. -/
lemma getElem?_of_not_listed (h : HasWritten known a t place ws) (hname : isAutosaveName name)
    (hmem : name ∉ autosaveNames t a.directory) : t.nodes[place ++ [name]]? = none := by
  rw [mem_autosaveNames_iff h.directory.locate] at hmem
  cases hnode : t.nodes[place ++ [name]]? with
  | none => rfl
  | some n =>
    cases n with
    | directory => exact absurd hnode (h.no_directory name hname)
    | file content => exact absurd ⟨hname, content, hnode⟩ hmem

/-- The first number that is not listed is taken for the next name. -/
lemma nextPath_eq (h : HasWritten known a t place ws) (hnow : now.HasPlainYear) {number : Nat}
    (hlisted : ∀ i < number, autosaveName now.stamp i ∈ autosaveNames t a.directory)
    (hfree : autosaveName now.stamp number ∉ autosaveNames t a.directory)
    (hnumber : number < 1000) :
    nextPath t a.directory now = Path.join a.directory (autosaveName now.stamp number) := by
  have htaken : ∀ i < number,
      t.exists? (Path.join a.directory (autosaveName now.stamp i)) = true := by
    intro i hi
    obtain ⟨hname, hfits⟩ := h.isName_of_listed (hlisted i hi)
    obtain ⟨-, content, hnode⟩ := (mem_autosaveNames_iff h.directory.locate).mp (hlisted i hi)
    rw [← FileTree.node?_name hname] at hnode
    exact (h.directory.exists?_join_iff hname).mpr ⟨hfits, hnode ▸ Option.some_ne_none _⟩
  have hnone : t.exists? (Path.join a.directory (autosaveName now.stamp number)) = false := by
    have hname := isName_autosaveName now number
    have hnode := h.getElem?_of_not_listed (isAutosaveName_autosaveName _ _) hfree
    rw [← FileTree.node?_name hname] at hnode
    rw [Bool.eq_false_iff, Ne, h.directory.exists?_join_iff hname]
    exact fun hexists => hexists.2 hnode
  -- Each name that is taken has a node of its own, so the search does not run out of tries.
  have hsize : number ≤ t.nodes.size := by
    have hsubset : ((List.range number).map (autosaveName now.stamp)) ⊆
        autosaveNames t a.directory := by
      intro name hmem
      obtain ⟨i, hi, rfl⟩ := List.mem_map.mp hmem
      exact hlisted i (List.mem_range.mp hi)
    have hnodup : ((List.range number).map (autosaveName now.stamp)).Nodup := by
      refine (List.nodup_map_iff_inj_on List.nodup_range).mpr fun i hi j hj heq => ?_
      rw [List.mem_range] at hi hj
      exact ((autosaveName_inj hnow hnow (by omega) (by omega)).mp heq).2
    calc number = ((List.range number).map (autosaveName now.stamp)).length := by simp
      _ ≤ (autosaveNames t a.directory).length := (hnodup.subperm hsubset).length_le
      _ ≤ t.nodes.size := length_autosaveNames_le t a.directory
  exact freePath_eq htaken hnone (Nat.zero_le _) (by omega)

/-- A text is written at a free name. `listed` are the names that are there then. -/
lemma exists_written (h : HasWritten known a t place ws)
    (hname : Path.IsName name ∧ FileTree.Fits a.directory name) (hauto : isAutosaveName name)
    (hfree : name ∉ autosaveNames t a.directory) {listed : List String}
    (hdescending : listed.Pairwise (· > ·))
    (hlisted : ∀ other, other ∈ listed ↔ other = name ∨ other ∈ autosaveNames t a.directory)
    (text : String) :
    ∃ written, (writeText (Path.join a.directory name) text).run t = (.ok (), written) ∧
      written.IsDirectoryAt a.directory place ∧ autosaveNames written a.directory = listed ∧
      ∀ other, written.nodes[place ++ [other]]? =
        if other = name then some (.file (.text text)) else t.nodes[place ++ [other]]? := by
  have hplace : t.node? (place ++ [name]) ≠ some .directory := by
    rw [FileTree.node?_name hname.1, h.getElem?_of_not_listed hauto hfree]
    exact (Option.some_ne_none _).symm
  have hdirectory := h.directory.of_keepsDirectories
    (FileTree.keepsDirectories_put hplace (.file (.text text)))
  have hput := t.getElem?_put_name place name
  refine ⟨_, ?_, hdirectory, ?_, fun other => hput other _⟩
  · exact writeText_eq_ok.mpr (h.directory.write_join hname.1 hname.2 hplace (.text text))
  · refine autosaveNames_eq_of_descending hdirectory.locate hdescending fun other => ?_
    rw [hlisted, hput, mem_autosaveNames_iff h.directory.locate]
    by_cases hother : other = name
    · simp [hother, hauto]
    · simp [hother]

/-- A save of a changed document at a free name. `listed` are the names that are there before the
rotation. -/
lemma exists_save (h : HasWritten known a t place ws)
    (hchanged : a.lastFingerprint ≠ some s.document.fingerprint)
    (hpath : nextPath t a.directory now = Path.join a.directory name)
    (hname : Path.IsName name ∧ FileTree.Fits a.directory name) (hauto : isAutosaveName name)
    (hfree : name ∉ autosaveNames t a.directory) {listed : List String}
    (hdescending : listed.Pairwise (· > ·))
    (hlisted : ∀ other, other ∈ listed ↔ other = name ∨ other ∈ autosaveNames t a.directory) :
    ∃ t', a.save now s t =
        ⟨.ok (some (Path.join a.directory name)), a.afterWriting now s, t'⟩ ∧
      t'.IsDirectoryAt a.directory place ∧
      autosaveNames t' a.directory = listed.take a.settings.maxAutosaves.toNat ∧
      ∀ other, t'.nodes[place ++ [other]]? =
        if other ∈ listed.drop a.settings.maxAutosaves.toNat then none
        else if other = name then some (.file (.text s.document.text))
        else t.nodes[place ++ [other]]? := by
  obtain ⟨written, hwrite, hdirectory, hnames, hwritten⟩ :=
    h.exists_written hname hauto hfree hdescending hlisted s.document.text
  have hplain : ∀ other ∈ autosaveNames written a.directory,
      Path.IsName other ∧ FileTree.Fits a.directory other := by
    intro other hmem
    rw [hnames, hlisted] at hmem
    rcases hmem with rfl | hmem
    · exact hname
    · exact h.isName_of_listed hmem
  obtain ⟨t', hrotate, hdirectory', hkept, hnodes⟩ :=
    exists_rotate (a := a.afterWriting now s) hdirectory hplain
  have hensure : (ensureDirectory a.directory).run t = (.ok (), t) := if_pos h.directory.exists?
  refine ⟨t', ?_, hdirectory', ?_, fun other => ?_⟩
  · rw [save]
    simp only [if_neg hchanged, hensure, hpath, hwrite]
    rw [afterWriting] at hrotate
    simp only [ExceptT.run, hrotate, Except.map]
    rfl
  · rw [← hnames]
    exact hkept
  · rw [hnodes, hwritten]
    simp only [outdated, List.mem_reverse, directory_afterWriting, settings_afterWriting, hnames]

/-- A name at which a save succeeds is not refused. -/
lemma fits_of_isOk (h : HasWritten known a t place ws)
    (hchanged : a.lastFingerprint ≠ some s.document.fingerprint)
    (hpath : nextPath t a.directory now = Path.join a.directory name)
    (hname : Path.IsName name) (hok : (a.save now s t).result.isOk) :
    FileTree.Fits a.directory name := by
  have hensure : (ensureDirectory a.directory).run t = (.ok (), t) := if_pos h.directory.exists?
  rw [save] at hok
  simp only [if_neg hchanged, hensure, hpath] at hok
  rcases hwrite : (writeText (Path.join a.directory name) s.document.text).run t with ⟨_ | _, t'⟩
  · rw [hwrite] at hok
    cases hok
  · exact h.directory.fits_of_write_join hname (writeText_eq_ok.mp hwrite)

/-! ### One write -/

/-- As long as all writes at the moment are kept, the next number is that of the writes so far. -/
lemma nextPath_of_count_le (h : HasWritten known a t place ws)
    (hnow : ∀ m ∈ ws, m.millis ≤ now.millis) (hplain : now.HasPlainYear)
    (hthousand : ws.count now < 1000) (hcount : ws.count now ≤ a.settings.maxAutosaves.toNat) :
    autosaveName now.stamp (ws.count now) ∉ autosaveNames t a.directory ∧
      nextPath t a.directory now =
        Path.join a.directory (autosaveName now.stamp (ws.count now)) := by
  have hmem {i : Nat} (hi : i < 1000) := mem_take_names_iff h.orderly hnow hplain hi
    (n := a.settings.maxAutosaves.toNat)
  have hfree : autosaveName now.stamp (ws.count now) ∉ autosaveNames t a.directory := by
    rw [h.listed, hmem hthousand]
    omega
  refine ⟨hfree, h.nextPath_eq hplain (fun i hi => ?_) hfree hthousand⟩
  rw [h.listed, hmem (by omega)]
  omega

/-- When the first write at the moment is not kept any more, its name is given again. -/
lemma nextPath_of_lt_count (h : HasWritten known a t place ws)
    (hnow : ∀ m ∈ ws, m.millis ≤ now.millis) (hplain : now.HasPlainYear)
    (hcount : a.settings.maxAutosaves.toNat < ws.count now) :
    autosaveName now.stamp 0 ∉ autosaveNames t a.directory ∧
      nextPath t a.directory now = Path.join a.directory (autosaveName now.stamp 0) := by
  have hfree : autosaveName now.stamp 0 ∉ autosaveNames t a.directory := by
    rw [h.listed, mem_take_names_iff h.orderly hnow hplain (by decide)]
    omega
  exact ⟨hfree, h.nextPath_eq hplain (fun i hi => absurd hi (Nat.not_lt_zero i)) hfree (by decide)⟩

/-- A changed document is written, and is the newest of what is kept then. -/
lemma exists_save_of_count_le (h : HasWritten known a t place ws)
    (hmax : 0 < a.settings.maxAutosaves.toNat) (hknown : known s)
    (hchanged : a.lastFingerprint ≠ some s.document.fingerprint)
    (hnow : ∀ m ∈ ws, m.millis ≤ now.millis) (hplain : now.HasPlainYear)
    (hthousand : ws.count now < 1000) (hcount : ws.count now ≤ a.settings.maxAutosaves.toNat)
    (hfits : FileTree.Fits a.directory (autosaveName now.stamp (ws.count now))) :
    ∃ t', a.save now s t =
        ⟨.ok (some (Path.join a.directory (autosaveName now.stamp (ws.count now)))),
          a.afterWriting now s, t'⟩ ∧
      HasWritten known (a.afterWriting now s) t' place (now :: ws) := by
  obtain ⟨hfree, hpath⟩ := h.nextPath_of_count_le hnow hplain hthousand hcount
  have horderly : Orderly (now :: ws) := by
    refine ⟨List.pairwise_cons.mpr ⟨hnow, h.orderly.latest_first⟩,
      List.forall_mem_cons.mpr ⟨hplain, h.orderly.plain⟩, fun m => ?_⟩
    rw [List.count_cons]
    split
    · rename_i heq
      rw [← eq_of_beq heq]
      exact hthousand
    · exact h.orderly.count_le m
  have hdescending : (autosaveName now.stamp (ws.count now) ::
      autosaveNames t a.directory).Pairwise (· > ·) := by
    rw [h.listed]
    exact horderly.names_descending.sublist ((List.take_sublist _ _).cons_cons _)
  obtain ⟨t', hsave, hdirectory, hlisted, hnodes⟩ := h.exists_save hchanged hpath
    ⟨isName_autosaveName now _, hfits⟩ (isAutosaveName_autosaveName _ _) hfree hdescending
    fun _ => List.mem_cons
  have hkept : autosaveName now.stamp (ws.count now) ∉ (autosaveName now.stamp (ws.count now) ::
      autosaveNames t a.directory).drop a.settings.maxAutosaves.toNat := by
    obtain ⟨n, hn⟩ := Nat.exists_eq_succ_of_ne_zero hmax.ne'
    rw [hn, List.drop_succ_cons]
    exact fun hmem => hfree (List.mem_of_mem_drop hmem)
  refine ⟨t', hsave, horderly, hdirectory, fun name hname => ?_, ?_, fun name hname => ?_, ?_⟩
  · rw [directory_afterWriting, hlisted] at hname
    rcases List.mem_cons.mp (List.mem_of_mem_take hname) with rfl | hold
    · exact hfits
    · exact h.fits name hold
  · rw [directory_afterWriting, settings_afterWriting, hlisted, h.listed, names,
      List.take_cons hmax, List.take_cons hmax, List.take_take, Nat.min_eq_left (Nat.sub_le ..)]
  · rw [hnodes]
    split
    · exact (Option.some_ne_none _).symm
    · split
      · exact FileTree.file_ne_directory _
      · exact h.no_directory name hname
  · intro fingerprint hfingerprint
    refine ⟨_, s, rfl, hknown, Option.some.inj hfingerprint, ?_⟩
    rw [hnodes, if_neg hkept, if_pos rfl]

/-- A changed document is written and rotated away at once when the first write at its moment is
not kept any more. -/
lemma exists_save_of_lt_count (h : HasWritten known a t place ws)
    (hchanged : a.lastFingerprint ≠ some s.document.fingerprint)
    (hnow : ∀ m ∈ ws, m.millis ≤ now.millis) (hplain : now.HasPlainYear)
    (hcount : a.settings.maxAutosaves.toNat < ws.count now)
    (hfits : FileTree.Fits a.directory (autosaveName now.stamp 0)) :
    ∃ t', a.save now s t =
        ⟨.ok (some (Path.join a.directory (autosaveName now.stamp 0))), a.afterWriting now s, t'⟩ ∧
      t'.exists? (Path.join a.directory (autosaveName now.stamp 0)) = false := by
  obtain ⟨hfree, hpath⟩ := h.nextPath_of_lt_count hnow hplain hcount
  have hname := isName_autosaveName now 0
  -- There are so many writes at the moment that nothing else is kept.
  have hgreater : ∀ name ∈ autosaveNames t a.directory, name > autosaveName now.stamp 0 := by
    intro name hmem
    have hlisted := hmem
    rw [h.listed] at hlisted
    obtain ⟨_ | i, hi, rfl⟩ := exists_of_mem_take_names h.orderly hnow hcount.le hlisted
    · exact absurd hmem hfree
    · exact autosaveName_lt_of_number now.stamp (Nat.succ_pos i)
        (Nat.lt_of_lt_of_le hi (h.orderly.count_le now))
  have hdescending : (autosaveNames t a.directory ++ [autosaveName now.stamp 0]).Pairwise
      (· > ·) := by
    refine List.pairwise_append.mpr ⟨autosaveNames_descending h.directory.locate,
      List.pairwise_singleton .., fun name hmem last hlast => ?_⟩
    rw [List.mem_singleton.mp hlast]
    exact hgreater name hmem
  obtain ⟨t', hsave, hdirectory, -, hnodes⟩ := h.exists_save hchanged hpath ⟨hname, hfits⟩
    (isAutosaveName_autosaveName _ _) hfree hdescending fun name => by
      rw [List.mem_append, List.mem_singleton, or_comm]
  refine ⟨t', hsave, ?_⟩
  have hfull : (autosaveNames t a.directory).length = a.settings.maxAutosaves.toNat := by
    rw [h.listed, List.length_take, length_names]
    exact Nat.min_eq_left (Nat.le_trans hcount.le List.count_le_length)
  have hgone := hnodes (autosaveName now.stamp 0)
  rw [List.drop_left' hfull, if_pos (List.mem_singleton_self _),
    ← FileTree.node?_name hname] at hgone
  rw [Bool.eq_false_iff, Ne, hdirectory.exists?_join_iff hname]
  exact fun hexists => hexists.2 hgone

end HasWritten

end ParticleScene.Autosaver
