import ParticleScene.Proofs.Autosave.Rotation
import ParticleScene.Proofs.Text.Bytes

/-!
# The newest autosaves

The autosaves of a directory are the regular files in it with the name of one. They are listed once
each, in descending order of the bytes of their names. A rotation keeps the first few of them and
everything that is no autosave, also directories with the name of one, and a second rotation finds
nothing to take away.
-/

namespace ParticleScene.Autosaver

variable {t : FileTree} {place : Location} {a : Autosaver} {name : String}

lemma isAutosaveName_iff : isAutosaveName name ↔
    "autosave_".toList <+: name.toList ∧ ".fxgen".toList <:+ name.toList := by
  rw [isAutosaveName, Bool.and_eq_true, List.isPrefixOf_iff_prefix, List.isSuffixOf_iff_suffix]
  rfl

/-- The autosaves of a directory are listed newest first. A rotation that is not refused keeps the
first ones, up to the greatest number, takes the others away and changes nothing else. -/
theorem rotate_keeps_newest (hdirectory : t.IsDirectoryAt a.directory place)
    (hnames : t.HasNames place) :
    ∃ names : List String,
      list t a.directory = names.map (Path.join a.directory) ∧
      names.Pairwise (fun newer older => Text.bytes older < Text.bytes newer) ∧
      (∀ name, name ∈ names ↔
        ("autosave_".toList <+: name.toList ∧ ".fxgen".toList <:+ name.toList) ∧
          ∃ content, t.nodes[place ++ [name]]? = some (.file content)) ∧
      ((∃ t', a.rotate t = (.ok (), t')) ↔
        ∀ name ∈ names.drop a.settings.maxAutosaves.toNat, FileTree.Fits a.directory name) ∧
      ∀ t', a.rotate t = (.ok (), t') →
        list t' a.directory =
          (names.take a.settings.maxAutosaves.toNat).map (Path.join a.directory) ∧
        (∀ l, t'.nodes[l]? =
          if l ∈ (names.drop a.settings.maxAutosaves.toNat).map (place ++ [·]) then none
          else t.nodes[l]?) ∧
        a.rotate t' = (.ok (), t') := by
  have hproper : ∀ name ∈ autosaveNames t a.directory, Path.IsName name := by
    intro name hmem
    obtain ⟨-, content, hcontent⟩ := (mem_autosaveNames_iff hdirectory.locate).mp hmem
    exact hnames name (hcontent ▸ Option.some_ne_none _)
  refine ⟨autosaveNames t a.directory, rfl, ?_, fun name => ?_, ?_, fun t' hrotate => ?_⟩
  · exact (autosaveNames_descending hdirectory.locate).imp Text.bytes_lt_bytes_iff.mpr
  · rw [mem_autosaveNames_iff hdirectory.locate, isAutosaveName_iff]
  · simp only [rotate_eq_ok_iff hdirectory hproper, exists_and_left, exists_eq, and_true, outdated,
      List.mem_reverse]
  · obtain ⟨-, rfl⟩ := (rotate_eq_ok_iff hdirectory hproper).mp hrotate
    have hkept := autosaveNames_rotated hdirectory hproper
    refine ⟨by rw [list, hkept], fun l => ?_, rotate_of_length_le ?_⟩
    · rw [rotated, FileTree.getElem?_eraseAll, outdated, List.map_reverse]
      exact if_congr List.mem_reverse rfl rfl
    · rw [hkept]
      exact List.length_take_le _ _

/-- A directory with three autosaves, another file, and a directory with the name of an autosave in
which an autosave of something else lies. -/
def crowded : FileTree :=
  ["autosave_1.fxgen", "autosave_10.fxgen", "autosave_2.fxgen", "notes.txt"].foldl
    (fun t name => t.put ["backups", name] (.file (.text name)))
    (((FileTree.put {} ["backups"] .directory).put ["backups", "autosave_9.fxgen"] .directory).put
      ["backups", "autosave_9.fxgen", "autosave_8.fxgen"] (.file (.text "")))

lemma getElem?_crowded (name : String) : crowded.nodes[["backups"] ++ [name]]? =
    if name ∈ ["autosave_1.fxgen", "autosave_10.fxgen", "autosave_2.fxgen", "notes.txt"] then
      some (.file (.text name))
    else if name = "autosave_9.fxgen" then some .directory else none := by
  simp only [crowded, FileTree.put, List.foldl_cons, List.foldl_nil, Std.TreeMap.getElem?_insert,
    Std.compare_eq_iff_eq, List.cons_append, List.nil_append, List.cons.injEq, reduceCtorEq,
    and_true, true_and, and_false, if_false, Std.TreeMap.getElem?_emptyc]
  grind

/-- The names of the autosaves, newest first. -/
def crowdedNames : List String :=
  ["autosave_2.fxgen", "autosave_10.fxgen", "autosave_1.fxgen"]

lemma mem_crowdedNames_iff (name : String) : name ∈ crowdedNames ↔
    ("autosave_".toList <+: name.toList ∧ ".fxgen".toList <:+ name.toList) ∧
      ∃ content, crowded.nodes[["backups"] ++ [name]]? = some (.file content) := by
  rw [getElem?_crowded]
  constructor
  · intro h
    fin_cases h
    all_goals exact ⟨by decide, _, rfl⟩
  · rintro ⟨⟨hstart, -⟩, content, hcontent⟩
    split_ifs at hcontent with hmem hname
    · fin_cases hmem
      · decide
      · decide
      · decide
      · exact absurd hstart (by decide)
    · cases hcontent

lemma crowded_isDirectoryAt : crowded.IsDirectoryAt "backups" ["backups"] where
  locate := by decide
  node := by rfl

lemma hasNames_crowded : crowded.HasNames ["backups"] := by
  intro name hname
  rw [getElem?_crowded] at hname
  split_ifs at hname with hmem hnine
  · fin_cases hmem
    all_goals exact ⟨by decide, by decide, by decide, by decide⟩
  · rw [hnine]
    exact ⟨by decide, by decide, by decide, by decide⟩
  · exact absurd rfl hname

/-- Autosaves of which the newest two are kept. -/
def pair : Autosaver where
  settings := { maxAutosaves := 2 }
  directory := "backups"

theorem rotate_keeps_newest_crowded :
    crowded.IsDirectoryAt pair.directory ["backups"] ∧ crowded.HasNames ["backups"] ∧
      list crowded "backups" =
        ["backups/autosave_2.fxgen", "backups/autosave_10.fxgen", "backups/autosave_1.fxgen"] ∧
      ∃ t', pair.rotate crowded = (.ok (), t') ∧
        list t' "backups" = ["backups/autosave_2.fxgen", "backups/autosave_10.fxgen"] ∧
        t'.nodes[["backups", "autosave_1.fxgen"]]? = none ∧
        t'.nodes[["backups", "autosave_9.fxgen"]]? = some .directory ∧
        pair.rotate t' = (.ok (), t') := by
  obtain ⟨names, hlist, hdescending, hmem, hsucceeds, hrotated⟩ :=
    rotate_keeps_newest (a := pair) crowded_isDirectoryAt hasNames_crowded
  obtain rfl : names = crowdedNames :=
    (hdescending.imp Text.bytes_lt_bytes_iff.mp).eq_of_mem_iff (r := (· > ·)) (by decide)
      fun name => by rw [hmem, mem_crowdedNames_iff]
  obtain ⟨t', hrotate⟩ := hsucceeds.mpr (List.forall_mem_singleton.mpr ⟨by decide, by decide⟩)
  obtain ⟨hkept, hnodes, hagain⟩ := hrotated t' hrotate
  refine ⟨crowded_isDirectoryAt, hasNames_crowded, hlist, t', hrotate, hkept, ?_, ?_, hagain⟩
  · rw [hnodes]
    rfl
  · rw [hnodes]
    rfl

end ParticleScene.Autosaver
