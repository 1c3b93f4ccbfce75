import ParticleScene.Proofs.Autosave.Calls

/-!
# Autosaves last

Over any number of calls of an autosaver, the latest autosave in its directory holds the scene of
the last call, whether that call has written it or has found it unchanged. This is so as long as no
moment has more than one write beyond the greatest number of autosaves that are kept, or more than
a thousand.

With more writes at one moment the rotation gets in the way of the numbers in names. It takes the
first autosaves of the moment away, so that the next one has the name of the oldest, counts as the
oldest, and is taken away as soon as it is written.
-/

namespace ParticleScene.Autosaver

/-! ### Runs -/

/-- One call after the other, each with its outcome. -/
def run (a : Autosaver) (t : FileTree) : List Call → List (Call × Saved)
  | [] => []
  | c :: calls => (c, c.save a t) :: run (c.save a t).state (c.save a t).files calls

/-- The autosaver and the files after some calls. -/
def after (a : Autosaver) (t : FileTree) : List Call → Autosaver × FileTree
  | [] => (a, t)
  | c :: calls => after (c.save a t).state (c.save a t).files calls

/-- The moments at which calls have written. -/
def writes (trace : List (Call × Saved)) : List Moment :=
  trace.filterMap writtenAt

/-- An autosaver that has not written yet, on a directory without autosaves. -/
structure IsFresh (a : Autosaver) (t : FileTree) (place : Location) : Prop where
  lastFingerprint : a.lastFingerprint = none
  directory : t.IsDirectoryAt a.directory place
  empty : ∀ name, isAutosaveName name → t.nodes[place ++ [name]]? = none

/-- Calls whose clock never goes back and shows years of four digits, and whose documents are told
apart by their fingerprints. -/
structure AreSteady (calls : List Call) : Prop where
  in_order : calls.Pairwise fun c d => c.now.millis ≤ d.now.millis
  plain : ∀ c ∈ calls, c.now.HasPlainYear
  told_apart : ∀ c ∈ calls, ∀ d ∈ calls,
    c.scene.scene.document.fingerprint = d.scene.scene.document.fingerprint →
      c.scene.scene.document.compactText = d.scene.scene.document.compactText

variable {known : Scene → Prop} {a : Autosaver} {t : FileTree} {place : Location}
variable {ws : List Moment} {c : Call} {calls : List Call} {path : String}

lemma writtenAt_sublist (c : Call) (saved : Saved) :
    (writtenAt (c, saved)).toList.Sublist [c.now] := by
  rw [writtenAt]
  split
  · exact .refl _
  · exact List.nil_sublist _

lemma reverse_writtenAt (r : Call × Saved) :
    (writtenAt r).toList.reverse = (writtenAt r).toList := by
  cases writtenAt r with
  | none => rfl
  | some m => rfl

lemma writes_cons (r : Call × Saved) (trace : List (Call × Saved)) :
    writes (r :: trace) = (writtenAt r).toList ++ writes trace := by
  rw [writes, List.filterMap_cons]
  cases writtenAt r with
  | none => rfl
  | some m => rfl

lemma writes_run_sublist (a : Autosaver) (t : FileTree) (calls : List Call) :
    (writes (run a t calls)).Sublist (calls.map Call.now) := by
  induction calls generalizing a t with
  | nil => exact .slnil
  | cons c calls ih =>
    rw [run, writes_cons, List.map_cons]
    exact (writtenAt_sublist c _).append (ih _ _)

lemma run_append (a : Autosaver) (t : FileTree) (calls : List Call) (c : Call) :
    run a t (calls ++ [c]) =
      run a t calls ++ [(c, c.save (after a t calls).1 (after a t calls).2)] := by
  induction calls generalizing a t with
  | nil => rfl
  | cons d calls ih =>
    rw [List.cons_append, run, ih]
    rfl

/-- What is kept and what is durable over a run. -/
lemma HasWritten.run (h : HasWritten known a t place ws) (hmax : 0 < a.settings.maxAutosaves.toNat)
    (hknown : ∀ c ∈ calls, known c.scene.scene)
    (hdigest : ∀ s s', known s → known s' → s.document.fingerprint = s'.document.fingerprint →
      s.document.text = s'.document.text)
    (hnow : ∀ m ∈ ws, ∀ c ∈ calls, m.millis ≤ c.now.millis)
    (horder : calls.Pairwise fun c d => c.now.millis ≤ d.now.millis)
    (hplain : ∀ c ∈ calls, c.now.HasPlainYear)
    (hok : ∀ r ∈ run a t calls, r.1.scene.poisoned = false → r.2.result.isOk)
    (hcount : ∀ m, (writes (run a t calls)).count m + ws.count m ≤ a.mostWrites) :
    HasWritten known (after a t calls).1 (after a t calls).2 place
        ((writes (run a t calls)).reverse ++ ws) ∧
      (after a t calls).1.directory = a.directory ∧ (after a t calls).1.settings = a.settings ∧
      ∀ r ∈ run a t calls, IsDurable a.directory r.1 r.2 := by
  induction calls generalizing a t ws with
  | nil => exact ⟨h, rfl, rfl, List.forall_mem_nil _⟩
  | cons c calls ih =>
    obtain ⟨hfirst, hlater⟩ := List.pairwise_cons.mp horder
    obtain ⟨hknownc, hknown⟩ := List.forall_mem_cons.mp hknown
    obtain ⟨hplainc, hplain⟩ := List.forall_mem_cons.mp hplain
    obtain ⟨hokc, hok⟩ := List.forall_mem_cons.mp hok
    -- What the first call has written is counted with the writes before it from then on.
    simp only [Autosaver.run, writes_cons, List.count_append] at hcount ⊢
    obtain ⟨hwritten, hdirectory, hsettings, hdurable⟩ := h.call hmax hknownc hdigest
      (fun m hm => hnow m hm c List.mem_cons_self) hplainc hokc fun m => by
        have := hcount m
        omega
    have hnow' : ∀ m ∈ (writtenAt (c, c.save a t)).toList ++ ws, ∀ d ∈ calls,
        m.millis ≤ d.now.millis := by
      intro m hm d hd
      rcases List.mem_append.mp hm with hm | hm
      · rw [List.mem_singleton.mp ((writtenAt_sublist c _).subset hm)]
        exact hfirst d hd
      · exact hnow m hm d (List.mem_cons_of_mem _ hd)
    have hmost : (c.save a t).state.mostWrites = a.mostWrites := by
      rw [mostWrites, mostWrites, hsettings]
    obtain ⟨hkept, hdirectory', hsettings', hrest⟩ := ih hwritten (hsettings ▸ hmax) hknown hnow'
      hlater hplain hok fun m => by
        have := hcount m
        rw [hmost, List.count_append]
        omega
    rw [after, List.reverse_append, List.append_assoc, reverse_writtenAt]
    exact ⟨hkept, hdirectory'.trans hdirectory, hsettings'.trans hsettings,
      List.forall_mem_cons.mpr ⟨hdurable, hdirectory ▸ hrest⟩⟩

lemma AreSteady.sublist {first : List Call} (h : AreSteady calls) (hfirst : first.Sublist calls) :
    AreSteady first where
  in_order := h.in_order.sublist hfirst
  plain c hc := h.plain c (hfirst.subset hc)
  told_apart c hc d hd := h.told_apart c (hfirst.subset hc) d (hfirst.subset hd)

lemma AreSteady.writes_le {m : Moment} (h : AreSteady (calls ++ [c]))
    (hm : m ∈ writes (run a t calls)) : m.millis ≤ c.now.millis := by
  obtain ⟨d, hd, rfl⟩ := List.mem_map.mp ((writes_run_sublist a t calls).subset hm)
  exact (List.pairwise_append.mp h.in_order).2.2 d hd c (List.mem_singleton_self c)

/-- Nothing is written in a directory without autosaves. -/
lemma IsFresh.hasWritten (h : a.IsFresh t place) (known : Scene → Prop) :
    HasWritten known a t place [] := by
  have hlisted : autosaveNames t a.directory = [] := by
    refine autosaveNames_eq_of_descending h.directory.locate .nil fun name => ?_
    refine iff_of_false List.not_mem_nil ?_
    rintro ⟨hname, content, hcontent⟩
    rw [h.empty name hname] at hcontent
    cases hcontent
  refine ⟨⟨.nil, List.forall_mem_nil _, fun m => Nat.zero_le _⟩, h.directory, ?_, ?_, ?_, ?_⟩
  · rw [hlisted]
    exact List.forall_mem_nil _
  · rw [hlisted, names, List.take_nil]
  · intro name hname
    rw [h.empty name hname]
    exact (Option.some_ne_none _).symm
  · rw [h.lastFingerprint]
    exact fun fingerprint h => absurd h.symm (Option.some_ne_none fingerprint)

/-- A run from a directory without autosaves. -/
lemma IsFresh.run (h : a.IsFresh t place) (hmax : 1 ≤ a.settings.maxAutosaves)
    (hcalls : AreSteady calls)
    (hok : ∀ r ∈ run a t calls, r.1.scene.poisoned = false → r.2.result.isOk)
    (hcount : ∀ m, (writes (run a t calls)).count m ≤ a.mostWrites) :
    HasWritten (fun s => ∃ c ∈ calls, c.scene.scene = s) (after a t calls).1 (after a t calls).2
        place (writes (run a t calls)).reverse ∧
      (after a t calls).1.directory = a.directory ∧ (after a t calls).1.settings = a.settings ∧
      ∀ r ∈ run a t calls, IsDurable a.directory r.1 r.2 := by
  have hrun := (h.hasWritten fun s => ∃ c ∈ calls, c.scene.scene = s).run
    (UInt64.le_iff_toNat_le.mp hmax) (fun c hc => ⟨c, hc, rfl⟩) ?_ (List.forall_mem_nil _)
    hcalls.in_order hcalls.plain hok hcount
  · rwa [List.append_nil] at hrun
  · rintro _ _ ⟨c, hc, rfl⟩ ⟨d, hd, rfl⟩ hfingerprint
    exact Document.text_eq_of_compactText_eq (hcalls.told_apart c hc d hd hfingerprint)

/-- No call fails that can read its scene, when the path of the directory leaves room for names and
no moment has too many calls. -/
theorem isOk_of_room (h : a.IsFresh t place) (hmax : 1 ≤ a.settings.maxAutosaves)
    (hcalls : AreSteady calls)
    (hroom : a.directory.utf8ByteSize + roomForName ≤ FileTree.maxPath)
    (hcount : ∀ m, (calls.map Call.now).count m ≤ a.mostWrites) :
    ∀ r ∈ run a t calls, r.1.scene.poisoned = false → r.2.result.isOk := by
  induction calls using List.reverseRecOn with
  | nil => exact List.forall_mem_nil _
  | append_singleton calls c ih =>
    have hfirst := hcalls.sublist (List.sublist_append_left calls [c])
    rw [List.map_append] at hcount
    simp only [List.count_append] at hcount
    have hok := ih hfirst fun m => Nat.le_trans (Nat.le_add_right ..) (hcount m)
    have hwrites (m : Moment) : (writes (run a t calls)).count m ≤ (calls.map Call.now).count m :=
      (writes_run_sublist a t calls).count_le m
    obtain ⟨hkept, hdirectory, hsettings, -⟩ := h.run hmax hfirst hok fun m =>
      Nat.le_trans (hwrites m) (Nat.le_trans (Nat.le_add_right ..) (hcount m))
    have hnow : ∀ m ∈ (writes (run a t calls)).reverse, m.millis ≤ c.now.millis :=
      fun m hm => hcalls.writes_le (List.mem_reverse.mp hm)
    have hcountc := hcount c.now
    rw [List.map_singleton, List.count_singleton_self] at hcountc
    rw [run_append]
    refine List.forall_mem_append.mpr ⟨hok, List.forall_mem_singleton.mpr fun hreadable => ?_⟩
    refine hkept.isOk_call ?_ hnow (hcalls.plain c (by simp)) ?_ ?_ hreadable
    · rw [hsettings]
      exact UInt64.le_iff_toNat_le.mp hmax
    · rw [mostWrites, hsettings, List.count_reverse]
      exact Nat.lt_of_le_of_lt (hwrites c.now) hcountc
    · rw [hdirectory]
      exact hroom

/-- One write more than that at a moment is lost: the path that the call has written leads to
nothing. -/
theorem gone_of_run (h : a.IsFresh t place) (hmax : 1 ≤ a.settings.maxAutosaves)
    (hcalls : AreSteady (calls ++ [c]))
    (hok : ∀ r ∈ run a t calls, r.1.scene.poisoned = false → r.2.result.isOk)
    (hcount : ∀ m, (writes (run a t calls)).count m ≤ a.mostWrites)
    (hfull : a.settings.maxAutosaves.toNat < (writes (run a t calls)).count c.now)
    (hwritten : (c.save (after a t calls).1 (after a t calls).2).result = .ok (some path)) :
    (c.save (after a t calls).1 (after a t calls).2).files.exists? path = false := by
  have hfirst := hcalls.sublist (List.sublist_append_left calls [c])
  obtain ⟨hkept, -, hsettings, -⟩ := h.run hmax hfirst hok hcount
  refine hkept.gone_of_call (fun m hm => hcalls.writes_le (List.mem_reverse.mp hm))
    (hcalls.plain c (by simp)) ?_ hwritten
  rw [hsettings, List.count_reverse]
  exact hfull

/-- Autosaves last: after each call that succeeds, the latest autosave is there and holds the scene
of the call, and it is the one that the call has written, if it has written one. -/
theorem durable_of_run (h : a.IsFresh t place) (hmax : 1 ≤ a.settings.maxAutosaves)
    (hcalls : AreSteady calls)
    (hok : ∀ r ∈ run a t calls, r.1.scene.poisoned = false → r.2.result.isOk)
    (hcount : ∀ m, (writes (run a t calls)).count m ≤ a.mostWrites) :
    ∀ r ∈ run a t calls, IsDurable a.directory r.1 r.2 := by
  obtain ⟨-, -, -, hdurable⟩ := h.run hmax hcalls hok hcount
  exact hdurable

/-! ### Three scenes in one millisecond -/

/-- A working directory with an empty directory of backups. -/
def backups : FileTree :=
  ({} : FileTree).put ["backups"] .directory

/-- An autosaver that keeps one autosave. -/
def single : Autosaver where
  settings := { maxAutosaves := 1 }
  directory := "backups"

/-- A scene with a layer. -/
def layered : Scene :=
  (Scene.empty.addLayer "B" 0).2

/-- A call with a scene, in milliseconds since the start of 1970. -/
def callAt (millis : Int) (s : Scene) : Call :=
  ⟨⟨millis⟩, ⟨s, false⟩⟩

lemma isFresh_single : single.IsFresh backups ["backups"] where
  lastFingerprint := rfl
  directory := ⟨by rfl, by rfl⟩
  empty name _ := by
    rw [backups, FileTree.put, Std.TreeMap.getElem?_insert, if_neg]
    · rfl
    · rw [Std.compare_eq_iff_eq]
      simp

set_option maxRecDepth 100000 in
lemma fingerprint_empty_ne : Scene.empty.document.fingerprint ≠ layered.document.fingerprint := by
  decide +kernel

lemma areSteady_of_scenes
    (hscenes : ∀ c ∈ calls, c.scene.scene = .empty ∨ c.scene.scene = layered)
    (hmoments : ∀ c ∈ calls, c.now = ⟨0⟩ ∨ c.now = ⟨1⟩)
    (horder : calls.Pairwise fun c d => c.now.millis ≤ d.now.millis) : AreSteady calls := by
  refine ⟨horder, fun c hc => ?_, fun c hc d hd hfingerprint => ?_⟩
  · rcases hmoments c hc with hc | hc <;> rw [hc] <;> decide
  · rcases hscenes c hc with hc | hc <;> rcases hscenes d hd with hd | hd <;>
      rw [hc, hd] at hfingerprint ⊢
    · exact absurd hfingerprint fingerprint_empty_ne
    · exact absurd hfingerprint.symm fingerprint_empty_ne

lemma save_callAt (a : Autosaver) (t : FileTree) (millis : Int) (s : Scene) :
    (callAt millis s).save a t = a.save ⟨millis⟩ s t :=
  Call.save_of_readable rfl

/-- A millisecond with two writes, and a call that finds nothing new. -/
theorem durable_of_two_writes :
    single.IsFresh backups ["backups"] ∧
      AreSteady [callAt 0 .empty, callAt 0 layered, callAt 1 layered] ∧
      ∀ r ∈ run single backups [callAt 0 .empty, callAt 0 layered, callAt 1 layered],
        r.2.result.isOk ∧ IsDurable "backups" r.1 r.2 := by
  have hcalls : AreSteady [callAt 0 .empty, callAt 0 layered, callAt 1 layered] :=
    areSteady_of_scenes (by simp [callAt]) (by simp [callAt]) (by simp [callAt])
  have hcount (m : Moment) : ([callAt 0 .empty, callAt 0 layered, callAt 1 layered].map
      Call.now).count m ≤ single.mostWrites := by
    have htwo : ∀ m ∈ [Moment.mk 0, ⟨0⟩, ⟨1⟩], [Moment.mk 0, ⟨0⟩, ⟨1⟩].count m ≤ 2 := by decide
    by_cases hm : m ∈ [Moment.mk 0, ⟨0⟩, ⟨1⟩]
    · exact htwo m hm
    · exact Nat.le_trans (List.count_eq_zero.mpr hm).le (Nat.zero_le _)
  have hok := isOk_of_room isFresh_single (by decide) hcalls (by decide) hcount
  have hreadable : ∀ r ∈ run single backups [callAt 0 .empty, callAt 0 layered, callAt 1 layered],
      r.1.scene.poisoned = false := by
    simp only [run, List.forall_mem_cons, callAt]
    exact ⟨trivial, trivial, trivial, List.forall_mem_nil _⟩
  have hdurable := durable_of_run isFresh_single (by decide) hcalls hok fun m =>
    Nat.le_trans ((writes_run_sublist _ _ _).count_le m) (hcount m)
  exact ⟨isFresh_single, hcalls, fun r hr => ⟨hok r hr (hreadable r hr), hdurable r hr⟩⟩

/-- The third autosave of a millisecond is gone as soon as it is written. -/
theorem gone_of_three_writes :
    single.IsFresh backups ["backups"] ∧
      AreSteady [callAt 0 .empty, callAt 0 layered, callAt 0 .empty] ∧
      (∀ r ∈ run single backups [callAt 0 .empty, callAt 0 layered, callAt 0 .empty],
        r.2.result.isOk) ∧
      ∃ r ∈ run single backups [callAt 0 .empty, callAt 0 layered, callAt 0 .empty],
        r.2.result = .ok (some "backups/autosave_19700101_000000_000.fxgen") ∧
          ¬ IsDurable "backups" r.1 r.2 := by
  have hplain : Moment.HasPlainYear ⟨0⟩ := by decide
  have hcalls : AreSteady [callAt 0 .empty, callAt 0 layered, callAt 0 .empty] :=
    areSteady_of_scenes (by simp [callAt]) (by simp [callAt]) (by simp [callAt])
  have hfits {i : Nat} (hi : i < 1000) :
      FileTree.Fits "backups" (autosaveName (Moment.stamp ⟨0⟩) i) :=
    fits_autosaveName hplain hi (by decide) (by decide)
  obtain ⟨t₁, hfirst, h₁⟩ := (isFresh_single.hasWritten fun _ => True).exists_save_of_count_le
    (s := .empty) (by decide) trivial (Option.some_ne_none _).symm (List.forall_mem_nil _) hplain
    (by decide) (by decide) (hfits (by decide))
  obtain ⟨t₂, hsecond, h₂⟩ := h₁.exists_save_of_count_le (s := layered) (by decide) trivial
    (fun h => fingerprint_empty_ne (Option.some.inj h)) (by simp) hplain (by decide) (by decide)
    (hfits (by decide))
  obtain ⟨t₃, hthird, hgone⟩ := h₂.exists_save_of_lt_count (s := .empty)
    (fun h => fingerprint_empty_ne (Option.some.inj h).symm) (by simp) hplain (by decide)
    (hfits (by decide))
  have hpath : Path.join "backups" (autosaveName (Moment.stamp ⟨0⟩) 0) =
      "backups/autosave_19700101_000000_000.fxgen" := by decide
  simp only [run, save_callAt, hfirst, hsecond, hthird, List.forall_mem_cons]
  refine ⟨isFresh_single, hcalls, ⟨rfl, rfl, rfl, List.forall_mem_nil _⟩, _,
    List.mem_of_getLast? rfl, congrArg _ (congrArg _ hpath), fun hdurable => ?_⟩
  obtain ⟨path, ⟨-, hexists, -⟩, hwritten⟩ := hdurable _ rfl
  rw [← hwritten _ rfl] at hexists
  exact Bool.false_ne_true (hgone.symm.trans hexists)

end ParticleScene.Autosaver
