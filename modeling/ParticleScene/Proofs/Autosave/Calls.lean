import ParticleScene.Proofs.Autosave.Writing

/-!
# Calls of an autosaver

A call of an autosaver is durable when the latest autosave holds its scene after it, whether the
call has written that scene or has found it unchanged. So it is as long as the writes at its moment
are kept, or all but the first of them. No such call fails in a directory whose path leaves room for
names.
-/

namespace ParticleScene.Autosaver

open FileAction

/-! ### Calls -/

/-- A call of an autosaver with a scene, at a reading of the clock. -/
structure Call where
  now : Moment
  scene : SharedScene

/-- What the call of an autosaver does. -/
def Call.save (c : Call) (a : Autosaver) (t : FileTree) : Saved :=
  a.saveShared c.now c.scene t

/-- The moment at which a call has written, if it has. -/
def writtenAt (r : Call × Saved) : Option Moment :=
  match r.2.result with
  | .ok (some _) => some r.1.now
  | _ => none

/-- The latest autosave is at a path, and holds a scene. -/
def LatestHolds (t : FileTree) (directory path : String) (s : Scene) : Prop :=
  latest? t directory = some path ∧ t.exists? path = true ∧ t.readText path = .ok s.document.text

/-- When a call succeeds, the latest autosave holds its scene; that is the one that the call has
written, if it has written one. -/
def IsDurable (directory : String) (c : Call) (saved : Saved) : Prop :=
  ∀ written, saved.result = .ok written →
    ∃ path, LatestHolds saved.files directory path c.scene.scene ∧
      ∀ p, written = some p → p = path

/-- The greatest number of writes at one moment of which none is lost. -/
def mostWrites (a : Autosaver) : Nat :=
  min (a.settings.maxAutosaves.toNat + 1) 1000

variable {known : Scene → Prop} {a : Autosaver} {t : FileTree} {place : Location}
variable {ws : List Moment} {now : Moment} {s : Scene} {c : Call} {path : String}

/-! ### One call -/

lemma Call.save_of_poisoned (h : c.scene.poisoned = true) :
    c.save a t = ⟨.error .lockPoisoned, a, t⟩ := by
  rw [save, saveShared, SharedScene.read, if_pos h]

lemma Call.save_of_readable (h : c.scene.poisoned = false) :
    c.save a t = a.save c.now c.scene.scene t := by
  rw [save, saveShared, SharedScene.read, if_neg (by rw [h]; decide)]

lemma save_of_unchanged (h : a.lastFingerprint = some s.document.fingerprint) :
    a.save now s t = ⟨.ok none, { a with lastSave := some now }, t⟩ :=
  if_pos h

/-- A save of a changed document fails, or names the path that it has written. -/
lemma save_of_changed (h : a.lastFingerprint ≠ some s.document.fingerprint) :
    (∃ why, (a.save now s t).result = .error why) ∨
      ∃ path, (a.save now s t).result = .ok (some path) := by
  rw [save]
  simp only [if_neg h]
  split
  · exact .inl ⟨_, rfl⟩
  · split
    · exact .inl ⟨_, rfl⟩
    · generalize ExceptT.run (rotate _) _ = rotated
      rcases rotated with ⟨_ | _, _⟩
      · exact .inl ⟨_, rfl⟩
      · exact .inr ⟨_, rfl⟩

namespace HasWritten

/-- When the document that was written last is that of a scene, the latest autosave holds it. -/
lemma latestHolds (h : HasWritten known a t place ws) (hmax : 0 < a.settings.maxAutosaves.toNat)
    (hlast : a.lastFingerprint = some s.document.fingerprint)
    (hdigest : ∀ s', known s' → s'.document.fingerprint = s.document.fingerprint →
      s'.document.text = s.document.text) :
    ∃ name, (names ws).head? = some name ∧
      LatestHolds t a.directory (Path.join a.directory name) s := by
  obtain ⟨name, s', hhead, hknown, hfingerprint, hnode⟩ := h.last _ hlast
  have hlisted : (autosaveNames t a.directory).head? = some name := by
    rw [h.listed, List.head?_take, if_neg hmax.ne', hhead]
  obtain ⟨hname, hfits⟩ := h.isName_of_listed (List.mem_of_head? hlisted)
  rw [← FileTree.node?_name hname, hdigest s' hknown hfingerprint] at hnode
  refine ⟨name, hhead, ?_, ?_, h.directory.readText_join hname hfits hnode⟩
  · rw [latest?, list, List.head?_map, hlisted]
    rfl
  · refine (h.directory.exists?_join_iff hname).mpr ⟨hfits, ?_⟩
    rw [hnode]
    exact Option.some_ne_none _

/-- A save of a changed document that succeeds is kept, with those before it. -/
lemma exists_save_of_isOk (h : HasWritten known a t place ws)
    (hmax : 0 < a.settings.maxAutosaves.toNat) (hknown : known s)
    (hchanged : a.lastFingerprint ≠ some s.document.fingerprint)
    (hnow : ∀ m ∈ ws, m.millis ≤ now.millis) (hplain : now.HasPlainYear)
    (hcount : ws.count now < a.mostWrites) (hok : (a.save now s t).result.isOk) :
    ∃ t', a.save now s t =
        ⟨.ok (some (Path.join a.directory (autosaveName now.stamp (ws.count now)))),
          a.afterWriting now s, t'⟩ ∧
      HasWritten known (a.afterWriting now s) t' place (now :: ws) := by
  rw [mostWrites] at hcount
  have hthousand : ws.count now < 1000 := by omega
  have hkept : ws.count now ≤ a.settings.maxAutosaves.toNat := by omega
  obtain ⟨-, hpath⟩ := h.nextPath_of_count_le hnow hplain hthousand hkept
  have hfits := h.fits_of_isOk hchanged hpath (isName_autosaveName now _) hok
  exact h.exists_save_of_count_le hmax hknown hchanged hnow hplain hthousand hkept hfits

/-- One call. -/
lemma call (h : HasWritten known a t place ws) (hmax : 0 < a.settings.maxAutosaves.toNat)
    (hknown : known c.scene.scene)
    (hdigest : ∀ s s', known s → known s' → s.document.fingerprint = s'.document.fingerprint →
      s.document.text = s'.document.text)
    (hnow : ∀ m ∈ ws, m.millis ≤ c.now.millis) (hplain : c.now.HasPlainYear)
    (hok : c.scene.poisoned = false → (c.save a t).result.isOk)
    (hcount : ∀ m, (writtenAt (c, c.save a t)).toList.count m + ws.count m ≤ a.mostWrites) :
    HasWritten known (c.save a t).state (c.save a t).files place
        ((writtenAt (c, c.save a t)).toList ++ ws) ∧
      (c.save a t).state.directory = a.directory ∧ (c.save a t).state.settings = a.settings ∧
      IsDurable a.directory c (c.save a t) := by
  cases hpoisoned : c.scene.poisoned with
  | true =>
    rw [Call.save_of_poisoned hpoisoned]
    exact ⟨h, rfl, rfl, fun _ h => absurd h error_ne_ok⟩
  | false =>
    have hok := hok hpoisoned
    rw [Call.save_of_readable hpoisoned] at hok hcount ⊢
    by_cases hchanged : a.lastFingerprint = some c.scene.scene.document.fingerprint
    · obtain ⟨name, -, hholds⟩ := h.latestHolds hmax hchanged fun s' hs' => hdigest s' _ hs' hknown
      rw [save_of_unchanged hchanged]
      refine ⟨⟨h.orderly, h.directory, h.fits, h.listed, h.no_directory, h.last⟩, rfl, rfl, ?_⟩
      rintro written ⟨⟩
      exact ⟨_, hholds, fun p hp => absurd hp.symm (Option.some_ne_none p)⟩
    · have hwritten : writtenAt (c, a.save c.now c.scene.scene t) = some c.now := by
        rcases save_of_changed hchanged with ⟨why, herror⟩ | ⟨path, hpath⟩
        · rw [herror] at hok
          cases hok
        · rw [writtenAt, hpath]
      -- The write is among those that are counted, so there was one less before it.
      have hbound := hcount c.now
      rw [hwritten, Option.toList_some, List.count_singleton_self] at hbound
      obtain ⟨t', hsaved, hwrote⟩ :=
        h.exists_save_of_isOk hmax hknown hchanged hnow hplain (by omega) hok
      obtain ⟨name, hhead, hholds⟩ := hwrote.latestHolds hmax rfl fun s' hs' =>
        hdigest s' _ hs' hknown
      cases hhead
      rw [hwritten, hsaved]
      refine ⟨hwrote, rfl, rfl, ?_⟩
      rintro written ⟨⟩
      exact ⟨_, hholds, fun p hp => (Option.some.inj hp).symm⟩

lemma mono {known' : Scene → Prop} (h : HasWritten known a t place ws)
    (hknown : ∀ s, known s → known' s) : HasWritten known' a t place ws := by
  refine ⟨h.orderly, h.directory, h.fits, h.listed, h.no_directory, fun fingerprint hlast => ?_⟩
  obtain ⟨name, s, hhead, hs, hrest⟩ := h.last fingerprint hlast
  exact ⟨name, s, hhead, hknown s hs, hrest⟩

/-- Nothing but a path that is too long makes a call fail. -/
lemma isOk_call (h : HasWritten known a t place ws) (hmax : 0 < a.settings.maxAutosaves.toNat)
    (hnow : ∀ m ∈ ws, m.millis ≤ c.now.millis) (hplain : c.now.HasPlainYear)
    (hcount : ws.count c.now < a.mostWrites)
    (hroom : a.directory.utf8ByteSize + roomForName ≤ FileTree.maxPath)
    (hreadable : c.scene.poisoned = false) : (c.save a t).result.isOk := by
  rw [Call.save_of_readable hreadable]
  by_cases hchanged : a.lastFingerprint = some c.scene.scene.document.fingerprint
  · rw [save_of_unchanged hchanged]
    rfl
  · rw [mostWrites] at hcount
    have hthousand : ws.count c.now < 1000 := by omega
    obtain ⟨t', hsaved, -⟩ := (h.mono fun _ _ => trivial).exists_save_of_count_le hmax trivial
      hchanged hnow hplain hthousand (by omega)
      (fits_autosaveName hplain hthousand h.directory.hasNul hroom)
    rw [hsaved]
    rfl

/-- What a call writes when the first write at its moment is not kept any more. -/
lemma gone_of_call (h : HasWritten known a t place ws)
    (hnow : ∀ m ∈ ws, m.millis ≤ c.now.millis) (hplain : c.now.HasPlainYear)
    (hfull : a.settings.maxAutosaves.toNat < ws.count c.now)
    (hwritten : (c.save a t).result = .ok (some path)) :
    (c.save a t).files.exists? path = false := by
  cases hpoisoned : c.scene.poisoned with
  | true =>
    rw [Call.save_of_poisoned hpoisoned] at hwritten
    cases hwritten
  | false =>
    rw [Call.save_of_readable hpoisoned] at hwritten ⊢
    by_cases hchanged : a.lastFingerprint = some c.scene.scene.document.fingerprint
    · rw [save_of_unchanged hchanged] at hwritten
      cases hwritten
    · obtain ⟨-, hpath⟩ := h.nextPath_of_lt_count hnow hplain hfull
      have hfits := h.fits_of_isOk hchanged hpath (isName_autosaveName _ 0)
        (by rw [hwritten]; rfl)
      obtain ⟨t', hsaved, hgone⟩ :=
        h.exists_save_of_lt_count hchanged hnow hplain hfull hfits
      rw [hsaved] at hwritten ⊢
      cases hwritten
      exact hgone

end HasWritten

end ParticleScene.Autosaver
