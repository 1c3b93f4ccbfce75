import ParticleScene.Proofs.Autosave.Durability

/-!
# Autosaves on a disk that may refuse

A disk may refuse any request of an autosaver: a directory is not made, a text is not written, a
file is not taken away. A call then fails with the answer of the disk, and the autosaver remembers
the document that was written last, whether or not older autosaves could be taken away after that.
So a call asks the disk for a write exactly when its document is not the one that was written last,
and a document that was refused is asked for again.
-/

namespace ParticleScene.Autosaver

/-! ### Disks -/

/-- An action on the files of a disk, whatever they are. -/
abbrev DiskAction (W : Type) := ExceptT Failure (StateM W)

/-- A disk as an autosaver sees it. It may refuse a request, and may have done a part of it then. -/
structure Disk (W : Type) where
  isThere (path : String) : W → Bool
  nextPath (directory : String) (now : Moment) : W → String
  /-- The paths of the autosaves in a directory, newest first. -/
  autosaves (directory : String) : W → List String
  makeDirectory (path : String) : DiskAction W Unit
  writeText (path text : String) : DiskAction W Unit
  removeFile (path : String) : DiskAction W Unit

/-- What a call on a disk ends with. -/
structure SavedOn (W : Type) where
  result : Except Failure (Option String)
  state : Autosaver
  files : W

variable {W : Type}

namespace Disk

/-- Make a directory, unless something is there already. -/
def ensureDirectory (disk : Disk W) (path : String) : DiskAction W Unit := fun files =>
  if disk.isThere path files then (.ok (), files) else (disk.makeDirectory path).run files

/-- Take the autosaves beyond a number away, oldest first. -/
def rotate (disk : Disk W) (directory : String) (most : Nat) : DiskAction W Unit := fun files =>
  (((disk.autosaves directory files).drop most).reverse.forM disk.removeFile).run files

/-- A file tree as a disk. -/
def tree : Disk FileTree where
  isThere path t := t.exists? path
  nextPath directory now t := Autosaver.nextPath t directory now
  autosaves directory t := list t directory
  makeDirectory path t :=
    let (made, t) := t.ensureDirectory path
    (refuse (.directoryNotMade path) made, t)
  writeText := ParticleScene.writeText
  removeFile := Autosaver.removeFile

end Disk

/-- Save a scene on a disk if its document is not the one that was written last. -/
def saveOn (disk : Disk W) (a : Autosaver) (now : Moment) (s : Scene) (files : W) : SavedOn W :=
  if a.lastFingerprint = some s.document.fingerprint then
    ⟨.ok none, { a with lastSave := some now }, files⟩
  else
    match (disk.ensureDirectory a.directory).run files with
    | (.error why, files) => ⟨.error why, a, files⟩
    | (.ok (), files) =>
      let path := disk.nextPath a.directory now files
      match (disk.writeText path s.document.text).run files with
      | (.error why, files) => ⟨.error why, a, files⟩
      | (.ok (), files) =>
        let (result, files) := (disk.rotate a.directory a.settings.maxAutosaves.toNat).run files
        ⟨result.map fun _ => some path, a.afterWriting now s, files⟩

variable {a : Autosaver} {now : Moment} {s : Scene} {disk : Disk W} {files : W}

/-- On a file tree this is how an autosaver saves. -/
lemma saveOn_tree (a : Autosaver) (now : Moment) (s : Scene) (t : FileTree) :
    a.saveOn .tree now s t =
      ⟨(a.save now s t).result, (a.save now s t).state, (a.save now s t).files⟩ := by
  have hensure : Disk.tree.ensureDirectory a.directory = ensureDirectory a.directory := rfl
  have hwrite : Disk.tree.writeText = writeText := rfl
  have hrotate : Disk.tree.rotate a.directory a.settings.maxAutosaves.toNat =
    (a.afterWriting now s).rotate := rfl
  rw [saveOn, save, hensure, hwrite, hrotate]
  split
  · rfl
  · rcases (ensureDirectory a.directory).run t with ⟨_ | ⟨⟩, made⟩
    · rfl
    · have hpath : Disk.tree.nextPath a.directory now made = nextPath made a.directory now := rfl
      dsimp only
      rw [hpath]
      rcases (writeText (nextPath made a.directory now) s.document.text).run made with
        ⟨_ | ⟨⟩, written⟩ <;> rfl

/-! ### What a disk is asked for -/

/-- What an autosaver asks a disk for. -/
inductive Request where
  | makeDirectory (path : String)
  | writeText (path text : String)
  | removeFile (path : String)

/-- A request with the answer of the disk. -/
structure Exchange where
  request : Request
  answer : Except Failure Unit

/-- The text that was written, if one was. -/
def Exchange.written? : Exchange → Option String
  | ⟨.writeText _ text, .ok ()⟩ => some text
  | _ => none

/-- An action that is noted with its answer. -/
def noted (request : Request) (action : DiskAction W Unit) :
    DiskAction (W × List Exchange) Unit := fun w =>
  let done := action.run w.1
  (done.1, done.2, w.2 ++ [⟨request, done.1⟩])

/-- The same disk, which notes what it is asked for. -/
def Disk.noting (disk : Disk W) : Disk (W × List Exchange) where
  isThere path w := disk.isThere path w.1
  nextPath directory now w := disk.nextPath directory now w.1
  autosaves directory w := disk.autosaves directory w.1
  makeDirectory path := noted (.makeDirectory path) (disk.makeDirectory path)
  writeText path text := noted (.writeText path text) (disk.writeText path text)
  removeFile path := noted (.removeFile path) (disk.removeFile path)

/-- How a call can go: what the disk is asked for, and what the call ends with. -/
inductive Course (a : Autosaver) (now : Moment) (s : Scene) :
    List Exchange → Except Failure (Option String) → Autosaver → Prop
  | unchanged (h : a.lastFingerprint = some s.document.fingerprint) :
    Course a now s [] (.ok none) { a with lastSave := some now }
  | directoryRefused (h : a.lastFingerprint ≠ some s.document.fingerprint) (why : Failure) :
    Course a now s [⟨.makeDirectory a.directory, .error why⟩] (.error why) a
  | writeRefused (h : a.lastFingerprint ≠ some s.document.fingerprint) {made : List Exchange}
    (hmade : made ⊆ [⟨.makeDirectory a.directory, .ok ()⟩]) (path : String) (why : Failure) :
    Course a now s (made ++ [⟨.writeText path s.document.text, .error why⟩]) (.error why) a
  | written (h : a.lastFingerprint ≠ some s.document.fingerprint) {made removals : List Exchange}
    (hmade : made ⊆ [⟨.makeDirectory a.directory, .ok ()⟩]) (path : String)
    (hremovals : ∀ e ∈ removals, ∃ path, e.request = .removeFile path)
    {result : Except Failure (Option String)}
    (hresult : result = .ok (some path) ∨ ∃ why, result = .error why) :
    Course a now s (made ++ ⟨.writeText path s.document.text, .ok ()⟩ :: removals) result
      (a.afterWriting now s)

lemma nextPath_noting (disk : Disk W) (directory : String) (now : Moment) (w : W × List Exchange) :
    disk.noting.nextPath directory now w = disk.nextPath directory now w.1 := rfl

lemma writeText_noting (disk : Disk W) (path text : String) (w : W × List Exchange) :
    (disk.noting.writeText path text).run w =
      (((disk.writeText path text).run w.1).1, ((disk.writeText path text).run w.1).2,
        w.2 ++ [⟨.writeText path text, ((disk.writeText path text).run w.1).1⟩]) := rfl

/-- To make a directory, a disk is asked once or, if something is there, not at all. -/
lemma ensureDirectory_noting (disk : Disk W) (directory : String) (files : W) :
    (∃ why files', (disk.ensureDirectory directory).run files = (.error why, files') ∧
        (disk.noting.ensureDirectory directory).run (files, []) =
          (.error why, files', [⟨.makeDirectory directory, .error why⟩])) ∨
      ∃ made files', (disk.ensureDirectory directory).run files = (.ok (), files') ∧
        (disk.noting.ensureDirectory directory).run (files, []) = (.ok (), files', made) ∧
        made ⊆ [⟨.makeDirectory directory, .ok ()⟩] := by
  by_cases hthere : disk.isThere directory files
  · exact .inr ⟨[], files, if_pos hthere, if_pos hthere, List.nil_subset _⟩
  · have hplain : (disk.ensureDirectory directory).run files =
      (disk.makeDirectory directory).run files := if_neg hthere
    have hnoting : (disk.noting.ensureDirectory directory).run (files, []) =
        (((disk.makeDirectory directory).run files).1, ((disk.makeDirectory directory).run files).2,
          [⟨.makeDirectory directory, ((disk.makeDirectory directory).run files).1⟩]) :=
      if_neg hthere
    rw [hplain, hnoting]
    rcases (disk.makeDirectory directory).run files with ⟨why | ⟨⟩, files'⟩
    · exact .inl ⟨why, files', rfl, rfl⟩
    · exact .inr ⟨_, files', rfl, rfl, List.Subset.refl _⟩

/-- To take files away, a disk is asked for nothing else, whatever it answers. -/
lemma forM_removeFile_noting (disk : Disk W) (paths : List String) (w : W × List Exchange) :
    ∃ removals, (paths.forM disk.noting.removeFile).run w =
        (((paths.forM disk.removeFile).run w.1).1, ((paths.forM disk.removeFile).run w.1).2,
          w.2 ++ removals) ∧
      ∀ e ∈ removals, ∃ path, e.request = .removeFile path := by
  induction paths generalizing w with
  | nil => exact ⟨[], by rw [List.append_nil]; rfl, List.forall_mem_nil _⟩
  | cons path paths ih =>
    change ∃ removals, ExceptT.bindCont (fun _ => paths.forM disk.noting.removeFile)
        ((disk.removeFile path).run w.1).1 (((disk.removeFile path).run w.1).2,
          w.2 ++ [⟨.removeFile path, ((disk.removeFile path).run w.1).1⟩]) =
        ((ExceptT.bindCont (fun _ => paths.forM disk.removeFile)
          ((disk.removeFile path).run w.1).1 ((disk.removeFile path).run w.1).2).1,
          (ExceptT.bindCont (fun _ => paths.forM disk.removeFile)
            ((disk.removeFile path).run w.1).1 ((disk.removeFile path).run w.1).2).2, _) ∧ _
    rcases (disk.removeFile path).run w.1 with ⟨why | ⟨⟩, files⟩
    · exact ⟨[⟨.removeFile path, .error why⟩], rfl, List.forall_mem_singleton.mpr ⟨path, rfl⟩⟩
    · obtain ⟨removals, hrun, hremovals⟩ := ih (files, w.2 ++ [⟨.removeFile path, .ok ()⟩])
      refine ⟨⟨.removeFile path, .ok ()⟩ :: removals, ?_,
        List.forall_mem_cons.mpr ⟨⟨path, rfl⟩, hremovals⟩⟩
      rw [List.append_assoc] at hrun
      exact hrun

lemma rotate_noting (disk : Disk W) (directory : String) (most : Nat) (w : W × List Exchange) :
    ∃ removals, (disk.noting.rotate directory most).run w =
        (((disk.rotate directory most).run w.1).1, ((disk.rotate directory most).run w.1).2,
          w.2 ++ removals) ∧
      ∀ e ∈ removals, ∃ path, e.request = .removeFile path :=
  forM_removeFile_noting disk ((disk.autosaves directory w.1).drop most).reverse w

/-- A disk that notes what it is asked for answers as before, and the call takes a course. -/
lemma exists_saveOn_noting (disk : Disk W) (a : Autosaver) (now : Moment) (s : Scene)
    (files : W) :
    ∃ es, a.saveOn disk.noting now s (files, []) =
        ⟨(a.saveOn disk now s files).result, (a.saveOn disk now s files).state,
          (a.saveOn disk now s files).files, es⟩ ∧
      Course a now s es (a.saveOn disk now s files).result (a.saveOn disk now s files).state := by
  rw [saveOn, saveOn]
  split
  · exact ⟨[], rfl, .unchanged ‹_›⟩
  · rename_i hchanged
    obtain ⟨why, files', hplain, hnoting⟩ | ⟨made, files', hplain, hnoting, hmade⟩ :=
      ensureDirectory_noting disk a.directory files
    · rw [hplain, hnoting]
      exact ⟨_, rfl, .directoryRefused hchanged why⟩
    · rw [hplain, hnoting]
      dsimp only
      rw [nextPath_noting, writeText_noting]
      generalize disk.nextPath a.directory now files' = path
      rcases (disk.writeText path s.document.text).run files' with ⟨why | ⟨⟩, written⟩
      · exact ⟨_, rfl, .writeRefused hchanged hmade path why⟩
      · obtain ⟨removals, hrotate, hremovals⟩ := rotate_noting disk a.directory
          a.settings.maxAutosaves.toNat
          (written, made ++ [⟨.writeText path s.document.text, .ok ()⟩])
        dsimp only
        rw [hrotate, List.append_assoc]
        rcases (disk.rotate a.directory a.settings.maxAutosaves.toNat).run written with
          ⟨why | ⟨⟩, rest⟩
        · exact ⟨_, rfl, .written hchanged hmade path hremovals (.inr ⟨why, rfl⟩)⟩
        · exact ⟨_, rfl, .written hchanged hmade path hremovals (.inl rfl)⟩

namespace Course

variable {es : List Exchange} {result : Except Failure (Option String)} {state : Autosaver}

/-- The disk is left alone exactly when the document is the one that was written last. -/
lemma ne_nil_iff (h : Course a now s es result state) :
    es ≠ [] ↔ a.lastFingerprint ≠ some s.document.fingerprint := by
  cases h with
  | unchanged h => exact iff_of_false (not_not_intro rfl) (not_not_intro h)
  | directoryRefused h => exact iff_of_true (List.cons_ne_nil _ _) h
  | writeRefused h => exact iff_of_true (List.append_ne_nil_of_right_ne_nil _ (by simp)) h
  | written h => exact iff_of_true (List.append_ne_nil_of_right_ne_nil _ (by simp)) h

/-- A call that asks the disk for something asks it to write the document, unless it refuses the
directory before that. -/
lemma asks (h : Course a now s es result state) (hes : es ≠ []) :
    (∃ why, ⟨.makeDirectory a.directory, .error why⟩ ∈ es) ∨
      ∃ path answer, ⟨.writeText path s.document.text, answer⟩ ∈ es := by
  cases h with
  | unchanged => exact absurd rfl hes
  | directoryRefused _ why => exact .inl ⟨why, List.mem_singleton_self _⟩
  | writeRefused _ _ path why => exact .inr ⟨path, .error why, by simp⟩
  | written _ _ path => exact .inr ⟨path, .ok (), by simp⟩

lemma not_mem_made {made : List Exchange} {request : Request} {why : Failure}
    (hmade : made ⊆ [⟨.makeDirectory a.directory, .ok ()⟩]) : ⟨request, .error why⟩ ∉ made := by
  intro hmem
  cases List.mem_singleton.mp (hmade hmem)

/-- Once the disk refuses the directory or the text, nothing else is done. -/
lemma of_refused (h : Course a now s es result state) {request : Request} {why : Failure}
    (hrequest : ∀ path, request ≠ .removeFile path) (hmem : ⟨request, .error why⟩ ∈ es) :
    result = .error why ∧ state = a := by
  cases h with
  | unchanged => cases hmem
  | directoryRefused =>
    cases List.mem_singleton.mp hmem
    exact ⟨rfl, rfl⟩
  | writeRefused _ hmade =>
    have hlast := (List.mem_append.mp hmem).resolve_left (not_mem_made hmade)
    cases List.mem_singleton.mp hlast
    exact ⟨rfl, rfl⟩
  | written _ hmade _ hremovals =>
    have hrest := (List.mem_append.mp hmem).resolve_left (not_mem_made hmade)
    obtain heq | hmem := List.mem_cons.mp hrest
    · cases heq
    · obtain ⟨path, hpath⟩ := hremovals _ hmem
      exact absurd hpath (hrequest path)

/-- A call writes its document and remembers it, or writes nothing and forgets nothing. -/
lemma written_cases (h : Course a now s es result state) :
    (es.filterMap Exchange.written? = [] ∧ state.lastFingerprint = a.lastFingerprint) ∨
      (es.filterMap Exchange.written? = [s.document.text] ∧
        state.lastFingerprint = some s.document.fingerprint) := by
  have hmade {made : List Exchange} (h : made ⊆ [⟨.makeDirectory a.directory, .ok ()⟩]) :
      made.filterMap Exchange.written? = [] := by
    refine List.filterMap_eq_nil_iff.mpr fun e he => ?_
    cases List.mem_singleton.mp (h he)
    rfl
  cases h with
  | unchanged => exact .inl ⟨rfl, rfl⟩
  | directoryRefused => exact .inl ⟨rfl, rfl⟩
  | writeRefused _ h =>
    refine .inl ⟨?_, rfl⟩
    rw [List.filterMap_append, hmade h]
    rfl
  | @written _ made removals h _ hremovals =>
    have hnone : removals.filterMap Exchange.written? = [] := by
      refine List.filterMap_eq_nil_iff.mpr fun e he => ?_
      obtain ⟨request, answer⟩ := e
      obtain ⟨path, rfl⟩ : ∃ path, request = .removeFile path := hremovals _ he
      rfl
    refine .inr ⟨?_, rfl⟩
    rw [List.filterMap_append, hmade h, List.nil_append, List.filterMap_cons, hnone]
    rfl

end Course

/-! ### Calls -/

/-- A call, the disk it is made on and the files it finds there. -/
structure Occasion (W : Type) where
  call : Call
  disk : Disk W
  files : W

namespace Occasion

def document (o : Occasion W) : Document :=
  o.call.scene.scene.document

/-- The scene of the call can be read. -/
def IsReadable (o : Occasion W) : Prop :=
  o.call.scene.poisoned = false

/-- What the call ends with, on a disk that notes what it is asked for. -/
def save (o : Occasion W) (a : Autosaver) : SavedOn (W × List Exchange) :=
  match o.call.scene.read with
  | .error why => ⟨.error why, a, o.files, []⟩
  | .ok scene => a.saveOn o.disk.noting o.call.now scene (o.files, [])

def exchanges (o : Occasion W) (a : Autosaver) : List Exchange :=
  (o.save a).files.2

/-- The texts that the call writes. -/
def written (o : Occasion W) (a : Autosaver) : List String :=
  (o.exchanges a).filterMap Exchange.written?

/-- The call asks the disk for something. -/
def Attempts (o : Occasion W) (a : Autosaver) : Prop :=
  o.exchanges a ≠ []

/-- The disk refuses to make the directory, or to write a text. -/
def RefusedWith (o : Occasion W) (a : Autosaver) (why : Failure) : Prop :=
  (∃ path, ⟨.makeDirectory path, .error why⟩ ∈ o.exchanges a) ∨
    ∃ path text, ⟨.writeText path text, .error why⟩ ∈ o.exchanges a

variable {o : Occasion W} {why : Failure}

lemma save_of_poisoned (h : ¬ o.IsReadable) (a : Autosaver) :
    o.save a = ⟨.error .lockPoisoned, a, o.files, []⟩ := by
  rw [save, SharedScene.read, if_pos (by simpa [IsReadable] using h)]

lemma save_of_readable (h : o.IsReadable) (a : Autosaver) :
    o.save a = a.saveOn o.disk.noting o.call.now o.call.scene.scene (o.files, []) := by
  rw [save, SharedScene.read, if_neg (by rw [h]; decide)]

lemma course (h : o.IsReadable) (a : Autosaver) :
    Course a o.call.now o.call.scene.scene (o.exchanges a) (o.save a).result (o.save a).state := by
  obtain ⟨es, hnoting, hcourse⟩ :=
    exists_saveOn_noting o.disk a o.call.now o.call.scene.scene o.files
  rw [exchanges, save_of_readable h, hnoting]
  exact hcourse

/-- On a file tree the call does what it does by itself. -/
lemma save_tree (c : Call) (a : Autosaver) (t : FileTree) :
    ((⟨c, .tree, t⟩ : Occasion FileTree).save a).result = (c.save a t).result ∧
      ((⟨c, .tree, t⟩ : Occasion FileTree).save a).state = (c.save a t).state ∧
      ((⟨c, .tree, t⟩ : Occasion FileTree).save a).files.1 = (c.save a t).files := by
  cases h : c.scene.poisoned with
  | true =>
    rw [save_of_poisoned (by simp [IsReadable, h]), Call.save_of_poisoned h]
    exact ⟨rfl, rfl, rfl⟩
  | false =>
    obtain ⟨es, hnoting, -⟩ := exists_saveOn_noting .tree a c.now c.scene.scene t
    rw [save_of_readable (show IsReadable ⟨c, .tree, t⟩ from h), hnoting, saveOn_tree,
      Call.save_of_readable h]
    exact ⟨rfl, rfl, rfl⟩

lemma attempts_iff (h : o.IsReadable) :
    o.Attempts a ↔ a.lastFingerprint ≠ some o.document.fingerprint :=
  (o.course h a).ne_nil_iff

lemma isReadable_of_refusedWith (h : o.RefusedWith a why) : o.IsReadable := by
  by_contra hpoisoned
  rw [RefusedWith, exchanges, save_of_poisoned hpoisoned] at h
  simp at h

/-- A call that is refused fails with the answer, and the autosaver is as it was. -/
lemma RefusedWith.save_eq (h : o.RefusedWith a why) :
    (o.save a).result = .error why ∧ (o.save a).state = a := by
  have hcourse := o.course (isReadable_of_refusedWith h) a
  obtain ⟨path, hmem⟩ | ⟨path, text, hmem⟩ := h
  · exact hcourse.of_refused (by rintro _ ⟨⟩) hmem
  · exact hcourse.of_refused (by rintro _ ⟨⟩) hmem

lemma RefusedWith.attempts (h : o.RefusedWith a why) : o.Attempts a := by
  obtain ⟨path, hmem⟩ | ⟨path, text, hmem⟩ := h <;> exact List.ne_nil_of_mem hmem

lemma written_cases (o : Occasion W) (a : Autosaver) :
    (o.written a = [] ∧ (o.save a).state.lastFingerprint = a.lastFingerprint) ∨
      (o.written a = [o.document.text] ∧
        (o.save a).state.lastFingerprint = some o.document.fingerprint) := by
  by_cases h : o.IsReadable
  · exact (o.course h a).written_cases
  · rw [written, exchanges, save_of_poisoned h]
    exact .inl ⟨rfl, rfl⟩

end Occasion

/-! ### Runs -/

/-- The autosaver after some calls. -/
def afterAll (a : Autosaver) : List (Occasion W) → Autosaver
  | [] => a
  | o :: os => afterAll (o.save a).state os

/-- The texts that were written in some calls. -/
def textsWritten (a : Autosaver) : List (Occasion W) → List String
  | [] => []
  | o :: os => o.written a ++ textsWritten (o.save a).state os

/-- The fingerprints tell the documents of some calls apart. -/
def AreToldApart (os : List (Occasion W)) : Prop :=
  ∀ o ∈ os, ∀ o' ∈ os, o.document.fingerprint = o'.document.fingerprint →
    o.document.compactText = o'.document.compactText

variable {o : Occasion W} {os : List (Occasion W)}

lemma afterAll_concat (a : Autosaver) (os : List (Occasion W)) (o : Occasion W) :
    afterAll a (os ++ [o]) = (o.save (afterAll a os)).state := by
  induction os generalizing a with
  | nil => rfl
  | cons first os ih => exact ih _

lemma textsWritten_concat (a : Autosaver) (os : List (Occasion W)) (o : Occasion W) :
    textsWritten a (os ++ [o]) = textsWritten a os ++ o.written (afterAll a os) := by
  induction os generalizing a with
  | nil => exact List.append_nil _
  | cons first os ih =>
    rw [List.cons_append, textsWritten, ih, textsWritten, List.append_assoc]
    rfl

lemma fingerprint_eq_of_text_eq {d d' : Document} (h : d.text = d'.text) :
    d.fingerprint = d'.fingerprint := by
  rw [Document.fingerprint, Document.fingerprint, Document.compactText_eq_of_text_eq h]

/-- What the autosaver remembers is the document whose text was written last. -/
lemma remembers_last (hfresh : a.lastFingerprint = none) (os : List (Occasion W)) :
    ((textsWritten a os).getLast? = none ∧ (afterAll a os).lastFingerprint = none) ∨
      ∃ o ∈ os, (textsWritten a os).getLast? = some o.document.text ∧
        (afterAll a os).lastFingerprint = some o.document.fingerprint := by
  induction os using List.reverseRecOn with
  | nil => exact .inl ⟨rfl, hfresh⟩
  | append_singleton os o ih =>
    rw [textsWritten_concat, afterAll_concat]
    obtain ⟨hwritten, hlast⟩ | ⟨hwritten, hlast⟩ := o.written_cases (afterAll a os)
    · rw [hwritten, hlast, List.append_nil]
      obtain hnone | ⟨o', hmem, hremembers⟩ := ih
      · exact .inl hnone
      · exact .inr ⟨o', List.mem_append_left _ hmem, hremembers⟩
    · rw [hwritten, hlast, List.getLast?_concat]
      exact .inr ⟨o, List.mem_append_right _ (List.mem_singleton_self o), rfl, rfl⟩

/-- A call whose scene can be read attempts a write exactly when nothing was written before, or a
text that is not that of its document was written last. A call that is refused fails with the answer
of the disk and changes nothing of what is remembered, so that the document is attempted again. -/
theorem attempts_exactly_changes (hfresh : a.lastFingerprint = none)
    (htold : AreToldApart (os ++ [o])) (hreadable : o.IsReadable) :
    (o.Attempts (afterAll a os) ↔ (textsWritten a os).getLast? ≠ some o.document.text) ∧
      (o.Attempts (afterAll a os) →
        (∃ why, ⟨.makeDirectory (afterAll a os).directory, .error why⟩ ∈
          o.exchanges (afterAll a os)) ∨
        ∃ path answer, ⟨.writeText path o.document.text, answer⟩ ∈ o.exchanges (afterAll a os)) ∧
      ∀ why, o.RefusedWith (afterAll a os) why →
        (o.save (afterAll a os)).result = .error why ∧
        (o.save (afterAll a os)).state.lastFingerprint = (afterAll a os).lastFingerprint ∧
        ∀ next : Occasion W, next.IsReadable → next.document.text = o.document.text →
          next.Attempts (o.save (afterAll a os)).state := by
  refine ⟨?_, (o.course hreadable _).asks, fun why hrefused => ?_⟩
  · rw [Occasion.attempts_iff hreadable]
    obtain ⟨hwritten, hlast⟩ | ⟨o', hmem, hwritten, hlast⟩ := remembers_last hfresh os
    · rw [hwritten, hlast]
      exact iff_of_true (Option.some_ne_none _).symm (Option.some_ne_none _).symm
    · rw [hwritten, hlast, Ne, Ne, Option.some_inj, Option.some_inj, not_iff_not]
      constructor
      · intro hfingerprint
        exact Document.text_eq_of_compactText_eq (htold o' (List.mem_append_left _ hmem) o
          (List.mem_append_right _ (List.mem_singleton_self o)) hfingerprint)
      · exact fingerprint_eq_of_text_eq
  · obtain ⟨hresult, hstate⟩ := hrefused.save_eq
    refine ⟨hresult, congrArg lastFingerprint hstate, fun next hnext htext => ?_⟩
    rw [hstate, Occasion.attempts_iff hnext, fingerprint_eq_of_text_eq htext]
    exact (Occasion.attempts_iff hreadable).mp hrefused.attempts

/-! ### A full disk -/

/-- A file tree in which no text can be written. -/
def Disk.full : Disk FileTree :=
  { Disk.tree with
    writeText := fun path _ t => (.error (.fileUnwritable path "No space left on device"), t) }

/-- A call on a disk with an empty directory of backups. -/
def onDisk (disk : Disk FileTree) (millis : Int) (s : Scene) : Occasion FileTree :=
  ⟨callAt millis s, disk, backups⟩

lemma state_onDisk_tree : ((onDisk .tree 0 .empty).save single).state =
    single.afterWriting ⟨0⟩ .empty := by
  have hplain : Moment.HasPlainYear ⟨0⟩ := by decide
  obtain ⟨t', hsave, -⟩ := (isFresh_single.hasWritten fun _ => True).exists_save_of_count_le
    (s := .empty) (by decide) trivial (Option.some_ne_none _).symm (List.forall_mem_nil _) hplain
    (by decide) (by decide) (fits_autosaveName hplain (by decide) (by decide) (by decide))
  rw [onDisk, (Occasion.save_tree _ _ _).2.1, save_callAt, hsave]

lemma written_onDisk_tree :
    (onDisk .tree 0 .empty).written single = [Scene.empty.document.text] := by
  obtain ⟨-, hlast⟩ | ⟨hwritten, -⟩ := (onDisk .tree 0 .empty).written_cases single
  · rw [state_onDisk_tree] at hlast
    exact absurd hlast (Option.some_ne_none _)
  · exact hwritten

/-- A call whose document was changed is refused when the directory is there and no text can be
written in it. -/
lemma refusedWith_of_writeText {why : Failure} {files : W} (hreadable : o.IsReadable)
    (hchanged : a.lastFingerprint ≠ some o.document.fingerprint)
    (hthere : o.disk.isThere a.directory o.files = true)
    (hwrite : (o.disk.writeText (o.disk.nextPath a.directory o.call.now o.files)
      o.document.text).run o.files = (.error why, files)) : o.RefusedWith a why := by
  have hensure : (o.disk.noting.ensureDirectory a.directory).run (o.files, []) =
    (.ok (), o.files, []) := if_pos hthere
  refine .inr ⟨o.disk.nextPath a.directory o.call.now o.files, o.document.text, ?_⟩
  rw [Occasion.exchanges, Occasion.save_of_readable hreadable, saveOn, ← Occasion.document,
    if_neg hchanged, hensure]
  dsimp only
  rw [nextPath_noting, writeText_noting, hwrite]
  exact List.mem_singleton_self _

lemma refusedWith_onDisk_full :
    ∃ why, (onDisk .full 1 layered).RefusedWith (single.afterWriting ⟨0⟩ .empty) why :=
  ⟨_, refusedWith_of_writeText rfl (fun h => fingerprint_empty_ne (Option.some.inj h))
    isFresh_single.directory.exists? rfl⟩

/-- A call with a scene that was changed since the last one, on a full disk, and one after it. -/
theorem attempts_exactly_changes_full :
    single.lastFingerprint = none ∧
      AreToldApart ([onDisk .tree 0 .empty] ++ [onDisk .full 1 layered]) ∧
      (onDisk .full 1 layered).IsReadable ∧
      (textsWritten single [onDisk .tree 0 .empty]).getLast? = some Scene.empty.document.text ∧
      ∃ why, (onDisk .full 1 layered).RefusedWith (afterAll single [onDisk .tree 0 .empty]) why ∧
        ((onDisk .full 1 layered).save (afterAll single [onDisk .tree 0 .empty])).result =
          .error why ∧
        (onDisk .tree 2 layered).Attempts
          (afterAll single [onDisk .tree 0 .empty, onDisk .full 1 layered]) := by
  have htold : AreToldApart ([onDisk .tree 0 .empty] ++ [onDisk .full 1 layered]) := by
    intro o ho o' ho' hfingerprint
    obtain rfl | ho := List.mem_cons.mp ho
    · obtain rfl | ho' := List.mem_cons.mp ho'
      · rfl
      · cases List.mem_singleton.mp ho'
        exact absurd hfingerprint fingerprint_empty_ne
    · cases List.mem_singleton.mp ho
      obtain rfl | ho' := List.mem_cons.mp ho'
      · exact absurd hfingerprint.symm fingerprint_empty_ne
      · cases List.mem_singleton.mp ho'
        rfl
  have hwritten : textsWritten single [onDisk .tree 0 .empty] = [Scene.empty.document.text] := by
    rw [textsWritten, written_onDisk_tree, textsWritten, List.append_nil]
  have hfirst : afterAll single [onDisk .tree 0 .empty] = single.afterWriting ⟨0⟩ .empty := by
    rw [afterAll, afterAll, state_onDisk_tree]
  have hsecond : afterAll single [onDisk .tree 0 .empty, onDisk .full 1 layered] =
    ((onDisk .full 1 layered).save (afterAll single [onDisk .tree 0 .empty])).state :=
      afterAll_concat single [onDisk .tree 0 .empty] (onDisk .full 1 layered)
  have hfresh : single.lastFingerprint = none := rfl
  have hreadable : (onDisk .full 1 layered).IsReadable := rfl
  obtain ⟨why, hrefused⟩ := refusedWith_onDisk_full
  rw [← hfirst] at hrefused
  obtain ⟨-, -, hfails⟩ := attempts_exactly_changes hfresh htold hreadable
  obtain ⟨hresult, -, hagain⟩ := hfails why hrefused
  rw [hsecond]
  refine ⟨hfresh, htold, hreadable, ?_, why, hrefused, hresult,
    hagain (onDisk .tree 2 layered) rfl rfl⟩
  rw [hwritten]
  rfl

end ParticleScene.Autosaver
