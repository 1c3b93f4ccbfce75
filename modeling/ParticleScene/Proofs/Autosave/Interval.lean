import ParticleScene.Proofs.Autosave.Refusals

/-!
# The interval between autosaves

The timer of an autosaver goes in rounds. A round that finds a save due tries one and stamps it,
whether it wrote a file, found nothing changed or failed. The interval is compared as a signed
number. So from the stamp of one try to the next one the interval passes as long as it is a signed
number itself, and a greater one, which is negative then, has passed at once.
-/

namespace ParticleScene

lemma Moment.secondsSince_le {m before after : Moment} (h : before.millis ≤ after.millis) :
    m.secondsSince after ≤ m.secondsSince before :=
  Int.tdiv_le_tdiv (by decide) (Int.sub_le_sub_left h _)

namespace Autosaver

variable {W : Type} {a : Autosaver} {now : Moment}

/-! ### The interval as a signed number -/

lemma interval_of_lt (h : a.settings.intervalSeconds.toNat < 2 ^ 63) :
    a.interval = a.settings.intervalSeconds.toNat :=
  BitVec.toInt_eq_toNat_of_lt (x := a.settings.intervalSeconds.toBitVec) (by
    change 2 * a.settings.intervalSeconds.toNat < 2 ^ 64
    omega)

lemma interval_neg (h : 2 ^ 63 ≤ a.settings.intervalSeconds.toNat) : a.interval < 0 :=
  (BitVec.toInt_neg_iff (x := a.settings.intervalSeconds.toBitVec)).mpr (by
    change 2 ^ 64 ≤ 2 * a.settings.intervalSeconds.toNat
    omega)

lemma isDue_iff (henabled : a.settings.enabled = true) :
    a.isDue now ↔ ∀ last, a.lastSave = some last → a.interval ≤ now.secondsSince last := by
  rw [isDue, henabled, Bool.true_and]
  cases hlast : a.lastSave with
  | none => exact iff_of_true rfl nofun
  | some last => simp only [decide_eq_true_eq, Option.some.injEq, forall_eq']

lemma isDue_eq_false (h : a.settings.enabled = false) (now : Moment) : a.isDue now = false := by
  rw [isDue, h, Bool.false_and]

/-! ### What a save leaves -/

namespace Course

variable {s : Scene} {es : List Exchange} {result : Except Failure (Option String)}
variable {state : Autosaver}

lemma settings_eq (h : Course a now s es result state) : state.settings = a.settings := by
  cases h <;> rfl

/-- A save that succeeds is stamped, whether it wrote a file or found nothing changed. -/
lemma lastSave_eq (h : Course a now s es result state) {path : Option String}
    (hok : result = .ok path) : state.lastSave = some now := by
  cases h with
  | unchanged => rfl
  | directoryRefused => cases hok
  | writeRefused => cases hok
  | written => rfl

end Course

namespace Occasion

lemma settings_save (o : Occasion W) (a : Autosaver) : (o.save a).state.settings = a.settings := by
  by_cases h : o.IsReadable
  · exact (o.course h a).settings_eq
  · rw [save_of_poisoned h]

lemma lastSave_save {o : Occasion W} {path : Option String} (h : (o.save a).result = .ok path) :
    (o.save a).state.lastSave = some o.call.now := by
  by_cases hreadable : o.IsReadable
  · exact (o.course hreadable a).lastSave_eq h
  · rw [save_of_poisoned hreadable] at h
    cases h

end Occasion

/-! ### Rounds -/

/-- A round of the timer: a call, the reading of the clock before it, by which it is due or not,
and the reading that stamps a failure. -/
structure Round (W : Type) where
  checked : Moment
  occasion : Occasion W
  failed : Moment

namespace Round

/-- The stamp of a try. -/
def stop (r : Round W) (a : Autosaver) : Moment :=
  match (r.occasion.save a).result with
  | .ok _ => r.occasion.call.now
  | .error _ => r.failed

/-- The autosaver after a round. -/
def next (r : Round W) (a : Autosaver) : Autosaver :=
  if a.isDue r.checked then
    match (r.occasion.save a).result with
    | .ok _ => (r.occasion.save a).state
    | .error _ => { (r.occasion.save a).state with lastSave := some r.failed }
  else a

/-- On a file tree, and with one reading, this is a round of the timer. -/
theorem next_tree (c : Call) (a : Autosaver) (t : FileTree) :
    (⟨c.now, ⟨c, .tree, t⟩, c.now⟩ : Round FileTree).next a = (a.tick c.now c.scene t).state := by
  obtain ⟨hresult, hstate, -⟩ := Occasion.save_tree c a t
  rw [next, tick, hresult, hstate]
  dsimp only [Call.save]
  split_ifs
  · cases (a.saveShared c.now c.scene t).result <;> rfl
  · rfl

variable {r : Round W}

lemma next_of_not_due (h : a.isDue r.checked = false) : r.next a = a := by
  rw [next, h]
  rfl

lemma settings_next (r : Round W) (a : Autosaver) : (r.next a).settings = a.settings := by
  rw [next]
  split_ifs
  · split <;> exact r.occasion.settings_save a
  · rfl

/-- Every try is stamped, however it ends. -/
lemma lastSave_next (h : a.isDue r.checked = true) : (r.next a).lastSave = some (r.stop a) := by
  rw [next, if_pos h, stop]
  split
  · exact Occasion.lastSave_save ‹_›
  · rfl

lemma interval_next (r : Round W) (a : Autosaver) : (r.next a).interval = a.interval := by
  rw [interval, settings_next, interval]

/-- The readings of a round do not go back. -/
structure InOrder (r : Round W) : Prop where
  checked_le : r.checked.millis ≤ r.occasion.call.now.millis
  le_failed : r.occasion.call.now.millis ≤ r.failed.millis

lemma InOrder.stop_bounds (h : r.InOrder) (a : Autosaver) :
    r.checked.millis ≤ (r.stop a).millis ∧ (r.stop a).millis ≤ r.failed.millis := by
  rw [stop]
  split
  · exact ⟨h.checked_le, h.le_failed⟩
  · exact ⟨Int.le_trans h.checked_le h.le_failed, Int.le_refl _⟩

end Round

/-! ### Runs of the timer -/

/-- A try to save, from the reading by which it was due to its stamp. -/
structure Try where
  start : Moment
  stop : Moment

/-- The tries in some rounds of the timer. -/
def tries (a : Autosaver) : List (Round W) → List Try
  | [] => []
  | r :: rs =>
    if a.isDue r.checked then ⟨r.checked, r.stop a⟩ :: tries (r.next a) rs
    else tries (r.next a) rs

/-- The clock does not go back in some rounds. -/
structure NeverBack (rounds : List (Round W)) : Prop where
  within : ∀ r ∈ rounds, r.InOrder
  between : rounds.Pairwise fun r r' => r.failed.millis ≤ r'.checked.millis

variable {r : Round W} {rs rounds : List (Round W)} {last : Moment}

lemma tries_of_due (h : a.isDue r.checked = true) (rs : List (Round W)) :
    tries a (r :: rs) = ⟨r.checked, r.stop a⟩ :: tries (r.next a) rs :=
  if_pos h

lemma tries_of_not_due (h : a.isDue r.checked = false) (rs : List (Round W)) :
    tries a (r :: rs) = tries a rs := by
  rw [tries, h, Round.next_of_not_due h]
  rfl

namespace NeverBack

lemma tail (h : NeverBack (r :: rs)) : NeverBack rs :=
  ⟨fun r' hr' => h.within r' (List.mem_cons_of_mem r hr'), (List.pairwise_cons.mp h.between).2⟩

lemma stop_bounds (h : NeverBack (r :: rs)) (a : Autosaver) :
    r.checked.millis ≤ (r.stop a).millis ∧
      ∀ r' ∈ rs, (r.stop a).millis ≤ r'.checked.millis := by
  obtain ⟨hstart, hend⟩ := (h.within r List.mem_cons_self).stop_bounds a
  exact ⟨hstart, fun r' hr' =>
    Int.le_trans hend ((List.pairwise_cons.mp h.between).1 r' hr')⟩

/-- No try ends before it starts. -/
lemma start_le_stop (h : NeverBack rounds) (a : Autosaver) :
    ∀ t ∈ tries a rounds, t.start.millis ≤ t.stop.millis := by
  induction rounds generalizing a with
  | nil => exact List.forall_mem_nil _
  | cons r rs ih =>
    cases hdue : a.isDue r.checked with
    | false =>
      rw [tries_of_not_due hdue]
      exact ih h.tail a
    | true =>
      rw [tries_of_due hdue]
      exact List.forall_mem_cons.mpr ⟨(h.stop_bounds a).1, ih h.tail _⟩

/-- From the last stamp on, every try starts after the interval. -/
lemma interval_le (h : NeverBack rounds) (hlast : a.lastSave = some last)
    (hle : ∀ r ∈ rounds, last.millis ≤ r.checked.millis) :
    ∀ t ∈ tries a rounds, a.interval ≤ t.start.secondsSince last := by
  induction rounds generalizing a last with
  | nil => exact List.forall_mem_nil _
  | cons r rs ih =>
    obtain ⟨hfirst, hrest⟩ := List.forall_mem_cons.mp hle
    cases hdue : a.isDue r.checked with
    | false =>
      rw [tries_of_not_due hdue]
      exact ih h.tail hlast hrest
    | true =>
      have henabled : a.settings.enabled = true := (Bool.and_eq_true_iff.mp hdue).1
      obtain ⟨hstart, hstop⟩ := h.stop_bounds a
      rw [tries_of_due hdue]
      refine List.forall_mem_cons.mpr ⟨(isDue_iff henabled).mp hdue last hlast, fun t ht => ?_⟩
      calc a.interval = (r.next a).interval := (r.interval_next a).symm
        _ ≤ t.start.secondsSince (r.stop a) := ih h.tail (Round.lastSave_next hdue) hstop t ht
        _ ≤ t.start.secondsSince last := Moment.secondsSince_le (Int.le_trans hfirst hstart)

/-- Between two tries the interval passes. -/
lemma pairwise_interval_le (h : NeverBack rounds) (a : Autosaver) :
    (tries a rounds).Pairwise fun first second =>
      a.interval ≤ second.start.secondsSince first.stop := by
  induction rounds generalizing a with
  | nil => exact List.Pairwise.nil
  | cons r rs ih =>
    cases hdue : a.isDue r.checked with
    | false =>
      rw [tries_of_not_due hdue]
      exact ih h.tail a
    | true =>
      have hnext := h.tail.interval_le (Round.lastSave_next hdue) (h.stop_bounds a).2
      have hrest := ih h.tail (r.next a)
      rw [r.interval_next] at hnext hrest
      rw [tries_of_due hdue]
      exact List.pairwise_cons.mpr ⟨hnext, hrest⟩

/-- When the interval is negative, every round tries to save. -/
lemma map_start_of_neg (h : NeverBack rounds) (henabled : a.settings.enabled = true)
    (hneg : a.interval < 0)
    (hle : ∀ last, a.lastSave = some last → ∀ r ∈ rounds, last.millis ≤ r.checked.millis) :
    (tries a rounds).map Try.start = rounds.map Round.checked := by
  induction rounds generalizing a with
  | nil => rfl
  | cons r rs ih =>
    have hdue : a.isDue r.checked = true := by
      refine (isDue_iff henabled).mpr fun last hlast => ?_
      have hsince : 0 ≤ r.checked.secondsSince last :=
        Int.tdiv_nonneg (Int.sub_nonneg.mpr (hle last hlast r List.mem_cons_self)) (by decide)
      exact Int.le_trans (Int.le_of_lt hneg) hsince
    rw [tries_of_due hdue, List.map_cons, List.map_cons]
    refine congrArg _ (ih h.tail ?_ ?_ ?_)
    · rw [r.settings_next, henabled]
    · rw [r.interval_next]
      exact hneg
    · rintro last hlast
      rw [Round.lastSave_next hdue, Option.some.injEq] at hlast
      exact hlast ▸ (h.stop_bounds a).2

end NeverBack

/-- After a try it is due again when the interval has passed. -/
lemma isDue_next (h : a.isDue r.checked = true) :
    (r.next a).isDue now ↔ a.interval ≤ now.secondsSince (r.stop a) := by
  have henabled : a.settings.enabled = true := (Bool.and_eq_true_iff.mp h).1
  rw [← r.settings_next] at henabled
  rw [isDue_iff henabled, Round.lastSave_next h, r.interval_next]
  simp only [Option.some.injEq, forall_eq']

lemma tries_of_disabled (h : a.settings.enabled = false) (rounds : List (Round W)) :
    tries a rounds = [] := by
  induction rounds with
  | nil => rfl
  | cons r rs ih => rw [tries_of_not_due (isDue_eq_false h _), ih]

/-- The autosaver after some rounds. -/
def afterRounds (a : Autosaver) : List (Round W) → Autosaver
  | [] => a
  | r :: rs => afterRounds (r.next a) rs

/-- The stamp of the last try in some rounds; before the first one, that of earlier saves. -/
def lastStamp (a : Autosaver) (rounds : List (Round W)) : Option Moment :=
  ((tries a rounds).getLast?.map Try.stop).or a.lastSave

lemma tries_append (a : Autosaver) (before rs : List (Round W)) :
    tries a (before ++ rs) = tries a before ++ tries (afterRounds a before) rs := by
  induction before generalizing a with
  | nil => rfl
  | cons r before ih =>
    cases hdue : a.isDue r.checked with
    | false =>
      rw [List.cons_append, tries_of_not_due hdue, tries_of_not_due hdue, afterRounds,
        Round.next_of_not_due hdue, ih]
    | true =>
      rw [List.cons_append, tries_of_due hdue, tries_of_due hdue, afterRounds, ih,
        List.cons_append]

lemma settings_afterRounds (a : Autosaver) (rounds : List (Round W)) :
    (afterRounds a rounds).settings = a.settings := by
  induction rounds generalizing a with
  | nil => rfl
  | cons r rs ih => rw [afterRounds, ih, r.settings_next]

lemma lastSave_afterRounds (a : Autosaver) (rounds : List (Round W)) :
    (afterRounds a rounds).lastSave = lastStamp a rounds := by
  induction rounds generalizing a with
  | nil => rfl
  | cons r rs ih =>
    rw [afterRounds, ih, lastStamp, lastStamp]
    cases hdue : a.isDue r.checked with
    | false => rw [tries_of_not_due hdue, Round.next_of_not_due hdue]
    | true =>
      rw [tries_of_due hdue, Round.lastSave_next hdue, List.getLast?_cons]
      cases (tries (r.next a) rs).getLast? <;> rfl

lemma tries_singleton_eq_nil_iff : tries a [r] = [] ↔ a.isDue r.checked = false := by
  cases hdue : a.isDue r.checked with
  | false =>
    rw [tries_of_not_due hdue]
    exact iff_of_true rfl rfl
  | true =>
    rw [tries_of_due hdue]
    exact iff_of_false (List.cons_ne_nil _ _) Bool.noConfusion

/-- A round tries exactly if the interval has passed since the last stamp. -/
lemma tries_concat_ne_iff (henabled : a.settings.enabled = true) (rounds : List (Round W))
    (r : Round W) : tries a (rounds ++ [r]) ≠ tries a rounds ↔
      ∀ last, lastStamp a rounds = some last → a.interval ≤ r.checked.secondsSince last := by
  have hinterval : (afterRounds a rounds).interval = a.interval := by
    rw [interval, settings_afterRounds, interval]
  rw [← settings_afterRounds a rounds] at henabled
  rw [tries_append, ne_eq, List.append_right_eq_self, tries_singleton_eq_nil_iff,
    Bool.not_eq_false, isDue_iff henabled, lastSave_afterRounds, hinterval]

/-- An autosaver that is switched off tries nothing. Else a round tries exactly if the interval has
passed since the last stamp, and from the stamp of a try to the start of every later one the
interval passes in whole seconds, whether the try wrote a file, found nothing changed or failed, if
the interval is less than `2 ^ 63`; from there on every round tries. -/
theorem tries_keep_interval (a : Autosaver) (rounds : List (Round W)) (hclock : NeverBack rounds) :
    (a.settings.enabled = false → tries a rounds = []) ∧
      (a.settings.intervalSeconds.toNat < 2 ^ 63 →
        (∀ t ∈ tries a rounds, t.start.millis ≤ t.stop.millis) ∧
        ((tries a rounds).Pairwise fun first second =>
          (a.settings.intervalSeconds.toNat : Int) ≤ second.start.secondsSince first.stop) ∧
        (a.settings.enabled = true → ∀ r, tries a (rounds ++ [r]) ≠ tries a rounds ↔
          ∀ last, lastStamp a rounds = some last →
            (a.settings.intervalSeconds.toNat : Int) ≤ r.checked.secondsSince last)) ∧
      (2 ^ 63 ≤ a.settings.intervalSeconds.toNat → a.settings.enabled = true →
        (∀ last, a.lastSave = some last → ∀ r ∈ rounds, last.millis ≤ r.checked.millis) →
        (tries a rounds).map Try.start = rounds.map Round.checked) := by
  refine ⟨fun h => tries_of_disabled h rounds, fun hlt => ?_,
    fun hle henabled hlast => hclock.map_start_of_neg henabled (interval_neg hle) hlast⟩
  rw [← interval_of_lt hlt]
  exact ⟨hclock.start_le_stop a, hclock.pairwise_interval_le a,
    fun henabled r => tries_concat_ne_iff henabled rounds r⟩

/-- An autosaver with some interval. -/
def every (seconds : UInt64) : Autosaver where
  settings := { intervalSeconds := seconds }
  directory := "backups"

/-- A round with one reading. -/
def roundAt (disk : Disk FileTree) (millis : Int) (s : Scene) : Round FileTree :=
  ⟨⟨millis⟩, onDisk disk millis s, ⟨millis⟩⟩

lemma stop_roundAt (disk : Disk FileTree) (millis : Int) (s : Scene) (a : Autosaver) :
    (roundAt disk millis s).stop a = ⟨millis⟩ := by
  rw [Round.stop]
  split <;> rfl

/-- A round on a full disk and two more, half a second after each other. -/
def threeRounds : List (Round FileTree) :=
  [roundAt .full 0 .empty, roundAt .tree 500 .empty, roundAt .tree 1000 .empty]

theorem tries_keep_interval_threeRounds :
    NeverBack threeRounds ∧
      tries { every 1 with settings := { enabled := false } } threeRounds = [] ∧
      tries (every 1) threeRounds = [⟨⟨0⟩, ⟨0⟩⟩, ⟨⟨1000⟩, ⟨1000⟩⟩] ∧
      (tries (every 1) threeRounds).Pairwise
        (fun first second => 1 ≤ second.start.secondsSince first.stop) ∧
      (tries (every 18446744073709551615) threeRounds).map Try.start = [⟨0⟩, ⟨500⟩, ⟨1000⟩] := by
  have hclock : NeverBack threeRounds := by
    refine ⟨fun r hr => ?_, by simp [threeRounds, roundAt]⟩
    simp only [threeRounds, List.mem_cons, List.not_mem_nil, or_false] at hr
    rcases hr with rfl | rfl | rfl <;> exact ⟨Int.le_refl _, Int.le_refl _⟩
  have hfirst : (every 1).isDue ⟨0⟩ = true := rfl
  have hsecond : ((roundAt .full 0 .empty).next (every 1)).isDue ⟨500⟩ = false := by
    rw [Bool.eq_false_iff, ne_eq, isDue_next hfirst, stop_roundAt]
    decide
  have hthird : ((roundAt .full 0 .empty).next (every 1)).isDue ⟨1000⟩ = true := by
    rw [isDue_next hfirst, stop_roundAt]
    decide
  refine ⟨hclock, (tries_keep_interval _ _ hclock).1 rfl, ?_,
    ((tries_keep_interval (every 1) _ hclock).2.1 (by decide)).2.1,
    (tries_keep_interval (every 18446744073709551615) _ hclock).2.2 (by decide) rfl nofun⟩
  rw [threeRounds, tries_of_due hfirst, tries_of_not_due hsecond, tries_of_due hthird,
    stop_roundAt, stop_roundAt]
  rfl

/-- With the greatest interval a round tries again at the moment of the try before. -/
theorem tries_of_greatest_interval :
    NeverBack [roundAt .tree 0 .empty, roundAt .tree 0 .empty] ∧
      tries (every 18446744073709551615) [roundAt .tree 0 .empty, roundAt .tree 0 .empty] =
        [⟨⟨0⟩, ⟨0⟩⟩, ⟨⟨0⟩, ⟨0⟩⟩] ∧
      ¬ ((every 18446744073709551615).settings.intervalSeconds.toNat : Int) ≤
        (⟨0⟩ : Moment).secondsSince ⟨0⟩ := by
  have hfirst : (every 18446744073709551615).isDue (roundAt .tree 0 .empty).checked = true := rfl
  have hsecond : ((roundAt .tree 0 .empty).next (every 18446744073709551615)).isDue
      (roundAt .tree 0 .empty).checked = true := by
    rw [isDue_next hfirst, stop_roundAt]
    decide
  refine ⟨⟨fun r hr => ?_, by simp [roundAt]⟩, ?_, by decide⟩
  · simp only [List.mem_cons, List.not_mem_nil, or_false, or_self] at hr
    exact hr ▸ ⟨Int.le_refl _, Int.le_refl _⟩
  · rw [tries_of_due hfirst, tries_of_due hsecond, stop_roundAt, stop_roundAt]
    rfl

end Autosaver

end ParticleScene
