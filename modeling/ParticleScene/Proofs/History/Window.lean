import ParticleScene.Proofs.History

/-!
# Windows of a history

A window is a row of neighbouring snapshots in a history, with the cursor on one of them. Undo
and redo move the cursor within a window. Recording a snapshot behind the end of a window makes
it longer by one, and as long as the limit has room for the window nothing of it is given up.
-/

namespace ParticleScene.History

variable {α : Type} {h : History α}

/-! ### Recording in closed form -/

/-- Snapshots behind the cursor are given up from the oldest on. -/
lemma repeat_dropOne_eq (n : Nat) (hn : n ≤ h.cursor) :
    Nat.repeat dropOne n h =
      { h with
        entries := h.entries.drop n
        cursor := h.cursor - n
        discarded := h.discarded + n } := by
  induction n with
  | zero => rfl
  | succ n ih =>
    have hpos : 0 < h.cursor - n := Nat.sub_pos_of_lt hn
    rw [Nat.repeat, ih (Nat.le_of_succ_le hn), dropOne, if_pos hpos]
    simp only [List.drop_drop, Nat.sub_sub, Nat.add_assoc]

/-- How many snapshots are given up when one is recorded. -/
def excess (h : History α) : Nat :=
  h.cursor + 2 - h.limit

/-- A new snapshot stands behind the current one, and the oldest ones give way to it. -/
lemma push_eq (hwf : h.WellFormed) (action : Action) (description : String) (snapshot : α) :
    h.push action description snapshot =
      { entries := (h.grow ⟨action, description, snapshot⟩).entries.drop h.excess
        cursor := h.cursor + 1 - h.excess
        limit := h.limit
        discarded := h.discarded + h.excess } := by
  have hlength : (h.grow ⟨action, description, snapshot⟩).entries.length = h.cursor + 2 := by
    rw [grow, List.length_append, List.length_take, Nat.min_eq_left hwf.cursor_lt,
      List.length_singleton]
  have hcursor : (h.grow ⟨action, description, snapshot⟩).cursor = h.cursor + 1 :=
    congrArg (· - 1) hlength
  have hexcess : h.excess ≤ h.cursor + 1 := by
    have := hwf.one_le_limit
    simp only [excess]
    omega
  rw [push_eq_trim_grow, trim, hlength, ← hcursor]
  exact repeat_dropOne_eq h.excess (hcursor ▸ hexcess)

lemma limit_push (hwf : h.WellFormed) (action : Action) (description : String)
    (snapshot : α) : (h.push action description snapshot).limit = h.limit := by
  rw [push_eq hwf]

/-! ### Windows -/

variable {stage : Nat → α} {last place : Nat}

/-- The snapshots `stage 0` to `stage last` stand next to each other in a history, and the cursor
is on `stage place`. -/
def HasWindow (h : History α) (stage : Nat → α) (last place : Nat) : Prop :=
  ∃ first, h.cursor = first + place ∧
    ∀ k ≤ last, h.entries[first + k]?.map Entry.snapshot = some (stage k)

lemma hasWindow_zero {snapshot : α} (hcurrent : h.current?.map Entry.snapshot = some snapshot)
    (hstage : stage 0 = snapshot) : h.HasWindow stage 0 0 := by
  refine ⟨h.cursor, rfl, fun k hk => ?_⟩
  obtain rfl := Nat.le_zero.mp hk
  rw [hstage]
  exact hcurrent

lemma HasWindow.current (hw : h.HasWindow stage last place) (hplace : place ≤ last) :
    h.current?.map Entry.snapshot = some (stage place) := by
  obtain ⟨first, hcursor, hentries⟩ := hw
  rw [current?, hcursor]
  exact hentries place hplace

/-- The cursor may go to any place of a window. -/
lemma HasWindow.goTo (hw : h.HasWindow stage last place) {place' : Nat} (hplace' : place' ≤ last)
    {target : Nat} (htarget : target + place = h.cursor + place') (otherwise : Failure) :
    ∃ e h', h.goTo target otherwise = .ok (e, h') ∧ h'.HasWindow stage last place' := by
  obtain ⟨first, hcursor, hentries⟩ := hw
  obtain rfl : target = first + place' := by omega
  obtain ⟨e, he, -⟩ := Option.map_eq_some_iff.mp (hentries place' hplace')
  refine ⟨e, { h with cursor := first + place' }, ?_, first, rfl, hentries⟩
  rw [History.goTo, he]

lemma HasWindow.undo (hw : h.HasWindow stage last (place + 1)) (hplace : place + 1 ≤ last) :
    ∃ e h', h.undo = .ok (e, h') ∧ h'.HasWindow stage last place := by
  have hcursor : h.cursor ≠ 0 := by
    obtain ⟨first, hcursor, -⟩ := hw
    omega
  rw [History.undo, if_neg hcursor]
  exact hw.goTo (Nat.le_of_succ_le hplace) (by omega) _

lemma HasWindow.redo (hw : h.HasWindow stage last place) (hplace : place + 1 ≤ last) :
    ∃ e h', h.redo = .ok (e, h') ∧ h'.HasWindow stage last (place + 1) :=
  hw.goTo hplace (by omega) _

/-- A window with the cursor at its end grows by the snapshot that is recorded, if the limit has
room for one more. What lies ahead of the cursor, and what is older than the window, may go. -/
lemma HasWindow.push (hwf : h.WellFormed) (hw : h.HasWindow stage last last)
    (hroom : last + 1 < h.limit) (action : Action) (description : String) :
    (h.push action description (stage (last + 1))).HasWindow stage (last + 1) (last + 1) := by
  obtain ⟨first, hcursor, hentries⟩ := hw
  have hexcess : h.excess ≤ first := by
    simp only [excess]
    omega
  have htake : (h.entries.take (h.cursor + 1)).length = h.cursor + 1 := by
    rw [List.length_take, Nat.min_eq_left hwf.cursor_lt]
  rw [push_eq hwf]
  refine ⟨first - h.excess, by dsimp only; omega, fun k hk => ?_⟩
  have hplace : h.excess + (first - h.excess + k) = first + k := by omega
  rw [List.getElem?_drop, hplace, grow]
  rcases Nat.le_succ_iff.mp hk with hk | rfl
  · rw [List.getElem?_append_left (by omega), List.getElem?_take_of_lt (by omega)]
    exact hentries k hk
  · have hnew : first + last.succ - (h.entries.take (h.cursor + 1)).length = 0 := by omega
    rw [List.getElem?_append_right (by omega), hnew]
    rfl

end ParticleScene.History
