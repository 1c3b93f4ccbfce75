import Mathlib.Data.List.Basic
import ParticleScene.History

/-!
# Well-formed histories

In a well-formed history the cursor stands on an entry and the limit is kept. Every operation
keeps this, and `current?` says what it does to the entry under the cursor: giving up snapshots
leaves that entry in place, whichever end they are taken from.
-/

namespace ParticleScene.History

variable {α : Type}

/-- The cursor stands on an entry, and there are no more entries than the limit allows. -/
structure WellFormed (h : History α) : Prop where
  cursor_lt : h.cursor < h.entries.length
  one_le_limit : 1 ≤ h.limit
  length_le_limit : h.entries.length ≤ h.limit

lemma WellFormed.entries_ne_nil {h : History α} (hwf : h.WellFormed) : h.entries ≠ [] :=
  List.ne_nil_of_length_pos (Nat.zero_lt_of_lt hwf.cursor_lt)

lemma WellFormed.undoCount_add_redoCount {h : History α} (hwf : h.WellFormed) :
    h.undoCount + h.redoCount + 1 = h.entries.length := by
  have := hwf.cursor_lt
  simp only [undoCount, redoCount]
  omega

lemma start_wellFormed (limit : Nat) (snapshot : α) : (start limit snapshot).WellFormed where
  cursor_lt := by simp [start]
  one_le_limit := Nat.le_max_right ..
  length_le_limit := Nat.le_max_right ..

/-! ### Giving up snapshots -/

@[simp] lemma dropOne_limit (h : History α) : h.dropOne.limit = h.limit := by
  unfold dropOne
  split <;> rfl

lemma length_dropOne (h : History α) : h.dropOne.entries.length = h.entries.length - 1 := by
  unfold dropOne
  split <;> simp

lemma dropOne_cursor_lt {h : History α} (hcursor : h.cursor < h.entries.length)
    (hlength : 1 < h.entries.length) : h.dropOne.cursor < h.dropOne.entries.length := by
  rw [length_dropOne]
  unfold dropOne
  split
  · exact Nat.sub_lt_sub_right (by assumption) hcursor
  · dsimp only
    omega

/-- The entry under the cursor is not given up. -/
lemma current?_dropOne {h : History α} (hlength : 1 < h.entries.length) :
    h.dropOne.current? = h.current? := by
  unfold dropOne current?
  split
  · rename_i hpos
    rw [List.getElem?_drop, Nat.add_sub_cancel' hpos]
  · dsimp only
    rw [List.getElem?_dropLast, if_pos (by omega)]

/-- Giving up fewer snapshots than there are keeps the cursor on its entry. -/
lemma repeat_dropOne (n : Nat) {h : History α} (hcursor : h.cursor < h.entries.length)
    (hn : n < h.entries.length) :
    (Nat.repeat dropOne n h).entries.length = h.entries.length - n ∧
      (Nat.repeat dropOne n h).limit = h.limit ∧
      (Nat.repeat dropOne n h).cursor < (Nat.repeat dropOne n h).entries.length ∧
      (Nat.repeat dropOne n h).current? = h.current? := by
  induction n with
  | zero => exact ⟨rfl, rfl, hcursor, rfl⟩
  | succ n ih =>
    obtain ⟨hlength, hlimit, hlt, hcurrent⟩ := ih (Nat.lt_of_succ_lt hn)
    have hmore : 1 < (Nat.repeat dropOne n h).entries.length := by omega
    simp only [Nat.repeat]
    refine ⟨?_, ?_, dropOne_cursor_lt hlt hmore, ?_⟩
    · rw [length_dropOne, hlength, Nat.sub_sub]
    · rw [dropOne_limit, hlimit]
    · rw [current?_dropOne hmore, hcurrent]

/-- Trimming brings a history with a cursor on an entry into its limit. -/
lemma trim_wellFormed {h : History α} (hcursor : h.cursor < h.entries.length)
    (hlimit : 1 ≤ h.limit) : h.trim.WellFormed := by
  obtain ⟨hlength, hlim, hlt, -⟩ :=
    repeat_dropOne (h.entries.length - h.limit) hcursor (by omega)
  refine ⟨hlt, ?_, ?_⟩
  · rw [trim, hlim]
    exact hlimit
  · rw [trim, hlim, hlength]
    omega

lemma current?_trim {h : History α} (hcursor : h.cursor < h.entries.length)
    (hlimit : 1 ≤ h.limit) : h.trim.current? = h.current? := by
  obtain ⟨-, -, -, hcurrent⟩ :=
    repeat_dropOne (h.entries.length - h.limit) hcursor (by omega)
  exact hcurrent

/-! ### Operations -/

section

variable {h : History α}

/-- A new entry behind the current one in place of what lies ahead, before any is given up. -/
def grow (h : History α) (e : Entry α) : History α where
  entries := h.entries.take (h.cursor + 1) ++ [e]
  cursor := (h.entries.take (h.cursor + 1) ++ [e]).length - 1
  limit := h.limit
  discarded := h.discarded

lemma push_eq_trim_grow (h : History α) (action : Action) (description : String) (snapshot : α) :
    h.push action description snapshot = (h.grow ⟨action, description, snapshot⟩).trim := rfl

lemma grow_cursor_lt (h : History α) (e : Entry α) :
    (h.grow e).cursor < (h.grow e).entries.length := by
  simp [grow]

@[simp] lemma current?_grow (h : History α) (e : Entry α) : (h.grow e).current? = some e := by
  simp [grow, current?]

lemma push_wellFormed (hwf : h.WellFormed) (action : Action) (description : String)
    (snapshot : α) : (h.push action description snapshot).WellFormed := by
  rw [push_eq_trim_grow]
  exact trim_wellFormed (grow_cursor_lt h _) hwf.one_le_limit

lemma current?_push (hwf : h.WellFormed) (action : Action) (description : String)
    (snapshot : α) :
    (h.push action description snapshot).current? = some ⟨action, description, snapshot⟩ := by
  rw [push_eq_trim_grow, current?_trim (grow_cursor_lt h _) hwf.one_le_limit, current?_grow]

lemma setLimit_wellFormed (hwf : h.WellFormed) (limit : Nat) : (h.setLimit limit).WellFormed :=
  trim_wellFormed hwf.cursor_lt (Nat.le_max_right ..)

lemma current?_setLimit (hwf : h.WellFormed) (limit : Nat) :
    (h.setLimit limit).current? = h.current? :=
  current?_trim (h := { h with limit := max limit 1 }) hwf.cursor_lt (Nat.le_max_right ..)

lemma reset_wellFormed (hwf : h.WellFormed) (action : Action) (description : String)
    (snapshot : α) : (h.reset action description snapshot).WellFormed where
  cursor_lt := by simp [reset]
  one_le_limit := hwf.one_le_limit
  length_le_limit := hwf.one_le_limit

variable {e : Entry α} {h' : History α}

/-- Moving the cursor gives the entry that it stands on then. -/
lemma goTo_eq_ok {place : Nat} {otherwise : Failure}
    (hgo : h.goTo place otherwise = .ok (e, h')) :
    h.entries[place]? = some e ∧ h' = { h with cursor := place } := by
  unfold goTo at hgo
  split at hgo
  · rename_i found hfound
    cases hgo
    exact ⟨hfound, rfl⟩
  · cases hgo

private lemma goTo_wellFormed (hwf : h.WellFormed) {place : Nat} {otherwise : Failure}
    (hgo : h.goTo place otherwise = .ok (e, h')) : h'.WellFormed ∧ h'.current? = some e := by
  obtain ⟨hfound, rfl⟩ := goTo_eq_ok hgo
  obtain ⟨hlt, -⟩ := List.getElem?_eq_some_iff.mp hfound
  exact ⟨⟨hlt, hwf.one_le_limit, hwf.length_le_limit⟩, hfound⟩

lemma undo_wellFormed (hwf : h.WellFormed) (hundo : h.undo = .ok (e, h')) :
    h'.WellFormed ∧ h'.current? = some e := by
  unfold undo at hundo
  split at hundo
  · cases hundo
  · exact goTo_wellFormed hwf hundo

lemma redo_wellFormed (hwf : h.WellFormed) (hredo : h.redo = .ok (e, h')) :
    h'.WellFormed ∧ h'.current? = some e :=
  goTo_wellFormed hwf hredo

end

end ParticleScene.History
