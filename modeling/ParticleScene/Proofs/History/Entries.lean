import ParticleScene.Proofs.History.Window

/-!
# Entries that come and go

Recording puts one entry behind the current one, and nothing else puts an entry into a history, but
for a reset, which leaves one. So what holds of the snapshots of a history holds of them after any
operation on it.
-/

namespace ParticleScene.History

variable {α : Type} {h h' : History α} {e : Entry α}

/-! ### One more entry -/

/-- A history in which one snapshot was recorded, and nothing else has happened to it: what lay
ahead of the cursor is gone, the oldest entries have given way as far as the limit has no room, and
the cursor is on the one new entry. -/
structure HasRecorded (h : History α) (snapshot : α) (h' : History α) : Prop where
  entries : ∃ e : Entry α, e.snapshot = snapshot ∧
    h'.entries = (h.entries.take (h.cursor + 1)).drop (h.cursor + 2 - h.limit) ++ [e]
  cursor : h'.cursor + 1 = h'.entries.length
  limit : h'.limit = h.limit
  discarded : h'.discarded = h.discarded + (h.cursor + 2 - h.limit)

lemma push_hasRecorded (hwf : h.WellFormed) (action : Action) (description : String)
    (snapshot : α) : h.HasRecorded snapshot (h.push action description snapshot) := by
  have htake : (h.entries.take (h.cursor + 1)).length = h.cursor + 1 := by
    rw [List.length_take, Nat.min_eq_left hwf.cursor_lt]
  have hexcess : h.excess ≤ h.cursor + 1 := by
    have := hwf.one_le_limit
    simp only [excess]
    omega
  have hentries : (h.push action description snapshot).entries =
      (h.entries.take (h.cursor + 1)).drop h.excess ++ [⟨action, description, snapshot⟩] := by
    rw [push_eq hwf, grow, List.drop_append_of_le_length (by rwa [htake])]
  constructor
  · exact ⟨_, rfl, hentries⟩
  · rw [hentries, List.length_append, List.length_drop, htake, push_eq hwf]
    rfl
  · exact limit_push hwf ..
  · rw [push_eq hwf]
    rfl

/-! ### No other entries -/

lemma dropOne_sublist (h : History α) : h.dropOne.entries.Sublist h.entries := by
  unfold dropOne
  split
  · exact List.drop_sublist 1 h.entries
  · exact List.dropLast_sublist h.entries

lemma trim_sublist (h : History α) : h.trim.entries.Sublist h.entries := by
  have hrepeat (n : Nat) : (Nat.repeat dropOne n h).entries.Sublist h.entries := by
    induction n with
    | zero => exact List.Sublist.refl _
    | succ n ih => exact (dropOne_sublist _).trans ih
  exact hrepeat _

lemma mem_push {action : Action} {description : String} {snapshot : α}
    (he : e ∈ (h.push action description snapshot).entries) :
    e ∈ h.entries ∨ e = ⟨action, description, snapshot⟩ := by
  have hgrow := (trim_sublist (h.grow ⟨action, description, snapshot⟩)).mem he
  rcases List.mem_append.mp hgrow with hold | hnew
  · exact .inl (List.mem_of_mem_take hold)
  · exact .inr (List.mem_singleton.mp hnew)

lemma mem_setLimit {limit : Nat} (he : e ∈ (h.setLimit limit).entries) : e ∈ h.entries :=
  (trim_sublist { h with limit := max limit 1 }).mem he

/-- Undoing goes to an entry of the history and keeps them all. -/
lemma entries_undo (hundo : h.undo = .ok (e, h')) : e ∈ h.entries ∧ h'.entries = h.entries := by
  unfold undo at hundo
  split at hundo
  · cases hundo
  · obtain ⟨hfound, rfl⟩ := goTo_eq_ok hundo
    exact ⟨List.mem_of_getElem? hfound, rfl⟩

lemma entries_redo (hredo : h.redo = .ok (e, h')) : e ∈ h.entries ∧ h'.entries = h.entries := by
  obtain ⟨hfound, rfl⟩ := goTo_eq_ok hredo
  exact ⟨List.mem_of_getElem? hfound, rfl⟩

end ParticleScene.History
