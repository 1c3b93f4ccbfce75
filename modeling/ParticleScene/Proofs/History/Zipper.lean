import Mathlib.Logic.Relation
import ParticleScene.Proofs.History

/-!
# Histories as zippers

A zipper holds the current entry, the entries behind it and those ahead of it, on both sides the
nearest first. Every well-formed history spells exactly one zipper, and each operation on the
history is a plain one on the zipper: recording shifts the current entry behind, undo and redo
carry one entry over, and a new limit takes so many of the nearest entries on each side.
-/

namespace ParticleScene

/-- What can be done to a history. -/
inductive History.Move (α : Type) where
  | push (action : Action) (description : String) (snapshot : α)
  | undo
  | redo
  | setLimit (limit : Nat)
  | reset (action : Action) (description : String) (snapshot : α)

/-- An item with those behind and those ahead of it, nearest first, a limit for their number, and
how many were given up so far. -/
structure Zipper (β : Type) where
  behind : List β
  current : β
  ahead : List β
  limit : Nat
  discarded : Nat

namespace Zipper

variable {β : Type}

def size (z : Zipper β) : Nat :=
  z.behind.length + 1 + z.ahead.length

/-- Give up a number of items, those farthest behind first, then those farthest ahead. -/
def giveUp (n : Nat) (z : Zipper β) : Zipper β :=
  { z with
    behind := z.behind.take (z.behind.length - n)
    ahead := z.ahead.take (z.ahead.length - (n - z.behind.length))
    discarded := z.discarded + n }

/-- Give up as many items as are too many. -/
def trim (z : Zipper β) : Zipper β :=
  z.giveUp (z.size - z.limit)

/-- The current item is the nearest one behind the new one; as many as the limit has room for
beside the new one are kept of them, and nothing is kept ahead. -/
def push (x : β) (z : Zipper β) : Zipper β :=
  { z with
    behind := (z.current :: z.behind).take (z.limit - 1)
    current := x
    ahead := []
    discarded := z.discarded + (z.behind.length + 2 - z.limit) }

/-- The nearest item behind becomes the current one, and that the nearest ahead. -/
def undo? (z : Zipper β) : Option (Zipper β) :=
  match z.behind with
  | [] => none
  | x :: rest => some { z with behind := rest, current := x, ahead := z.current :: z.ahead }

/-- The nearest item ahead becomes the current one, and that the nearest behind. -/
def redo? (z : Zipper β) : Option (Zipper β) :=
  match z.ahead with
  | [] => none
  | x :: rest => some { z with behind := z.current :: z.behind, current := x, ahead := rest }

def setLimit (limit : Nat) (z : Zipper β) : Zipper β :=
  trim { z with limit := max limit 1 }

def reset (x : β) (z : Zipper β) : Zipper β :=
  { z with behind := [], current := x, ahead := [], discarded := z.discarded + z.size }

variable {z : Zipper β} {n : Nat}

/-! ### Giving up one by one -/

lemma giveUp_zero : z.giveUp 0 = z := by
  simp [giveUp]

lemma giveUp_succ : z.giveUp (n + 1) = (z.giveUp n).giveUp 1 := by
  simp only [giveUp, List.take_take, List.length_take, Zipper.mk.injEq, true_and]
  refine ⟨?_, ?_, rfl⟩
  · congr 1
    omega
  · congr 1
    omega

lemma size_giveUp (hn : n < z.size) : (z.giveUp n).size + n = z.size := by
  simp only [size, giveUp, List.length_take] at *
  omega

variable {α : Type}

/-- The history with the entries of a zipper in a row, the oldest first. -/
def toHistory (z : Zipper (Entry α)) : History α where
  entries := z.behind.reverse ++ z.current :: z.ahead
  cursor := z.behind.length
  limit := z.limit
  discarded := z.discarded

/-- What going to another entry answers: the entry with the history around it, or a failure. -/
def answer (otherwise : Failure) : Option (Zipper (Entry α)) → Except Failure (Entry α × History α)
  | some z => .ok (z.current, z.toHistory)
  | none => .error otherwise

/-- The zipper after a move; going where nothing is leaves it as it is. -/
def moved (z : Zipper (Entry α)) : History.Move α → Zipper (Entry α)
  | .push action description snapshot => z.push ⟨action, description, snapshot⟩
  | .undo => z.undo?.getD z
  | .redo => z.redo?.getD z
  | .setLimit limit => z.setLimit limit
  | .reset action description snapshot => z.reset ⟨action, description, snapshot⟩

end Zipper

namespace History

open Zipper

variable {α : Type} {h g : History α} {z : Zipper (Entry α)}

/-- The history after a move; one that fails leaves it as it is. -/
def moved (h : History α) : Move α → History α
  | .push action description snapshot => h.push action description snapshot
  | .undo => (h.undo.toOption.map Prod.snd).getD h
  | .redo => (h.redo.toOption.map Prod.snd).getD h
  | .setLimit limit => h.setLimit limit
  | .reset action description snapshot => h.reset action description snapshot

/-! ### The zipper of a history -/

@[simp] lemma length_toHistory : z.toHistory.entries.length = z.size := by
  simp [toHistory, Zipper.size]
  omega

/-- A history is spelled by one zipper at most. -/
lemma toHistory_injective : Function.Injective (toHistory (α := α)) := by
  rintro ⟨b, c, a, l, d⟩ ⟨b', c', a', l', d'⟩ heq
  simp only [toHistory, History.mk.injEq] at heq
  obtain ⟨hentries, hlength, rfl, rfl⟩ := heq
  obtain ⟨hbehind, hrest⟩ := List.append_inj hentries (by simpa using hlength)
  obtain rfl := List.reverse_injective hbehind
  obtain ⟨rfl, rfl⟩ := List.cons.inj hrest
  rfl

/-- A history with its cursor on an entry is spelled by a zipper. -/
lemma exists_toHistory (hcursor : h.cursor < h.entries.length) : ∃ z, h = toHistory z := by
  refine ⟨⟨(h.entries.take h.cursor).reverse, h.entries[h.cursor], h.entries.drop (h.cursor + 1),
    h.limit, h.discarded⟩, ?_⟩
  obtain ⟨entries, cursor, limit, discarded⟩ := h
  have hle : cursor ≤ entries.length := Nat.le_of_lt hcursor
  simp [toHistory, Nat.min_eq_left hle, List.take_append_drop]

/-! ### Trimming -/

/-- One round of trimming. -/
def Round (h g : History α) : Prop :=
  h.limit < h.entries.length ∧ g = h.dropOne

lemma toHistory_dropOne (hsize : 1 < z.size) : z.toHistory.dropOne = (z.giveUp 1).toHistory := by
  obtain ⟨behind, current, ahead, limit, discarded⟩ := z
  cases behind with
  | nil =>
    cases ahead with
    | nil => exact absurd hsize (Nat.lt_irrefl 1)
    | cons nearest rest => simp [dropOne, toHistory, giveUp, List.dropLast_eq_take]
  | cons nearest rest =>
    have hfirst : 1 ≤ (nearest :: rest).reverse.length := by simp
    simp only [dropOne, toHistory, giveUp, List.length_cons, Nat.zero_lt_succ, if_true]
    rw [List.drop_append_of_le_length hfirst, List.drop_reverse]
    simp

/-- Rounds of trimming give up the farthest entries, and the current one is none of them. -/
lemma repeat_dropOne_toHistory (n : Nat) (hn : n < z.size) :
    Nat.repeat dropOne n z.toHistory = (z.giveUp n).toHistory := by
  induction n with
  | zero => rw [giveUp_zero, Nat.repeat]
  | succ n ih =>
    have hsize := size_giveUp (Nat.lt_of_succ_lt hn)
    rw [Nat.repeat, ih (Nat.lt_of_succ_lt hn), toHistory_dropOne (by omega), ← giveUp_succ]

lemma toHistory_trim (hlimit : 1 ≤ z.limit) : z.toHistory.trim = z.trim.toHistory := by
  rw [History.trim, length_toHistory]
  refine repeat_dropOne_toHistory _ ?_
  simp only [toHistory, Zipper.size]
  omega

/-- Every round shortens the history, so that there is no round without end. -/
lemma round_wellFounded : WellFounded fun g h : History α => Round h g := by
  refine Subrelation.wf ?_ (measure fun h : History α => h.entries.length).wf
  rintro g h ⟨hbeyond, rfl⟩
  change h.dropOne.entries.length < h.entries.length
  rw [length_dropOne]
  omega

lemma repeat_dropOne_succ (n : Nat) (h : History α) :
    Nat.repeat dropOne (n + 1) h = Nat.repeat dropOne n h.dropOne := by
  induction n with
  | zero => rfl
  | succ n ih => rw [Nat.repeat, ih, Nat.repeat]

lemma Round.trim_eq (hround : Round h g) : g.trim = h.trim := by
  obtain ⟨hbeyond, rfl⟩ := hround
  have hcount : h.entries.length - h.limit = h.entries.length - 1 - h.limit + 1 := by omega
  rw [trim, trim, length_dropOne, dropOne_limit, hcount, repeat_dropOne_succ]

/-- Rounds go on until there is none any more, and lead to the trimmed history. -/
lemma rounds_trim (h : History α) : Relation.ReflTransGen Round h h.trim := by
  induction h using round_wellFounded.induction with
  | _ h ih =>
    by_cases hbeyond : h.limit < h.entries.length
    · have hround : Round h h.dropOne := ⟨hbeyond, rfl⟩
      rw [← hround.trim_eq]
      exact .head hround (ih _ hround)
    · have hwithin : h.entries.length - h.limit = 0 := by omega
      rw [trim, hwithin]
      exact .refl

/-- Trimming ends with the limit kept, on the entry that it began on, and counts what it gives
up. -/
lemma rounds_of_cursor (hcursor : h.cursor < h.entries.length) (hlimit : 1 ≤ h.limit) :
    Relation.ReflTransGen Round h h.trim ∧ (∀ g, ¬ Round h.trim g) ∧
      (∀ g, Relation.ReflTransGen Round h g → g.current? = h.current?) ∧
      h.trim.discarded + h.trim.entries.length = h.discarded + h.entries.length := by
  refine ⟨rounds_trim h, fun g hround => ?_, fun g hrounds => ?_, ?_⟩
  · exact Nat.not_lt_of_le (trim_wellFormed hcursor hlimit).length_le_limit hround.1
  · -- both the limit and the entry stay from round to round
    suffices hkept : g.limit = h.limit ∧ g.current? = h.current? from hkept.2
    induction hrounds with
    | refl => exact ⟨rfl, rfl⟩
    | tail _ hround ih =>
      obtain ⟨hbeyond, rfl⟩ := hround
      rw [ih.1] at hbeyond
      rw [dropOne_limit, current?_dropOne (Nat.lt_of_le_of_lt hlimit hbeyond)]
      exact ih
  · obtain ⟨z, rfl⟩ := exists_toHistory hcursor
    have hsize := z.size_giveUp (n := z.size - z.limit) (by
      simp only [toHistory, Zipper.size] at *
      omega)
    rw [toHistory_trim hlimit, length_toHistory, length_toHistory]
    simp only [Zipper.trim, toHistory, giveUp] at *
    omega

/-! ### Operations -/

/-- A new entry with the current one behind it and nothing ahead. -/
lemma grow_toHistory (e : Entry α) :
    z.toHistory.grow e =
      (⟨z.current :: z.behind, e, [], z.limit, z.discarded⟩ : Zipper (Entry α)).toHistory := by
  have htake : z.toHistory.entries.take (z.behind.length + 1) =
      z.behind.reverse ++ [z.current] := by
    rw [← List.length_reverse, toHistory, List.take_length_add_append]
    rfl
  simp only [grow, toHistory] at *
  simp [htake]

/-- As many entries are kept behind the new one as the limit has room for beside it. -/
lemma trim_grown (hlimit : 1 ≤ z.limit) (e : Entry α) :
    (⟨z.current :: z.behind, e, [], z.limit, z.discarded⟩ : Zipper (Entry α)).trim = z.push e := by
  simp only [Zipper.trim, giveUp, Zipper.push, Zipper.size, List.length_cons, List.length_nil,
    List.take_nil, Zipper.mk.injEq, and_true]
  by_cases hroom : z.behind.length + 2 ≤ z.limit
  · rw [List.take_of_length_le, List.take_of_length_le]
    all_goals
      rw [List.length_cons]
      omega
  · congr 1
    omega

lemma push_toHistory (hlimit : 1 ≤ z.limit) (action : Action) (description : String)
    (snapshot : α) :
    z.toHistory.push action description snapshot =
      (z.push ⟨action, description, snapshot⟩).toHistory := by
  rw [push_eq_trim_grow, grow_toHistory, ← trim_grown hlimit]
  exact toHistory_trim hlimit

lemma undo_toHistory : z.toHistory.undo = answer .nothingToUndo z.undo? := by
  obtain ⟨behind, current, ahead, limit, discarded⟩ := z
  cases behind with
  | nil => rfl
  | cons nearest rest => simp [undo, goTo, toHistory, undo?, answer]

lemma redo_toHistory : z.toHistory.redo = answer .nothingToRedo z.redo? := by
  obtain ⟨behind, current, ahead, limit, discarded⟩ := z
  cases ahead with
  | nil => simp [redo, goTo, toHistory, redo?, answer]
  | cons nearest rest => simp [redo, goTo, toHistory, redo?, answer]

lemma setLimit_toHistory (limit : Nat) :
    z.toHistory.setLimit limit = (z.setLimit limit).toHistory :=
  toHistory_trim (z := { z with limit := max limit 1 }) (Nat.le_max_right ..)

lemma reset_toHistory (action : Action) (description : String) (snapshot : α) :
    z.toHistory.reset action description snapshot =
      (z.reset ⟨action, description, snapshot⟩).toHistory := by
  rw [reset, length_toHistory]
  rfl

/-! ### Runs -/

lemma moved_toHistory (hlimit : 1 ≤ z.limit) (m : Move α) :
    z.toHistory.moved m = (z.moved m).toHistory := by
  cases m with
  | push action description snapshot => exact push_toHistory hlimit ..
  | undo =>
    rw [moved, undo_toHistory, Zipper.moved]
    cases z.undo? <;> rfl
  | redo =>
    rw [moved, redo_toHistory, Zipper.moved]
    cases z.redo? <;> rfl
  | setLimit limit => exact setLimit_toHistory limit
  | reset action description snapshot => exact reset_toHistory ..

lemma one_le_limit_moved (hlimit : 1 ≤ z.limit) (m : Move α) : 1 ≤ (z.moved m).limit := by
  cases m with
  | push | reset => exact hlimit
  | setLimit limit => exact Nat.le_max_right ..
  | undo =>
    simp only [Zipper.moved, undo?]
    split <;> exact hlimit
  | redo =>
    simp only [Zipper.moved, redo?]
    split <;> exact hlimit

lemma foldl_moved_toHistory (moves : List (Move α)) (hlimit : 1 ≤ z.limit) :
    moves.foldl moved z.toHistory = (moves.foldl Zipper.moved z).toHistory := by
  induction moves generalizing z with
  | nil => rfl
  | cons m rest ih =>
    rw [List.foldl_cons, moved_toHistory hlimit, ih (one_le_limit_moved hlimit m), List.foldl_cons]

/-- A well-formed history spells one zipper, and every operation on it, and so every run of them, is
the one on the zipper. Whatever has to be trimmed, trimming comes to an end, never gives up the
entry under the cursor, and counts what it gives up. -/
theorem refines_zipper (hwf : h.WellFormed) :
    ∃ z : Zipper (Entry α), h = z.toHistory ∧
      (∀ z' : Zipper (Entry α), h = z'.toHistory → z' = z) ∧
      (∀ action description snapshot, h.push action description snapshot =
        (z.push ⟨action, description, snapshot⟩).toHistory) ∧
      h.undo = answer .nothingToUndo z.undo? ∧
      h.redo = answer .nothingToRedo z.redo? ∧
      (∀ limit, h.setLimit limit = (z.setLimit limit).toHistory) ∧
      (∀ limit, z.size ≤ max limit 1 → h.setLimit limit = { h with limit := max limit 1 }) ∧
      (∀ moves : List (Move α),
        moves.foldl moved h = (moves.foldl Zipper.moved z).toHistory) ∧
      (WellFounded fun g h : History α => Round h g) ∧
      ∀ g : History α, g.cursor < g.entries.length → 1 ≤ g.limit →
        Relation.ReflTransGen Round g g.trim ∧ (∀ g', ¬ Round g.trim g') ∧
        (∀ g', Relation.ReflTransGen Round g g' → g'.current? = g.current?) ∧
        g.trim.discarded + g.trim.entries.length = g.discarded + g.entries.length := by
  obtain ⟨z, rfl⟩ := exists_toHistory hwf.cursor_lt
  have hlimit : 1 ≤ z.limit := hwf.one_le_limit
  refine ⟨z, rfl, fun z' heq => (toHistory_injective heq).symm, push_toHistory hlimit,
    undo_toHistory, redo_toHistory, setLimit_toHistory, fun limit hroom => ?_,
    fun moves => foldl_moved_toHistory moves hlimit, round_wellFounded,
    fun g => rounds_of_cursor⟩
  have hnone : z.toHistory.entries.length - max limit 1 = 0 := by
    rw [length_toHistory]
    exact Nat.sub_eq_zero_of_le hroom
  rw [setLimit, trim, hnone]
  rfl

/-- A full history with an entry behind the current one and one ahead. -/
def amid : History Nat where
  entries := [⟨.initial, "Initial state", 0⟩, ⟨.layerEdit, "Edit", 1⟩, ⟨.layerEdit, "Edit", 2⟩]
  cursor := 1
  limit := 3
  discarded := 0

/-- A limit of zero leaves the current entry alone, of which both neighbours are given up. -/
theorem refines_zipper_amid :
    amid.WellFormed ∧
      amid.setLimit 0 = ⟨[⟨.layerEdit, "Edit", 1⟩], 0, 1, 2⟩ ∧
      amid.push .layerChange "Add" 3 =
        ⟨[⟨.initial, "Initial state", 0⟩, ⟨.layerEdit, "Edit", 1⟩, ⟨.layerChange, "Add", 3⟩],
          2, 3, 0⟩ := by
  have hwf : amid.WellFormed := ⟨by decide, by decide, by decide⟩
  obtain ⟨z, -, honly, hpush, -, -, hlimit, -⟩ := refines_zipper hwf
  obtain rfl := honly ⟨[⟨.initial, "Initial state", 0⟩], ⟨.layerEdit, "Edit", 1⟩,
    [⟨.layerEdit, "Edit", 2⟩], 3, 0⟩ rfl
  exact ⟨hwf, hlimit 0, hpush ..⟩

end History

end ParticleScene
