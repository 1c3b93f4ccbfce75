import ParticleScene.Proofs.Geometry.Tour
import ParticleScene.Proofs.Number.FloatRank

/-!
# A tour goes on to what is nearest

A round of a tour always finds a position to go to. If all distances are numbers, it is the nearest
one of those that are not seen yet, and of equally near ones the one that is listed first.
-/

namespace ParticleScene.Tour

open Number

variable {here : Position} {unseen : List (Nat × Position)} {ds : List Float} {best : Nat × Float}

/-! ### Rounds that find nothing -/

/-- The rest of a tour, or nothing if a round finds no position to go to. -/
def visit? (here : Position) : Nat → List (Nat × Position) → Option (List Nat)
  | 0, _ => some []
  | rounds + 1, unseen =>
    let place := nearest here unseen
    match unseen[place]? with
    | some (i, p) => (visit? p rounds (unseen.eraseIdx place)).map (i :: ·)
    | none => none

/-- The order of a tour, or nothing if it is broken off. -/
def order? (ps : List Position) : Option (List Nat) :=
  match ps with
  | [] => some []
  | p :: rest => (visit? p rest.length ((rest.zipIdx 1).map fun x => (x.2, x.1))).map (0 :: ·)

lemma visit?_eq (rounds : Nat) (hrounds : unseen.length = rounds) :
    visit? here rounds unseen = some (visit here rounds unseen) := by
  induction rounds generalizing here unseen with
  | zero => rfl
  | succ rounds ih =>
    obtain ⟨i, p, hget, hrest, hvisit⟩ := visit_succ here hrounds
    rw [hvisit]
    simp only [visit?, hget, ih hrest, Option.map_some]

lemma order?_eq (ps : List Position) : order? ps = some (order ps) := by
  cases ps with
  | nil => rfl
  | cons p rest =>
    rw [order?, visit?_eq rest.length (by simp), order]
    rfl

/-! ### The nearest position -/

/-- The first one of the least distances in a list, with its place. -/
structure IsFirstLeast (ds : List Float) (best : Nat × Float) : Prop where
  get : ds[best.1]? = some best.2
  le : ∀ {j : Nat} {x : Float}, ds[j]? = some x → best.2 ≤ x
  lt : ∀ {j : Nat} {x : Float}, ds[j]? = some x → j < best.1 → best.2 < x

lemma getElem?_concat_eq_some {d x : Float} {j : Nat} (h : (ds ++ [d])[j]? = some x) :
    ds[j]? = some x ∨ j = ds.length ∧ x = d := by
  rcases Nat.lt_or_ge j ds.length with hlt | hge
  · rw [List.getElem?_append_left hlt] at h
    exact .inl h
  · obtain ⟨hlt, -⟩ := List.getElem?_eq_some_iff.mp h
    rw [List.length_append, List.length_singleton] at hlt
    obtain rfl : j = ds.length := Nat.le_antisymm (Nat.le_of_lt_succ hlt) hge
    rw [List.getElem?_concat_length] at h
    exact .inr ⟨rfl, (Option.some.inj h).symm⟩

namespace IsFirstLeast

variable {d : Float}

/-- A later distance that is not less changes nothing. -/
lemma keep (h : IsFirstLeast ds best) (hd : best.2 ≤ d) : IsFirstLeast (ds ++ [d]) best := by
  obtain ⟨hlt, -⟩ := List.getElem?_eq_some_iff.mp h.get
  constructor
  · rw [List.getElem?_append_left hlt, h.get]
  · intro j x hx
    rcases getElem?_concat_eq_some hx with hold | ⟨-, rfl⟩
    · exact h.le hold
    · exact hd
  · intro j x hx hj
    rcases getElem?_concat_eq_some hx with hold | ⟨rfl, -⟩
    · exact h.lt hold hj
    · exact absurd hj (Nat.not_lt_of_lt hlt)

/-- A later distance that is less is less than all that came before. -/
lemma replace (h : IsFirstLeast ds best) (hnumber : ∀ x ∈ ds ++ [d], x.isNaN = false)
    (hd : ¬ best.2 ≤ d) : IsFirstLeast (ds ++ [d]) (ds.length, d) := by
  have hdn : d.isNaN = false := hnumber d (by simp)
  have hbest : best.2.isNaN = false :=
    hnumber best.2 (List.mem_append_left _ (List.mem_of_getElem? h.get))
  have hless : rank d < rank best.2 := by
    rw [le_iff_rank_le hbest hdn] at hd
    exact lt_of_not_ge hd
  have hold {j : Nat} {x : Float} (hx : ds[j]? = some x) : rank d < rank x := by
    have hxn : x.isNaN = false := hnumber x (List.mem_append_left _ (List.mem_of_getElem? hx))
    exact hless.trans_le ((le_iff_rank_le hbest hxn).mp (h.le hx))
  constructor
  · exact List.getElem?_concat_length ..
  · intro j x hx
    rw [le_iff_rank_le hdn (hnumber x (List.mem_of_getElem? hx))]
    rcases getElem?_concat_eq_some hx with hx | ⟨-, rfl⟩
    · exact (hold hx).le
    · exact le_refl _
  · intro j x hx hj
    rw [lt_iff_rank_lt hdn (hnumber x (List.mem_of_getElem? hx))]
    rcases getElem?_concat_eq_some hx with hx | ⟨rfl, -⟩
    · exact hold hx
    · exact absurd hj (Nat.lt_irrefl _)

lemma concat (h : IsFirstLeast ds best) (hnumber : ∀ x ∈ ds ++ [d], x.isNaN = false) :
    IsFirstLeast (ds ++ [d]) (if d ≥ best.2 then best else (ds.length, d)) := by
  split
  · exact h.keep ‹_›
  · exact h.replace hnumber ‹_›

end IsFirstLeast

lemma isFirstLeast_singleton {d : Float} (hd : d.isNaN = false) : IsFirstLeast [d] (0, d) := by
  constructor
  · rfl
  · intro j x hx
    obtain rfl := List.mem_singleton.mp (List.mem_of_getElem? hx)
    exact (le_iff_rank_le hd hd).mpr (le_refl _)
  · intro j x _ hj
    exact absurd hj (Nat.not_lt_zero j)

/-- The distances of positions, in their order. -/
def distances (here : Position) (unseen : List (Nat × Position)) : List Float :=
  unseen.map fun q => here.distanceSq q.2

lemma nearestFrom_isFirstLeast (h : IsFirstLeast ds best)
    (hnumber : ∀ x ∈ ds ++ distances here unseen, x.isNaN = false) :
    IsFirstLeast (ds ++ distances here unseen) (nearestFrom here best ds.length unseen) := by
  induction unseen generalizing ds best with
  | nil =>
    rw [distances, List.map_nil, List.append_nil]
    exact h
  | cons q rest ih =>
    have happend : ds ++ distances here (q :: rest) =
        (ds ++ [here.distanceSq q.2]) ++ distances here rest := by
      simp [distances]
    rw [happend] at hnumber ⊢
    have hstep := h.concat fun x hx => hnumber x (List.mem_append_left _ hx)
    have hrest := ih hstep hnumber
    rw [List.length_append, List.length_singleton] at hrest
    exact hrest

/-- The nearest position is at the first one of the least distances. -/
lemma nearest_isFirstLeast (hunseen : unseen ≠ [])
    (hnumber : ∀ x ∈ distances here unseen, x.isNaN = false) :
    ∃ d, IsFirstLeast (distances here unseen) (nearest here unseen, d) := by
  obtain ⟨q, rest, rfl⟩ := List.exists_cons_of_ne_nil hunseen
  have hfirst : (here.distanceSq q.2).isNaN = false := hnumber _ (by simp [distances])
  exact ⟨_, nearestFrom_isFirstLeast (isFirstLeast_singleton hfirst) hnumber⟩

/-! ### Runs -/

/-- A position with another index than the one that is taken out is left. -/
lemma mem_eraseIdx_of_ne {a b : Nat × Position} {place : Nat} (ha : unseen[place]? = some a)
    (hb : b ∈ unseen) (hne : b.1 ≠ a.1) : b ∈ unseen.eraseIdx place := by
  obtain ⟨j, hj⟩ := List.mem_iff_getElem?.mp hb
  rw [List.mem_eraseIdx_iff_getElem?]
  refine ⟨j, ?_, hj⟩
  rintro rfl
  obtain rfl := Option.some.inj (ha.symm.trans hj)
  exact hne rfl

/-- What a tour stands at next and what is left then was not seen before. -/
lemma mem_of_mem_hop {a b : Nat × Position} {place : Nat} (ha : unseen[place]? = some a)
    (hb : b ∈ a :: unseen.eraseIdx place) : b ∈ unseen := by
  rcases List.mem_cons.mp hb with rfl | hb
  · exact List.mem_of_getElem? ha
  · exact List.mem_of_mem_eraseIdx hb

/-- A tour stands at a position and has others to see. These are listed by their indices, and the
distances between all of them are numbers. -/
structure Standing (here : Nat × Position) (unseen : List (Nat × Position)) : Prop where
  sorted : unseen.Pairwise fun a b => a.1 < b.1
  apart : ∀ b ∈ unseen, b.1 ≠ here.1
  number : ∀ a ∈ here :: unseen, ∀ b ∈ unseen, a.1 ≠ b.1 → (a.2.distanceSq b.2).isNaN = false

namespace Standing

variable {now next a b : Nat × Position} {i j : Nat}

lemma fst_lt (h : Standing now unseen) (ha : unseen[i]? = some a) (hb : unseen[j]? = some b)
    (hij : i < j) : a.1 < b.1 := by
  obtain ⟨hi, rfl⟩ := List.getElem?_eq_some_iff.mp ha
  obtain ⟨hj, rfl⟩ := List.getElem?_eq_some_iff.mp hb
  exact List.pairwise_iff_getElem.mp h.sorted i j hi hj hij

/-- What is listed with a lesser index is listed before. -/
lemma lt_of_fst_lt (h : Standing now unseen) (ha : unseen[i]? = some a) (hb : unseen[j]? = some b)
    (hless : a.1 < b.1) : i < j := by
  rcases Nat.lt_trichotomy i j with hlt | rfl | hgt
  · exact hlt
  · obtain rfl := Option.some.inj (ha.symm.trans hb)
    exact absurd hless (Nat.lt_irrefl _)
  · exact absurd hless (Nat.lt_asymm (h.fst_lt hb ha hgt))

/-- The next one of the positions is at most as far away as any other one that is not seen, and
nearer than those that are listed before it. -/
lemma nearest_le (h : Standing now unseen)
    (hnext : unseen[nearest now.2 unseen]? = some next) {u : Nat} {r : Position}
    (hu : (u, r) ∈ unseen) :
    now.2.distanceSq next.2 ≤ now.2.distanceSq r ∧
      (u < next.1 → now.2.distanceSq next.2 < now.2.distanceSq r) := by
  have hnumber : ∀ x ∈ distances now.2 unseen, x.isNaN = false := by
    intro x hx
    obtain ⟨b, hb, rfl⟩ := List.mem_map.mp hx
    exact h.number now List.mem_cons_self b hb (h.apart b hb).symm
  obtain ⟨d, hleast⟩ := nearest_isFirstLeast (List.ne_nil_of_mem hu) hnumber
  have hdistance {j : Nat} {q : Nat × Position} (hq : unseen[j]? = some q) :
      (distances now.2 unseen)[j]? = some (now.2.distanceSq q.2) := by
    rw [distances, List.getElem?_map, hq, Option.map_some]
  have hd : now.2.distanceSq next.2 = d :=
    Option.some.inj ((hdistance hnext).symm.trans hleast.get)
  obtain ⟨j, hj⟩ := List.mem_iff_getElem?.mp hu
  have hr := hdistance hj
  rw [hd]
  refine ⟨hleast.le hr, fun hless => hleast.lt hr ?_⟩
  exact h.lt_of_fst_lt hj hnext hless

/-- The tour goes on to a position and does not see it again. -/
lemma hop (h : Standing now unseen) {place : Nat} (hnext : unseen[place]? = some next) :
    Standing next (unseen.eraseIdx place) := by
  constructor
  · exact h.sorted.sublist (List.eraseIdx_sublist unseen place)
  · intro b hb heq
    obtain ⟨j, hj, hb⟩ := List.mem_eraseIdx_iff_getElem?.mp hb
    rcases Nat.lt_or_gt_of_ne hj with hlt | hgt
    · exact Nat.ne_of_lt (h.fst_lt hb hnext hlt) heq
    · exact Nat.ne_of_gt (h.fst_lt hnext hb hgt) heq
  · intro a ha b hb
    apply h.number a
    · exact List.mem_cons_of_mem now (mem_of_mem_hop hnext ha)
    · exact List.mem_of_mem_eraseIdx hb

end Standing

/-- What a list starts with is seen before a place in it or stands at that place. -/
lemma ne_head_of_split {xs front back : List Nat} {x i u : Nat}
    (hsplit : x :: xs = front ++ i :: back) (hfront : u ∉ front) (hi : u ≠ i) : u ≠ x := by
  cases front with
  | nil =>
    cases hsplit
    exact hi
  | cons y front =>
    cases hsplit
    exact List.ne_of_not_mem_cons hfront

/-- At each step of the rest of a tour, the next position is at most as far away as any other one
that is not seen yet, and nearer than those that are listed before it. -/
lemma visit_greedy (rounds : Nat) {now : Nat × Position} (hrounds : unseen.length = rounds)
    (h : Standing now unseen) {front back : List Nat} {i j : Nat}
    (hsplit : now.1 :: visit now.2 rounds unseen = front ++ i :: j :: back) :
    ∃ p q, (i, p) ∈ now :: unseen ∧ (j, q) ∈ unseen ∧
      ∀ u r, (u, r) ∈ unseen → u ∉ front → u ≠ i →
        p.distanceSq q ≤ p.distanceSq r ∧ (u < j → p.distanceSq q < p.distanceSq r) := by
  induction rounds generalizing now unseen front with
  | zero =>
    have hlength := congrArg List.length hsplit
    simp [visit] at hlength
    omega
  | succ rounds ih =>
    obtain ⟨k, next, hget, hrest, hvisit⟩ := visit_succ now.2 hrounds
    rw [hvisit] at hsplit
    -- The step that is looked at is the next one, or one of the tour from the next position on.
    cases front with
    | nil =>
      cases hsplit
      refine ⟨now.2, next, List.mem_cons_self, List.mem_of_getElem? hget, ?_⟩
      intro u r hu _ _
      exact h.nearest_le hget hu
    | cons first front =>
      obtain ⟨-, hsplit⟩ := List.cons.inj hsplit
      obtain ⟨p, q, hp, hq, hnearest⟩ := ih hrest (h.hop hget) hsplit
      refine ⟨p, q, List.mem_cons_of_mem now (mem_of_mem_hop hget hp),
        List.mem_of_mem_eraseIdx hq, ?_⟩
      intro u r hu hfront hi
      have hfront' : u ∉ front := fun hu => hfront (List.mem_cons_of_mem first hu)
      have hleft := mem_eraseIdx_of_ne hget hu (ne_head_of_split hsplit hfront' hi)
      exact hnearest u r hleft hfront' hi

/-! ### Whole tours -/

variable {ps rest : List Position} {p : Position}

/-- The positions behind the first one, by their indices. -/
lemma mem_behind_first {u : Nat} {r : Position} :
    (u, r) ∈ (rest.zipIdx 1).map (fun x => (x.2, x.1)) ↔ 0 < u ∧ (p :: rest)[u]? = some r := by
  have hitem : (u, r) ∈ (rest.zipIdx 1).map (fun x => (x.2, x.1)) ↔ (r, u) ∈ rest.zipIdx 1 := by
    simp
  rw [hitem, List.mk_mem_zipIdx_iff_le_and_getElem?_sub]
  cases u with
  | zero => simp
  | succ u => simp

/-- The distance between any two positions of a list is a number. -/
def AllComparable (ps : List Position) : Prop :=
  ∀ (i : Nat) (p : Position), ps[i]? = some p → ∀ (j : Nat) (q : Position), ps[j]? = some q →
    i ≠ j → (p.distanceSq q).isNaN = false

lemma standing_at_first (h : AllComparable (p :: rest)) :
    Standing (0, p) ((rest.zipIdx 1).map fun x => (x.2, x.1)) := by
  constructor
  · rw [← List.pairwise_map (f := Prod.fst) (R := (· < ·)), map_fst_zipIdx]
    exact List.pairwise_lt_range'
  · rintro ⟨u, r⟩ hu
    exact Nat.ne_of_gt (mem_behind_first (p := p).mp hu).1
  · rintro ⟨i, a⟩ ha ⟨j, b⟩ hb hne
    have hj := (mem_behind_first (p := p).mp hb).2
    rcases List.mem_cons.mp ha with hfirst | ha
    · cases hfirst
      exact h 0 p rfl j b hj hne
    · exact h i a (mem_behind_first.mp ha).2 j b hj hne

/-- A tour comes to every position once, it starts at the first one, and no round of it is without
a position to go to. If all distances are numbers, each step leads to a position that is at most as
far away as any other one that has not been seen yet, and nearer than those of them that are listed
before it. -/
theorem order_greedy (ps : List Position) :
    order? ps = some (order ps) ∧ (order ps).Perm (List.range ps.length) ∧
      (ps ≠ [] → (order ps).head? = some 0) ∧
      (AllComparable ps → ∀ front i j back, order ps = front ++ i :: j :: back →
        ∃ p q, ps[i]? = some p ∧ ps[j]? = some q ∧
          ∀ u r, ps[u]? = some r → u ∉ front → u ≠ i →
            p.distanceSq q ≤ p.distanceSq r ∧ (u < j → p.distanceSq q < p.distanceSq r)) := by
  refine ⟨order?_eq ps, order_perm ps, ?_, ?_⟩
  · intro hps
    obtain ⟨p, rest, rfl⟩ := List.exists_cons_of_ne_nil hps
    rfl
  · intro hcomparable front i j back hsplit
    cases ps with
    | nil => simp [order] at hsplit
    | cons first rest =>
      obtain ⟨p, q, hp, hq, hnearest⟩ :=
        visit_greedy rest.length (by simp) (standing_at_first hcomparable) hsplit
      refine ⟨p, q, ?_, (mem_behind_first.mp hq).2, ?_⟩
      · rcases List.mem_cons.mp hp with hfirst | hp
        · cases hfirst
          rfl
        · exact (mem_behind_first.mp hp).2
      · intro u r hu hfront hi
        have hpos : 0 < u := Nat.pos_of_ne_zero (ne_head_of_split hsplit hfront hi)
        exact hnearest u r (mem_behind_first.mpr ⟨hpos, hu⟩) hfront hi

/-- The first position, one that is infinitely far away, and two that are equally near. -/
def farAndNear : List Position :=
  [⟨0.0, 0.0⟩, ⟨1.0 / 0.0, 0.0⟩, ⟨-1.0, 0.0⟩, ⟨1.0, 0.0⟩]

/-- The first step leads to the third position, though the fourth one is as near. -/
theorem order_greedy_farAndNear :
    order farAndNear = [0, 2, 3, 1] ∧ AllComparable farAndNear ∧
      ∃ p q, farAndNear[0]? = some p ∧ farAndNear[2]? = some q ∧
        ∀ u r, farAndNear[u]? = some r → u ≠ 0 →
          p.distanceSq q ≤ p.distanceSq r ∧ (u < 2 → p.distanceSq q < p.distanceSq r) := by
  have horder : order farAndNear = [0, 2, 3, 1] := by decide +kernel
  have hcomparable : AllComparable farAndNear := by
    have hpairs : ∀ i j : Fin farAndNear.length, i ≠ j →
        (farAndNear[i].distanceSq farAndNear[j]).isNaN = false := by decide
    intro i p hp j q hq hne
    obtain ⟨hi, rfl⟩ := List.getElem?_eq_some_iff.mp hp
    obtain ⟨hj, rfl⟩ := List.getElem?_eq_some_iff.mp hq
    exact hpairs ⟨i, hi⟩ ⟨j, hj⟩ fun heq => hne (congrArg Fin.val heq)
  obtain ⟨p, q, hp, hq, hnearest⟩ :=
    (order_greedy farAndNear).2.2.2 hcomparable [] 0 2 [3, 1] horder
  exact ⟨horder, hcomparable, p, q, hp, hq, fun u r hu => hnearest u r hu (List.not_mem_nil)⟩

end ParticleScene.Tour
