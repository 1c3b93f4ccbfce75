import Mathlib.Data.String.Basic
import Mathlib.Tactic.Lemma
import Mathlib.Tactic.SplitIfs

/-!
# Texts as bytes

Texts are in the order of the bytes that encode them. A part of a text may be named by the numbers
of bytes in front of its two ends; there is no such part if an end lies inside a character. Where
each character takes one byte, bytes and characters are counted alike.
-/

namespace ParticleScene.Text

/-! ### The order of bytes -/

/-- The bytes that encode a text. -/
def bytes (s : String) : List UInt8 :=
  s.toUTF8.data.toList

lemma bytes_eq_flatMap (s : String) : bytes s = s.toList.flatMap String.utf8EncodeChar := by
  rw [bytes, String.toUTF8, ← String.utf8Encode_toList, List.utf8Encode, List.data_toByteArray]

lemma cons_ofNat_lt_cons_ofNat_iff {m n : Nat} {x y : List UInt8} (hm : m < 256) (hn : n < 256) :
    UInt8.ofNat m :: x < UInt8.ofNat n :: y ↔ m < n ∨ m = n ∧ x < y := by
  rw [List.cons_lt_cons_iff, UInt8.lt_iff_toNat_lt, ← UInt8.toNat_inj, UInt8.toNat_ofNat',
    UInt8.toNat_ofNat', Nat.mod_eq_of_lt hm, Nat.mod_eq_of_lt hn]

/-- The bytes of a lesser character are less, whatever follows them. -/
lemma utf8EncodeChar_append_lt {c d : Char} (h : c < d) (x y : List UInt8) :
    String.utf8EncodeChar c ++ x < String.utf8EncodeChar d ++ y := by
  have hcd : c.val.toNat < d.val.toNat := h
  have hd : d.val.toNat < 0x110000 := by
    obtain hsmall | ⟨-, hlarge⟩ := d.valid
    · exact Nat.lt_trans hsmall (by decide)
    · exact hlarge
  -- the bytes hold six bits each, so all quotients are repeated ones by 64
  have hsquare (k : Nat) : k / 4096 = k / 64 / 64 := by omega
  have hcube (k : Nat) : k / 262144 = k / 64 / 64 / 64 := by omega
  unfold String.utf8EncodeChar
  generalize c.val.toNat = m at hcd
  generalize d.val.toNat = n at hcd hd
  simp only [hsquare, hcube]
  split_ifs
  all_goals
    simp (disch := omega) only [List.cons_append, List.nil_append, cons_ofNat_lt_cons_ofNat_iff]
    omega

lemma flatMap_utf8EncodeChar_lt {s t : List Char} (h : s < t) :
    s.flatMap String.utf8EncodeChar < t.flatMap String.utf8EncodeChar := by
  induction s generalizing t with
  | nil =>
    obtain _ | ⟨d, t⟩ := t
    · cases h
    · obtain ⟨b, rest, hd⟩ := List.exists_cons_of_ne_nil (@String.utf8EncodeChar_ne_nil d)
      rw [List.flatMap_nil, List.flatMap_cons, hd]
      exact List.nil_lt_cons b _
  | cons c s ih =>
    obtain _ | ⟨d, t⟩ := t
    · cases h
    · rw [List.flatMap_cons, List.flatMap_cons]
      obtain hcd | ⟨rfl, hst⟩ := List.cons_lt_cons_iff.mp h
      · exact utf8EncodeChar_append_lt hcd _ _
      · exact List.append_left_lt (ih hst)

/-- Texts are in the order of their bytes. -/
lemma bytes_lt_bytes_iff {s t : String} : bytes s < bytes t ↔ s < t := by
  rw [bytes_eq_flatMap, bytes_eq_flatMap, String.lt_iff]
  refine ⟨fun h => ?_, flatMap_utf8EncodeChar_lt⟩
  rcases lt_trichotomy s.toList t.toList with hlt | heq | hgt
  · exact hlt
  · rw [heq] at h
    exact absurd h (List.lt_irrefl _)
  · exact absurd (flatMap_utf8EncodeChar_lt hgt) (List.lt_asymm h)

/-! ### Characters of one byte -/

variable {cs : List Char} {m n : Nat}

lemma utf8Size_eq_one {c : Char} (h : c.toNat < 128) : c.utf8Size = 1 := by
  rw [Char.utf8Size_eq_one_iff, UInt32.le_iff_toNat_le]
  exact Nat.le_of_lt_succ h

lemma utf8ByteSize_ofList (h : ∀ c ∈ cs, c.utf8Size = 1) :
    (String.ofList cs).utf8ByteSize = cs.length := by
  induction cs with
  | nil => rfl
  | cons c cs ih =>
    obtain ⟨hc, hcs⟩ := List.forall_mem_cons.mp h
    rw [← List.singleton_append, String.ofList_append, String.utf8ByteSize_append, ih hcs,
      ← String.singleton_eq_ofList, String.utf8ByteSize_singleton, hc, List.length_append,
      List.length_singleton]

/-! ### Parts between bytes -/

/-- What stands behind the first `n` bytes. -/
def dropBytes? : Nat → List Char → Option (List Char)
  | 0, cs => some cs
  | _ + 1, [] => none
  | n + 1, c :: cs => if c.utf8Size ≤ n + 1 then dropBytes? (n + 1 - c.utf8Size) cs else none

/-- The characters of the first `n` bytes. -/
def takeBytes? : Nat → List Char → Option (List Char)
  | 0, _ => some []
  | _ + 1, [] => none
  | n + 1, c :: cs =>
    if c.utf8Size ≤ n + 1 then (takeBytes? (n + 1 - c.utf8Size) cs).map (c :: ·) else none

/-- The part from one number of bytes to another. -/
def slice? (first last : Nat) (cs : List Char) : Option (List Char) :=
  (dropBytes? first cs).bind (takeBytes? (last - first))

lemma dropBytes?_succ {c : Char} (hc : c.utf8Size = 1) (n : Nat) (cs : List Char) :
    dropBytes? (n + 1) (c :: cs) = dropBytes? n cs := by
  rw [dropBytes?, hc, if_pos (Nat.le_add_left 1 n), Nat.add_sub_cancel]

lemma takeBytes?_succ {c : Char} (hc : c.utf8Size = 1) (n : Nat) (cs : List Char) :
    takeBytes? (n + 1) (c :: cs) = (takeBytes? n cs).map (c :: ·) := by
  rw [takeBytes?, hc, if_pos (Nat.le_add_left 1 n), Nat.add_sub_cancel]

lemma dropBytes?_eq_some (h : ∀ c ∈ cs, c.utf8Size = 1) (hn : n ≤ cs.length) :
    dropBytes? n cs = some (cs.drop n) := by
  induction cs generalizing n with
  | nil =>
    obtain rfl := Nat.le_zero.mp hn
    rfl
  | cons c cs ih =>
    obtain ⟨hc, hcs⟩ := List.forall_mem_cons.mp h
    cases n with
    | zero => rfl
    | succ n =>
      rw [dropBytes?_succ hc, ih hcs (Nat.le_of_succ_le_succ hn)]
      rfl

lemma takeBytes?_eq_some (h : ∀ c ∈ cs, c.utf8Size = 1) (hn : n ≤ cs.length) :
    takeBytes? n cs = some (cs.take n) := by
  induction cs generalizing n with
  | nil =>
    obtain rfl := Nat.le_zero.mp hn
    rfl
  | cons c cs ih =>
    obtain ⟨hc, hcs⟩ := List.forall_mem_cons.mp h
    cases n with
    | zero => rfl
    | succ n =>
      rw [takeBytes?_succ hc, ih hcs (Nat.le_of_succ_le_succ hn)]
      rfl

/-- No slice of characters of one byte goes through a character. -/
lemma slice?_eq_some (h : ∀ c ∈ cs, c.utf8Size = 1) (hm : m ≤ n) (hn : n ≤ cs.length) :
    slice? m n cs = some ((cs.drop m).take (n - m)) := by
  rw [slice?, dropBytes?_eq_some h (Nat.le_trans hm hn), Option.bind_some]
  refine takeBytes?_eq_some (fun c hc => h c (List.mem_of_mem_drop hc)) ?_
  rw [List.length_drop]
  exact Nat.sub_le_sub_right hn m

end ParticleScene.Text
