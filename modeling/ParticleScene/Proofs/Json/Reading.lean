import ParticleScene.Proofs.Json.Grammar

/-!
# Every text of a tree is read

The reader accepts the whole grammar: whichever blanks, digits and escapes a text spells a tree
with, the tree is what is read. What follows a number must not go on with it, and the reader needs
at most two steps for each character.
-/

namespace ParticleScene.Json

open Text

/-! ### Digits at the front of a source -/

/-- No digit stands at the front. -/
def NoDigit : Source → Prop
  | some c :: _ => ¬ isAsciiDigit c
  | _ => True

/-- Nothing at the front goes on with a number. -/
def EndsNumber : Source → Prop
  | some c :: _ => ¬ isAsciiDigit c ∧ c ≠ '.' ∧ c ≠ 'e' ∧ c ≠ 'E'
  | _ => True

variable {cs ds after : List Char} {s rest : Source} {n : Literal}

lemma EndsNumber.noDigit (h : EndsNumber s) : NoDigit s := by
  match s with
  | some c :: rest => exact h.1
  | none :: rest => trivial
  | [] => trivial

lemma noDigit_cons {c : Char} (hc : isAsciiDigit c = false) (s : Source) :
    NoDigit (some c :: s) := by
  rw [NoDigit, hc]
  decide

lemma spanDigits_of_noDigit (h : NoDigit s) : spanDigits s = ([], s) := by
  match s with
  | some c :: rest => rw [spanDigits, if_neg h]
  | none :: rest => rfl
  | [] => rfl

lemma spanDigits_append (hds : AreDigits ds) (hs : NoDigit s) :
    spanDigits (ds.map some ++ s) = (ds, s) := by
  induction ds with
  | nil => exact spanDigits_of_noDigit hs
  | cons d ds ih =>
    rw [List.map_cons, List.cons_append, spanDigits, if_pos (hds d List.mem_cons_self),
      ih fun c hc => hds c (List.mem_cons_of_mem d hc)]

/-! ### Parts of a number -/

lemma wholePart?_append (hds : IsWhole ds) (hs : NoDigit s) :
    wholePart? (ds.map some ++ s) = some (ds, s) := by
  rw [wholePart?, spanDigits_append hds.areDigits hs]
  split
  · exact absurd (congrArg Prod.fst ‹_›) hds.ne_nil
  · exact absurd (congrArg Prod.fst ‹_›) (hds.unpadded _ _)
  · rename_i heq
    rw [heq]

lemma fraction?_append (hds : AreDigits after) (hne : after ≠ []) (hs : NoDigit s) :
    fraction? (some '.' :: (after.map some ++ s)) = some (some after, s) := by
  obtain ⟨d, after, rfl⟩ := List.exists_cons_of_ne_nil hne
  rw [fraction?, spanDigits_append hds hs]

/-- No point stands at the front. -/
lemma fraction?_of_ne {c : Char} (hc : c ≠ '.') (s : Source) :
    fraction? (some c :: s) = some (none, some c :: s) := by
  rw [fraction?]
  rintro rest ⟨⟩
  exact hc rfl

lemma fraction?_of_endsNumber (hs : EndsNumber s) : fraction? s = some (none, s) := by
  match s with
  | some c :: rest => exact fraction?_of_ne hs.2.1 rest
  | none :: rest => rfl
  | [] => rfl

lemma signedPower?_unsigned (hds : AreDigits ds) (hne : ds ≠ []) (hs : NoDigit s) :
    signedPower? (ds.map some ++ s) = some ((digitsValue ds : Int), s) := by
  have hspan := spanDigits_append hds hs
  obtain ⟨d, ds, rfl⟩ := List.exists_cons_of_ne_nil hne
  have hd : isAsciiDigit d := hds d List.mem_cons_self
  rw [List.map_cons, List.cons_append] at hspan ⊢
  unfold signedPower?
  split
  rename_i negative s' hsign
  split at hsign
  · rename_i heq
    cases heq
    exact absurd hd (by decide)
  · rename_i heq
    cases heq
    exact absurd hd (by decide)
  · cases hsign
    rw [hspan]
    rfl

lemma signedPower?_signed (hds : AreDigits ds) (hne : ds ≠ []) (hs : NoDigit s) (negative : Bool) :
    signedPower? (some (if negative then '-' else '+') :: (ds.map some ++ s)) =
      some (if negative then -(digitsValue ds : Int) else digitsValue ds, s) := by
  obtain ⟨d, ds, rfl⟩ := List.exists_cons_of_ne_nil hne
  have hspan := spanDigits_append hds hs
  cases negative with
  | false => simp only [signedPower?, hspan, Bool.false_eq_true, if_false]
  | true => simp only [signedPower?, hspan, if_true]

lemma power?_of_mark {mark : Char} {power : Int} (hmark : mark = 'e' ∨ mark = 'E')
    (h : signedPower? s = some (power, rest)) :
    power? (some mark :: s) = some (some power, rest) := by
  rw [power?, if_pos hmark, h]
  rfl

lemma power?_of_endsNumber (hs : EndsNumber s) : power? s = some (none, s) := by
  match s with
  | some c :: rest => rw [power?, if_neg (not_or.mpr hs.2.2)]
  | none :: rest => rfl
  | [] => rfl

lemma ne_of_mark {mark : Char} (h : mark = 'e' ∨ mark = 'E') :
    isAsciiDigit mark = false ∧ mark ≠ '.' := by
  obtain rfl | rfl := h <;> exact ⟨by decide, by decide⟩

/-- A power of ten is read, and neither a digit nor a point stands at its front. -/
lemma SpellsPower.read {power : Option Int} (h : SpellsPower cs power) (hs : EndsNumber s) :
    power? (cs.map some ++ s) = some (power, s) ∧ NoDigit (cs.map some ++ s) ∧
      fraction? (cs.map some ++ s) = some (none, cs.map some ++ s) := by
  cases h with
  | missing => exact ⟨power?_of_endsNumber hs, hs.noDigit, fraction?_of_endsNumber hs⟩
  | unsigned hmark hds hne =>
    obtain ⟨hdigit, hpoint⟩ := ne_of_mark hmark
    exact ⟨power?_of_mark hmark (signedPower?_unsigned hds hne hs.noDigit),
      noDigit_cons hdigit _, fraction?_of_ne hpoint _⟩
  | signed negative hmark hds hne =>
    obtain ⟨hdigit, hpoint⟩ := ne_of_mark hmark
    exact ⟨power?_of_mark hmark (signedPower?_signed hds hne hs.noDigit negative),
      noDigit_cons hdigit _, fraction?_of_ne hpoint _⟩

lemma magnitude?_of_parts {whole : List Char} {s₁ s₂ s₃ s₄ : Source}
    {fraction : Option (List Char)} {power : Option Int} (negative : Bool)
    (hwhole : wholePart? s₁ = some (whole, s₂)) (hfraction : fraction? s₂ = some (fraction, s₃))
    (hpower : power? s₃ = some (power, s₄)) :
    magnitude? negative s₁ =
      some (⟨negative, digitsValue (whole ++ fraction.getD []),
        power.getD 0 - (fraction.getD []).length, fraction.isNone && power.isNone⟩, s₄) := by
  simp only [magnitude?, hwhole, hfraction, hpower, bind, Option.bind]

lemma SpellsMagnitude.read (h : SpellsMagnitude cs n) (hs : EndsNumber s) :
    magnitude? n.negative (cs.map some ++ s) = some (n, s) := by
  obtain @⟨negative, whole, powerChars, fraction, power, hwhole, hfraction, hpower⟩ := h
  obtain ⟨hread, hdigit, hnone⟩ := hpower.read hs
  rw [List.map_append, List.map_append, List.append_assoc, List.append_assoc]
  cases fraction with
  | none => exact magnitude?_of_parts negative (wholePart?_append hwhole hdigit) hnone hread
  | some ds =>
    obtain ⟨hds, hne⟩ := hfraction ds rfl
    exact magnitude?_of_parts negative (wholePart?_append hwhole (noDigit_cons rfl _))
      (fraction?_append hds hne hdigit) hread

/-! ### Strings -/

lemma unescape?_of_mem {letter c : Char} (h : (letter, c) ∈ shortEscapes) :
    letter ≠ 'u' ∧ unescape? letter = some c := by
  have hall : ∀ p ∈ shortEscapes, p.1 ≠ 'u' ∧ unescape? p.1 = some p.2 := by decide
  exact hall _ h

lemma SpellsPiece.read {p : Piece} (h : SpellsPiece cs p) (rest : Source) :
    pieces? (cs.map some ++ rest) = withPiece p (pieces? rest) := by
  cases h with
  | plain hquote hbackslash hcontrol =>
    change pieces? (some _ :: rest) = _
    rw [pieces?, if_neg hquote, if_neg (not_or.mpr ⟨hbackslash, hcontrol⟩)]
    · exact fun _ _ _ _ _ _ => hbackslash
    · exact fun _ _ _ => hbackslash
  | short hmem =>
    obtain ⟨hu, hc⟩ := unescape?_of_mem hmem
    change pieces? (some '\\' :: some _ :: rest) = _
    rw [pieces?, hc]
    rintro a b c d rest' - rfl
    exact hu rfl
  | unit hunit =>
    change pieces? (some '\\' :: some 'u' :: some _ :: some _ :: some _ :: some _ :: rest) = _
    rw [pieces?, hunit]

lemma SpellsPieces.read {ps : List Piece} (h : SpellsPieces cs ps) (rest : Source) :
    pieces? (cs.map some ++ some '"' :: rest) = some (ps, rest) := by
  induction h with
  | nil => rfl
  | cons hp _ ih =>
    rw [List.map_append, List.append_assoc, hp.read, ih]
    rfl

/-! ### Blanks -/

variable {blanks : List Char} {steps : Nat}

lemma skipBlanks_append (h : AreBlanks blanks) (s : Source) :
    skipBlanks (blanks.map some ++ s) = skipBlanks s := by
  induction blanks with
  | nil => rfl
  | cons c blanks ih =>
    rw [List.map_cons, List.cons_append, ← ih fun c hc => h c (List.mem_cons_of_mem _ hc)]
    have hc := h c List.mem_cons_self
    simp only [List.mem_cons, List.not_mem_nil, or_false] at hc
    obtain rfl | rfl | rfl | rfl := hc <;> rfl

lemma skipBlanks_skipBlanks (s : Source) : skipBlanks (skipBlanks s) = skipBlanks s := by
  induction s using skipBlanks.induct with
  | case1 rest ih => exact ih
  | case2 rest ih => exact ih
  | case3 rest ih => exact ih
  | case4 rest ih => exact ih
  | case5 s h₁ h₂ h₃ h₄ =>
    have hsame : skipBlanks s = s := by rw [skipBlanks] <;> assumption
    rw [hsame, hsame]

lemma endsNumber_append (h : AreBlanks blanks) (hs : EndsNumber s) :
    EndsNumber (blanks.map some ++ s) := by
  cases blanks with
  | nil => exact hs
  | cons b blanks =>
    have hb := h b List.mem_cons_self
    simp only [List.mem_cons, List.not_mem_nil, or_false] at hb
    obtain rfl | rfl | rfl | rfl := hb <;> exact ⟨by decide, by decide, by decide, by decide⟩

/-- A value may have blanks before it. -/
lemma value?_skipBlanks (steps : Nat) (s : Source) :
    value? steps (skipBlanks s) = value? steps s := by
  cases steps with
  | zero => rfl
  | succ steps => rw [value?, value?, skipBlanks_skipBlanks]

lemma value?_append_blanks (h : AreBlanks blanks) (steps : Nat) (s : Source) :
    value? steps (blanks.map some ++ s) = value? steps s := by
  rw [← value?_skipBlanks, skipBlanks_append h, value?_skipBlanks]

lemma items?_skipBlanks (steps : Nat) (s : Source) :
    items? steps (skipBlanks s) = items? steps s := by
  cases steps with
  | zero => rfl
  | succ steps => rw [items?, items?, value?_skipBlanks]

lemma members?_skipBlanks (steps : Nat) (s : Source) :
    members? steps (skipBlanks s) = members? steps s := by
  cases steps with
  | zero => rfl
  | succ steps => rw [members?, members?, key?, key?, skipBlanks_skipBlanks]

/-! ### Numbers among values -/

lemma exists_digit_of_magnitude? {negative : Bool} (h : magnitude? negative s = some (n, rest)) :
    ∃ c after, isAsciiDigit c ∧ s = some c :: after := by
  match s with
  | some c :: after =>
    refine ⟨c, after, ?_, rfl⟩
    by_contra hc
    rw [magnitude?, wholePart?, spanDigits, if_neg hc] at h
    cases h
  | none :: after => cases h
  | [] => cases h

lemma skipBlanks_digit {c : Char} (hc : isAsciiDigit c) (rest : Source) :
    skipBlanks (some c :: rest) = some c :: rest := by
  rw [skipBlanks]
  all_goals
    rintro rest' ⟨⟩
    exact absurd hc (by decide)

lemma value?_of_magnitude? (h : magnitude? false s = some (n, rest)) (steps : Nat) :
    value? (steps + 1) s = some (.number n, rest) := by
  obtain ⟨c, after, hc, rfl⟩ := exists_digit_of_magnitude? h
  rw [value?, skipBlanks_digit hc]
  split <;> rename_i heq
  case h_8 => rw [h, Option.map_some]
  all_goals
    cases heq
    exact absurd hc (by decide)

lemma value?_minus (h : magnitude? true s = some (n, rest)) (steps : Nat) :
    value? (steps + 1) (some '-' :: s) = some (.number n, rest) := by
  change (magnitude? true s).map _ = _
  rw [h, Option.map_some]

/-! ### Items and members -/

/-- A text of a value, at any depth of the reader that its length allows. -/
def IsReadAs (text : List Char) (j : Json) : Prop :=
  ∀ steps s, 2 * text.length ≤ steps → EndsNumber s →
    value? steps (text.map some ++ s) = some (j, s)

variable {text : List Char} {j : Json} {next : Source}

/-- A value takes one step at least. -/
lemma isReadAs_of_succ (hne : text ≠ [])
    (h : ∀ steps s, 2 * text.length ≤ steps + 1 → EndsNumber s →
      value? (steps + 1) (text.map some ++ s) = some (j, s)) : IsReadAs text j := by
  intro steps s hsteps hs
  cases steps with
  | zero => exact absurd (List.length_eq_zero_iff.mp (by omega)) hne
  | succ steps => exact h steps s hsteps hs

/-- Blanks around a value are passed over. -/
lemma IsReadAs.read_chars {e : Entry} (h : IsReadAs e.text e.value) (he : e.IsSetApart)
    (hsteps : 2 * e.chars.length ≤ steps) (hs : EndsNumber s) :
    value? steps (e.chars.map some ++ s) = some (e.value, e.after.map some ++ s) := by
  rw [Entry.chars, List.length_append, List.length_append] at hsteps
  rw [Entry.chars, List.map_append, List.map_append, List.append_assoc, List.append_assoc,
    value?_append_blanks he.before]
  exact h steps _ (by omega) (endsNumber_append he.after hs)

lemma endsNumber_cons {c : Char} (hc : c ∈ [',', ']', '\x7d']) (s : Source) :
    EndsNumber (some c :: s) := by
  simp only [List.mem_cons, List.not_mem_nil, or_false] at hc
  obtain rfl | rfl | rfl := hc <;> exact ⟨by decide, by decide, by decide, by decide⟩

lemma joined_cons_cons (text text' : List Char) (texts : List (List Char)) :
    joined (text :: text' :: texts) = text ++ ',' :: joined (text' :: texts) := by
  rw [joined, List.intercalate_cons_cons]
  simp [joined]

lemma items?_last (hvalue : value? steps s = some (j, next))
    (hclose : skipBlanks next = some ']' :: rest) : items? (steps + 1) s = some ([j], rest) := by
  simp only [items?, hvalue, bind, Option.bind, hclose]

lemma items?_cons {items : List Json} {after : Source} (hvalue : value? steps s = some (j, next))
    (hcomma : skipBlanks next = some ',' :: after)
    (hnext : items? steps after = some (items, rest)) :
    items? (steps + 1) s = some (j :: items, rest) := by
  simp only [items?, hvalue, bind, Option.bind, hcomma, hnext, Option.map_some]

/-- The items of an array are read up to its closing bracket. -/
lemma items?_joined {entries : List Entry} (hapart : ∀ e ∈ entries, e.IsSetApart)
    (hread : ∀ e ∈ entries, IsReadAs e.text e.value) (hne : entries ≠ []) {closing : List Char}
    (hclosing : AreBlanks closing)
    (hsteps : 2 * (joined (entries.map Entry.chars)).length + 1 ≤ steps) (s : Source) :
    items? steps ((joined (entries.map Entry.chars)).map some ++
      (closing.map some ++ some ']' :: s)) = some (entries.map Entry.value, s) := by
  induction entries generalizing steps with
  | nil => exact absurd rfl hne
  | cons e entries ih =>
    obtain ⟨steps, rfl⟩ := Nat.exists_eq_add_of_lt (Nat.zero_lt_of_lt hsteps)
    rw [Nat.zero_add] at hsteps ⊢
    obtain ⟨he, hapart⟩ := List.forall_mem_cons.mp hapart
    obtain ⟨hvalue, hread⟩ := List.forall_mem_cons.mp hread
    cases entries with
    | nil =>
      have hchars : joined ([e].map Entry.chars) = e.chars := by simp [joined]
      rw [hchars] at hsteps ⊢
      refine items?_last (hvalue.read_chars he (by omega) ?_) ?_
      · exact endsNumber_append hclosing (endsNumber_cons (by decide) s)
      · rw [skipBlanks_append he.after, skipBlanks_append hclosing]
        rfl
    | cons e' entries =>
      rw [List.map_cons, List.map_cons, joined_cons_cons, ← List.map_cons] at hsteps ⊢
      rw [List.length_append, List.length_cons] at hsteps
      rw [List.map_append, List.map_cons, List.append_assoc, List.cons_append]
      refine items?_cons (hvalue.read_chars he (by omega) ?_) ?_
        (ih hapart hread (by rintro ⟨⟩) (by omega))
      · exact endsNumber_cons (by decide) _
      · rw [skipBlanks_append he.after]
        rfl

lemma Member.key?_chars {m : Member} (hm : m.IsSetApart) (s : Source) :
    key? (m.chars.map some ++ s) = some (m.key, m.entry.chars.map some ++ s) := by
  have hchars : m.chars.map some ++ s = m.before.map some ++ some '"' ::
      (m.quoted.map some ++ some '"' ::
        (m.after.map some ++ some ':' :: (m.entry.chars.map some ++ s))) := by
    simp [Member.chars]
  have hopen (t : Source) : skipBlanks (some '"' :: t) = some '"' :: t := rfl
  have hcolon (t : Source) : skipBlanks (some ':' :: t) = some ':' :: t := rfl
  rw [hchars, key?, skipBlanks_append hm.before, hopen]
  simp only [hm.quoted.read, bind, Option.bind, skipBlanks_append hm.after, hcolon, Member.key]

variable {key : Option String} {value : Source}

lemma members?_last (hkey : key? s = some (key, value))
    (hvalue : value? steps value = some (j, next))
    (hclose : skipBlanks next = some '\x7d' :: rest) :
    members? (steps + 1) s = some ([(key, j)], rest) := by
  simp only [members?, hkey, hvalue, bind, Option.bind, hclose]

lemma members?_cons {after : Source} {members : List (Option String × Json)}
    (hkey : key? s = some (key, value)) (hvalue : value? steps value = some (j, next))
    (hcomma : skipBlanks next = some ',' :: after)
    (hnext : members? steps after = some (members, rest)) :
    members? (steps + 1) s = some ((key, j) :: members, rest) := by
  simp only [members?, hkey, hvalue, bind, Option.bind, hcomma, hnext, Option.map_some]

lemma Member.length_entry_le (m : Member) : m.entry.chars.length ≤ m.chars.length := by
  simp only [Member.chars, List.length_append, List.length_cons]
  omega

/-- The members of an object are read up to its closing bracket. -/
lemma members?_joined {members : List Member} (hapart : ∀ m ∈ members, m.IsSetApart)
    (hread : ∀ m ∈ members, IsReadAs m.entry.text m.entry.value) (hne : members ≠ [])
    {closing : List Char} (hclosing : AreBlanks closing)
    (hsteps : 2 * (joined (members.map Member.chars)).length + 1 ≤ steps) (s : Source) :
    members? steps ((joined (members.map Member.chars)).map some ++
      (closing.map some ++ some '\x7d' :: s)) = some (members.map Member.keyed, s) := by
  induction members generalizing steps with
  | nil => exact absurd rfl hne
  | cons m members ih =>
    obtain ⟨steps, rfl⟩ := Nat.exists_eq_add_of_lt (Nat.zero_lt_of_lt hsteps)
    rw [Nat.zero_add] at hsteps ⊢
    obtain ⟨hm, hapart⟩ := List.forall_mem_cons.mp hapart
    obtain ⟨hvalue, hread⟩ := List.forall_mem_cons.mp hread
    have hlength := m.length_entry_le
    cases members with
    | nil =>
      have hchars : joined ([m].map Member.chars) = m.chars := by simp [joined]
      rw [hchars] at hsteps ⊢
      refine members?_last (m.key?_chars hm _) (hvalue.read_chars hm.entry (by omega) ?_) ?_
      · exact endsNumber_append hclosing (endsNumber_cons (by decide) s)
      · rw [skipBlanks_append hm.entry.after, skipBlanks_append hclosing]
        rfl
    | cons m' members =>
      rw [List.map_cons, List.map_cons, joined_cons_cons, ← List.map_cons] at hsteps ⊢
      rw [List.length_append, List.length_cons] at hsteps
      rw [List.map_append, List.map_cons, List.append_assoc, List.cons_append]
      refine members?_cons (m.key?_chars hm _) (hvalue.read_chars hm.entry (by omega) ?_) ?_
        (ih hapart hread (by rintro ⟨⟩) (by omega))
      · exact endsNumber_cons (by decide) _
      · rw [skipBlanks_append hm.entry.after]
        rfl

/-! ### Whole trees -/

/-- An array opens with its bracket. -/
lemma value?_bracket (steps : Nat) (s : Source) :
    value? (steps + 1) (some '[' :: s) =
      match skipBlanks s with
      | some ']' :: rest => some (.array [], rest)
      | rest => (items? steps rest).map fun (items, rest) => (.array items, rest) := rfl

/-- An object opens with its brace. -/
lemma value?_brace (steps : Nat) (s : Source) :
    value? (steps + 1) (some '\x7b' :: s) =
      match skipBlanks s with
      | some '\x7d' :: rest => some (.object [], rest)
      | rest => (members? steps rest).map fun (members, rest) => (ofMembers members, rest) := rfl

lemma value?_of_items? {items : List Json} (h : items? steps s = some (items, rest)) :
    value? (steps + 1) (some '[' :: s) = some (.array items, rest) := by
  rw [value?_bracket]
  split
  · rename_i after hclose
    -- a closing bracket is no item
    rw [← items?_skipBlanks, hclose] at h
    obtain _ | _ | steps := steps <;> cases h
  · rw [items?_skipBlanks, h]
    rfl

lemma value?_of_members? {members : List (Option String × Json)}
    (h : members? steps s = some (members, rest)) :
    value? (steps + 1) (some '\x7b' :: s) = some (ofMembers members, rest) := by
  rw [value?_brace]
  split
  · rename_i after hclose
    rw [← members?_skipBlanks, hclose] at h
    cases steps <;> cases h
  · rw [members?_skipBlanks, h]
    rfl

lemma SpellsMagnitude.ne_nil (h : SpellsMagnitude cs n) : cs ≠ [] := by
  obtain ⟨negative, hwhole, -, -⟩ := h
  simp [hwhole.ne_nil]

lemma isReadAs_number (h : SpellsMagnitude cs n) :
    IsReadAs ((if n.negative then ['-'] else []) ++ cs) (.number n) := by
  refine isReadAs_of_succ (by simp [h.ne_nil]) fun steps s _ hs => ?_
  have hread := h.read hs
  cases hnegative : n.negative with
  | false =>
    rw [hnegative] at hread
    exact value?_of_magnitude? hread steps
  | true =>
    rw [hnegative] at hread
    exact value?_minus hread steps

lemma isReadAs_string {ps : List Piece} (h : SpellsPieces cs ps) :
    IsReadAs ('"' :: (cs ++ ['"'])) ((assemble? ps).elim .garbled (.string ∘ String.ofList)) := by
  refine isReadAs_of_succ (by rintro ⟨⟩) fun steps s _ _ => ?_
  have hread := h.read s
  rw [List.map_cons, List.map_append, List.cons_append, List.append_assoc]
  change stringValue? (cs.map some ++ some '"' :: s) = _
  rw [stringValue?, hread]
  rfl

lemma isReadAs_array {entries : List Entry} {closing : List Char} (hclosing : AreBlanks closing)
    (hapart : ∀ e ∈ entries, e.IsSetApart) (hread : ∀ e ∈ entries, IsReadAs e.text e.value) :
    IsReadAs ('[' :: (joined (entries.map Entry.chars) ++ closing ++ [']']))
      (.array (entries.map Entry.value)) := by
  refine isReadAs_of_succ (by rintro ⟨⟩) fun steps s hsteps _ => ?_
  simp only [List.length_cons, List.length_append] at hsteps
  simp only [List.map_cons, List.map_append, List.map_nil, List.cons_append, List.append_assoc,
    List.nil_append]
  by_cases hne : entries = []
  · subst hne
    change value? (steps + 1) (some '[' :: (closing.map some ++ some ']' :: s)) = _
    rw [value?_bracket, skipBlanks_append hclosing]
    rfl
  · exact value?_of_items? (items?_joined hapart hread hne hclosing (by omega) s)

lemma isReadAs_object {members : List Member} {closing : List Char} (hclosing : AreBlanks closing)
    (hapart : ∀ m ∈ members, m.IsSetApart)
    (hread : ∀ m ∈ members, IsReadAs m.entry.text m.entry.value) :
    IsReadAs ('\x7b' :: (joined (members.map Member.chars) ++ closing ++ ['\x7d']))
      (ofMembers (members.map Member.keyed)) := by
  refine isReadAs_of_succ (by rintro ⟨⟩) fun steps s hsteps _ => ?_
  simp only [List.length_cons, List.length_append] at hsteps
  simp only [List.map_cons, List.map_append, List.map_nil, List.cons_append, List.append_assoc,
    List.nil_append]
  by_cases hne : members = []
  · subst hne
    change value? (steps + 1) (some '\x7b' :: (closing.map some ++ some '\x7d' :: s)) = _
    rw [value?_brace, skipBlanks_append hclosing]
    rfl
  · exact value?_of_members? (members?_joined hapart hread hne hclosing (by omega) s)

/-- Every text of a tree is read as the tree, at any depth. -/
lemma Spells.isReadAs (h : Spells text j) : IsReadAs text j := by
  induction h with
  | null => exact isReadAs_of_succ (by decide) fun steps s _ _ => rfl
  | true => exact isReadAs_of_succ (by decide) fun steps s _ _ => rfl
  | false => exact isReadAs_of_succ (by decide) fun steps s _ _ => rfl
  | number h => exact isReadAs_number h
  | string h => exact isReadAs_string h
  | array hclosing hapart _ ih => exact isReadAs_array hclosing hapart ih
  | object hclosing hapart _ ih => exact isReadAs_object hclosing hapart ih

/-- The reader accepts every text of the grammar, and gives the tree that the text spells. -/
theorem ofText?_of_isTextOf {text : String} (h : IsTextOf text j) : ofText? text = some j := by
  obtain ⟨e, hapart, hspells, htext, rfl⟩ := h
  have hread : value? (2 * e.chars.length + 2) (e.chars.map some ++ []) =
      some (e.value, e.after.map some ++ []) :=
    hspells.isReadAs.read_chars hapart (by omega) trivial
  rw [List.append_nil, List.append_nil] at hread
  have hblank : skipBlanks (e.after.map some) = [] := by
    rw [← List.append_nil (e.after.map some), skipBlanks_append hapart.after]
    rfl
  rw [ofText?, ofSource?, ← htext, List.length_map, hread]
  simp only [bind, Option.bind, hblank]
  rfl

end ParticleScene.Json
