import ParticleScene.Proofs.Text.Blank
import ParticleScene.Proofs.Text.Lines
import ParticleScene.Source.Mesh

/-!
# Vertex lines

A mesh text is read line by line. A line whose first word is `v` gives a vertex or is malformed,
and no other line matters. The text is refused at its first malformed line; otherwise it has one
vertex for each vertex line. So the text that two texts make with a line feed between them is read
as the one and then as the other.
-/

namespace ParticleScene

/-- The same failure, with the line of the mesh text counted anew. -/
def Failure.renumber (f : ℕ → ℕ) : Failure → Failure
  | .malformedMesh line reason => .malformedMesh (f line) reason
  | failure => failure

namespace Mesh

open Text

variable {line : List Char} {ls ls' : List (List Char)} {k : ℕ}

/-! ### Lines -/

/-- The first word of the line is `v`. -/
def IsVertexLine (line : List Char) : Prop :=
  (words line).head? = some ['v']

instance : DecidablePred IsVertexLine := fun line =>
  inferInstanceAs (Decidable ((words line).head? = some ['v']))

/-- The words behind the first. -/
def operands (line : List Char) : List (List Char) :=
  (words line).tail

/-- The word spells a finite number. -/
def IsNumber (word : List Char) : Prop :=
  ∃ x, Number.float? (String.ofList word) = some x ∧ x.isFinite

/-- A vertex line without three numbers behind its first word. -/
def IsMalformed (line : List Char) : Prop :=
  IsVertexLine line ∧
    ((operands line).length < 3 ∨ ∃ word ∈ (operands line).take 3, ¬ IsNumber word)

/-- Why a malformed line is refused: it has too few words, or else one of its three words is the
first that is no finite number. -/
inductive Refuses (line : List Char) : String → Prop
  | missing : (operands line).length < 3 → Refuses line "vertex needs 3 coordinates"
  | invalid (good : List (List Char)) (word : List Char) (others : List (List Char)) :
      3 ≤ (operands line).length → (operands line).take 3 = good ++ word :: others →
      (∀ w ∈ good, IsNumber w) → ¬ IsNumber word →
      Refuses line s!"invalid coordinate '{String.ofList word}'"

/-- The three words behind the first are the coordinates of a vertex. -/
def Spells (line : List Char) (v : Vertex) : Prop :=
  ∃ x y z, (operands line).take 3 = [x, y, z] ∧ Number.float? (String.ofList x) = some v.x ∧
    Number.float? (String.ofList y) = some v.y ∧ Number.float? (String.ofList z) = some v.z

/-- What may become of a line. -/
inductive Reading (line : List Char) : Except String (Option Vertex) → Prop
  | passedOver : ¬ IsVertexLine line → Reading line (.ok none)
  | vertex (v : Vertex) : IsVertexLine line → ¬ IsMalformed line → Spells line v →
      Reading line (.ok (some v))
  | refused (reason : String) : IsMalformed line → Refuses line reason →
      Reading line (.error reason)

lemma coordinate_cases (word : List Char) :
    (∃ x, coordinate word = .ok x ∧ Number.float? (String.ofList word) = some x ∧ IsNumber word) ∨
    (coordinate word = .error s!"invalid coordinate '{String.ofList word}'" ∧ ¬ IsNumber word) := by
  rw [coordinate]
  cases h : (Number.float? (String.ofList word)).filter Float.isFinite with
  | some x =>
    obtain ⟨hx, hfinite⟩ := Option.filter_eq_some_iff.mp h
    exact .inl ⟨x, rfl, hx, x, hx, hfinite⟩
  | none =>
    refine .inr ⟨rfl, fun ⟨x, hx, hfinite⟩ => ?_⟩
    exact Option.filter_eq_none_iff.mp h x hx hfinite

/-- The words of a vertex line are read in their order, and the first that is no finite number is
the one that is named. -/
lemma reading_of_three {x y z : List Char} {rest : List (List Char)}
    (h : words line = ['v'] :: x :: y :: z :: rest) :
    Reading line (do
      let x ← coordinate x
      let y ← coordinate y
      let z ← coordinate z
      return some { x, y, z }) := by
  have hvertex : IsVertexLine line := by rw [IsVertexLine, h]; rfl
  have hthree : (operands line).take 3 = [x, y, z] := by rw [operands, h]; rfl
  have hlength : 3 ≤ (operands line).length := by rw [operands, h]; simp
  have hrefused (good : List (List Char)) (word : List Char) (others : List (List Char))
      (hsplit : [x, y, z] = good ++ word :: others) (hgood : ∀ w ∈ good, IsNumber w)
      (hword : ¬ IsNumber word) :
      Reading line (.error s!"invalid coordinate '{String.ofList word}'") := by
    have hmem : word ∈ (operands line).take 3 := by simp [hthree, hsplit]
    refine .refused _ ⟨hvertex, .inr ⟨word, hmem, hword⟩⟩ ?_
    exact .invalid good word others hlength (hthree.trans hsplit) hgood hword
  obtain ⟨a, ha, hax, hxn⟩ | ⟨ha, hxn⟩ := coordinate_cases x
  · obtain ⟨b, hb, hby, hyn⟩ | ⟨hb, hyn⟩ := coordinate_cases y
    · obtain ⟨c, hc, hcz, hzn⟩ | ⟨hc, hzn⟩ := coordinate_cases z
      · rw [ha, hb, hc]
        refine .vertex ⟨a, b, c⟩ hvertex ?_ ⟨x, y, z, hthree, hax, hby, hcz⟩
        rintro ⟨-, hshort | ⟨word, hword, hbad⟩⟩
        · omega
        · rw [hthree] at hword
          simp at hword
          obtain rfl | rfl | rfl := hword <;> contradiction
      · rw [ha, hb, hc]
        exact hrefused [x, y] z [] rfl (by simp [hxn, hyn]) hzn
    · rw [ha, hb]
      exact hrefused [x] y [z] rfl (by simp [hxn]) hyn
  · rw [ha]
    exact hrefused [] x [y, z] rfl (by simp) hxn

lemma reading_lineVertex (line : List Char) : Reading line (lineVertex line) := by
  unfold lineVertex
  split
  · exact reading_of_three ‹_›
  · rename_i rest hshort hwords
    have hvertex : IsVertexLine line := by rw [IsVertexLine, hwords]; rfl
    have hlength : (operands line).length < 3 := by
      rw [operands, hwords]
      match rest, hshort with
      | [], _ => decide
      | [_], _ => simp
      | [_, _], _ => simp
      | x :: y :: z :: rest, hshort => exact absurd rfl (hshort x y z rest)
    exact .refused _ ⟨hvertex, .inl hlength⟩ (.missing hlength)
  · rename_i hthree hfew
    refine .passedOver fun h => ?_
    obtain ⟨rest, hrest⟩ := List.head?_eq_some_iff.mp h
    exact hfew rest hrest

/-- A line is read by its words alone. -/
lemma lineVertex_eq_of_words_eq {line' : List Char} (h : words line = words line') :
    lineVertex line = lineVertex line' := by
  rw [lineVertex, lineVertex, h]

/-- Words looked up by their place. Nothing when there is no word in a place. -/
def lookUpWords? (ws : List (List Char)) : Option (Except String (Option Vertex)) := do
  let first ← ws[0]?
  if first ≠ ['v'] then some (.ok none)
  else if ws.length < 4 then some (.error "vertex needs 3 coordinates")
  else do
    let x ← ws[1]?
    let y ← ws[2]?
    let z ← ws[3]?
    some do
      let x ← coordinate x
      let y ← coordinate y
      let z ← coordinate z
      return some { x, y, z }

/-- A line read guard by guard: blanks are cut off, and a line that is then empty or a comment is
passed over before a word is looked up. -/
def lookUpVertex? (line : List Char) : Option (Except String (Option Vertex)) :=
  if trimChars line = [] ∨ (trimChars line).head? = some '#' then some (.ok none)
  else lookUpWords? (words (trimChars line))

lemma lineVertex_of_not_isVertexLine (h : ¬ IsVertexLine line) : lineVertex line = .ok none := by
  have hreading := reading_lineVertex line
  generalize lineVertex line = result at hreading ⊢
  cases hreading with
  | passedOver _ => rfl
  | vertex v hvertex _ _ => exact absurd hvertex h
  | refused reason hmalformed _ => exact absurd hmalformed.1 h

/-- Once there is a first word, no look-up fails. -/
lemma lookUpWords?_words (h : words line ≠ []) :
    lookUpWords? (words line) = some (lineVertex line) := by
  rw [lineVertex]
  generalize words line = ws at h ⊢
  match ws with
  | [] => exact absurd rfl h
  | first :: rest =>
    by_cases hv : first = ['v']
    · subst hv
      match rest with
      | [] | [_] | [_, _] => rfl
      | x :: y :: z :: others =>
        have hlength : ¬ others.length + 1 + 1 + 1 + 1 < 4 := by omega
        simp [lookUpWords?, hlength]
    · simp [lookUpWords?, hv]

/-- The guards leave no line without a first word. -/
lemma lookUpVertex?_eq (line : List Char) : lookUpVertex? line = some (lineVertex line) := by
  rw [lookUpVertex?, ← lineVertex_eq_of_words_eq (words_trimChars line)]
  split
  · rename_i hskip
    rw [lineVertex_of_not_isVertexLine]
    intro hvertex
    rw [IsVertexLine, words_trimChars] at hvertex
    obtain hnil | hcomment := hskip
    · rw [← words_trimChars, hnil] at hvertex
      cases hvertex
    · obtain ⟨rest, hrest⟩ := List.head?_eq_some_iff.mp hcomment
      obtain ⟨word, ws, hwords⟩ := exists_words_of_trimChars hrest
      rw [hwords] at hvertex
      simp at hvertex
  · rename_i hread
    apply lookUpWords?_words
    obtain ⟨c, rest, hrest⟩ := List.exists_cons_of_ne_nil (not_or.mp hread).1
    obtain ⟨word, ws, hwords⟩ := exists_words_of_trimChars hrest
    rw [words_trimChars, hwords]
    exact List.cons_ne_nil _ ws

/-! ### Texts -/

@[simp]
lemma readLines_nil (k : ℕ) : readLines k [] = .ok [] := rfl

lemma readLines_cons_ok {vertex : Option Vertex} (h : lineVertex line = .ok vertex) (k : ℕ)
    (ls : List (List Char)) :
    readLines k (line :: ls) = (readLines (k + 1) ls).map (vertex.toList ++ ·) := by
  rw [readLines, h]
  rfl

lemma readLines_cons_error {reason : String} (h : lineVertex line = .error reason) (k : ℕ)
    (ls : List (List Char)) :
    readLines k (line :: ls) = .error (.malformedMesh k reason) := by
  rw [readLines, h]

/-- The line with the given number, counted from one, is the first malformed one. -/
def FirstMalformed (ls : List (List Char)) (number : ℕ) (line : List Char) : Prop :=
  ∃ before after, ls = before ++ line :: after ∧ (∀ l ∈ before, ¬ IsMalformed l) ∧
    IsMalformed line ∧ number = before.length + 1

/-- Lines without a malformed one give one vertex for each vertex line, and lines with one are
refused at the first. -/
lemma readLines_cases (k : ℕ) (ls : List (List Char)) :
    ((∀ line ∈ ls, ¬ IsMalformed line) ∧ ∃ vs, readLines k ls = .ok vs ∧
      List.Forall₂ Spells (ls.filter (IsVertexLine ·)) vs) ∨
    (∃ number line reason, FirstMalformed ls (number + 1) line ∧ Refuses line reason ∧
      readLines k ls = .error (.malformedMesh (k + number) reason)) := by
  induction ls generalizing k with
  | nil => exact .inl ⟨by simp, [], rfl, .nil⟩
  | cons line ls ih =>
    cases hline : lineVertex line with
    | error reason =>
      have hreading := reading_lineVertex line
      rw [hline] at hreading
      cases hreading with
      | refused _ hmalformed hrefuses =>
        refine .inr ⟨0, line, reason, ⟨[], ls, rfl, by simp, hmalformed, rfl⟩, hrefuses, ?_⟩
        exact readLines_cons_error hline k ls
    | ok vertex =>
      have hreading := reading_lineVertex line
      rw [hline] at hreading
      have hgood : ¬ IsMalformed line := by
        cases hreading with
        | passedOver hother => exact fun h => hother h.1
        | vertex _ _ hgood _ => exact hgood
      rw [readLines_cons_ok hline]
      obtain ⟨hls, vs, hvs, hspells⟩ | ⟨number, bad, reason, hfirst, hrefuses, hread⟩ := ih (k + 1)
      · refine .inl ⟨List.forall_mem_cons.mpr ⟨hgood, hls⟩, vertex.toList ++ vs, ?_, ?_⟩
        · rw [hvs]
          rfl
        · cases hreading with
          | passedOver hother => simpa [hother] using hspells
          | vertex v hvertex _ hv => simpa [hvertex] using ⟨hv, hspells⟩
      · obtain ⟨before, after, rfl, hbefore, hbad, hnumber⟩ := hfirst
        refine .inr ⟨number + 1, bad, reason, ⟨line :: before, after, rfl, ?_, hbad, ?_⟩,
          hrefuses, ?_⟩
        · exact List.forall_mem_cons.mpr ⟨hgood, hbefore⟩
        · rw [hnumber, List.length_cons]
        · rw [hread, Nat.add_assoc, Nat.add_comm 1]
          rfl

lemma readLines_append (k : ℕ) (ls ls' : List (List Char)) :
    readLines k (ls ++ ls') =
      (readLines k ls).bind fun vs => (readLines (k + ls.length) ls').map (vs ++ ·) := by
  induction ls generalizing k with
  | nil => cases h : readLines k ls' <;> simp [Except.bind, Except.map, h]
  | cons line ls ih =>
    rw [List.cons_append]
    cases hline : lineVertex line with
    | error reason =>
      rw [readLines_cons_error hline, readLines_cons_error hline]
      rfl
    | ok vertex =>
      rw [readLines_cons_ok hline, readLines_cons_ok hline, ih, List.length_cons,
        Nat.add_right_comm, Nat.add_assoc k]
      cases readLines (k + 1) ls with
      | error failure => rfl
      | ok vs =>
        simp only [Except.bind, Except.map]
        cases readLines (k + (ls.length + 1)) ls' <;> simp

/-- Where the count begins shows in the number of the line and in nothing else. -/
lemma readLines_add (k n : ℕ) (ls : List (List Char)) :
    readLines (k + n) ls = (readLines k ls).mapError (Failure.renumber (· + n)) := by
  induction ls generalizing k with
  | nil => rfl
  | cons line ls ih =>
    cases hline : lineVertex line with
    | error reason =>
      rw [readLines_cons_error hline, readLines_cons_error hline]
      rfl
    | ok vertex =>
      rw [readLines_cons_ok hline, readLines_cons_ok hline, Nat.add_right_comm, ih]
      cases readLines (k + 1) ls <;> rfl

/-- Without their numbers, only vertex lines matter. -/
lemma readLines_filter (k k' : ℕ) (ls : List (List Char)) :
    (readLines k ls).mapError (Failure.renumber fun _ => 0) =
      (readLines k' (ls.filter (IsVertexLine ·))).mapError (Failure.renumber fun _ => 0) := by
  induction ls generalizing k k' with
  | nil => rfl
  | cons line ls ih =>
    by_cases hvertex : IsVertexLine line
    · rw [List.filter_cons_of_pos (by simpa using hvertex)]
      cases hline : lineVertex line with
      | error reason =>
        rw [readLines_cons_error hline, readLines_cons_error hline]
        rfl
      | ok vertex =>
        rw [readLines_cons_ok hline, readLines_cons_ok hline]
        have h := ih (k + 1) (k' + 1)
        generalize readLines (k + 1) ls = r at h ⊢
        generalize readLines (k' + 1) _ = r' at h ⊢
        cases r <;> cases r' <;> simp_all [Except.mapError, Except.map]
    · rw [List.filter_cons_of_neg (by simpa using hvertex),
        readLines_cons_ok (lineVertex_of_not_isVertexLine hvertex), ← ih (k + 1) k']
      cases readLines (k + 1) ls <;> rfl

/-- The carriage return of a line end is a blank. -/
lemma words_closeLine_reverse (s : List Char) : words (closeLine s.reverse) = words s := by
  rw [closeLine.eq_def]
  split
  · rename_i rest hs
    rw [List.reverse_eq_iff, List.reverse_cons] at hs
    rw [hs, words_append_blank (by decide)]
  · rw [List.reverse_reverse]

/-- A line feed at the end of a text adds no vertex line, and takes from the last line nothing but
a blank. -/
lemma readLines_lineFeed (k : ℕ) (s : List Char) :
    readLines k (lineChars (s ++ ['\n'])) = readLines k (lineChars s) := by
  obtain ⟨before, last, hs, hfeed⟩ := exists_lineChars_lineFeed s
  have hlast (n : ℕ) :
      readLines n [closeLine last.reverse] = readLines n (if last = [] then [] else [last]) := by
    split
    · subst last
      rfl
    · rw [readLines, lineVertex_eq_of_words_eq (words_closeLine_reverse last), ← readLines]
  rw [hs, hfeed, readLines_append, readLines_append]
  simp only [hlast]

lemma readLines_append_lineFeed (s t : List Char) :
    readLines 1 (lineChars (s ++ '\n' :: t)) = (readLines 1 (lineChars s)).bind fun vs =>
      ((readLines 1 (lineChars t)).map (vs ++ ·)).mapError
        (Failure.renumber (· + (s.count '\n' + 1))) := by
  have hlength := length_linesFrom [] [] s
  rw [List.length_nil, Nat.zero_add] at hlength
  rw [lineChars, linesFrom_append_lineFeed, readLines_append, hlength, readLines_add]
  change (readLines 1 (lineChars (s ++ ['\n']))).bind _ = _
  rw [readLines_lineFeed]
  cases readLines 1 (lineChars t) <;> rfl

/-! ### Results -/

lemma ofText_eq (text : String) :
    ofText text = (readLines 1 (lineChars text.toList)).map fun vs => { vertices := vs } := by
  rw [ofText]
  cases readLines 1 (lineChars text.toList) <;> rfl

/-- The text is refused at the line with the given number, for the given reason. -/
def FailsAt (text : String) (number : ℕ) (reason : String) : Prop :=
  ofText text = .error (.malformedMesh number reason)

/-- The text has the given vertices. -/
def HasVertices (text : String) (vs : List Vertex) : Prop :=
  ofText text = .ok { vertices := vs }

lemma failsAt_iff {text : String} {number : ℕ} {reason : String} :
    FailsAt text number reason ↔
      readLines 1 (lineChars text.toList) = .error (.malformedMesh number reason) := by
  rw [FailsAt, ofText_eq]
  cases readLines 1 (lineChars text.toList) <;> simp [Except.map]

lemma hasVertices_iff {text : String} {vs : List Vertex} :
    HasVertices text vs ↔ readLines 1 (lineChars text.toList) = .ok vs := by
  rw [HasVertices, ofText_eq]
  cases readLines 1 (lineChars text.toList) <;> simp [Except.map]

/-- A text fails at its first malformed line, or has one vertex for each vertex line. -/
lemma ofText_cases (text : String) :
    ((∃ line ∈ lineChars text.toList, IsMalformed line) ∧ ∃ number line reason,
      FirstMalformed (lineChars text.toList) number line ∧ Refuses line reason ∧
      FailsAt text number reason) ∨
    ((∀ line ∈ lineChars text.toList, ¬ IsMalformed line) ∧ ∃ vs, HasVertices text vs ∧
      List.Forall₂ Spells ((lineChars text.toList).filter (IsVertexLine ·)) vs) := by
  obtain ⟨hgood, vs, hread, hspells⟩ | ⟨number, line, reason, hfirst, hrefuses, hread⟩ :=
    readLines_cases 1 (lineChars text.toList)
  · exact .inr ⟨hgood, vs, hasVertices_iff.mpr hread, hspells⟩
  · have hmem : line ∈ lineChars text.toList := by
      obtain ⟨before, after, hsplit, -⟩ := hfirst
      simp [hsplit]
    have hbad : IsMalformed line := by
      obtain ⟨-, -, -, -, hbad, -⟩ := hfirst
      exact hbad
    rw [Nat.add_comm] at hread
    exact .inl ⟨⟨line, hmem, hbad⟩, number + 1, line, reason, hfirst, hrefuses,
      failsAt_iff.mpr hread⟩

lemma fails_iff (text : String) :
    (∃ failure, ofText text = .error failure) ↔
      ∃ line ∈ lineChars text.toList, IsMalformed line := by
  obtain ⟨hbad, number, line, reason, -, -, hfails⟩ | ⟨hgood, vs, hvertices, -⟩ := ofText_cases text
  · exact iff_of_true ⟨_, hfails⟩ hbad
  · refine iff_of_false ?_ fun ⟨line, hline, hbad⟩ => hgood line hline hbad
    rintro ⟨failure, hfailure⟩
    rw [hvertices] at hfailure
    cases hfailure

section

variable {a b : String} {number : ℕ} {reason : String} {vs vs' : List Vertex}

lemma readLines_join (a b : String) :
    readLines 1 (lineChars (a ++ "\n" ++ b).toList) =
      (readLines 1 (lineChars a.toList)).bind fun vs =>
        ((readLines 1 (lineChars b.toList)).map (vs ++ ·)).mapError
          (Failure.renumber (· + (a.toList.count '\n' + 1))) := by
  have htext : (a ++ "\n" ++ b).toList = a.toList ++ '\n' :: b.toList := by simp
  rw [htext, readLines_append_lineFeed]

lemma FailsAt.join_left (h : FailsAt a number reason) (b : String) :
    FailsAt (a ++ "\n" ++ b) number reason := by
  rw [failsAt_iff] at h ⊢
  rw [readLines_join, h]
  rfl

lemma FailsAt.join_right (ha : HasVertices a vs) (h : FailsAt b number reason) :
    FailsAt (a ++ "\n" ++ b) (number + 1 + a.toList.count '\n') reason := by
  rw [hasVertices_iff] at ha
  rw [failsAt_iff] at h ⊢
  rw [readLines_join, ha, h, Nat.add_assoc, Nat.add_comm 1]
  rfl

lemma HasVertices.join (ha : HasVertices a vs) (hb : HasVertices b vs') :
    HasVertices (a ++ "\n" ++ b) (vs ++ vs') := by
  rw [hasVertices_iff] at ha hb ⊢
  rw [readLines_join, ha, hb]
  rfl

/-- Texts with the same vertex lines have the same vertices, or fail for the same reason. -/
lemma ofText_eq_of_vertexLines_eq
    (h : (lineChars a.toList).filter (IsVertexLine ·) =
      (lineChars b.toList).filter (IsVertexLine ·)) :
    (ofText a).mapError (Failure.renumber fun _ => 0) =
      (ofText b).mapError (Failure.renumber fun _ => 0) := by
  have hread := readLines_filter 1 1 (lineChars a.toList)
  rw [h, ← readLines_filter 1] at hread
  rw [ofText_eq, ofText_eq]
  generalize readLines 1 (lineChars a.toList) = r at hread ⊢
  generalize readLines 1 (lineChars b.toList) = r' at hread ⊢
  cases r <;> cases r' <;> simp_all [Except.mapError, Except.map]

end

/-- Mesh texts are read line by line. Two texts with a line feed between them fail where the first
fails, or else where the second fails, whose lines are then counted on from those of the first; and
if neither fails, the vertices of the first are followed by those of the second.

A text fails if and only if some vertex line is malformed, and then at the first such line;
otherwise it has one vertex for each vertex line, in order. No other line matters, and no line is
searched for a word that it does not have. -/
theorem ofText_lineByLine (a b : String) :
    (∀ number reason, FailsAt a number reason → FailsAt (a ++ "\n" ++ b) number reason) ∧
    (∀ vs, HasVertices a vs →
      (∀ number reason, FailsAt b number reason →
        FailsAt (a ++ "\n" ++ b) (number + 1 + a.toList.count '\n') reason) ∧
      ∀ vs', HasVertices b vs' → HasVertices (a ++ "\n" ++ b) (vs ++ vs')) ∧
    ((∃ failure, ofText a = .error failure) ↔
      ∃ line ∈ lineChars a.toList, IsMalformed line) ∧
    ((∃ line ∈ lineChars a.toList, IsMalformed line) → ∃ number line reason,
      FirstMalformed (lineChars a.toList) number line ∧ Refuses line reason ∧
      FailsAt a number reason) ∧
    ((∀ line ∈ lineChars a.toList, ¬ IsMalformed line) → ∃ vs, HasVertices a vs ∧
      List.Forall₂ Spells ((lineChars a.toList).filter (IsVertexLine ·)) vs) ∧
    ((lineChars a.toList).filter (IsVertexLine ·) = (lineChars b.toList).filter (IsVertexLine ·) →
      (ofText a).mapError (Failure.renumber fun _ => 0) =
        (ofText b).mapError (Failure.renumber fun _ => 0)) ∧
    ∀ line, lookUpVertex? line = some (lineVertex line) := by
  refine ⟨fun number reason h => h.join_left b, fun vs ha => ⟨fun number reason h => ?_,
    fun vs' hb => ha.join hb⟩, fails_iff a, ?_, ?_, ofText_eq_of_vertexLines_eq, lookUpVertex?_eq⟩
  · exact h.join_right ha
  · intro ⟨line, hline, hbad⟩
    obtain ⟨-, hfails⟩ | ⟨hgood, -⟩ := ofText_cases a
    · exact hfails
    · exact absurd hbad (hgood line hline)
  · intro hgood
    obtain ⟨⟨line, hline, hbad⟩, -⟩ | ⟨-, hvertices⟩ := ofText_cases a
    · exact absurd hbad (hgood line hline)
    · exact hvertices

end Mesh

end ParticleScene
