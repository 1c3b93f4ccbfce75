import ParticleScene.Proofs.Json.Literals
import ParticleScene.Proofs.Json.Reading
import ParticleScene.Proofs.Json.Records
import ParticleScene.Proofs.Json.Strings

/-!
# Trees read back

The printed text of a tree spells the tree, in every layout that sets its parts apart by blanks, as
the compact and the indented one do. So the tree is what is read from it.
-/

namespace ParticleScene.Json

/-! ### Layouts -/

/-- A layout in which blanks set the parts apart. -/
structure Layout.SetsApart (layout : Layout) : Prop where
  newline (depth : Nat) : AreBlanks (layout.newline depth).toList
  colon : ∃ blanks, AreBlanks blanks ∧ layout.colon.toList = ':' :: blanks

lemma Layout.compact_setsApart : Layout.compact.SetsApart where
  newline _ := areBlanks_nil
  colon := ⟨[], areBlanks_nil, rfl⟩

lemma Layout.indented_setsApart : Layout.indented.SetsApart where
  newline depth := by
    rw [indented, Text.toList_pushn]
    refine List.forall_mem_append.mpr ⟨?_, ?_⟩
    · rintro c hc
      cases List.mem_singleton.mp hc
      decide
    · intro c hc
      rw [List.eq_of_mem_replicate hc]
      decide
  colon := ⟨[' '], fun c hc => by
    cases List.mem_singleton.mp hc
    decide, rfl⟩

variable {layout : Layout} {j : Json}

/-- Brackets stand around the items, with blanks before the closing one. -/
lemma Layout.SetsApart.exists_toList_bracket (hlayout : layout.SetsApart) (depth : Nat)
    (left right : String) (texts : List String) :
    ∃ closing, AreBlanks closing ∧ (layout.bracket depth left right texts).toList =
      left.toList ++
        (joined (texts.map fun text => (layout.newline (depth + 1)).toList ++ text.toList) ++
          closing ++ right.toList) := by
  cases texts with
  | nil =>
    refine ⟨[], areBlanks_nil, ?_⟩
    rw [Layout.bracket, String.toList_append]
    rfl
  | cons text texts =>
    refine ⟨(layout.newline depth).toList, hlayout.newline depth, ?_⟩
    rw [Layout.bracket]
    · simp only [String.toList_append, String.toList_intercalate, List.map_map, Function.comp_def,
        List.append_assoc]
      rfl
    · rintro ⟨⟩

lemma printItems_eq_map (layout : Layout) (depth : Nat) (items : List Json) :
    printItems layout depth items = items.map (print layout depth) := by
  induction items with
  | nil => rfl
  | cons j items ih => rw [printItems, ih, List.map_cons]

lemma printMembers_eq_map (layout : Layout) (depth : Nat) (members : List (String × Json)) :
    printMembers layout depth members =
      members.map fun m => quote m.1 ++ layout.colon ++ print layout depth m.2 := by
  induction members with
  | nil => rfl
  | cons m members ih => rw [printMembers, ih, List.map_cons]

/-! ### Whole trees -/

/-- A tree that text can stand for: no string in it is garbled, and each literal shows its kind. -/
inductive Spellable : Json → Prop
  | null : Spellable .null
  | bool (value : Bool) : Spellable (.bool value)
  | number {n : Literal} (h : n.ShowsKind) : Spellable (.number n)
  | string (value : String) : Spellable (.string value)
  | array {items : List Json} (h : ∀ j ∈ items, Spellable j) : Spellable (.array items)
  | object {members : List (String × Json)} (h : ∀ m ∈ members, Spellable m.2) :
    Spellable (.object members)

/-- A printed item, in its place. -/
def Layout.entry (layout : Layout) (depth : Nat) (j : Json) : Entry where
  before := (layout.newline depth).toList
  text := (print layout depth j).toList
  value := j

lemma spells_array (hlayout : layout.SetsApart) {depth : Nat} {items : List Json}
    (h : ∀ j ∈ items, Spells (print layout (depth + 1) j).toList j) :
    Spells (print layout depth (.array items)).toList (.array items) := by
  obtain ⟨closing, hclosing, hchars⟩ :=
    hlayout.exists_toList_bracket depth "[" "]" (printItems layout (depth + 1) items)
  have hspells := @Spells.array (items.map (layout.entry (depth + 1))) closing hclosing
    (by
      intro e he
      obtain ⟨j, -, rfl⟩ := List.mem_map.mp he
      exact ⟨hlayout.newline (depth + 1), areBlanks_nil⟩)
    (by
      intro e he
      obtain ⟨j, hj, rfl⟩ := List.mem_map.mp he
      exact h j hj)
  rw [print, hchars, printItems_eq_map]
  simpa [Function.comp_def, Layout.entry, Entry.chars] using hspells

/-- A printed member, in its place; the blanks behind the colon belong to the value. -/
def Layout.member (layout : Layout) (depth : Nat) (blanks : List Char) (m : String × Json) :
    Member where
  before := (layout.newline depth).toList
  quoted := m.1.toList.flatMap escape
  pieces := m.1.toList.map Piece.char
  entry := { before := blanks, text := (print layout depth m.2).toList, value := m.2 }

lemma Layout.keyed_member (layout : Layout) (depth : Nat) (blanks : List Char) (m : String × Json) :
    (layout.member depth blanks m).keyed = asWritten m := by
  rw [Member.keyed, Member.key, member, assemble?_map_char, Option.map_some, String.ofList_toList,
    asWritten]

lemma spells_object (hlayout : layout.SetsApart) {depth : Nat} {members : List (String × Json)}
    (h : ∀ m ∈ members, Spells (print layout (depth + 1) m.2).toList m.2) :
    Spells (print layout depth (.object members)).toList (.object members) := by
  obtain ⟨closing, hclosing, hchars⟩ :=
    hlayout.exists_toList_bracket depth "\x7b" "\x7d" (printMembers layout (depth + 1) members)
  obtain ⟨blanks, hblanks, hcolon⟩ := hlayout.colon
  have hspells := @Spells.object (members.map (layout.member (depth + 1) blanks)) closing hclosing
    (by
      intro m' hm'
      obtain ⟨m, -, rfl⟩ := List.mem_map.mp hm'
      exact ⟨hlayout.newline (depth + 1), spellsPieces_flatMap_escape m.1.toList, areBlanks_nil,
        hblanks, areBlanks_nil⟩)
    (by
      intro m' hm'
      obtain ⟨m, hm, rfl⟩ := List.mem_map.mp hm'
      exact h m hm)
  rw [List.map_map, List.map_map, Function.comp_def, Function.comp_def] at hspells
  simp only [Layout.keyed_member, ofMembers_eq_object.mpr rfl] at hspells
  rw [print, hchars, printMembers_eq_map]
  simpa [Function.comp_def, Layout.member, Member.chars, Entry.chars, toList_quote, hcolon]
    using hspells

/-- The printed text of a tree spells it. -/
lemma spells_print (hlayout : layout.SetsApart) (hj : Spellable j) (depth : Nat) :
    Spells (print layout depth j).toList j := by
  induction hj generalizing depth with
  | null =>
    rw [print]
    exact .null
  | bool value =>
    cases value with
    | false =>
      rw [print]
      exact .false
    | true =>
      rw [print]
      exact .true
  | number hn =>
    rw [print]
    exact spells_literal hn
  | string value =>
    rw [print]
    exact spells_quote value
  | array _ ih => exact spells_array hlayout fun j hj => ih j hj (depth + 1)
  | object _ ih => exact spells_object hlayout fun m hm => ih m hm (depth + 1)

lemma isTextOf_print (hlayout : layout.SetsApart) (hj : Spellable j) :
    IsTextOf (print layout 0 j) j :=
  ⟨{ text := (print layout 0 j).toList, value := j }, ⟨areBlanks_nil, areBlanks_nil⟩,
    spells_print hlayout hj 0, by simp [Entry.chars], rfl⟩

/-- Text and tree: whoever reads the printed text of a tree gets the tree. -/
theorem ofText?_print (hlayout : layout.SetsApart) (hj : Spellable j) :
    ofText? (print layout 0 j) = some j :=
  ofText?_of_isTextOf (isTextOf_print hlayout hj)

end ParticleScene.Json
