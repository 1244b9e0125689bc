import MissionScript.Proofs.Formula.Soundness

/-!
The lists around a place in a text. A list is left open by a row of lexemes if no lexeme after its
parenthesis closes it. The lists that wait on a reader's stack are those that the lexemes read so far
leave open, and the operator that the reader has for an error is the innermost of their heads.
-/

namespace MissionScript

/-- By how much a token changes the number of lists that are open. -/
def Token.rise : Token → Int
  | .openList => 1
  | .closeList => -1
  | .quoted _ | .bare _ => 0

/-- How many more lists a row of lexemes opens than it closes. -/
def rise (row : List Lexeme) : Int :=
  (row.map (·.token.rise)).sum

/-- Whether a row of lexemes closes no list but those that it opens. -/
def ClosesOwn (row : List Lexeme) : Prop :=
  ∀ part, part <+: row → 0 ≤ rise part

/-- Whether a row closes the lists that it opens, and no other. -/
structure IsClosed (row : List Lexeme) : Prop where
  closesOwn : ClosesOwn row
  rise_eq_zero : rise row = 0

/-- Whether a row leaves a list open, and what it has in this list. -/
def LeavesOpen (row inside : List Lexeme) : Prop :=
  ∃ before offset, row = before ++ ⟨.openList, offset⟩ :: inside ∧ ClosesOwn inside

/-- Whether none of the lists that a row leaves open has a head. -/
def IsHeadless (row : List Lexeme) : Prop :=
  ∀ word offset inside, ¬LeavesOpen row (⟨.bare word, offset⟩ :: inside)

/-- Whether an operator is the head of the innermost list that a row leaves open, among those that
    have a head. -/
def Encloses (name : String) (row : List Lexeme) : Prop :=
  ∃ offset inside, LeavesOpen row (⟨.bare name.toList, offset⟩ :: inside) ∧ IsHeadless inside

section

variable {row row' inside inside' tail : List Lexeme}

@[simp] theorem rise_nil : rise [] = 0 :=
  rfl

@[simp] theorem rise_cons (l : Lexeme) (row : List Lexeme) :
    rise (l :: row) = l.token.rise + rise row := by
  simp [rise]

@[simp] theorem rise_append (row row' : List Lexeme) : rise (row ++ row') = rise row + rise row' := by
  simp [rise]

theorem ClosesOwn.rise_nonneg (h : ClosesOwn row) : 0 ≤ rise row :=
  h row (List.prefix_refl row)

theorem ClosesOwn.of_prefix (h : ClosesOwn row) (hpart : row' <+: row) : ClosesOwn row' :=
  fun part hpart' => h part (hpart'.trans hpart)

theorem ClosesOwn.append (h : ClosesOwn row) (h' : ClosesOwn row') : ClosesOwn (row ++ row') := by
  intro part hpart
  rcases List.prefix_or_prefix_of_prefix hpart (List.prefix_append row row') with
    hshort | ⟨rest, rfl⟩
  · exact h part hshort
  · have hrest := h' rest ((List.prefix_append_right_inj row).1 hpart)
    have hrow := h.rise_nonneg
    rw [rise_append]
    omega

/-- A lexeme that closes no list. -/
theorem closesOwn_singleton {l : Lexeme} (hl : 0 ≤ l.token.rise) : ClosesOwn [l] := by
  intro part hpart
  rcases List.prefix_concat_iff.1 (show part <+: [] ++ [l] from hpart) with rfl | hnil
  · simpa using hl
  · rw [List.prefix_nil.1 hnil, rise_nil]

theorem closesOwn_openList (offset : Nat) : ClosesOwn [⟨.openList, offset⟩] :=
  closesOwn_singleton Int.one_nonneg

theorem isClosed_nil : IsClosed [] := by
  refine ⟨fun part hpart => ?_, rise_nil⟩
  rw [List.prefix_nil.1 hpart, rise_nil]

theorem IsClosed.append (h : IsClosed row) (h' : IsClosed row') : IsClosed (row ++ row') := by
  refine ⟨h.closesOwn.append h'.closesOwn, ?_⟩
  rw [rise_append, h.rise_eq_zero, h'.rise_eq_zero, add_zero]

theorem isClosed_flatten {rows : List (List Lexeme)} (h : ∀ row ∈ rows, IsClosed row) :
    IsClosed rows.flatten := by
  induction rows with
  | nil => exact isClosed_nil
  | cons row rows ih =>
    obtain ⟨hrow, hrows⟩ := List.forall_mem_cons.1 h
    exact hrow.append (ih hrows)

theorem isClosed_word (word : List Char) (offset : Nat) : IsClosed [⟨.bare word, offset⟩] :=
  ⟨closesOwn_singleton le_rfl, rfl⟩

/-- A list with its parentheses. -/
theorem IsClosed.list (h : IsClosed row) (offset closeOffset : Nat) :
    IsClosed (⟨.openList, offset⟩ :: (row ++ [⟨.closeList, closeOffset⟩])) := by
  have hrise : rise (⟨.openList, offset⟩ :: (row ++ [⟨.closeList, closeOffset⟩])) = 0 := by
    simp [h.rise_eq_zero, Token.rise]
  refine ⟨fun part hpart => ?_, hrise⟩
  rw [← List.cons_append] at hpart
  rcases List.prefix_concat_iff.1 hpart with rfl | hshort
  · rw [List.cons_append, hrise]
  · exact (closesOwn_openList offset).append h.closesOwn part hshort

/-- An expression is closed. -/
theorem Derives.isClosed {known : String → Bool} {options : ParseOptions} {n : Node}
    (h : Derives known options row n) : IsClosed row := by
  induction h with
  | quoted s offset => exact ⟨closesOwn_singleton le_rfl, rfl⟩
  | word offset _ => exact isClosed_word _ offset
  | @list name args offset headOffset closeOffset _ _ _ ih =>
    have hargs : IsClosed (args.map (·.1)).flatten :=
      isClosed_flatten (List.forall_mem_map.2 ih)
    exact ((isClosed_word name.toList headOffset).append hargs).list offset closeOffset

/-- A list that is left open begins in the second part of a row or in the first. -/
theorem LeavesOpen.append_cases (h : LeavesOpen (row ++ tail) inside) :
    LeavesOpen tail inside ∨ ∃ own, inside = own ++ tail ∧ LeavesOpen row own := by
  obtain ⟨before, offset, hrow, hinside⟩ := h
  rcases List.append_eq_append_iff.1 hrow with ⟨mid, rfl, rfl⟩ | ⟨mid, rfl, hmid⟩
  · exact Or.inl ⟨mid, offset, rfl, hinside⟩
  · rcases List.cons_eq_append_iff.1 hmid with ⟨rfl, rfl⟩ | ⟨own, rfl, rfl⟩
    · exact Or.inl ⟨[], offset, rfl, hinside⟩
    · exact Or.inr ⟨own, rfl, before, offset, rfl, hinside.of_prefix (List.prefix_append own tail)⟩

/-- A closed row leaves no list open. -/
theorem IsClosed.not_leavesOpen (h : IsClosed row) : ¬LeavesOpen row inside := by
  rintro ⟨before, offset, rfl, hinside⟩
  have hbefore := h.closesOwn before (List.prefix_append before _)
  have hrise := h.rise_eq_zero
  have hnonneg := hinside.rise_nonneg
  simp only [rise_append, rise_cons, Token.rise] at hrise
  omega

theorem IsClosed.leavesOpen_of_append (h : IsClosed row) (hopen : LeavesOpen (row ++ tail) inside) :
    LeavesOpen tail inside := by
  rcases hopen.append_cases with htail | ⟨own, -, hrow⟩
  · exact htail
  · exact absurd hrow h.not_leavesOpen

theorem IsClosed.isHeadless (h : IsClosed row) : IsHeadless row :=
  fun _ _ _ => h.not_leavesOpen

/-- A list that has just been opened has no head. -/
theorem IsHeadless.opened (h : IsHeadless row) (offset : Nat) :
    IsHeadless (row ++ [⟨.openList, offset⟩]) := by
  intro word offset' inside hopen
  rcases hopen.append_cases with ⟨before, offset'', hrow, -⟩ | ⟨own, hown, hrow⟩
  · have hlength := congrArg List.length hrow
    simp at hlength
    omega
  · rcases List.cons_eq_append_iff.1 hown with ⟨-, hhead⟩ | ⟨own, rfl, -⟩
    · cases hhead
    · exact h word offset' own hrow

theorem Encloses.opened {name : String} (h : Encloses name row) (offset : Nat) :
    Encloses name (row ++ [⟨.openList, offset⟩]) := by
  obtain ⟨headOffset, inside, ⟨before, start, rfl, hclosesOwn⟩, hheadless⟩ := h
  refine ⟨headOffset, inside ++ [⟨.openList, offset⟩], ⟨before, start, by simp, ?_⟩,
    hheadless.opened offset⟩
  exact hclosesOwn.append (closesOwn_openList offset)

/-- One of two lists that are left open is in the other. -/
theorem LeavesOpen.nested (h : LeavesOpen row inside) (h' : LeavesOpen row inside') :
    inside = inside' ∨ LeavesOpen inside inside' ∨ LeavesOpen inside' inside := by
  obtain ⟨before, offset, rfl, hinside⟩ := h
  obtain ⟨before', offset', hrow, hinside'⟩ := h'
  rcases List.append_eq_append_iff.1 hrow with ⟨mid, -, hmid⟩ | ⟨mid, -, hmid⟩
  · rcases List.cons_eq_append_iff.1 hmid with ⟨-, hsame⟩ | ⟨mid, -, hin⟩
    · exact Or.inl (List.cons.inj hsame).2.symm
    · exact Or.inr (Or.inl ⟨mid, offset', hin, hinside'⟩)
  · rcases List.cons_eq_append_iff.1 hmid with ⟨-, hsame⟩ | ⟨mid, -, hin⟩
    · exact Or.inl (List.cons.inj hsame).2
    · exact Or.inr (Or.inr ⟨mid, offset, hin, hinside⟩)

/-- At most one operator is the innermost. -/
theorem Encloses.unique {name name' : String} (h : Encloses name row) (h' : Encloses name' row) :
    name = name' := by
  obtain ⟨offset, inside, hopen, hheadless⟩ := h
  obtain ⟨offset', inside', hopen', hheadless'⟩ := h'
  rcases hopen.nested hopen' with hsame | hin | hin
  · exact String.toList_injective (Token.bare.inj (Lexeme.mk.inj (List.cons.inj hsame).1).1)
  · exact absurd ((isClosed_word _ _).leavesOpen_of_append hin) (hheadless _ _ _)
  · exact absurd ((isClosed_word _ _).leavesOpen_of_append hin) (hheadless' _ _ _)

theorem IsHeadless.not_encloses {name : String} (h : IsHeadless row) : ¬Encloses name row := by
  rintro ⟨offset, inside, hopen, -⟩
  exact h _ _ _ hopen

end

namespace PartialFormula

variable {known : String → Bool} {options : ParseOptions} {p : PartialFormula} {row : List Lexeme}

/-- The innermost open list that has its head is one that the lexemes leave open. -/
theorem encloses_of_allCover {stack : List OpenList} {l : OpenList} {name : String}
    (h : OpenList.AllCover known options (l :: stack) row) (hname : l.head.map (·.1) = some name) :
    Encloses name row := by
  cases h with
  | @cons _ _ outer own hl =>
    cases hl with
    | opened => cases hname
    | @headed head args offset headOffset _ _ hargs =>
      obtain rfl := Option.some.inj hname
      have hinside : IsClosed (args.map (·.1)).flatten :=
        isClosed_flatten (List.forall_mem_map.2 fun arg harg => (hargs arg harg).isClosed)
      refine ⟨headOffset, (args.map (·.1)).flatten, ⟨outer, offset, rfl, ?_⟩, hinside.isHeadless⟩
      exact (isClosed_word _ _).closesOwn.append hinside.closesOwn

/-- What the reader names for an error is the operator around the lexemes read so far. -/
theorem Covers.operator?_cases (h : p.Covers known options row) :
    (p.operator? = none ∧ IsHeadless row) ∨ ∃ name, p.operator? = some name ∧ Encloses name row := by
  cases h with
  | complete hderives => exact Or.inl ⟨rfl, hderives.isClosed.isHeadless⟩
  | @unfinished stack found row hstack =>
    cases hstack with
    | nil => exact Or.inl ⟨rfl, isClosed_nil.isHeadless⟩
    | @cons l outer row own hl hheads hdepth houter =>
      cases hl with
      | @headed name args offset headOffset hname hallowed hargs =>
        refine Or.inr ⟨name, rfl, encloses_of_allCover (.cons ?_ hheads hdepth houter) rfl⟩
        exact .headed offset headOffset hname hallowed hargs
      | opened offset =>
        cases houter with
        | nil => exact Or.inl ⟨rfl, isClosed_nil.isHeadless.opened offset⟩
        | @cons l outer row own' hl hheads' hdepth' houter =>
          -- only the innermost list may wait for its head, so the next one has it
          obtain ⟨⟨name, headOffset⟩, hhead⟩ := Option.isSome_iff_exists.1 (hheads l rfl)
          have houtside := encloses_of_allCover (.cons hl hheads' hdepth' houter)
            (congrArg (Option.map (·.1)) hhead)
          exact Or.inr ⟨name, by simp [operator?, hhead], houtside.opened offset⟩

theorem Covers.operator?_eq_some_iff (h : p.Covers known options row) {name : String} :
    p.operator? = some name ↔ Encloses name row := by
  rcases h.operator?_cases with ⟨hnone, hheadless⟩ | ⟨name', hsome, hencloses⟩
  · simp [hnone, hheadless.not_encloses]
  · rw [hsome, Option.some_inj]
    exact ⟨fun h => h ▸ hencloses, hencloses.unique⟩

end PartialFormula

end MissionScript
