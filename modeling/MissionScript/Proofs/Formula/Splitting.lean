import MissionScript.Proofs.Formula.Lexing

/-!
The lexer finds the lexemes that the grammar says a text falls apart into. The rest of a text after
what has been begun is described for every reading, and each character leads from one description to
the next.
-/

namespace MissionScript

/-- What the rest of a text gives after what has been begun, and its lexemes. -/
def Reading.Continues : Reading → Nat → List Char → List Lexeme → Prop
  | .between, offset, text, row => Splits offset text row
  | .comment, offset, text, row => ∃ body rest, text = body ++ rest ∧ '\n' ∉ body ∧
    (∀ c ∈ rest.head?, c = '\n') ∧ Splits (offset + byteLength body) rest row
  | .quoted start seen, offset, text, row => ∃ body s rest row', text = body ++ '"' :: rest ∧
    Quotes body s ∧ row = ⟨.quoted (String.ofList (seen.reverse ++ s)), start⟩ :: row' ∧
    Splits (offset + byteLength (body ++ ['"'])) rest row'
  | .escape start seen _, offset, text, row => ∃ c body s rest row',
    text = c :: (body ++ '"' :: rest) ∧ (c = '"' ∨ c = '\\') ∧ Quotes body s ∧
    row = ⟨.quoted (String.ofList (seen.reverse ++ c :: s)), start⟩ :: row' ∧
    Splits (offset + byteLength (c :: (body ++ ['"']))) rest row'
  | .bare start seen, offset, text, row => ∃ word rest row', text = word ++ rest ∧
    (∀ c ∈ word, isBareChar c = true) ∧ EndsWord rest ∧
    row = ⟨.bare (seen.reverse ++ word), start⟩ :: row' ∧
    Splits (offset + byteLength word) rest row'

section

variable {offset : Nat} {c : Char} {text : List Char} {row : List Lexeme}

theorem begin_of_isBlank (hc : Text.isBlank c = true) (offset : Nat) :
    Reading.begin offset c = (.between, []) :=
  if_pos hc

/-- A character is white space, one of four signs, or part of a bare word. -/
theorem isBlank_or_sign_or_isBareChar (c : Char) : Text.isBlank c = true ∨ c = ';' ∨ c = '(' ∨
    c = ')' ∨ c = '"' ∨ isBareChar c = true := by
  cases hbare : isBareChar c with
  | true => simp
  | false =>
    rw [← Bool.not_eq_true, isBareChar_iff, not_and_or, Bool.not_eq_false, Bool.not_eq_false] at hbare
    simp only [isDelimiter, Bool.or_eq_true, beq_iff_eq] at hbare
    rcases hbare with hblank | ((hopen | hclose) | hquote) | hcomment <;> simp [*]

/-- A text that goes on with what its first character begins falls apart into lexemes. -/
theorem splits_of_begin {next : Reading} {found : List Lexeme}
    (hbegin : Reading.begin offset c = (next, found))
    (h : next.Continues (offset + c.utf8Size) text row) : Splits offset (c :: text) (found ++ row) := by
  rcases isBlank_or_sign_or_isBareChar c with hblank | rfl | rfl | rfl | rfl | hbare
  · rw [begin_of_isBlank hblank] at hbegin
    cases hbegin
    exact .blank hblank h
  · cases hbegin
    obtain ⟨body, rest, rfl, hbody, hrest, hsplits⟩ := h
    rw [Nat.add_assoc, ← byteLength_cons] at hsplits
    exact .comment hbody hrest hsplits
  · cases hbegin
    exact .openList h
  · cases hbegin
    exact .closeList h
  · cases hbegin
    obtain ⟨body, s, rest, row', rfl, hbody, rfl, hsplits⟩ := h
    rw [Nat.add_assoc, ← byteLength_cons] at hsplits
    exact .quoted hbody hsplits
  · rw [begin_of_isBareChar hbare] at hbegin
    cases hbegin
    obtain ⟨word, rest, row', rfl, hword, hrest, rfl, hsplits⟩ := h
    rw [Nat.add_assoc, ← byteLength_cons] at hsplits
    exact .bare ⟨by simp, List.forall_mem_cons.2 ⟨hbare, hword⟩⟩ hrest hsplits

/-- A text that falls apart into lexemes goes on with what its first character begins. -/
theorem exists_begin_of_splits (h : Splits offset (c :: text) row) :
    ∃ row', row = (Reading.begin offset c).2 ++ row' ∧
      (Reading.begin offset c).1.Continues (offset + c.utf8Size) text row' := by
  generalize htext : c :: text = whole at h
  cases h with
  | nil => cases htext
  | blank hblank hsplits =>
    obtain ⟨rfl, rfl⟩ := List.cons.inj htext
    rw [begin_of_isBlank hblank]
    exact ⟨row, rfl, hsplits⟩
  | @comment _ body rest _ hbody hrest hsplits =>
    obtain ⟨rfl, rfl⟩ := List.cons.inj htext
    rw [byteLength_cons, ← Nat.add_assoc] at hsplits
    exact ⟨row, rfl, body, rest, rfl, hbody, hrest, hsplits⟩
  | openList hsplits =>
    obtain ⟨rfl, rfl⟩ := List.cons.inj htext
    exact ⟨_, rfl, hsplits⟩
  | closeList hsplits =>
    obtain ⟨rfl, rfl⟩ := List.cons.inj htext
    exact ⟨_, rfl, hsplits⟩
  | @quoted _ body s rest row' hbody hsplits =>
    obtain ⟨rfl, rfl⟩ := List.cons.inj htext
    rw [byteLength_cons, ← Nat.add_assoc] at hsplits
    exact ⟨_, rfl, body, s, rest, row', rfl, hbody, rfl, hsplits⟩
  | @bare _ word rest row' hword hrest hsplits =>
    obtain ⟨hne, hchars⟩ := hword
    obtain ⟨first, word, rfl⟩ := List.exists_cons_of_ne_nil hne
    obtain ⟨rfl, rfl⟩ := List.cons.inj htext
    obtain ⟨hc, hchars⟩ := List.forall_mem_cons.1 hchars
    rw [begin_of_isBareChar hc]
    rw [byteLength_cons, ← Nat.add_assoc] at hsplits
    exact ⟨_, rfl, word, rest, row', rfl, hchars, hrest, rfl, hsplits⟩

theorem isBlank_newline : Text.isBlank '\n' = true := by decide

/-- What a character leads to is what was described before it. -/
theorem continues_of_step {reading next : Reading} {found : List Lexeme}
    (hstep : reading.step offset c = .ok (next, found))
    (h : next.Continues (offset + c.utf8Size) text row) :
    reading.Continues offset (c :: text) (found ++ row) := by
  cases reading with
  | between =>
    exact splits_of_begin (Except.ok.inj hstep) h
  | comment =>
    obtain ⟨rfl, rfl⟩ := Prod.mk.inj (Except.ok.inj hstep)
    by_cases hc : c = '\n'
    · subst hc
      refine ⟨[], _, rfl, List.not_mem_nil, ?_, .blank isBlank_newline h⟩
      simp
    · rw [if_neg (by simpa using hc)] at h
      obtain ⟨body, rest, rfl, hbody, hrest, hsplits⟩ := h
      rw [Nat.add_assoc, ← byteLength_cons] at hsplits
      refine ⟨c :: body, rest, rfl, ?_, hrest, hsplits⟩
      simp [hbody, Ne.symm hc]
  | quoted start seen =>
    rw [Reading.step] at hstep
    split at hstep
    · next hc =>
      obtain ⟨rfl, rfl⟩ := Prod.mk.inj (Except.ok.inj hstep)
      obtain rfl := eq_of_beq hc
      have hsplits : Splits (offset + '"'.utf8Size) text row := h
      refine ⟨[], [], text, row, rfl, .nil, by simp, ?_⟩
      simpa [byteLength] using hsplits
    · next hquote =>
      split at hstep
      · next hc =>
        obtain ⟨rfl, rfl⟩ := Prod.mk.inj (Except.ok.inj hstep)
        obtain rfl := eq_of_beq hc
        obtain ⟨c, body, s, rest, row', rfl, hc, hbody, rfl, hsplits⟩ := h
        rw [Nat.add_assoc, ← byteLength_cons] at hsplits
        exact ⟨_, _, rest, row', rfl, .escaped hc hbody, rfl, hsplits⟩
      · next hbackslash =>
        obtain ⟨rfl, rfl⟩ := Prod.mk.inj (Except.ok.inj hstep)
        obtain ⟨body, s, rest, row', rfl, hbody, rfl, hsplits⟩ := h
        rw [Nat.add_assoc, ← byteLength_cons] at hsplits
        refine ⟨c :: body, c :: s, rest, row', rfl, .plain ?_ hbody, ?_, hsplits⟩
        · simpa using And.intro hquote hbackslash
        · simp
  | escape start seen backslash =>
    rw [Reading.step] at hstep
    split at hstep
    · next hc =>
      obtain ⟨rfl, rfl⟩ := Prod.mk.inj (Except.ok.inj hstep)
      obtain ⟨body, s, rest, row', rfl, hbody, rfl, hsplits⟩ := h
      rw [Nat.add_assoc, ← byteLength_cons] at hsplits
      refine ⟨c, body, s, rest, row', rfl, by simpa using hc, hbody, ?_, hsplits⟩
      simp
    · cases hstep
  | bare start seen =>
    rw [Reading.step] at hstep
    split at hstep
    · next hc =>
      obtain ⟨rfl, rfl⟩ := Prod.mk.inj (Except.ok.inj hstep)
      obtain ⟨word, rest, row', rfl, hword, hrest, rfl, hsplits⟩ := h
      rw [Nat.add_assoc, ← byteLength_cons] at hsplits
      refine ⟨c :: word, rest, row', rfl, List.forall_mem_cons.2 ⟨hc, hword⟩, hrest, ?_, hsplits⟩
      simp
    · next hc =>
      generalize hbegin : Reading.begin offset c = begun at hstep
      obtain ⟨next', found'⟩ := begun
      obtain ⟨rfl, rfl⟩ := Prod.mk.inj (Except.ok.inj hstep)
      refine ⟨[], c :: text, found' ++ row, rfl, List.forall_mem_nil _, endsWord_cons.2 (by simpa using hc), ?_,
        splits_of_begin hbegin h⟩
      rw [List.append_nil, List.cons_append]

/-- What is described before a character is what the character leads to. -/
theorem exists_step_of_continues {reading : Reading} (h : reading.Continues offset (c :: text) row) :
    ∃ next found row', reading.step offset c = .ok (next, found) ∧ row = found ++ row' ∧
      next.Continues (offset + c.utf8Size) text row' := by
  cases reading with
  | between =>
    obtain ⟨row', rfl, hnext⟩ := exists_begin_of_splits h
    exact ⟨_, _, row', rfl, rfl, hnext⟩
  | comment =>
    obtain ⟨body, rest, htext, hbody, hrest, hsplits⟩ := h
    cases body with
    | nil =>
      obtain rfl : c :: text = rest := htext
      obtain rfl : c = '\n' := hrest c rfl
      obtain ⟨row', hrow, hnext⟩ := exists_begin_of_splits hsplits
      exact ⟨_, [], row', rfl, hrow, hnext⟩
    | cons first body =>
      obtain ⟨rfl, rfl⟩ := List.cons.inj htext
      rw [List.mem_cons, not_or] at hbody
      rw [byteLength_cons, ← Nat.add_assoc] at hsplits
      refine ⟨.comment, [], row, ?_, rfl, body, rest, rfl, hbody.2, hrest, hsplits⟩
      rw [Reading.step, if_neg (by simpa using Ne.symm hbody.1)]
  | quoted start seen =>
    obtain ⟨body, s, rest, row', htext, hbody, rfl, hsplits⟩ := h
    cases hbody with
    | nil =>
      obtain ⟨rfl, rfl⟩ := List.cons.inj htext
      have hlength : byteLength ([] ++ ['"']) = '"'.utf8Size := rfl
      rw [hlength] at hsplits
      exact ⟨.between, [⟨.quoted (String.ofList seen.reverse), start⟩], row', rfl, by simp, hsplits⟩
    | @plain first body s hc hbody =>
      obtain ⟨rfl, rfl⟩ := List.cons.inj htext
      rw [List.cons_append, byteLength_cons, ← Nat.add_assoc] at hsplits
      refine ⟨.quoted start (c :: seen), [], _, ?_, rfl, body, s, rest, row', rfl, hbody, ?_, hsplits⟩
      · rw [Reading.step, if_neg (by simpa using hc.1), if_neg (by simpa using hc.2)]
      · simp
    | @escaped first body s hc hbody =>
      obtain ⟨rfl, rfl⟩ := List.cons.inj htext
      rw [List.cons_append, byteLength_cons, ← Nat.add_assoc] at hsplits
      exact ⟨.escape start seen offset, [], _, rfl, rfl, first, body, s, rest, row', rfl, hc, hbody,
        rfl, hsplits⟩
  | escape start seen backslash =>
    obtain ⟨first, body, s, rest, row', htext, hc, hbody, rfl, hsplits⟩ := h
    obtain ⟨rfl, rfl⟩ := List.cons.inj htext
    rw [byteLength_cons, ← Nat.add_assoc] at hsplits
    refine ⟨.quoted start (c :: seen), [], _, ?_, rfl, body, s, rest, row', rfl, hbody, ?_, hsplits⟩
    · rw [Reading.step, if_pos (by simpa using hc)]
    · simp
  | bare start seen =>
    obtain ⟨word, rest, row', htext, hword, hrest, rfl, hsplits⟩ := h
    cases word with
    | nil =>
      obtain rfl : c :: text = rest := htext
      have hc := endsWord_cons.1 hrest
      obtain ⟨row', rfl, hnext⟩ := exists_begin_of_splits hsplits
      refine ⟨_, ⟨.bare seen.reverse, start⟩ :: (Reading.begin offset c).2, row', ?_, ?_, hnext⟩
      · rw [Reading.step, if_neg (by simp [hc])]
        rfl
      · rw [List.append_nil]
        rfl
    | cons first word =>
      obtain ⟨rfl, rfl⟩ := List.cons.inj htext
      obtain ⟨hc, hword⟩ := List.forall_mem_cons.1 hword
      rw [byteLength_cons, ← Nat.add_assoc] at hsplits
      refine ⟨.bare start (c :: seen), [], _, ?_, rfl, word, rest, row', rfl, hword, hrest, ?_,
        hsplits⟩
      · rw [Reading.step, if_pos hc]
      · simp

/-- A character is wrong only after a backslash. -/
theorem exists_escape_of_step_error {reading : Reading} {e : SyntaxError}
    (hstep : reading.step offset c = .error e) : ∃ start seen backslash,
      reading = .escape start seen backslash ∧ e = ⟨.invalidEscape c, backslash, none⟩ := by
  unfold Reading.step at hstep
  split at hstep
  · cases hstep
  · cases hstep
  · split at hstep
    · cases hstep
    · split at hstep <;> cases hstep
  · next start seen backslash =>
    split at hstep
    · cases hstep
    · exact ⟨start, seen, backslash, rfl, (Except.error.inj hstep).symm⟩
  · split at hstep <;> cases hstep

/-- At the end of a text nothing but a comment or a bare word may have been begun. -/
theorem finish_eq_ok_iff {reading : Reading} :
    reading.finish = .ok row ↔ reading.Continues offset [] row := by
  constructor
  · intro h
    cases reading with
    | between =>
      obtain rfl := Except.ok.inj h
      exact .nil offset
    | comment =>
      obtain rfl := Except.ok.inj h
      exact ⟨[], [], rfl, List.not_mem_nil, nofun, .nil _⟩
    | quoted | escape => cases h
    | bare start seen =>
      obtain rfl := Except.ok.inj h
      exact ⟨[], [], [], rfl, List.forall_mem_nil _, endsWord_nil, by rw [List.append_nil], .nil _⟩
  · intro h
    have hnil {offset : Nat} {row : List Lexeme} (h : Splits offset [] row) : row = [] := by
      generalize htext : [] = text at h
      cases h with
      | nil => rfl
      | bare hword => exact absurd (List.append_eq_nil_iff.1 htext.symm).1 hword.1
      | _ => cases htext
    cases reading with
    | between => rw [hnil h, Reading.finish]
    | comment =>
      obtain ⟨body, rest, htext, -, -, hsplits⟩ := h
      obtain ⟨rfl, rfl⟩ := List.append_eq_nil_iff.1 htext.symm
      rw [hnil hsplits, Reading.finish]
    | quoted =>
      obtain ⟨body, s, rest, row', htext, -⟩ := h
      simp at htext
    | escape =>
      obtain ⟨c, body, s, rest, row', htext, -⟩ := h
      cases htext
    | bare start seen =>
      obtain ⟨word, rest, row', htext, -, -, rfl, hsplits⟩ := h
      obtain ⟨rfl, rfl⟩ := List.append_eq_nil_iff.1 htext.symm
      rw [hnil hsplits, Reading.finish, List.append_nil]

end

/-- The lexer finds the lexemes that the rest of a text falls apart into, whatever has been begun. -/
theorem lexFrom_eq_ok_iff {reading : Reading} {offset : Nat} {text : List Char} {row : List Lexeme} :
    lexFrom reading offset text = .ok row ↔ reading.Continues offset text row := by
  induction text generalizing reading offset row with
  | nil => exact finish_eq_ok_iff
  | cons c text ih =>
    constructor
    · intro h
      rw [lexFrom] at h
      split at h
      · cases h
      · next next found hstep =>
        cases hrest : lexFrom next (offset + c.utf8Size) text with
        | error e =>
          rw [hrest] at h
          cases h
        | ok row' =>
          rw [hrest] at h
          obtain rfl := Except.ok.inj h
          exact continues_of_step hstep (ih.1 hrest)
    · intro h
      obtain ⟨next, found, row', hstep, rfl, hnext⟩ := exists_step_of_continues h
      rw [lexFrom_step hstep, ih.2 hnext]
      rfl

/-- A text is found to have exactly the lexemes that it falls apart into. -/
theorem lex_eq_ok_iff {text : List Char} {row : List Lexeme} :
    lex text = .ok row ↔ Splits 0 text row :=
  lexFrom_eq_ok_iff

/-- A lexeme that can be written again. -/
def Lexeme.IsSound (l : Lexeme) : Prop :=
  ∀ word, l.token = .bare word → Node.IsBareWord word

/-- The lexemes that a text falls apart into can be written again. -/
theorem Splits.isSound {offset : Nat} {text : List Char} {row : List Lexeme}
    (h : Splits offset text row) : ∀ l ∈ row, l.IsSound := by
  induction h with
  | nil => exact List.forall_mem_nil _
  | blank _ _ ih | comment _ _ _ ih => exact ih
  | openList _ ih | closeList _ ih | quoted _ _ ih => exact List.forall_mem_cons.2 ⟨nofun, ih⟩
  | bare hword _ _ ih =>
    refine List.forall_mem_cons.2 ⟨?_, ih⟩
    rintro word ⟨⟩
    exact hword

end MissionScript
