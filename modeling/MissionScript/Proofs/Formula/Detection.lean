import MissionScript.Proofs.Formula.Acceptance
import MissionScript.Proofs.Formula.Enclosure
import MissionScript.Proofs.Operator.Builtin

/-!
Errors and the operators that they name. What is wrong at a lexeme or at the end of a text is found
where the reader has taken the lexemes before it, so it names the operator around them. What is wrong
with a quoted text is found before any list is, and names none.
-/

namespace MissionScript

/-- Whether a quoted text that begins after a part of a text is a lexeme of its own, and the lexemes
    before it. -/
def PrecedeQuote (row : List Lexeme) (read : List Char) : Prop :=
  ∀ body s, Quotes body s →
    Splits 0 (read ++ '"' :: (body ++ ['"'])) (row ++ [⟨.quoted (String.ofList s), byteLength read⟩])

/-- Whether an error is about what stands between quotes. -/
def SyntaxErrorKind.isLexical : SyntaxErrorKind → Bool
  | .unterminatedString | .invalidEscape _ => true
  | _ => false

/-- The lexemes before the place where an error is found in a text. What is wrong with a quoted text
    is found in it, an empty list where it is closed, a list that is not closed and a text without
    lexemes at the end, and everything else at the lexeme that it is about. -/
def SyntaxError.IsFoundAfter (e : SyntaxError) (text : List Char) (row : List Lexeme) : Prop :=
  match e.kind with
  | .unterminatedString => ∃ read rest, text = read ++ '"' :: rest ∧ e.offset = byteLength read ∧
    PrecedeQuote row read
  | .invalidEscape c => ∃ read body s rest, text = read ++ '"' :: body ++ '\\' :: c :: rest ∧
    Quotes body s ∧ e.offset = byteLength (read ++ '"' :: body) ∧ PrecedeQuote row read
  | .emptyList => ∃ outside offset after, row = outside ++ [⟨.openList, e.offset⟩] ∧
    Splits 0 text (row ++ ⟨.closeList, offset⟩ :: after)
  | .unclosed | .empty => Splits 0 text row
  | _ => ∃ token after, Splits 0 text (row ++ ⟨token, e.offset⟩ :: after)

section

variable {read : List Char} {row : List Lexeme}

namespace Reading

/-- Whether the quote that has been begun, if any, stands after some lexemes of a part of a text. -/
def InQuoteAfter (row : List Lexeme) (read : List Char) : Reading → Prop
  | .quoted start seen => ∃ before body, read = before ++ '"' :: body ∧ start = byteLength before ∧
    Quotes body seen.reverse ∧ PrecedeQuote row before
  | .escape start seen backslash => ∃ before body, read = before ++ '"' :: (body ++ ['\\']) ∧
    start = byteLength before ∧ backslash = byteLength (before ++ '"' :: body) ∧
    Quotes body seen.reverse ∧ PrecedeQuote row before
  | .between | .comment | .bare _ _ => True

/-- Whether something is what has been begun after a part of a text, and some lexemes are those that
    were found in it. -/
structure IsAfter (reading : Reading) (read : List Char) (row : List Lexeme) : Prop where
  splits : ∀ rest row', reading.Continues (byteLength read) rest row' →
    Splits 0 (read ++ rest) (row ++ row')
  inQuoteAfter : reading.InQuoteAfter row read

theorem isAfter_nil : between.IsAfter [] [] :=
  ⟨fun _ _ h => h, trivial⟩

/-- A quote begins after the lexemes found so far. -/
theorem inQuoteAfter_begin {c : Char}
    (hsplits : ∀ rest row',
      (begin (byteLength read) c).1.Continues (byteLength (read ++ [c])) rest row' →
        Splits 0 (read ++ c :: rest) (row ++ row')) :
    (begin (byteLength read) c).1.InQuoteAfter row (read ++ [c]) := by
  rcases isBlank_or_sign_or_isBareChar c with hblank | rfl | rfl | rfl | rfl | hbare
  · rw [begin_of_isBlank hblank]
    trivial
  · trivial
  · trivial
  · trivial
  · refine ⟨read, [], rfl, rfl, .nil, fun body s hbody => hsplits (body ++ ['"']) _ ?_⟩
    exact ⟨body, s, [], [], rfl, hbody, rfl, .nil _⟩
  · rw [begin_of_isBareChar hbare]
    trivial

/-- One character more. -/
theorem IsAfter.step {reading next : Reading} {c : Char} {found : List Lexeme}
    (h : reading.IsAfter read row) (hstep : reading.step (byteLength read) c = .ok (next, found)) :
    next.IsAfter (read ++ [c]) (row ++ found) := by
  have hsplits (rest : List Char) (row' : List Lexeme)
      (hnext : next.Continues (byteLength (read ++ [c])) rest row') :
      Splits 0 (read ++ c :: rest) (row ++ found ++ row') := by
    rw [byteLength_concat] at hnext
    rw [List.append_assoc]
    exact h.splits (c :: rest) (found ++ row') (continues_of_step hstep hnext)
  refine ⟨fun rest row' hnext => by simpa using hsplits rest row' hnext, ?_⟩
  have hquote := h.inQuoteAfter
  cases reading with
  | between =>
    obtain ⟨rfl, rfl⟩ := Prod.mk.inj (Except.ok.inj hstep)
    exact inQuoteAfter_begin hsplits
  | comment =>
    obtain ⟨rfl, rfl⟩ := Prod.mk.inj (Except.ok.inj hstep)
    split <;> trivial
  | quoted start seen =>
    obtain ⟨before, body, rfl, hstart, hbody, hbefore⟩ := hquote
    rw [Reading.step] at hstep
    split at hstep
    · obtain ⟨rfl, rfl⟩ := Prod.mk.inj (Except.ok.inj hstep)
      trivial
    · next hplain =>
      split at hstep
      · next hc =>
        obtain ⟨rfl, rfl⟩ := Prod.mk.inj (Except.ok.inj hstep)
        obtain rfl := eq_of_beq hc
        rw [List.append_nil]
        exact ⟨before, body, by simp, hstart, rfl, hbody, hbefore⟩
      · next hbackslash =>
        obtain ⟨rfl, rfl⟩ := Prod.mk.inj (Except.ok.inj hstep)
        rw [List.append_nil]
        refine ⟨before, body ++ [c], by simp, hstart, ?_, hbefore⟩
        rw [List.reverse_cons]
        exact hbody.append (.plain (by simpa using And.intro hplain hbackslash) .nil)
  | escape start seen backslash =>
    obtain ⟨before, body, rfl, hstart, -, hbody, hbefore⟩ := hquote
    rw [Reading.step] at hstep
    split at hstep
    · next hc =>
      obtain ⟨rfl, rfl⟩ := Prod.mk.inj (Except.ok.inj hstep)
      rw [List.append_nil]
      refine ⟨before, body ++ ['\\', c], by simp, hstart, ?_, hbefore⟩
      rw [List.reverse_cons]
      exact hbody.append (.escaped (by simpa using hc) .nil)
    · cases hstep
  | bare start seen =>
    rw [Reading.step] at hstep
    split at hstep
    · obtain ⟨rfl, rfl⟩ := Prod.mk.inj (Except.ok.inj hstep)
      trivial
    · obtain ⟨rfl, rfl⟩ := Prod.mk.inj (Except.ok.inj hstep)
      exact inQuoteAfter_begin hsplits

/-- A lexer stops at a character that cannot come after what has been begun, or because the text must
    not end there. -/
theorem IsAfter.exists_stop {reading : Reading} {text : List Char} {e : SyntaxError}
    (h : reading.IsAfter read row) (hlex : lexFrom reading (byteLength read) text = .error e) :
    ∃ (last : Reading) (read' : List Char) (row' : List Lexeme), last.IsAfter read' row' ∧
      ((read ++ text = read' ∧ last.finish = .error e) ∨ ∃ c rest,
        read ++ text = read' ++ c :: rest ∧ last.step (byteLength read') c = .error e) := by
  induction text generalizing reading read row with
  | nil => exact ⟨reading, read, row, h, .inl ⟨List.append_nil read, hlex⟩⟩
  | cons c text ih =>
    cases hstep : reading.step (byteLength read) c with
    | error e' =>
      rw [lexFrom, hstep] at hlex
      obtain rfl : e' = e := Except.error.inj hlex
      exact ⟨reading, read, row, h, .inr ⟨c, text, rfl, hstep⟩⟩
    | ok result =>
      obtain ⟨next, found⟩ := result
      rw [lexFrom_step hstep, ← byteLength_concat] at hlex
      have hrest : lexFrom next (byteLength (read ++ [c])) text = .error e := by
        cases hrest : lexFrom next (byteLength (read ++ [c])) text with
        | error e' =>
          rw [hrest] at hlex
          exact hlex
        | ok row' =>
          rw [hrest] at hlex
          cases hlex
      have hstop := ih (h.step hstep) hrest
      rwa [← List.append_cons] at hstop

/-- What is wrong with a quoted text is found after the lexemes before it, and names no operator. -/
theorem IsAfter.isFoundAfter {reading : Reading} {text : List Char} {e : SyntaxError}
    (h : reading.IsAfter read row) (hlex : lexFrom reading (byteLength read) text = .error e) :
    ∃ row', e.IsFoundAfter (read ++ text) row' ∧ e.operator = none ∧ e.kind.isLexical = true := by
  obtain ⟨last, read', row', hlast, ⟨rfl, hfinish⟩ | ⟨c, rest, htext, hstep⟩⟩ := h.exists_stop hlex
  · have hquote := hlast.inQuoteAfter
    cases last with
    | between | comment | bare => cases hfinish
    | quoted start seen =>
      obtain ⟨before, body, hread, hstart, -, hbefore⟩ := hquote
      cases hfinish
      exact ⟨row', ⟨before, body, hread, hstart, hbefore⟩, rfl, rfl⟩
    | escape start seen backslash =>
      obtain ⟨before, body, hread, hstart, -, -, hbefore⟩ := hquote
      cases hfinish
      exact ⟨row', ⟨before, body ++ ['\\'], hread, hstart, hbefore⟩, rfl, rfl⟩
  · have hquote := hlast.inQuoteAfter
    obtain ⟨start, seen, backslash, rfl, rfl⟩ := exists_escape_of_step_error hstep
    obtain ⟨before, body, rfl, -, hbackslash, hbody, hbefore⟩ := hquote
    exact ⟨row', ⟨before, body, _, rest, by simp [htext], hbody, hbackslash, hbefore⟩, rfl, rfl⟩

end Reading

end

namespace PartialFormula

variable {known : String → Bool} {options : ParseOptions} {p : PartialFormula} {text : List Char}
  {row : List Lexeme} {e : SyntaxError}

/-- Whether an error is found after some lexemes and names the operator that the reader has there. -/
structure Reports (p : PartialFormula) (text : List Char) (row : List Lexeme) (e : SyntaxError) :
    Prop where
  isFoundAfter : e.IsFoundAfter text row
  operator_eq : e.operator = p.operator?
  isLexical_eq_false : e.kind.isLexical = false

theorem Reports.names (h : p.Reports text row e) (hp : p.Covers known options row) :
    e.IsFoundAfter text row ∧
      ∀ name, e.operator = some name ↔ e.kind.isLexical = false ∧ Encloses name row := by
  refine ⟨h.isFoundAfter, fun name => ?_⟩
  rw [h.operator_eq, h.isLexical_eq_false, hp.operator?_eq_some_iff]
  exact (and_iff_right rfl).symm

theorem reports_takeHead {word : List Char} {offset : Nat} {after : List Lexeme}
    (hsplits : Splits 0 text (row ++ ⟨.bare word, offset⟩ :: after))
    (hstep : p.takeHead known options word offset = .error e) : p.Reports text row e := by
  unfold takeHead at hstep
  dsimp only at hstep
  split at hstep
  · cases hstep
    exact ⟨⟨_, after, hsplits⟩, rfl, rfl⟩
  · split at hstep
    · cases hstep
    · split at hstep
      · cases hstep
      · cases hstep
        exact ⟨⟨_, after, hsplits⟩, rfl, rfl⟩

/-- The error of a step is found after the lexemes read before, and names their operator. -/
theorem Covers.reports_step {l : Lexeme} {after : List Lexeme} (hp : p.Covers known options row)
    (hsplits : Splits 0 text (row ++ l :: after)) (hstep : p.step known options l = .error e) :
    p.Reports text row e := by
  obtain ⟨token, offset⟩ := l
  cases hp with
  | complete =>
    cases hstep
    exact ⟨⟨_, after, hsplits⟩, rfl, rfl⟩
  | @unfinished stack found row hstack =>
    simp only [step, Option.isSome_none, Bool.false_eq_true, if_false] at hstep
    cases token with
    | openList =>
      dsimp only at hstep
      split at hstep
      · cases hstep
        exact ⟨⟨_, after, hsplits⟩, rfl, rfl⟩
      · split at hstep
        · cases hstep
          exact ⟨⟨_, after, hsplits⟩, rfl, rfl⟩
        · cases hstep
    | closeList =>
      cases hstack with
      | nil =>
        cases hstep
        exact ⟨⟨_, after, hsplits⟩, rfl, rfl⟩
      | @cons top outer row own htop =>
        cases htop with
        | headed => cases hstep
        | opened start =>
          cases hstep
          exact ⟨⟨row, offset, after, rfl, hsplits⟩, rfl, rfl⟩
    | quoted s =>
      dsimp only at hstep
      split at hstep
      · cases hstep
        exact ⟨⟨_, after, hsplits⟩, rfl, rfl⟩
      · cases hstep
    | bare word =>
      dsimp only at hstep
      split at hstep
      · exact reports_takeHead hsplits hstep
      · split at hstep
        · next kind hkind =>
          cases hstep
          rcases wordAtom_eq_error hkind with ⟨rfl, -⟩ | rfl
          · exact ⟨⟨_, after, hsplits⟩, rfl, rfl⟩
          · exact ⟨⟨_, after, hsplits⟩, rfl, rfl⟩
        · cases hstep

/-- The error at the end of a text is found after all its lexemes. -/
theorem Covers.reports_finish (hp : p.Covers known options row) (hsplits : Splits 0 text row)
    (hfinish : p.finish = .error e) : p.Reports text row e := by
  cases hp with
  | complete => cases hfinish
  | @unfinished stack found row hstack =>
    cases hstack with
    | nil =>
      cases hfinish
      exact ⟨hsplits, rfl, rfl⟩
    | cons =>
      cases hfinish
      exact ⟨hsplits, rfl, rfl⟩

end PartialFormula

namespace SyntaxError

variable {e : SyntaxError} {text : List Char} {row row' : List Lexeme}

/-- An error is found in one place. -/
theorem IsFoundAfter.unique (h : e.IsFoundAfter text row) (h' : e.IsFoundAfter text row') :
    row = row' := by
  obtain ⟨kind, offset, operator⟩ := e
  cases kind with
  | unterminatedString =>
    obtain ⟨read, rest, rfl, hoffset, hquote⟩ := h
    obtain ⟨read', rest', htext, hoffset', hquote'⟩ := h'
    obtain rfl := eq_of_byteLength_eq htext (hoffset.symm.trans hoffset')
    exact List.append_inj_left' ((hquote _ _ .nil).unique (hquote' _ _ .nil)) rfl
  | invalidEscape c =>
    obtain ⟨read, body, s, rest, rfl, hbody, hoffset, hquote⟩ := h
    obtain ⟨read', body', s', rest', htext, hbody', hoffset', hquote'⟩ := h'
    have hread := eq_of_byteLength_eq htext (hoffset.symm.trans hoffset')
    -- with a closing quote in the place of the backslash the text falls apart in one way
    have hsplits := hquote _ _ hbody
    have hsplits' := hquote' _ _ hbody'
    rw [← List.cons_append, ← List.append_assoc] at hsplits hsplits'
    rw [← hread] at hsplits'
    exact List.append_inj_left' (hsplits.unique hsplits') rfl
  | emptyList =>
    obtain ⟨outside, closeOffset, after, rfl, hsplits⟩ := h
    obtain ⟨outside', closeOffset', after', rfl, hsplits'⟩ := h'
    rw [List.append_assoc] at hsplits hsplits'
    rw [hsplits.eq_of_offset_eq hsplits' rfl]
  | unclosed | empty => exact Splits.unique h h'
  | unexpectedClose | operatorExpected | invalidNumber | emptyVariable | unknownOperator | tooDeep
    | trailingInput =>
    obtain ⟨token, after, hsplits⟩ := h
    obtain ⟨token', after', hsplits'⟩ := h'
    exact hsplits.eq_of_offset_eq hsplits' rfl

end SyntaxError

/-- The error of a reader is found after lexemes that are taken or that stand before a quoted text. -/
theorem exists_isFoundAfter {known : String → Bool} {options : ParseOptions} {text : List Char}
    {e : SyntaxError} (hparse : parseChars known options text = .error e) :
    ∃ row, e.IsFoundAfter text row ∧
      ∀ name, e.operator = some name ↔ e.kind.isLexical = false ∧ Encloses name row := by
  rcases parseChars_eq_error_iff.1 hparse with hlex | ⟨row, hlex, hsteps | ⟨p, hsteps, hfinish⟩⟩
  · obtain ⟨row, hfound, hnone, hlexical⟩ := Reading.isAfter_nil.isFoundAfter hlex
    exact ⟨row, hfound, fun name => by simp [hnone, hlexical]⟩
  · obtain ⟨before, l, after, q, rfl, hread, hstep⟩ := PartialFormula.exists_step_error hsteps
    have hq := PartialFormula.covers_of_steps hread
    exact ⟨before, (hq.reports_step (lex_eq_ok_iff.1 hlex) hstep).names hq⟩
  · have hp := PartialFormula.covers_of_steps hsteps
    exact ⟨row, (hp.reports_finish (lex_eq_ok_iff.1 hlex) hfinish).names hp⟩

/-- The operator that an error names, for every registry, all options and every text that is refused.
    The place of the error is given by the lexemes before it, and these are determined. Unless the
    error is about what stands between quotes, it names the head of the innermost list that is open
    there and has its head, and none exactly if there is no such list; an error about what stands
    between quotes never names one. -/
theorem parse_error_enclosed (registry : Registry) (options : ParseOptions) (text : String)
    (e : SyntaxError) (h : parseChars registry.has options text.toList = .error e) :
    ∃ row, (∀ row', e.IsFoundAfter text.toList row' ↔ row' = row) ∧
      ∀ name, e.operator = some name ↔ e.kind.isLexical = false ∧ Encloses name row := by
  obtain ⟨row, hfound, hnames⟩ := exists_isFoundAfter h
  refine ⟨row, fun row' => ⟨fun hfound' => hfound'.unique hfound, ?_⟩, hnames⟩
  rintro rfl
  exact hfound

/-- A number that cannot be read names the comparison that it stands in. -/
theorem parse_error_enclosed_comparison : ∃ row,
    parseChars Registry.builtin.has .default "(or (> 1 2x))".toList =
      .error ⟨.invalidNumber "2x", 9, some ">"⟩ ∧
    SyntaxError.IsFoundAfter ⟨.invalidNumber "2x", 9, some ">"⟩ "(or (> 1 2x))".toList row ∧
    Encloses ">" row := by
  have hparse : parseChars Registry.builtin.has .default "(or (> 1 2x))".toList =
      .error ⟨.invalidNumber "2x", 9, some ">"⟩ := by
    rw [Registry.builtin_eq]
    exact parseChars_eq_error_of_map (by decide +kernel)
  obtain ⟨row, hplace, hnames⟩ :=
    parse_error_enclosed Registry.builtin .default "(or (> 1 2x))" _ hparse
  exact ⟨row, hparse, (hplace row).2 rfl, ((hnames ">").1 rfl).2⟩

/-- A message that is not closed names no operator, although it is an argument of one. -/
theorem parse_error_not_enclosed : ∃ e row,
    parseChars Registry.builtin.has .default "(send-message \"a".toList = .error e ∧
    (∀ row', e.IsFoundAfter "(send-message \"a".toList row' ↔ row' = row) ∧
    Encloses "send-message" row ∧ e.operator = none := by
  have hquote : PrecedeQuote [⟨.openList, 0⟩, ⟨.bare "send-message".toList, 1⟩]
      "(send-message ".toList := by
    intro body s hbody
    have hread : "(send-message ".toList = '(' :: ("send-message".toList ++ [' ']) := by decide
    have hlength : 14 = byteLength "(send-message ".toList := by decide
    have hword : Node.IsBareWord "send-message".toList :=
      ⟨by decide, List.all_eq_true.1 (by decide)⟩
    have hquoted : Splits 14 ('"' :: (body ++ ['"'])) [⟨.quoted (String.ofList s), 14⟩] :=
      .quoted hbody (.nil _)
    rw [← hlength, hread, List.cons_append, List.append_assoc]
    exact .openList (.bare hword (endsWord_cons.2 (by decide)) (.blank (by decide) hquoted))
  have hfound : SyntaxError.IsFoundAfter ⟨.unterminatedString, 14, none⟩
      "(send-message \"a".toList [⟨.openList, 0⟩, ⟨.bare "send-message".toList, 1⟩] :=
    ⟨_, ['a'], by decide, by decide, hquote⟩
  refine ⟨_, _, parseChars_eq_error_of_map (e := ⟨.unterminatedString, 14, none⟩) (by decide +kernel),
    fun row' => ⟨fun hfound' => hfound'.unique hfound, ?_⟩, ?_, rfl⟩
  · rintro rfl
    exact hfound
  · exact ⟨1, [], ⟨[], 0, rfl, (isClosed_word _ _).closesOwn⟩, isClosed_nil.isHeadless⟩

end MissionScript
