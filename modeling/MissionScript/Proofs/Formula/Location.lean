import Mathlib.Data.List.Forall2
import MissionScript.Proofs.Formula.Detection

/-!
Where nodes and errors stand in a text. A node has the place of the lexeme that it begins with, and
the nodes of a tree begin in the order in which they are walked. An error has the place of the lexeme
that it is about; what is wrong between quotes is placed at the quote that is not closed, or at the
backslash.
-/

namespace MissionScript

/-- Whether the part of a text before some byte and the rest of it are as a condition says. Both are
    texts, so no character is cut in two. -/
def StandsAt (text : String) (offset : Nat) (P : List Char → List Char → Prop) : Prop :=
  ∃ read rest : String, text = read ++ rest ∧ read.utf8ByteSize = offset ∧ P read.toList rest.toList

/-- Whether a text begins with a token. -/
def Token.Begins (text : List Char) : Token → Prop
  | .openList => ∃ after, text = '(' :: after
  | .closeList => ∃ after, text = ')' :: after
  | .quoted s => ∃ body after, text = '"' :: (body ++ '"' :: after) ∧ Quotes body s.toList
  | .bare word => ∃ after, text = word ++ after ∧ Node.IsBareWord word ∧ EndsWord after

/-- Whether a lexeme is the first of those that a node is read from. -/
def Lexeme.Starts (l : Lexeme) (n : Node) : Prop :=
  l.offset = n.offset ∧
    match n with
    | .list .. => l.token = .openList
    | .atom (.operator name) _ => l.token = .bare name.toList
    | .atom (.variable name) _ => l.token = .bare ('@' :: name.toList)
    | .atom (.text s) _ => l.token = .quoted s ∨ l.token = .bare s.toList
    | .atom (.number x) _ => ∃ word, l.token = .bare word ∧ readNumber? word = some x

/-- Whether an error can be about a token. -/
def SyntaxErrorKind.IsAbout (token : Token) : SyntaxErrorKind → Prop
  | .unclosed | .emptyList | .tooDeep _ => token = .openList
  | .unexpectedClose => token = .closeList
  | .operatorExpected => token ≠ .closeList ∧ ∀ word, token = .bare word → isOperatorWord word = false
  | .invalidNumber word => token = .bare word.toList
  | .emptyVariable => token = .bare ['@']
  | .unknownOperator name => token = .bare name.toList
  | .trailingInput => True
  | .empty | .unterminatedString | .invalidEscape _ => False

/-- Whether an error stands where a text is wrong: at the quote of a text that is not closed, at a
    backslash in a quoted text, at the beginning of a text without lexemes, or at a lexeme that it is
    about. -/
def SyntaxError.IsPlacedIn (e : SyntaxError) (text : String) : Prop :=
  match e.kind with
  | .empty => e.offset = 0
  | .unterminatedString => StandsAt text e.offset fun read rest =>
    (∃ row, PrecedeQuote row read) ∧
      ∃ body s, Quotes body s ∧ (rest = '"' :: body ∨ rest = '"' :: (body ++ ['\\']))
  | .invalidEscape c => StandsAt text e.offset fun read rest =>
    (∃ row before body s, read = before ++ '"' :: body ∧ PrecedeQuote row before ∧ Quotes body s) ∧
      ∃ after, rest = '\\' :: c :: after
  | kind => ∃ row, Splits 0 text.toList row ∧ ∃ l ∈ row, l.offset = e.offset ∧
    kind.IsAbout l.token ∧ StandsAt text l.offset fun _ rest => l.token.Begins rest

section

variable {text : String} {offset : Nat} {P : List Char → List Char → Prop}

theorem utf8ByteSize_ofList (text : List Char) :
    (String.ofList text).utf8ByteSize = byteLength text := by
  induction text with
  | nil => rfl
  | cons c text ih =>
    rw [String.ofList_cons, String.utf8ByteSize_append, String.utf8ByteSize_singleton, ih,
      byteLength_cons]

theorem standsAt_of_append {read rest : List Char} (htext : text.toList = read ++ rest)
    (hP : P read rest) : StandsAt text (byteLength read) P := by
  refine ⟨String.ofList read, String.ofList rest, ?_, utf8ByteSize_ofList read, ?_⟩
  · rw [← String.ofList_append, ← htext, String.ofList_toList]
  · rwa [String.toList_ofList, String.toList_ofList]

/-- What stands somewhere stands within the text, where a character begins or at the end. -/
theorem StandsAt.isValid (h : StandsAt text offset P) :
    offset ≤ text.utf8ByteSize ∧ (⟨offset⟩ : String.Pos.Raw).IsValid text := by
  obtain ⟨read, rest, rfl, rfl, -⟩ := h
  refine ⟨?_, String.Pos.Raw.isValid_iff_exists_append.2 ⟨read, rest, rfl, rfl⟩⟩
  rw [String.utf8ByteSize_append]
  exact Nat.le_add_right _ _

end

/-- Every lexeme of a text stands where its token begins. -/
theorem Splits.exists_begins {offset : Nat} {text : List Char} {row : List Lexeme}
    (h : Splits offset text row) (read : List Char) (hread : byteLength read = offset) :
    ∀ l ∈ row, ∃ before after, read ++ text = before ++ after ∧ byteLength before = l.offset ∧
      l.token.Begins after := by
  -- what has been read of the text before a lexeme ends where the lexeme begins
  have hnext {offset : Nat} {read : List Char} (part : List Char) (hread : byteLength read = offset) :
      byteLength (read ++ part) = offset + byteLength part := by
    rw [byteLength_append, hread]
  induction h generalizing read with
  | nil => exact List.forall_mem_nil _
  | @blank _ c _ _ _ _ ih => simpa using ih _ (hnext [c] hread)
  | @comment _ body _ _ _ _ _ ih => simpa using ih _ (hnext (';' :: body) hread)
  | @openList _ text _ _ ih =>
    refine List.forall_mem_cons.2 ⟨⟨read, _, rfl, hread, text, rfl⟩, ?_⟩
    simpa using ih _ (hnext ['('] hread)
  | @closeList _ text _ _ ih =>
    refine List.forall_mem_cons.2 ⟨⟨read, _, rfl, hread, text, rfl⟩, ?_⟩
    simpa using ih _ (hnext [')'] hread)
  | @quoted _ body s rest _ hbody _ ih =>
    refine List.forall_mem_cons.2 ⟨⟨read, _, rfl, hread, body, rest, rfl, ?_⟩, ?_⟩
    · rwa [String.toList_ofList]
    · simpa using ih _ (hnext ('"' :: (body ++ ['"'])) hread)
  | @bare _ word rest _ hword hrest _ ih =>
    refine List.forall_mem_cons.2 ⟨⟨read, _, rfl, hread, rest, rfl, hword, hrest⟩, ?_⟩
    simpa using ih _ (hnext word hread)

theorem Splits.standsAt {text : String} {row : List Lexeme} (h : Splits 0 text.toList row)
    {l : Lexeme} (hl : l ∈ row) : StandsAt text l.offset fun _ rest => l.token.Begins rest := by
  obtain ⟨before, after, htext, hoffset, hbegins⟩ := h.exists_begins [] rfl l hl
  rw [← hoffset]
  exact standsAt_of_append htext hbegins

/-! ### Nodes -/

theorem IsArgument.starts {word : List Char} {a : Atom} (h : IsArgument word a) (offset : Nat) :
    Lexeme.Starts ⟨.bare word, offset⟩ (.atom a offset) := by
  cases h with
  | «variable» =>
    exact ⟨rfl, congrArg (fun name => Token.bare ('@' :: name)) String.toList_ofList.symm⟩
  | number _ hread => exact ⟨rfl, word, rfl, hread⟩
  | text => exact ⟨rfl, .inr (congrArg Token.bare String.toList_ofList.symm)⟩

/-- Whether nodes begin with some of the lexemes of a row, in order. -/
def StartInOrder (places : List (Path × Node)) (row : List Lexeme) : Prop :=
  List.SublistForall₂ (fun place l => l.Starts place.2) places row

theorem StartInOrder.append {places places' : List (Path × Node)} {row row' : List Lexeme}
    (h : StartInOrder places row) (h' : StartInOrder places' row') :
    StartInOrder (places ++ places') (row ++ row') := by
  obtain ⟨own, hown, hsub⟩ := List.sublistForall₂_iff.1 h
  obtain ⟨own', hown', hsub'⟩ := List.sublistForall₂_iff.1 h'
  exact List.sublistForall₂_iff.2 ⟨own ++ own', List.rel_append hown hown', hsub.append hsub'⟩

theorem startInOrder_walkAll {args : List (List Lexeme × Node)}
    (h : ∀ arg ∈ args, ∀ path, StartInOrder (arg.2.walkFrom path) arg.1) (path : Path) (index : Nat) :
    StartInOrder (Node.walkAll path index (args.map (·.2))) (args.map (·.1)).flatten := by
  induction args generalizing index with
  | nil => exact .nil
  | cons arg rest ih =>
    obtain ⟨harg, hrest⟩ := List.forall_mem_cons.1 h
    exact (harg (path.child index)).append (ih hrest (index + 1))

/-- The nodes of a tree, each before its children, begin with lexemes that it is derived from, in
    order. -/
theorem Derives.startInOrder {known : String → Bool} {options : ParseOptions} {row : List Lexeme}
    {n : Node} (h : Derives known options row n) (path : Path) :
    StartInOrder (n.walkFrom path) row := by
  induction h generalizing path with
  | quoted s offset => exact .cons ⟨rfl, .inl rfl⟩ .nil
  | word offset harg => exact .cons (harg.starts offset) .nil
  | @list name args offset headOffset closeOffset _ _ _ ih =>
    have hclose : StartInOrder [] [⟨.closeList, closeOffset⟩] := .nil
    have hargs := (startInOrder_walkAll ih path 1).append hclose
    rw [List.append_nil] at hargs
    exact .cons ⟨rfl, rfl⟩ (.cons ⟨rfl, rfl⟩ hargs)

/-- The nodes of a tree that is derived from the lexemes of a text. -/
theorem Derives.walk_located {known : String → Bool} {options : ParseOptions} {row : List Lexeme}
    {n : Node} {text : String} (h : Derives known options row n) (hsplits : Splits 0 text.toList row) :
    (∀ place ∈ n.walk, ∃ l ∈ row, l.Starts place.2 ∧
      StandsAt text place.2.offset fun _ rest => l.token.Begins rest) ∧
    (n.walk.map (·.2.offset)).Pairwise (· < ·) := by
  obtain ⟨own, hown, hsub⟩ := List.sublistForall₂_iff.1 (h.startInOrder [])
  constructor
  · intro place hplace
    obtain ⟨i, hi, rfl⟩ := List.mem_iff_getElem.1 hplace
    have hi' : i < own.length := hown.length_eq ▸ hi
    have hstarts : (own[i]).Starts (n.walk[i]).2 := hown.get hi hi'
    have hmem := hsub.subset (List.getElem_mem hi')
    exact ⟨own[i], hmem, hstarts, hstarts.1 ▸ hsplits.standsAt hmem⟩
  · have hoffsets : n.walk.map (·.2.offset) = own.map (·.offset) := by
      refine List.forall₂_eq_eq_eq ▸ List.rel_map ?_ hown
      exact fun place l hl => hl.1.symm
    rw [hoffsets, List.pairwise_map]
    exact hsplits.pairwise_offset.2.sublist hsub

/-! ### Errors -/

/-- What is wrong between quotes is placed at the quote or at the backslash. -/
theorem isPlacedIn_of_lex_eq_error {text : String} {e : SyntaxError}
    (h : lex text.toList = .error e) : e.IsPlacedIn text := by
  obtain ⟨last, read, row, hlast, ⟨htext, hfinish⟩ | ⟨c, rest, htext, hstep⟩⟩ :=
    Reading.isAfter_nil.exists_stop h
  · have hquote := hlast.inQuoteAfter
    cases last with
    | between | comment | bare => cases hfinish
    | quoted start seen =>
      obtain ⟨before, body, rfl, rfl, hbody, hbefore⟩ := hquote
      cases hfinish
      dsimp only [SyntaxError.IsPlacedIn]
      exact standsAt_of_append htext ⟨⟨row, hbefore⟩, body, _, hbody, .inl rfl⟩
    | escape start seen backslash =>
      obtain ⟨before, body, rfl, rfl, -, hbody, hbefore⟩ := hquote
      cases hfinish
      dsimp only [SyntaxError.IsPlacedIn]
      exact standsAt_of_append htext ⟨⟨row, hbefore⟩, body, _, hbody, .inr rfl⟩
  · have hquote := hlast.inQuoteAfter
    obtain ⟨start, seen, backslash, rfl, rfl⟩ := exists_escape_of_step_error hstep
    obtain ⟨before, body, rfl, -, rfl, hbody, hbefore⟩ := hquote
    have hat : text.toList = (before ++ '"' :: body) ++ '\\' :: c :: rest := by simpa using htext
    dsimp only [SyntaxError.IsPlacedIn]
    exact standsAt_of_append hat ⟨⟨row, before, body, _, rfl, hbefore, hbody⟩, rest, rfl⟩

theorem isPlacedIn_of_isAbout {text : String} {e : SyntaxError} {row : List Lexeme} {l : Lexeme}
    (hsplits : Splits 0 text.toList row) (hl : l ∈ row) (hoffset : l.offset = e.offset)
    (habout : e.kind.IsAbout l.token) : e.IsPlacedIn text := by
  have hplaced : ∃ row, Splits 0 text.toList row ∧ ∃ l ∈ row, l.offset = e.offset ∧
      e.kind.IsAbout l.token ∧ StandsAt text l.offset fun _ rest => l.token.Begins rest :=
    ⟨row, hsplits, l, hl, hoffset, habout, hsplits.standsAt hl⟩
  obtain ⟨kind, offset, operator⟩ := e
  cases kind with
  | empty | unterminatedString | invalidEscape => exact habout.elim
  | _ => exact hplaced

namespace OpenList

variable {known : String → Bool} {options : ParseOptions}

/-- The parentheses of the lists that are open are among the lexemes. -/
theorem AllCover.mem_row {stack : List OpenList} {row : List Lexeme}
    (h : AllCover known options stack row) : ∀ l ∈ stack, ⟨.openList, l.offset⟩ ∈ row := by
  induction h with
  | nil => exact List.forall_mem_nil _
  | @cons l outer row own hl _ _ _ ih =>
    have hown : ⟨.openList, l.offset⟩ ∈ own := by
      cases hl with
      | opened | headed => exact List.mem_cons_self
    exact List.forall_mem_cons.2 ⟨List.mem_append_right row hown,
      fun l' hl' => List.mem_append_left own (ih l' hl')⟩

end OpenList

namespace PartialFormula

variable {known : String → Bool} {options : ParseOptions} {p : PartialFormula} {row : List Lexeme}
  {l : Lexeme} {e : SyntaxError}

theorem Covers.mem_row (h : p.Covers known options row) :
    ∀ l ∈ p.stack, ⟨.openList, l.offset⟩ ∈ row := by
  cases h with
  | unfinished hstack => exact hstack.mem_row
  | complete => exact List.forall_mem_nil _

theorem isAbout_wordAtom {word : List Char} {kind : SyntaxErrorKind}
    (h : wordAtom word = .error kind) : kind.IsAbout (.bare word) := by
  rcases wordAtom_eq_error h with ⟨rfl, rfl⟩ | rfl
  · rfl
  · exact congrArg Token.bare String.toList_ofList.symm

theorem isAbout_takeHead {word : List Char} {offset : Nat}
    (hstep : p.takeHead known options word offset = .error e) :
    e.offset = offset ∧ e.kind.IsAbout (.bare word) := by
  unfold takeHead at hstep
  dsimp only at hstep
  split at hstep
  · next hword =>
    cases hstep
    refine ⟨rfl, nofun, ?_⟩
    rintro _ ⟨⟩
    simpa using hword
  · split at hstep
    · cases hstep
    · split at hstep
      · cases hstep
      · cases hstep
        exact ⟨rfl, congrArg Token.bare String.toList_ofList.symm⟩

/-- The error of a step is about the lexeme that is taken, unless this closes an empty list. -/
theorem isAbout_step (hstep : p.step known options l = .error e) :
    (e.offset = l.offset ∧ e.kind.IsAbout l.token) ∨
      (e.kind = .emptyList ∧ ∃ top ∈ p.stack, top.offset = e.offset) := by
  obtain ⟨token, offset⟩ := l
  unfold step at hstep
  split at hstep
  · cases hstep
    exact .inl ⟨rfl, trivial⟩
  · cases token with
    | openList =>
      dsimp only at hstep
      split at hstep
      · cases hstep
        exact .inl ⟨rfl, nofun, nofun⟩
      · split at hstep
        · cases hstep
          exact .inl ⟨rfl, rfl⟩
        · cases hstep
    | closeList =>
      cases hstack : p.stack with
      | nil =>
        rw [hstack] at hstep
        cases hstep
        exact .inl ⟨rfl, rfl⟩
      | cons top outer =>
        cases hhead : top.head with
        | none =>
          simp only [hstack, hhead] at hstep
          cases hstep
          exact .inr ⟨rfl, top, List.mem_cons_self, rfl⟩
        | some head =>
          simp only [hstack, hhead] at hstep
          cases hstep
    | quoted s =>
      dsimp only at hstep
      split at hstep
      · cases hstep
        exact .inl ⟨rfl, nofun, nofun⟩
      · cases hstep
    | bare word =>
      dsimp only at hstep
      split at hstep
      · exact .inl (isAbout_takeHead hstep)
      · split at hstep
        · next kind hkind =>
          cases hstep
          exact .inl ⟨rfl, isAbout_wordAtom hkind⟩
        · cases hstep

/-- The error at the end of a text is about a list that is open, unless nothing has been read. -/
theorem isAbout_finish (hfinish : p.finish = .error e) :
    (e.kind = .empty ∧ e.offset = 0) ∨ (e.kind = .unclosed ∧ ∃ l ∈ p.stack, l.offset = e.offset) := by
  obtain ⟨stack, root, unresolved⟩ := p
  cases stack with
  | nil =>
    cases root with
    | none =>
      cases hfinish
      exact .inl ⟨rfl, rfl⟩
    | some root => cases hfinish
  | cons l outer =>
    cases hfinish
    exact .inr ⟨rfl, l, List.mem_cons_self, rfl⟩

end PartialFormula

/-- Every error stands where the text is wrong. -/
theorem isPlacedIn_of_parseChars {known : String → Bool} {options : ParseOptions} {text : String}
    {e : SyntaxError} (hparse : parseChars known options text.toList = .error e) :
    e.IsPlacedIn text := by
  rcases parseChars_eq_error_iff.1 hparse with hlex | ⟨row, hlex, hsteps | ⟨p, hsteps, hfinish⟩⟩
  · exact isPlacedIn_of_lex_eq_error hlex
  · have hsplits := lex_eq_ok_iff.1 hlex
    obtain ⟨before, l, after, q, rfl, hread, hstep⟩ := PartialFormula.exists_step_error hsteps
    rcases PartialFormula.isAbout_step hstep with ⟨hoffset, habout⟩ | ⟨hkind, top, htop, hoffset⟩
    · exact isPlacedIn_of_isAbout hsplits (by simp) hoffset.symm habout
    · have hopen := (PartialFormula.covers_of_steps hread).mem_row top htop
      refine isPlacedIn_of_isAbout hsplits (List.mem_append_left _ hopen) hoffset ?_
      rw [hkind]
      rfl
  · have hsplits := lex_eq_ok_iff.1 hlex
    rcases PartialFormula.isAbout_finish hfinish with ⟨hkind, hzero⟩ | ⟨hkind, l, hl, hoffset⟩
    · rw [SyntaxError.IsPlacedIn, hkind]
      exact hzero
    · have hopen := (PartialFormula.covers_of_steps hsteps).mem_row l hl
      refine isPlacedIn_of_isAbout hsplits hopen hoffset ?_
      rw [hkind]
      rfl

theorem SyntaxError.IsPlacedIn.isValid {e : SyntaxError} {text : String} (h : e.IsPlacedIn text) :
    e.offset ≤ text.utf8ByteSize ∧ (⟨e.offset⟩ : String.Pos.Raw).IsValid text := by
  obtain ⟨kind, offset, operator⟩ := e
  cases kind with
  | empty =>
    obtain rfl : offset = 0 := h
    exact ⟨Nat.zero_le _, String.Pos.Raw.isValid_iff_exists_append.2 ⟨"", text, by simp, rfl⟩⟩
  | unterminatedString | invalidEscape =>
    dsimp only [IsPlacedIn] at h
    exact h.isValid
  | _ =>
    obtain ⟨row, -, l, -, rfl, -, hl⟩ := h
    exact hl.isValid

/-- Offsets are faithful, for every registry, all options and every text. In a text that is read,
    every node stands where the first of its characters is: a list at its parenthesis, a quoted text
    at its quote, a variable at its sign and any other word at its beginning; the nodes, each before
    its children, stand one after the other. In a text that is refused, the error stands where a
    character begins or the text ends. Unless the text has no lexemes, that is at a lexeme that the
    error is about, at the quote of a text that is not closed, or at a backslash in a quoted text. -/
theorem parse_located (registry : Registry) (options : ParseOptions) (text : String) :
    (∀ f : Formula, parseChars registry.has options text.toList = .ok f →
      ∃ row, Splits 0 text.toList row ∧
        (∀ place ∈ f.root.walk, ∃ l ∈ row, l.Starts place.2 ∧
          StandsAt text place.2.offset fun _ rest => l.token.Begins rest) ∧
        (f.root.walk.map (·.2.offset)).Pairwise (· < ·)) ∧
    ∀ e : SyntaxError, parseChars registry.has options text.toList = .error e →
      e.offset ≤ text.utf8ByteSize ∧ (⟨e.offset⟩ : String.Pos.Raw).IsValid text ∧
        e.IsPlacedIn text := by
  refine ⟨fun f hparse => ?_, fun e hparse => ?_⟩
  · obtain ⟨row, hsplits, hderives, -, -⟩ := parseChars_eq_ok_iff_derives.1 hparse
    obtain ⟨hplaces, hordered⟩ := hderives.walk_located hsplits
    exact ⟨row, hsplits, hplaces, hordered⟩
  · have hplaced := isPlacedIn_of_parseChars hparse
    obtain ⟨hle, hvalid⟩ := hplaced.isValid
    exact ⟨hle, hvalid, hplaced⟩

/-- A letter of two bytes moves what stands after it by two, in a formula and in an error. -/
theorem parse_located_accent : ∃ f,
    parseChars Registry.builtin.has .default "(or \"é\" @x)".toList = .ok f ∧
    f.root.walk.map (·.2.offset) = [0, 1, 4, 9] ∧
    (∀ place ∈ f.root.walk, ∃ l : Lexeme, l.Starts place.2 ∧
      StandsAt "(or \"é\" @x)" place.2.offset fun _ rest => l.token.Begins rest) ∧
    parseChars Registry.builtin.has .default "(or \"é\" 2x)".toList =
      .error ⟨.invalidNumber "2x", 9, some "or"⟩ ∧
    (⟨9⟩ : String.Pos.Raw).IsValid "(or \"é\" 2x)" ∧
    SyntaxError.IsPlacedIn ⟨.invalidNumber "2x", 9, some "or"⟩ "(or \"é\" 2x)" := by
  have hread : (parseChars Registry.builtin.has .default "(or \"é\" @x)".toList).map
      (fun f => f.root.walk.map (·.2.offset)) = .ok [0, 1, 4, 9] := by
    rw [Registry.builtin_eq]
    decide +kernel
  have hrefused : parseChars Registry.builtin.has .default "(or \"é\" 2x)".toList =
      .error ⟨.invalidNumber "2x", 9, some "or"⟩ := by
    rw [Registry.builtin_eq]
    exact parseChars_eq_error_of_map (by decide +kernel)
  cases hparse : parseChars Registry.builtin.has .default "(or \"é\" @x)".toList with
  | error e =>
    rw [hparse] at hread
    cases hread
  | ok f =>
    rw [hparse] at hread
    obtain ⟨row, -, hplaces, -⟩ := (parse_located Registry.builtin .default _).1 f hparse
    obtain ⟨-, hvalid, hplaced⟩ := (parse_located Registry.builtin .default _).2 _ hrefused
    refine ⟨f, rfl, Except.ok.inj hread, fun place hplace => ?_, hrefused, hvalid, hplaced⟩
    obtain ⟨l, -, hstarts, hstands⟩ := hplaces place hplace
    exact ⟨l, hstarts, hstands⟩

end MissionScript
