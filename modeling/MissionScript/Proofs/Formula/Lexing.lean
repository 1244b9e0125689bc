import MissionScript.Proofs.Formula.Grammar
import MissionScript.Proofs.Number.Spelling

/-!
The text of a well-formed formula falls apart into the lexemes that it was written from, whatever
stands after it.
-/

namespace MissionScript

/-- The token that an atom is written as. -/
def Atom.token : Atom → Token
  | .operator name => .bare name.toList
  | .number x => .bare (numberText .plain x)
  | .text s => .quoted s
  | .variable name => .bare ('@' :: name.toList)

namespace Node

mutual

/-- The tokens that a node is written as. -/
def tokens : Node → List Token
  | .atom a _ => [a.token]
  | .list children _ => .openList :: tokensAll children ++ [.closeList]

/-- The tokens that a row of nodes is written as. -/
def tokensAll : List Node → List Token
  | [] => []
  | n :: rest => n.tokens ++ tokensAll rest

end

end Node

/-- A text has these tokens, and they end with it if no bare word goes on. -/
def LexesTo (text : List Char) (tokens : List Token) : Prop :=
  ∀ offset rest, EndsWord rest → ∃ row next, row.map Lexeme.token = tokens ∧
    lexFrom .between offset (text ++ rest) = (lexFrom .between next rest).map (row ++ ·)

theorem map_append_map (x : Except SyntaxError (List Lexeme)) (row row' : List Lexeme) :
    (x.map (row' ++ ·)).map (row ++ ·) = x.map (row ++ row' ++ ·) := by
  cases x with
  | error e => rfl
  | ok found => simp [Except.map]

theorem lexFrom_step {reading next : Reading} {offset : Nat} {c : Char} {found : List Lexeme}
    (hstep : reading.step offset c = .ok (next, found)) (rest : List Char) :
    lexFrom reading offset (c :: rest) =
      (lexFrom next (offset + c.utf8Size) rest).map (found ++ ·) := by
  rw [lexFrom, hstep]

/-- A character that completes no token. -/
theorem lexFrom_step_nil {reading next : Reading} {offset : Nat} {c : Char}
    (hstep : reading.step offset c = .ok (next, [])) (rest : List Char) :
    lexFrom reading offset (c :: rest) = lexFrom next (offset + c.utf8Size) rest := by
  rw [lexFrom_step hstep]
  cases lexFrom next (offset + c.utf8Size) rest <;> rfl

theorem LexesTo.append {text text' : List Char} {tokens tokens' : List Token}
    (htext : LexesTo text tokens) (htext' : LexesTo text' tokens') (hends : EndsWord text') :
    LexesTo (text ++ text') (tokens ++ tokens') := by
  intro offset rest hrest
  obtain ⟨row, next, hrow, hlex⟩ := htext offset (text' ++ rest) (hends.append hrest)
  obtain ⟨row', next', hrow', hlex'⟩ := htext' next rest hrest
  refine ⟨row ++ row', next', by rw [List.map_append, hrow, hrow'], ?_⟩
  rw [List.append_assoc, hlex, hlex', map_append_map]

theorem lexesTo_nil : LexesTo [] [] := by
  intro offset rest _
  refine ⟨[], offset, rfl, ?_⟩
  rw [List.nil_append]
  cases lexFrom .between offset rest <;> rfl

/-- A text after a character that is a token by itself, or none. -/
theorem LexesTo.cons {c : Char} {text : List Char} {tokens : List Token}
    (htext : LexesTo text tokens) (found : List Token)
    (hbegin : ∀ offset, Reading.begin offset c = (.between, found.map (⟨·, offset⟩))) :
    LexesTo (c :: text) (found ++ tokens) := by
  intro offset rest hrest
  obtain ⟨row, next, hrow, hlex⟩ := htext (offset + c.utf8Size) rest hrest
  refine ⟨found.map (⟨·, offset⟩) ++ row, next, ?_, ?_⟩
  · rw [List.map_append, List.map_map, hrow]
    exact congrArg (· ++ tokens) (List.map_id found)
  · rw [List.cons_append, lexFrom_step (by rw [Reading.step, hbegin]), hlex, map_append_map]

theorem LexesTo.openList {text : List Char} {tokens : List Token} (htext : LexesTo text tokens) :
    LexesTo ('(' :: text) (.openList :: tokens) :=
  htext.cons [.openList] fun _ => rfl

theorem lexesTo_closeList : LexesTo [')'] [.closeList] :=
  lexesTo_nil.cons [.closeList] fun _ => rfl

theorem LexesTo.space {text : List Char} {tokens : List Token} (htext : LexesTo text tokens) :
    LexesTo (' ' :: text) tokens :=
  htext.cons [] fun _ => rfl

/-- A bare word goes on to its last character. -/
theorem lexFrom_bare {word rest : List Char} (hword : ∀ c ∈ word, isBareChar c = true)
    (hrest : EndsWord rest) (start offset : Nat) (seen : List Char) :
    ∃ next, lexFrom (.bare start seen) offset (word ++ rest) =
      (lexFrom .between next rest).map ([⟨.bare (seen.reverse ++ word), start⟩] ++ ·) := by
  induction word generalizing offset seen with
  | nil =>
    refine ⟨offset, ?_⟩
    rw [List.nil_append, List.append_nil]
    cases rest with
    | nil => rfl
    | cons c rest =>
      have hc := endsWord_cons.1 hrest
      have hstep : (Reading.bare start seen).step offset c = .ok
          ((Reading.begin offset c).1, [⟨.bare seen.reverse, start⟩] ++ (Reading.begin offset c).2) := by
        rw [Reading.step, if_neg (by simp [hc])]
        rfl
      have hbegin : Reading.between.step offset c =
          .ok ((Reading.begin offset c).1, (Reading.begin offset c).2) := rfl
      rw [lexFrom_step hstep, lexFrom_step hbegin, map_append_map]
  | cons c word ih =>
    obtain ⟨hc, hword⟩ := List.forall_mem_cons.1 hword
    obtain ⟨next, hlex⟩ := ih hword (offset + c.utf8Size) (c :: seen)
    refine ⟨next, ?_⟩
    rw [List.cons_append, lexFrom_step_nil (by rw [Reading.step, if_pos hc]), hlex,
      List.reverse_cons, List.append_assoc, List.singleton_append]

theorem begin_of_isBareChar {c : Char} (hc : isBareChar c = true) (offset : Nat) :
    Reading.begin offset c = (.bare offset [c], []) := by
  obtain ⟨hblank, hdelimiter⟩ := isBareChar_iff.1 hc
  simp only [isDelimiter, Bool.or_eq_false_iff, beq_eq_false_iff_ne] at hdelimiter
  simp [Reading.begin, hblank, hdelimiter]

theorem lexesTo_bare {word : List Char} (hword : Node.IsBareWord word) :
    LexesTo word [.bare word] := by
  obtain ⟨hne, hchars⟩ := hword
  obtain ⟨c, word, rfl⟩ := List.exists_cons_of_ne_nil hne
  obtain ⟨hc, hchars⟩ := List.forall_mem_cons.1 hchars
  intro offset rest hrest
  obtain ⟨next, hlex⟩ := lexFrom_bare hchars hrest offset (offset + c.utf8Size) [c]
  refine ⟨[⟨.bare (c :: word), offset⟩], next, rfl, ?_⟩
  rw [List.cons_append, lexFrom_step_nil (by rw [Reading.step, begin_of_isBareChar hc]), hlex]
  rfl

/-- A quoted text goes on to the quote that is not escaped. -/
theorem lexFrom_quoted {body s : List Char} (hbody : Quotes body s) (rest : List Char)
    (start offset : Nat) (seen : List Char) :
    ∃ next, lexFrom (.quoted start seen) offset (body ++ '"' :: rest) =
      (lexFrom .between next rest).map
        ([⟨.quoted (String.ofList (seen.reverse ++ s)), start⟩] ++ ·) := by
  induction hbody generalizing offset seen with
  | nil =>
    refine ⟨offset + '"'.utf8Size, ?_⟩
    rw [List.append_nil]
    exact lexFrom_step rfl rest
  | @plain c body s hc _ ih =>
    obtain ⟨next, hlex⟩ := ih (offset + c.utf8Size) (c :: seen)
    have hstep : (Reading.quoted start seen).step offset c = .ok (.quoted start (c :: seen), []) := by
      rw [Reading.step, if_neg (by simpa using hc.1), if_neg (by simpa using hc.2)]
    refine ⟨next, ?_⟩
    rw [List.cons_append, lexFrom_step_nil hstep, hlex, List.reverse_cons, List.append_assoc,
      List.singleton_append]
  | @escaped c body s hc _ ih =>
    obtain ⟨next, hlex⟩ := ih (offset + '\\'.utf8Size + c.utf8Size) (c :: seen)
    refine ⟨next, ?_⟩
    rw [List.cons_append, List.cons_append, lexFrom_step_nil rfl,
      lexFrom_step_nil (by rw [Reading.step, if_pos (by simpa using hc)]), hlex, List.reverse_cons,
      List.append_assoc, List.singleton_append]

theorem lexFrom_quote {body s : List Char} (hbody : Quotes body s) (rest : List Char) (offset : Nat) :
    ∃ next, lexFrom .between offset ('"' :: (body ++ '"' :: rest)) =
      (lexFrom .between next rest).map ([⟨.quoted (String.ofList s), offset⟩] ++ ·) := by
  obtain ⟨next, hlex⟩ := lexFrom_quoted hbody rest offset (offset + '"'.utf8Size) []
  refine ⟨next, ?_⟩
  rw [lexFrom_step_nil rfl, hlex, List.reverse_nil, List.nil_append]

theorem lexesTo_quoted {body s : List Char} (hbody : Quotes body s) :
    LexesTo ('"' :: (body ++ ['"'])) [.quoted (String.ofList s)] := by
  intro offset rest _
  obtain ⟨next, hlex⟩ := lexFrom_quote hbody rest offset
  refine ⟨[⟨.quoted (String.ofList s), offset⟩], next, rfl, ?_⟩
  rw [List.cons_append, List.append_assoc, List.singleton_append, hlex]

/-- What is written between quotes for a text stands for that text. -/
theorem quotes_escape (text : List Char) :
    Quotes (text.flatMap fun c => if c == '"' || c == '\\' then ['\\', c] else [c]) text := by
  induction text with
  | nil => exact .nil
  | cons c text ih =>
    rw [List.flatMap_cons]
    split
    · next hc => exact .escaped (by simpa using hc) ih
    · next hc => exact .plain (by simpa using hc) ih

theorem lexesTo_quoteChars (s : String) : LexesTo (quoteChars s.toList) [.quoted s] := by
  have hlex := lexesTo_quoted (quotes_escape s.toList)
  rwa [String.ofList_toList] at hlex

theorem isBareChar_of_isDigit {c : Char} (hdigit : isDigit c = true) : isBareChar c = true := by
  have hrange : 48 ≤ c.toNat ∧ c.toNat ≤ 57 := by
    simp only [isDigit, Bool.and_eq_true, decide_eq_true_eq] at hdigit
    exact hdigit
  obtain ⟨n, hn, rfl⟩ : ∃ n : Nat, n < 10 ∧ c = Char.ofNat (48 + n) :=
    ⟨c.toNat - 48, by omega, by rw [Nat.add_sub_cancel' hrange.1, Char.ofNat_toNat]⟩
  revert n
  decide

namespace Decimal

theorem isBareWord_text_plain (d : Decimal) : Node.IsBareWord (d.text .plain) := by
  obtain ⟨digit, rest, htext, hdigit, hrest⟩ := d.exists_text_plain
  rw [htext]
  refine ⟨by simp, ?_⟩
  intro c hmem
  rcases List.mem_append.1 hmem with hsign | htail
  · cases hnegative : d.negative with
    | false => simp [signText, hnegative] at hsign
    | true =>
      rw [hnegative, signText, if_pos rfl, List.mem_singleton] at hsign
      subst hsign
      decide
  · rcases List.mem_cons.1 htail with rfl | htail
    · exact isBareChar_of_isDigit hdigit
    · rcases hrest c htail with hdigit | rfl
      · exact isBareChar_of_isDigit hdigit
      · decide

end Decimal

theorem isBareWord_numberText {x : Float} (h : x.isFinite = true) :
    Node.IsBareWord (numberText .plain x) := by
  obtain ⟨negative, m, e, hparts⟩ := exists_floatParts h
  unfold numberText
  rw [hparts]
  exact Decimal.isBareWord_text_plain _

namespace Node

theorem isBareWord_variable {name : List Char} (hname : IsBareWord name) :
    IsBareWord ('@' :: name) :=
  ⟨by simp, List.forall_mem_cons.2 ⟨by decide, hname.2⟩⟩

theorem endsWord_charsAfter (nodes : List Node) : EndsWord (charsAfter nodes) := by
  cases nodes <;> exact endsWord_cons.2 (by decide)

theorem lexesTo_charsAfter {nodes : List Node} (hnodes : ∀ n ∈ nodes, LexesTo n.chars n.tokens) :
    LexesTo (charsAfter nodes) (tokensAll nodes ++ [.closeList]) := by
  induction nodes with
  | nil => exact lexesTo_closeList
  | cons n rest ih =>
    obtain ⟨hn, hrest⟩ := List.forall_mem_cons.1 hnodes
    rw [tokensAll, List.append_assoc]
    exact (hn.append (ih hrest) (endsWord_charsAfter rest)).space

/-- The text of a well-formed node falls apart into the tokens that it was written from. -/
theorem WellFormed.lexesTo {known : String → Bool} {options : ParseOptions} {n : Node}
    (h : n.WellFormed known options) : LexesTo n.chars n.tokens := by
  induction h with
  | number offset hfinite => exact lexesTo_bare (isBareWord_numberText hfinite)
  | text s offset => exact lexesTo_quoteChars s
  | «variable» offset hname => exact lexesTo_bare (isBareWord_variable hname)
  | list headOffset offset hhead hargs ih =>
    have hname := lexesTo_bare hhead.isBareWord
    exact (hname.append (lexesTo_charsAfter ih) (endsWord_charsAfter _)).openList

/-- What the text of a well-formed formula is read as. -/
theorem WellFormed.lex_chars {known : String → Bool} {options : ParseOptions} {n : Node}
    (h : n.WellFormed known options) : ∃ row, lex n.chars = .ok row ∧ row.map Lexeme.token = n.tokens := by
  obtain ⟨row, next, hrow, hlex⟩ := h.lexesTo 0 [] endsWord_nil
  rw [List.append_nil] at hlex
  refine ⟨row, ?_, hrow⟩
  rw [lex, hlex, lexFrom, Reading.finish, Except.map, List.append_nil]

end Node

end MissionScript
