import MissionScript.Formula.SyntaxError
import MissionScript.Text.Blank

/-!
Lexemes: parentheses, quoted texts and bare words. Between them stand white space and comments,
which begin with a semicolon and end with the line. A bare word ends where another lexeme, white
space or a comment begins.
-/

namespace MissionScript

/-- A part of a formula's text. -/
inductive Token where
  | openList
  | closeList
  | quoted (s : String)
  | bare (word : List Char)
  deriving DecidableEq

/-- A token and where it begins. -/
structure Lexeme where
  token : Token
  offset : Nat
  deriving DecidableEq

/-- Whether a character ends a bare word without being white space. -/
def isDelimiter (c : Char) : Bool :=
  c == '(' || c == ')' || c == '"' || c == ';'

/-- Whether a bare word can go on with a character. -/
def isBareChar (c : Char) : Bool :=
  !Text.isBlank c && !isDelimiter c

/-- What has been begun and not yet ended. Characters are gathered last first. -/
inductive Reading where
  | between
  | comment
  | quoted (start : Nat) (seen : List Char)
  /-- after a backslash at an offset -/
  | escape (start : Nat) (seen : List Char) (backslash : Nat)
  | bare (start : Nat) (seen : List Char)

namespace Reading

/-- What a character begins outside of comments and quotes, and the token that it is by itself. -/
def begin (offset : Nat) (c : Char) : Reading × List Lexeme :=
  if Text.isBlank c then (.between, [])
  else if c == ';' then (.comment, [])
  else if c == '(' then (.between, [⟨.openList, offset⟩])
  else if c == ')' then (.between, [⟨.closeList, offset⟩])
  else if c == '"' then (.quoted offset [], [])
  else (.bare offset [c], [])

/-- One character more. The tokens are those that the character completes. -/
def step (offset : Nat) (c : Char) : Reading → Except SyntaxError (Reading × List Lexeme)
  | .between => .ok (begin offset c)
  | .comment => .ok (if c == '\n' then .between else .comment, [])
  | .quoted start seen =>
    if c == '"' then .ok (.between, [⟨.quoted (String.ofList seen.reverse), start⟩])
    else if c == '\\' then .ok (.escape start seen offset, [])
    else .ok (.quoted start (c :: seen), [])
  | .escape start seen backslash =>
    if c == '"' || c == '\\' then .ok (.quoted start (c :: seen), [])
    else .error ⟨.invalidEscape c, backslash, none⟩
  | .bare start seen =>
    if isBareChar c then .ok (.bare start (c :: seen), [])
    else
      let (next, tokens) := begin offset c
      .ok (next, ⟨.bare seen.reverse, start⟩ :: tokens)

/-- The end of the text. -/
def finish : Reading → Except SyntaxError (List Lexeme)
  | .between | .comment => .ok []
  | .quoted start _ | .escape start _ _ => .error ⟨.unterminatedString, start, none⟩
  | .bare start seen => .ok [⟨.bare seen.reverse, start⟩]

end Reading

/-- The lexemes of the rest of a text. -/
def lexFrom (reading : Reading) (offset : Nat) : List Char → Except SyntaxError (List Lexeme)
  | [] => reading.finish
  | c :: rest =>
    match reading.step offset c with
    | .error e => .error e
    | .ok (next, found) => (lexFrom next (offset + c.utf8Size) rest).map (found ++ ·)

/-- The lexemes of a text. -/
def lex (text : List Char) : Except SyntaxError (List Lexeme) :=
  lexFrom .between 0 text

theorem isBareChar_iff {c : Char} :
    isBareChar c = true ↔ Text.isBlank c = false ∧ isDelimiter c = false := by
  simp [isBareChar]

end MissionScript
