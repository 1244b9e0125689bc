import MissionScript.Formula.Lexeme
import MissionScript.Formula.Node
import MissionScript.Number.Reading

/-!
What a bare word means. After the head of a list it is a variable, a number or a text, as its first
characters tell; at the head it is the name of an operator, which must look like none of the first
two.
-/

namespace MissionScript

/-- Whether a word is meant to be a number: it begins with a digit, or with a sign or a point and a
    digit or a point. -/
def looksNumeric : List Char → Bool
  | [] => false
  | c :: rest =>
    isDigit c ||
      ((c == '-' || c == '+' || c == '.') && (rest.head?).any fun d => isDigit d || d == '.')

/-- The atom of a bare word that is not at the head of a list. -/
def wordAtom : List Char → Except SyntaxErrorKind Atom
  | '@' :: name =>
    if name.isEmpty then .error .emptyVariable else .ok (.variable (String.ofList name))
  | word =>
    if looksNumeric word then
      match readNumber? word with
      | some x => .ok (.number x)
      | none => .error (.invalidNumber (String.ofList word))
    else .ok (.text (String.ofList word))

/-- Whether a bare word can be the name of an operator. -/
def isOperatorWord (word : List Char) : Bool :=
  word.head? != some '@' && !looksNumeric word

end MissionScript
