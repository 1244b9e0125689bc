/-!
What can be wrong with the text of a formula.
-/

namespace MissionScript

/-- Why a text is no formula. -/
inductive SyntaxErrorKind where
  | empty
  | unclosed
  | unexpectedClose
  | unterminatedString
  | invalidEscape (c : Char)
  | emptyList
  | operatorExpected
  | invalidNumber (word : String)
  | emptyVariable
  | unknownOperator (name : String)
  | tooDeep (limit : Nat)
  | trailingInput
  deriving DecidableEq

/-- An error, the offset where it was found, and the operator of the list around it. -/
structure SyntaxError where
  kind : SyntaxErrorKind
  offset : Nat
  operator : Option String
  deriving DecidableEq

def SyntaxErrorKind.message : SyntaxErrorKind → String
  | .empty => "formula is empty"
  | .unclosed => "unclosed '('"
  | .unexpectedClose => "unexpected ')'"
  | .unterminatedString => "unterminated string literal"
  | .invalidEscape c => "invalid escape '\\" ++ c.toString ++ "' in string literal"
  | .emptyList => "empty list '()'"
  | .operatorExpected => "list must start with an operator name"
  | .invalidNumber word => s!"invalid numeric literal '{word}'"
  | .emptyVariable => "'@' must be followed by a variable name"
  | .unknownOperator name => s!"unknown operator '{name}'"
  | .tooDeep limit => s!"nesting deeper than {limit} levels"
  | .trailingInput => "unexpected input after the end of the formula"

def SyntaxError.message (e : SyntaxError) : String :=
  let context := e.operator.elim "" fun name => s!" in '{name}'"
  s!"syntax error at byte {e.offset}{context}: {e.kind.message}"

end MissionScript
