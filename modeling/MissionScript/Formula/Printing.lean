import MissionScript.Formula.Node
import MissionScript.Number.Layout

/-!
The canonical text of a formula: one space between the parts of a list, every text in quotes, and
numbers in their shortest form.
-/

namespace MissionScript

/-- A text in quotes; only quotes and backslashes are escaped. -/
def quoteChars (s : List Char) : List Char :=
  '"' :: s.flatMap (fun c => if c == '"' || c == '\\' then ['\\', c] else [c]) ++ ['"']

/-- The canonical text of an atom. -/
def Atom.chars : Atom → List Char
  | .operator name => name.toList
  | .number x => numberText .plain x
  | .text s => quoteChars s.toList
  | .variable name => '@' :: name.toList

namespace Node

mutual

/-- The canonical text of a node. -/
def chars : Node → List Char
  | .atom a _ => a.chars
  | .list [] _ => ['(', ')']
  | .list (n :: rest) _ => '(' :: n.chars ++ charsAfter rest

/-- The canonical text of the children after the first, up to the end of the list. -/
def charsAfter : List Node → List Char
  | [] => [')']
  | n :: rest => ' ' :: n.chars ++ charsAfter rest

end

/-- The canonical text of a node. -/
def printed (n : Node) : String :=
  String.ofList n.chars

end Node

end MissionScript
