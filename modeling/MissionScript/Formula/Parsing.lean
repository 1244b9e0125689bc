import MissionScript.Formula.Word

/-!
Reading formulas. The lexemes of the text are taken one by one; lists that are still open wait on a
stack, the innermost first.
-/

namespace MissionScript

/-- What a reader of formulas lets through. -/
structure ParseOptions where
  /-- whether heads that are not registered are recorded instead of refused -/
  allowUnknown : Bool
  /-- how many lists may be open at a time -/
  maxDepth : Nat
  deriving DecidableEq

/-- The limit of nesting where none is given. -/
def defaultMaxDepth : Nat := 256

/-- The options where none are given. -/
def ParseOptions.default : ParseOptions :=
  ⟨false, defaultMaxDepth⟩

/-- A list that is not closed yet. -/
structure OpenList where
  offset : Nat
  /-- the operator at its head and where that stands, once it is read -/
  head : Option (String × Nat)
  /-- the arguments read so far, last first -/
  args : List Node

/-- The node of a list with a head, when it is closed. -/
def OpenList.close (l : OpenList) (name : String) (offset : Nat) : Node :=
  .list (.atom (.operator name) offset :: l.args.reverse) l.offset

/-- What has been read of a formula. -/
structure PartialFormula where
  /-- the lists that are open, the innermost first -/
  stack : List OpenList
  root : Option Node
  /-- the heads let through, last first -/
  unresolved : List Unresolved

namespace PartialFormula

/-- Nothing read. -/
def empty : PartialFormula :=
  ⟨[], none, []⟩

/-- The operator of the innermost list that has one. -/
def operator? (p : PartialFormula) : Option String :=
  p.stack.findSome? fun l => l.head.map (·.1)

/-- An error at an offset, in the list that is open. -/
def fail {α : Type} (p : PartialFormula) (offset : Nat) (kind : SyntaxErrorKind) :
    Except SyntaxError α :=
  .error ⟨kind, offset, p.operator?⟩

/-- A complete node: the next argument of the innermost list, or the whole formula. -/
def add (p : PartialFormula) (n : Node) : PartialFormula :=
  match p.stack with
  | [] => { p with root := some n }
  | l :: outer => { p with stack := { l with args := n :: l.args } :: outer }

/-- Whether the innermost list waits for its head. -/
def wantsHead (p : PartialFormula) : Bool :=
  (p.stack.head?).any fun l => l.head.isNone

/-- The head of the innermost list. -/
def setHead (p : PartialFormula) (name : String) (offset : Nat) : PartialFormula :=
  match p.stack with
  | [] => p
  | l :: outer => { p with stack := { l with head := some (name, offset) } :: outer }

/-- A bare word at the head of a list. `known` tells which operators are registered. -/
def takeHead (known : String → Bool) (options : ParseOptions) (p : PartialFormula)
    (word : List Char) (offset : Nat) : Except SyntaxError PartialFormula :=
  let name := String.ofList word
  if !isOperatorWord word then p.fail offset .operatorExpected
  else if known name then .ok (p.setHead name offset)
  else if options.allowUnknown then
    .ok ({ p with unresolved := ⟨name, offset⟩ :: p.unresolved }.setHead name offset)
  else p.fail offset (.unknownOperator name)

/-- One lexeme more. -/
def step (known : String → Bool) (options : ParseOptions) (p : PartialFormula) (l : Lexeme) :
    Except SyntaxError PartialFormula :=
  if p.root.isSome then .error ⟨.trailingInput, l.offset, none⟩
  else
    match l.token with
    | .openList =>
      if p.wantsHead then p.fail l.offset .operatorExpected
      else if options.maxDepth ≤ p.stack.length then p.fail l.offset (.tooDeep options.maxDepth)
      else .ok { p with stack := ⟨l.offset, none, []⟩ :: p.stack }
    | .closeList =>
      match p.stack with
      | [] => p.fail l.offset .unexpectedClose
      | top :: outer =>
        let p := { p with stack := outer }
        match top.head with
        | none => p.fail top.offset .emptyList
        | some (name, offset) => .ok (p.add (top.close name offset))
    | .quoted s =>
      if p.wantsHead then p.fail l.offset .operatorExpected
      else .ok (p.add (.atom (.text s) l.offset))
    | .bare word =>
      if p.wantsHead then p.takeHead known options word l.offset
      else
        match wordAtom word with
        | .error kind => p.fail l.offset kind
        | .ok a => .ok (p.add (.atom a l.offset))

/-- The end of the text. -/
def finish (p : PartialFormula) : Except SyntaxError Formula :=
  match p.stack, p.root with
  | l :: _, _ => p.fail l.offset .unclosed
  | [], some root => .ok ⟨root, p.unresolved.reverse⟩
  | [], none => .error ⟨.empty, 0, none⟩

/-- All lexemes of a row. -/
def steps (known : String → Bool) (options : ParseOptions) (p : PartialFormula)
    (row : List Lexeme) : Except SyntaxError PartialFormula :=
  row.foldlM (step known options) p

end PartialFormula

/-- Reads a text as a formula over the operators that are `known`. -/
def parseChars (known : String → Bool) (options : ParseOptions) (text : List Char) :
    Except SyntaxError Formula := do
  let row ← lex text
  let p ← PartialFormula.empty.steps known options row
  p.finish

end MissionScript
