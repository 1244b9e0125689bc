import MissionScript.Proofs.Formula.Shape

/-!
The grammar of formulas. A text falls apart into lexemes, with white space and comments between them,
and the lexemes are those of one expression: a quoted text, a word that is an argument, or a list of
a head and expressions.
-/

namespace MissionScript

/-- The number of bytes of a text. -/
def byteLength : List Char → Nat
  | [] => 0
  | c :: text => c.utf8Size + byteLength text

/-- A text that begins with something that cannot go on with a bare word, or that is empty. -/
def EndsWord (text : List Char) : Prop :=
  ∀ c ∈ text.head?, isBareChar c = false

/-- What stands between quotes, and the text that it stands for. A backslash stands before a quote or
    another backslash, and nowhere else. -/
inductive Quotes : List Char → List Char → Prop where
  | nil : Quotes [] []
  | plain {c : Char} {body s : List Char} (hc : c ≠ '"' ∧ c ≠ '\\') (h : Quotes body s) :
    Quotes (c :: body) (c :: s)
  | escaped {c : Char} {body s : List Char} (hc : c = '"' ∨ c = '\\') (h : Quotes body s) :
    Quotes ('\\' :: c :: body) (c :: s)

/-- A text after some bytes and the lexemes that it falls apart into. A comment goes on to the end of
    its line, and a bare word as far as it can. -/
inductive Splits : Nat → List Char → List Lexeme → Prop where
  | nil (offset : Nat) : Splits offset [] []
  | blank {offset : Nat} {c : Char} {text : List Char} {row : List Lexeme}
    (hc : Text.isBlank c = true) (h : Splits (offset + c.utf8Size) text row) :
    Splits offset (c :: text) row
  | comment {offset : Nat} {body rest : List Char} {row : List Lexeme} (hbody : '\n' ∉ body)
    (hrest : ∀ c ∈ rest.head?, c = '\n') (h : Splits (offset + byteLength (';' :: body)) rest row) :
    Splits offset (';' :: (body ++ rest)) row
  | openList {offset : Nat} {text : List Char} {row : List Lexeme}
    (h : Splits (offset + '('.utf8Size) text row) :
    Splits offset ('(' :: text) (⟨.openList, offset⟩ :: row)
  | closeList {offset : Nat} {text : List Char} {row : List Lexeme}
    (h : Splits (offset + ')'.utf8Size) text row) :
    Splits offset (')' :: text) (⟨.closeList, offset⟩ :: row)
  | quoted {offset : Nat} {body s rest : List Char} {row : List Lexeme} (hbody : Quotes body s)
    (h : Splits (offset + byteLength ('"' :: (body ++ ['"']))) rest row) :
    Splits offset ('"' :: (body ++ '"' :: rest)) (⟨.quoted (String.ofList s), offset⟩ :: row)
  | bare {offset : Nat} {word rest : List Char} {row : List Lexeme} (hword : Node.IsBareWord word)
    (hrest : EndsWord rest) (h : Splits (offset + byteLength word) rest row) :
    Splits offset (word ++ rest) (⟨.bare word, offset⟩ :: row)

/-- A bare word that is an argument, and its atom. -/
inductive IsArgument : List Char → Atom → Prop where
  | variable {name : List Char} (hname : name ≠ []) :
    IsArgument ('@' :: name) (.variable (String.ofList name))
  | number {word : List Char} {x : Float} (hnumeric : looksNumeric word = true)
    (hread : readNumber? word = some x) : IsArgument word (.number x)
  | text {word : List Char} (hat : word.head? ≠ some '@') (hnumeric : looksNumeric word = false) :
    IsArgument word (.text (String.ofList word))

/-- The expressions of the grammar: a row of lexemes and the tree that it is derived as. The
    arguments of a list come with the lexemes of each. -/
inductive Derives (known : String → Bool) (options : ParseOptions) : List Lexeme → Node → Prop where
  | quoted (s : String) (offset : Nat) :
    Derives known options [⟨.quoted s, offset⟩] (.atom (.text s) offset)
  | word {word : List Char} {a : Atom} (offset : Nat) (h : IsArgument word a) :
    Derives known options [⟨.bare word, offset⟩] (.atom a offset)
  | list {name : String} {args : List (List Lexeme × Node)} (offset headOffset closeOffset : Nat)
    (hname : isOperatorWord name.toList = true)
    (hallowed : known name = true ∨ options.allowUnknown = true)
    (hargs : ∀ arg ∈ args, Derives known options arg.1 arg.2) :
    Derives known options
      (⟨.openList, offset⟩ :: ⟨.bare name.toList, headOffset⟩ ::
        ((args.map (·.1)).flatten ++ [⟨.closeList, closeOffset⟩]))
      (.list (.atom (.operator name) headOffset :: args.map (·.2)) offset)

namespace Node

/-- The head of a row of nodes with its place, if it is not registered. -/
def unresolvedHead (known : String → Bool) : List Node → List Unresolved
  | .atom (.operator name) offset :: _ => if known name then [] else [⟨name, offset⟩]
  | _ => []

mutual

/-- The heads that are not registered, with their places, in the order in which they are written. -/
def unresolved (known : String → Bool) : Node → List Unresolved
  | .atom .. => []
  | .list children _ => unresolvedHead known children ++ unresolvedAll known children

/-- The heads that are not registered in a row of nodes. -/
def unresolvedAll (known : String → Bool) : List Node → List Unresolved
  | [] => []
  | n :: rest => n.unresolved known ++ unresolvedAll known rest

end

theorem unresolvedAll_eq_flatMap (known : String → Bool) (nodes : List Node) :
    unresolvedAll known nodes = nodes.flatMap (unresolved known) := by
  induction nodes with
  | nil => rfl
  | cons n rest ih => rw [unresolvedAll, ih, List.flatMap_cons]

/-- The heads of an application: its own, and those of its arguments. -/
theorem unresolved_application (known : String → Bool) (name : String) (headOffset offset : Nat)
    (args : List Node) :
    (list (atom (.operator name) headOffset :: args) offset).unresolved known =
      (if known name then [] else [⟨name, headOffset⟩]) ++ args.flatMap (unresolved known) := by
  rw [unresolved, unresolvedAll, unresolved, List.nil_append, unresolvedAll_eq_flatMap]
  rfl

theorem map_name_unresolvedHead (known : String → Bool) (nodes : List Node) :
    (unresolvedHead known nodes).map Unresolved.name = unknownHead known nodes := by
  rcases nodes with _ | ⟨⟨name | _ | _ | _, offset⟩ | _, rest⟩
  case cons.atom.operator => cases hknown : known name <;> simp [unresolvedHead, unknownHead, headName?, hknown]
  all_goals rfl

mutual

theorem map_name_unresolved (known : String → Bool) (n : Node) :
    (n.unresolved known).map Unresolved.name = n.unknownHeads known := by
  cases n with
  | atom a offset => rfl
  | list children offset =>
    rw [unresolved, unknownHeads, List.map_append, map_name_unresolvedHead,
      map_name_unresolvedAll known children]

theorem map_name_unresolvedAll (known : String → Bool) (nodes : List Node) :
    (unresolvedAll known nodes).map Unresolved.name = unknownHeadsAll known nodes := by
  cases nodes with
  | nil => rfl
  | cons n rest =>
    rw [unresolvedAll, unknownHeadsAll, List.map_append, map_name_unresolved known n,
      map_name_unresolvedAll known rest]

end

end Node

theorem endsWord_nil : EndsWord [] := by
  simp [EndsWord]

theorem endsWord_cons {c : Char} {text : List Char} :
    EndsWord (c :: text) ↔ isBareChar c = false := by
  simp [EndsWord]

theorem EndsWord.append {text rest : List Char} (htext : EndsWord text) (hrest : EndsWord rest) :
    EndsWord (text ++ rest) := by
  cases text with
  | nil => exact hrest
  | cons c text => exact endsWord_cons.2 (endsWord_cons.1 htext)

theorem byteLength_cons (c : Char) (text : List Char) :
    byteLength (c :: text) = c.utf8Size + byteLength text :=
  rfl

theorem byteLength_append (text text' : List Char) :
    byteLength (text ++ text') = byteLength text + byteLength text' := by
  induction text with
  | nil => simp [byteLength]
  | cons c text ih => rw [List.cons_append, byteLength_cons, byteLength_cons, ih, Nat.add_assoc]

theorem byteLength_concat (text : List Char) (c : Char) :
    byteLength (text ++ [c]) = byteLength text + c.utf8Size :=
  byteLength_append text [c]

theorem byteLength_pos {text : List Char} (h : text ≠ []) : 0 < byteLength text := by
  obtain ⟨c, text, rfl⟩ := List.exists_cons_of_ne_nil h
  exact Nat.add_pos_left c.utf8Size_pos _

/-- The beginning of a text is known by its length. -/
theorem eq_of_byteLength_eq {read read' rest rest' : List Char}
    (htext : read ++ rest = read' ++ rest') (hlength : byteLength read = byteLength read') :
    read = read' := by
  have hnil {read mid : List Char} (h : byteLength (read ++ mid) = byteLength read) : mid = [] := by
    refine Decidable.byContradiction fun hne => ?_
    have hpos := byteLength_pos hne
    rw [byteLength_append] at h
    omega
  rcases List.append_eq_append_iff.1 htext with ⟨mid, rfl, -⟩ | ⟨mid, rfl, -⟩
  · rw [hnil hlength.symm, List.append_nil]
  · rw [hnil hlength, List.append_nil]

theorem Quotes.append {body s body' s' : List Char} (h : Quotes body s) (h' : Quotes body' s') :
    Quotes (body ++ body') (s ++ s') := by
  induction h with
  | nil => exact h'
  | plain hc _ ih => exact .plain hc ih
  | escaped hc _ ih => exact .escaped hc ih

theorem wordAtom_eq_ok_iff {word : List Char} {a : Atom} :
    wordAtom word = .ok a ↔ IsArgument word a := by
  constructor
  · intro h
    unfold wordAtom at h
    split at h
    · next name =>
      split at h
      · cases h
      · next hname =>
        obtain rfl := Except.ok.inj h
        exact .variable (by simpa using hname)
    · next hat =>
      split at h
      · next hnumeric =>
        split at h
        · next x hread =>
          obtain rfl := Except.ok.inj h
          exact .number hnumeric hread
        · cases h
      · next hnumeric =>
        obtain rfl := Except.ok.inj h
        refine .text (fun hhead => ?_) (by simpa using hnumeric)
        obtain ⟨name, rfl⟩ := List.head?_eq_some_iff.1 hhead
        exact hat name rfl
  · intro h
    cases h with
    | «variable» hname =>
      rw [wordAtom, if_neg (by simpa using hname)]
    | number hnumeric hread =>
      unfold wordAtom
      split
      · next name => exact absurd hnumeric (by simp [looksNumeric, isDigit])
      · rw [if_pos hnumeric, hread]
    | text hat hnumeric =>
      unfold wordAtom
      split
      · exact absurd rfl hat
      · rw [if_neg (by simp [hnumeric])]

/-- What is wrong with a bare word that is no argument. -/
theorem wordAtom_eq_error {word : List Char} {kind : SyntaxErrorKind}
    (h : wordAtom word = .error kind) :
    (kind = .emptyVariable ∧ word = ['@']) ∨ kind = .invalidNumber (String.ofList word) := by
  unfold wordAtom at h
  split at h
  · next name =>
    split at h
    · next hempty => exact Or.inl ⟨(Except.error.inj h).symm, by simpa using hempty⟩
    · cases h
  · split at h
    · split at h
      · cases h
      · exact Or.inr (Except.error.inj h).symm
    · cases h

end MissionScript
