import MissionScript.Proofs.Formula.Reading

/-!
White space and comments between lexemes are not seen. A text is read with its offsets forgotten:
what the lexer finds and what the reader makes of it then depend on the tokens alone.
-/

namespace MissionScript

/-- Two texts of the same lexemes with different white space and different comments between them. What
    stands after the last difference may be any text. -/
inductive Respaced : List Char → List Char → Prop where
  | refl (text : List Char) : Respaced text text
  | symm {text text' : List Char} (h : Respaced text text') : Respaced text' text
  | blank {c : Char} {text text' : List Char} (hc : Text.isBlank c = true)
    (h : Respaced text text') : Respaced (c :: text) text'
  | comment {body rest text' : List Char} (hbody : '\n' ∉ body) (hrest : ∀ c ∈ rest.head?, c = '\n')
    (h : Respaced rest text') : Respaced (';' :: (body ++ rest)) text'
  | openList {text text' : List Char} (h : Respaced text text') :
    Respaced ('(' :: text) ('(' :: text')
  | closeList {text text' : List Char} (h : Respaced text text') :
    Respaced (')' :: text) (')' :: text')
  | quoted {body s text text' : List Char} (hbody : Quotes body s) (h : Respaced text text') :
    Respaced ('"' :: (body ++ '"' :: text)) ('"' :: (body ++ '"' :: text'))
  | bare {word text text' : List Char} (hword : Node.IsBareWord word) (hends : EndsWord text)
    (hends' : EndsWord text') (h : Respaced text text') : Respaced (word ++ text) (word ++ text')

/-- The same error, with its offset forgotten. -/
def SyntaxError.shape (e : SyntaxError) : SyntaxError :=
  { e with offset := 0 }

/-- The same head, with its offset forgotten. -/
def Unresolved.shape (u : Unresolved) : Unresolved :=
  { u with offset := 0 }

/-- The same formula, with all offsets forgotten. -/
def Formula.shape (f : Formula) : Formula :=
  ⟨f.root.shape, f.unresolved.map Unresolved.shape⟩

/-- What is read, with all offsets forgotten: those of an error, and those that `shape` forgets. -/
def shapeOf {α β : Type} (shape : α → β) : Except SyntaxError α → Except SyntaxError β
  | .error e => .error e.shape
  | .ok x => .ok (shape x)

theorem shapeOf_bind {α β γ : Type} {shape : α → α} {shape' : β → γ} {x : Except SyntaxError α}
    {f : α → Except SyntaxError β} {g : α → Except SyntaxError γ}
    (h : ∀ a, g (shape a) = shapeOf shape' (f a)) :
    shapeOf shape' (x.bind f) = (shapeOf shape x).bind g := by
  cases x with
  | error e => rfl
  | ok a => exact (h a).symm

/-! ### Lexemes -/

/-- What has been begun, with the offset where it was begun forgotten. -/
def Reading.shape : Reading → Reading
  | .between => .between
  | .comment => .comment
  | .quoted _ seen => .quoted 0 seen
  | .escape _ seen _ => .escape 0 seen 0
  | .bare _ seen => .bare 0 seen

/-- What a character leads to, with all offsets forgotten. -/
def Reading.shapeStep (next : Reading × List Lexeme) : Reading × List Token :=
  (next.1.shape, next.2.map Lexeme.token)

theorem shapeStep_begin (offset offset' : Nat) (c : Char) :
    Reading.shapeStep (Reading.begin offset c) = Reading.shapeStep (Reading.begin offset' c) := by
  unfold Reading.begin
  repeat' split
  all_goals rfl

theorem shapeOf_step (reading : Reading) (offset : Nat) (c : Char) :
    shapeOf Reading.shapeStep (reading.step offset c) =
      shapeOf Reading.shapeStep (reading.shape.step 0 c) := by
  have hbegin := shapeStep_begin offset 0 c
  cases reading with
  | between => exact congrArg Except.ok hbegin
  | comment => rfl
  | quoted start seen =>
    rw [Reading.shape, Reading.step, Reading.step]
    repeat' split
    all_goals rfl
  | escape start seen backslash =>
    rw [Reading.shape, Reading.step, Reading.step]
    split <;> rfl
  | bare start seen =>
    rw [Reading.shape, Reading.step, Reading.step]
    split
    · rfl
    · obtain ⟨hnext, hfound⟩ := Prod.mk.inj hbegin
      exact congrArg Except.ok (Prod.ext hnext (congrArg (Token.bare seen.reverse :: ·) hfound))

theorem shapeOf_map_append {row row' : List Lexeme} (hrow : row.map Lexeme.token = row'.map Lexeme.token)
    {x x' : Except SyntaxError (List Lexeme)}
    (hx : shapeOf (List.map Lexeme.token) x = shapeOf (List.map Lexeme.token) x') :
    shapeOf (List.map Lexeme.token) (x.map (row ++ ·)) =
      shapeOf (List.map Lexeme.token) (x'.map (row' ++ ·)) := by
  cases x <;> cases x' <;> simp_all [shapeOf, Except.map]

/-- What the lexer finds in a text depends on no offset but for those that it keeps. -/
theorem shapeOf_lexFrom {reading reading' : Reading} (h : reading.shape = reading'.shape)
    (offset offset' : Nat) (text : List Char) :
    shapeOf (List.map Lexeme.token) (lexFrom reading offset text) =
      shapeOf (List.map Lexeme.token) (lexFrom reading' offset' text) := by
  induction text generalizing reading reading' offset offset' with
  | nil => cases reading <;> cases reading' <;> cases h <;> rfl
  | cons c text ih =>
    have hstep : shapeOf Reading.shapeStep (reading.step offset c) =
        shapeOf Reading.shapeStep (reading'.step offset' c) := by
      rw [shapeOf_step, shapeOf_step reading', h]
    rw [lexFrom, lexFrom]
    cases hfirst : reading.step offset c with
    | error e =>
      cases hother : reading'.step offset' c with
      | error e' =>
        rw [hfirst, hother] at hstep
        exact congrArg Except.error (Except.error.inj hstep)
      | ok next =>
        rw [hfirst, hother] at hstep
        cases hstep
    | ok next =>
      cases hother : reading'.step offset' c with
      | error e' =>
        rw [hfirst, hother] at hstep
        cases hstep
      | ok next' =>
        rw [hfirst, hother] at hstep
        obtain ⟨hreading, hfound⟩ := Prod.mk.inj (Except.ok.inj hstep)
        exact shapeOf_map_append hfound (ih hreading _ _)

/-- Two texts that begin with the same tokens. -/
theorem shapeOf_lexFrom_of_found {text text' rest rest' : List Char} {tokens : List Token}
    (hfound : ∀ offset, ∃ row next, row.map Lexeme.token = tokens ∧
      lexFrom .between offset text = (lexFrom .between next rest).map (row ++ ·))
    (hfound' : ∀ offset, ∃ row next, row.map Lexeme.token = tokens ∧
      lexFrom .between offset text' = (lexFrom .between next rest').map (row ++ ·))
    (h : ∀ offset offset', shapeOf (List.map Lexeme.token) (lexFrom .between offset rest) =
      shapeOf (List.map Lexeme.token) (lexFrom .between offset' rest')) (offset offset' : Nat) :
    shapeOf (List.map Lexeme.token) (lexFrom .between offset text) =
      shapeOf (List.map Lexeme.token) (lexFrom .between offset' text') := by
  obtain ⟨row, next, hrow, hlex⟩ := hfound offset
  obtain ⟨row', next', hrow', hlex'⟩ := hfound' offset'
  rw [hlex, hlex']
  exact shapeOf_map_append (hrow.trans hrow'.symm) (h next next')

/-- A comment goes on to the end of its line, and nothing comes of it. -/
theorem lexFrom_comment {body rest : List Char} (hbody : '\n' ∉ body)
    (hrest : ∀ c ∈ rest.head?, c = '\n') (offset : Nat) :
    lexFrom .comment offset (body ++ rest) = lexFrom .between (offset + byteLength body) rest := by
  induction body generalizing offset with
  | nil =>
    cases rest with
    | nil => rfl
    | cons c rest =>
      obtain rfl : c = '\n' := hrest c rfl
      rw [List.nil_append, lexFrom_step_nil rfl,
        lexFrom_step_nil (by rw [Reading.step, begin_of_isBlank isBlank_newline])]
      rfl
  | cons c body ih =>
    rw [List.mem_cons, not_or] at hbody
    have hstep : Reading.comment.step offset c = .ok (.comment, []) := by
      rw [Reading.step, if_neg (by simpa using Ne.symm hbody.1)]
    rw [List.cons_append, lexFrom_step_nil hstep, ih hbody.2, byteLength_cons, Nat.add_assoc]

/-- The lexemes are the same whatever white space and comments stand between them, and so is what
    cannot be read as a lexeme. -/
theorem Respaced.shapeOf_lexFrom {text text' : List Char} (h : Respaced text text')
    (offset offset' : Nat) :
    shapeOf (List.map Lexeme.token) (lexFrom .between offset text) =
      shapeOf (List.map Lexeme.token) (lexFrom .between offset' text') := by
  induction h generalizing offset offset' with
  | refl text => exact MissionScript.shapeOf_lexFrom rfl offset offset' text
  | symm _ ih => exact (ih offset' offset).symm
  | blank hc _ ih =>
    rw [lexFrom_step_nil (by rw [Reading.step, begin_of_isBlank hc])]
    exact ih _ _
  | comment hbody hrest _ ih =>
    rw [lexFrom_step_nil rfl, lexFrom_comment hbody hrest]
    exact ih _ _
  | openList _ ih =>
    have hfound (rest : List Char) (offset : Nat) : ∃ row next, row.map Lexeme.token = [.openList] ∧
        lexFrom .between offset ('(' :: rest) = (lexFrom .between next rest).map (row ++ ·) :=
      ⟨[⟨.openList, offset⟩], _, rfl, lexFrom_step rfl rest⟩
    exact shapeOf_lexFrom_of_found (hfound _) (hfound _) ih offset offset'
  | closeList _ ih =>
    have hfound (rest : List Char) (offset : Nat) : ∃ row next, row.map Lexeme.token = [.closeList] ∧
        lexFrom .between offset (')' :: rest) = (lexFrom .between next rest).map (row ++ ·) :=
      ⟨[⟨.closeList, offset⟩], _, rfl, lexFrom_step rfl rest⟩
    exact shapeOf_lexFrom_of_found (hfound _) (hfound _) ih offset offset'
  | @quoted body s text text' hbody _ ih =>
    have hfound (rest : List Char) (offset : Nat) : ∃ row next,
        row.map Lexeme.token = [.quoted (String.ofList s)] ∧
          lexFrom .between offset ('"' :: (body ++ '"' :: rest)) =
            (lexFrom .between next rest).map (row ++ ·) := by
      obtain ⟨next, hlex⟩ := lexFrom_quote hbody rest offset
      exact ⟨[⟨.quoted (String.ofList s), offset⟩], next, rfl, hlex⟩
    exact shapeOf_lexFrom_of_found (hfound _) (hfound _) ih offset offset'
  | bare hword hends hends' _ ih =>
    exact shapeOf_lexFrom_of_found (fun offset => lexesTo_bare hword offset _ hends)
      (fun offset => lexesTo_bare hword offset _ hends') ih offset offset'

/-! ### Formulas -/

/-- The same lexeme, with its offset forgotten. -/
def Lexeme.shape (l : Lexeme) : Lexeme :=
  { l with offset := 0 }

/-- The same open list, with all offsets forgotten. -/
def OpenList.shape (l : OpenList) : OpenList :=
  ⟨0, l.head.map fun head => (head.1, 0), l.args.map Node.shape⟩

theorem OpenList.shape_close (l : OpenList) (name : String) (offset : Nat) :
    (l.close name offset).shape = l.shape.close name 0 := by
  rw [OpenList.close, OpenList.close, Node.shape, Node.shapeAll, Node.shape, Node.shapeAll_eq_map,
    List.map_reverse]
  rfl

namespace PartialFormula

variable {known : String → Bool} {options : ParseOptions}

/-- The same part of a formula, with all offsets forgotten. -/
def shape (p : PartialFormula) : PartialFormula :=
  ⟨p.stack.map OpenList.shape, p.root.map Node.shape, p.unresolved.map Unresolved.shape⟩

theorem operator?_shape (p : PartialFormula) : p.shape.operator? = p.operator? := by
  have hhead : ((fun l => l.head.map (·.1)) ∘ OpenList.shape) = fun l => l.head.map (·.1) := by
    funext l
    cases h : l.head <;> simp [OpenList.shape, h]
  rw [operator?, operator?, shape, List.findSome?_map, hhead]

theorem wantsHead_shape (p : PartialFormula) : p.shape.wantsHead = p.wantsHead := by
  rcases p with ⟨_ | ⟨⟨offset, _ | head, args⟩, outer⟩, root, found⟩ <;> rfl

theorem fail_shape {α β : Type} (p : PartialFormula) (offset : Nat) (kind : SyntaxErrorKind)
    (shape' : α → β) : p.shape.fail 0 kind = shapeOf shape' (p.fail offset kind) := by
  rw [fail, fail, operator?_shape]
  rfl

theorem add_shape (p : PartialFormula) (n : Node) : p.shape.add n.shape = (p.add n).shape := by
  rcases p with ⟨_ | ⟨l, outer⟩, root, found⟩ <;> rfl

theorem takeHead_shape (p : PartialFormula) (word : List Char) (offset : Nat) :
    p.shape.takeHead known options word 0 =
      shapeOf shape (p.takeHead known options word offset) := by
  have hset (p : PartialFormula) (name : String) : p.shape.setHead name 0 = (p.setHead name offset).shape := by
    rcases p with ⟨_ | ⟨l, outer⟩, root, found⟩ <;> rfl
  unfold takeHead
  dsimp only
  split
  · exact fail_shape p offset _ shape
  · split
    · exact congrArg Except.ok (hset p _)
    · split
      · exact congrArg Except.ok (hset { p with unresolved := ⟨String.ofList word, offset⟩ :: p.unresolved } _)
      · exact fail_shape p offset _ shape

/-- No offset decides what a lexeme does. -/
theorem step_shape (p : PartialFormula) (l : Lexeme) :
    p.shape.step known options l.shape = shapeOf shape (p.step known options l) := by
  have hroot : p.shape.root.isSome = p.root.isSome := Option.isSome_map
  obtain ⟨token, offset⟩ := l
  unfold step
  rw [hroot]
  dsimp only [Lexeme.shape]
  split
  · rfl
  · cases token with
    | openList =>
      have hlength : p.shape.stack.length = p.stack.length := List.length_map _
      dsimp only
      rw [wantsHead_shape, hlength]
      split
      · exact fail_shape p offset _ shape
      · split
        · exact fail_shape p offset _ shape
        · rfl
    | closeList =>
      obtain ⟨stack, root, found⟩ := p
      cases stack with
      | nil => exact fail_shape ⟨[], root, found⟩ offset _ shape
      | cons top outer =>
        obtain ⟨start, head, args⟩ := top
        cases head with
        | none => exact fail_shape ⟨outer, root, found⟩ start _ shape
        | some head =>
          have hadd := add_shape ⟨outer, root, found⟩
            ((⟨start, some head, args⟩ : OpenList).close head.1 head.2)
          rw [OpenList.shape_close] at hadd
          exact congrArg Except.ok hadd
    | quoted s =>
      dsimp only
      rw [wantsHead_shape]
      split
      · exact fail_shape p offset _ shape
      · exact congrArg Except.ok (add_shape p (.atom (.text s) offset))
    | bare word =>
      dsimp only
      rw [wantsHead_shape]
      split
      · exact takeHead_shape p word offset
      · cases wordAtom word with
        | error kind => exact fail_shape p offset kind shape
        | ok a => exact congrArg Except.ok (add_shape p (.atom a offset))

theorem steps_shape (p : PartialFormula) (row : List Lexeme) :
    p.shape.steps known options (row.map Lexeme.shape) = shapeOf shape (p.steps known options row) := by
  induction row generalizing p with
  | nil => rfl
  | cons l row ih =>
    rw [List.map_cons, steps_cons, steps_cons, step_shape]
    exact (shapeOf_bind fun next => ih next).symm

theorem finish_shape (p : PartialFormula) : p.shape.finish = shapeOf Formula.shape p.finish := by
  obtain ⟨stack, root, found⟩ := p
  cases stack with
  | cons l outer => exact fail_shape ⟨l :: outer, root, found⟩ l.offset .unclosed Formula.shape
  | nil =>
    cases root with
    | none => rfl
    | some root => simp [finish, shape, shapeOf, Formula.shape]

end PartialFormula

theorem shapeOf_map_shape {x y : Except SyntaxError (List Lexeme)}
    (h : shapeOf (List.map Lexeme.token) x = shapeOf (List.map Lexeme.token) y) :
    shapeOf (List.map Lexeme.shape) x = shapeOf (List.map Lexeme.shape) y := by
  have htoken (row : List Lexeme) :
      row.map Lexeme.shape = (row.map Lexeme.token).map fun token => ⟨token, 0⟩ := by
    rw [List.map_map]
    rfl
  cases x with
  | error e => cases y <;> simp_all [shapeOf]
  | ok row =>
    cases y with
    | error e => cases h
    | ok row' => rw [shapeOf, shapeOf, htoken, htoken, Except.ok.inj h]

/-- What is read depends on the tokens alone, but for the offsets. -/
theorem shapeOf_parseChars {known : String → Bool} {options : ParseOptions} {text text' : List Char}
    (h : shapeOf (List.map Lexeme.token) (lex text) = shapeOf (List.map Lexeme.token) (lex text')) :
    shapeOf Formula.shape (parseChars known options text) =
      shapeOf Formula.shape (parseChars known options text') := by
  have hsteps (row : List Lexeme) :
      ((PartialFormula.empty.steps known options (row.map Lexeme.shape)).bind
        PartialFormula.finish) =
      shapeOf Formula.shape
        ((PartialFormula.empty.steps known options row).bind PartialFormula.finish) := by
    have hshape := @PartialFormula.steps_shape known options .empty row
    rw [show PartialFormula.empty.shape = .empty from rfl] at hshape
    rw [hshape]
    exact (shapeOf_bind PartialFormula.finish_shape).symm
  have hparse (text : List Char) : shapeOf Formula.shape (parseChars known options text) =
      (shapeOf (List.map Lexeme.shape) (lex text)).bind fun row =>
        (PartialFormula.empty.steps known options row).bind PartialFormula.finish :=
    shapeOf_bind hsteps
  rw [hparse, hparse, shapeOf_map_shape h]

end MissionScript
