import MissionScript.Proofs.Formula.Splitting

/-!
What the grammar derives is read. The reader is followed through the lexemes of a node, wherever a
node may come next. What is printed for a well-formed tree is derived, and so it is read as a tree of
the same shape.
-/

namespace MissionScript

theorem looksNumeric_text_plain (d : Decimal) :
    looksNumeric (d.text .plain) = true := by
  obtain ⟨digit, rest, htext, hdigit, -⟩ := d.exists_text_plain
  rw [htext]
  cases d.negative <;> simp [signText, looksNumeric, hdigit]

/-- A finite number that is written as a bare word is read as the number. -/
theorem isArgument_numberText {x : Float} (h : x.isFinite = true) :
    IsArgument (numberText .plain x) (.number x) := by
  obtain ⟨negative, m, e, hparts⟩ := exists_floatParts h
  have htext : numberText .plain x = (Decimal.shortest .up x negative m e).text .plain := by
    unfold numberText
    rw [hparts]
    rfl
  refine .number ?_ (readNumber?_numberText h)
  rw [htext]
  exact looksNumeric_text_plain (Decimal.shortest .up x negative m e)

theorem isArgument_variable {name : String} (hname : Node.IsBareWord name.toList) :
    IsArgument ('@' :: name.toList) (.variable name) := by
  have harg := IsArgument.variable hname.1
  rwa [String.ofList_toList] at harg

/-- The lexemes that well-formed trees are written as are derived as trees of the same shape. -/
theorem exists_derives_args {known : String → Bool} {options : ParseOptions} {args : List Node}
    (hargs : ∀ n ∈ args, ∀ row : List Lexeme, row.map Lexeme.token = n.tokens →
      ∃ n', Derives known options row n' ∧ n'.shape = n.shape)
    {row : List Lexeme} (hrow : row.map Lexeme.token = Node.tokensAll args) :
    ∃ parts : List (List Lexeme × Node), (parts.map (·.1)).flatten = row ∧
      (∀ part ∈ parts, Derives known options part.1 part.2) ∧
      Node.shapeAll (parts.map (·.2)) = Node.shapeAll args := by
  induction args generalizing row with
  | nil =>
    obtain rfl := List.map_eq_nil_iff.1 hrow
    exact ⟨[], rfl, nofun, rfl⟩
  | cons n rest ih =>
    obtain ⟨hn, hrest⟩ := List.forall_mem_cons.1 hargs
    rw [Node.tokensAll] at hrow
    obtain ⟨row₁, row₂, rfl, hrow₁, hrow₂⟩ := List.map_eq_append_iff.1 hrow
    obtain ⟨n', hderives, hshape⟩ := hn row₁ hrow₁
    obtain ⟨parts, rfl, hparts, hshapes⟩ := ih hrest hrow₂
    refine ⟨(row₁, n') :: parts, rfl, List.forall_mem_cons.2 ⟨hderives, hparts⟩, ?_⟩
    rw [List.map_cons, Node.shapeAll, Node.shapeAll, hshape, hshapes]

theorem Node.WellFormed.exists_derives {known : String → Bool} {options : ParseOptions} {n : Node}
    (h : n.WellFormed known options) (row : List Lexeme) (hrow : row.map Lexeme.token = n.tokens) :
    ∃ n', Derives known options row n' ∧ n'.shape = n.shape := by
  induction h generalizing row with
  | number offset hfinite =>
    obtain ⟨⟨token, start⟩, rfl, rfl⟩ := List.map_eq_singleton_iff.1 hrow
    exact ⟨_, .word start (isArgument_numberText hfinite), rfl⟩
  | text s offset =>
    obtain ⟨⟨token, start⟩, rfl, rfl⟩ := List.map_eq_singleton_iff.1 hrow
    exact ⟨_, .quoted s start, rfl⟩
  | «variable» offset hname =>
    obtain ⟨⟨token, start⟩, rfl, rfl⟩ := List.map_eq_singleton_iff.1 hrow
    exact ⟨_, .word start (isArgument_variable hname), rfl⟩
  | @list name args headOffset offset hhead _ ih =>
    have htokens : (Node.list (.atom (.operator name) headOffset :: args) offset).tokens =
        .openList :: .bare name.toList :: (Node.tokensAll args ++ [.closeList]) := rfl
    rw [htokens] at hrow
    obtain ⟨⟨_, start⟩, row₁, rfl, rfl, hrow₁⟩ := List.map_eq_cons_iff.1 hrow
    obtain ⟨⟨_, headStart⟩, row₂, rfl, rfl, hrow₂⟩ := List.map_eq_cons_iff.1 hrow₁
    obtain ⟨row₃, row₄, rfl, hrow₃, hrow₄⟩ := List.map_eq_append_iff.1 hrow₂
    obtain ⟨⟨_, closeStart⟩, rfl, rfl⟩ := List.map_eq_singleton_iff.1 hrow₄
    obtain ⟨parts, rfl, hparts, hshapes⟩ := exists_derives_args ih hrow₃
    refine ⟨_, .list start headStart closeStart hhead.isOperatorWord hhead.allowed hparts, ?_⟩
    rw [Node.shape, Node.shape, Node.shapeAll, Node.shapeAll, hshapes, Node.shape, Node.shape]

namespace PartialFormula

variable {known : String → Bool} {options : ParseOptions}

/-- Whether a complete node may come next: the formula is not at its end, and the innermost list has
    its head. -/
structure IsReady (p : PartialFormula) : Prop where
  root_eq_none : p.root = none
  wantsHead_eq_false : p.wantsHead = false

theorem steps_cons (p : PartialFormula) (l : Lexeme) (row : List Lexeme) :
    p.steps known options (l :: row) =
      (p.step known options l).bind fun next => next.steps known options row := by
  rw [steps, List.foldlM_cons]
  rfl

theorem steps_cons_of_step {p next : PartialFormula} {l : Lexeme}
    (hstep : p.step known options l = .ok next) (row : List Lexeme) :
    p.steps known options (l :: row) = next.steps known options row := by
  rw [steps_cons, hstep]
  rfl

theorem steps_append_of_steps {p next : PartialFormula} {row : List Lexeme}
    (hsteps : p.steps known options row = .ok next) (row' : List Lexeme) :
    p.steps known options (row ++ row') = next.steps known options row' := by
  unfold steps at hsteps ⊢
  rw [List.foldlM_append, hsteps]
  rfl

/-- A reader stops at the first lexeme that it cannot take. -/
theorem exists_step_error {p : PartialFormula} {row : List Lexeme} {e : SyntaxError}
    (hsteps : p.steps known options row = .error e) :
    ∃ before l after q, row = before ++ l :: after ∧ p.steps known options before = .ok q ∧
      q.step known options l = .error e := by
  induction row generalizing p with
  | nil => cases hsteps
  | cons l row ih =>
    rw [steps_cons] at hsteps
    cases hstep : p.step known options l with
    | error e' =>
      rw [hstep] at hsteps
      obtain rfl : e' = e := Except.error.inj hsteps
      exact ⟨[], l, row, p, rfl, rfl, hstep⟩
    | ok q =>
      rw [hstep] at hsteps
      obtain ⟨before, l', after, q', rfl, hread, hfails⟩ := ih hsteps
      exact ⟨l :: before, l', after, q', rfl, (steps_cons_of_step hstep before).trans hread, hfails⟩

theorem step_word {p : PartialFormula} {l : Lexeme} {word : List Char} {a : Atom}
    (hready : p.IsReady) (hl : l.token = .bare word) (ha : wordAtom word = .ok a) :
    p.step known options l = .ok (p.add (.atom a l.offset)) := by
  unfold step
  simp [hready.root_eq_none, hready.wantsHead_eq_false, hl, ha]

theorem step_quoted {p : PartialFormula} {l : Lexeme} {s : String}
    (hready : p.IsReady) (hl : l.token = .quoted s) :
    p.step known options l = .ok (p.add (.atom (.text s) l.offset)) := by
  unfold step
  simp [hready.root_eq_none, hready.wantsHead_eq_false, hl]

theorem step_openList {p : PartialFormula} {l : Lexeme} (hready : p.IsReady)
    (hroom : p.stack.length < options.maxDepth) (hl : l.token = .openList) :
    p.step known options l = .ok { p with stack := ⟨l.offset, none, []⟩ :: p.stack } := by
  unfold step
  simp [hready.root_eq_none, hready.wantsHead_eq_false, hl, hroom]

theorem step_head {p : PartialFormula} {l : Lexeme} {name : String} {top : OpenList}
    {outer : List OpenList} (hroot : p.root = none) (hstack : p.stack = top :: outer)
    (htop : top.head = none) (hname : isOperatorWord name.toList = true)
    (hallowed : known name = true ∨ options.allowUnknown = true) (hl : l.token = .bare name.toList) :
    p.step known options l =
      .ok { p with
        stack := { top with head := some (name, l.offset) } :: outer
        unresolved := (if known name then [] else [⟨name, l.offset⟩]) ++ p.unresolved } := by
  have hwants : p.wantsHead = true := by simp [wantsHead, hstack, htop]
  unfold step takeHead setHead
  by_cases hknown : known name = true
  · simp [hroot, hl, hwants, hname, hknown, hstack]
  · simp [hroot, hl, hwants, hname, hknown, hallowed.resolve_left hknown, hstack]

theorem step_closeList {p : PartialFormula} {l : Lexeme} {name : String} {offset : Nat}
    {top : OpenList} {outer : List OpenList} (hroot : p.root = none)
    (hstack : p.stack = top :: outer) (htop : top.head = some (name, offset))
    (hl : l.token = .closeList) :
    p.step known options l =
      .ok (({ p with stack := outer } : PartialFormula).add (top.close name offset)) := by
  unfold step
  simp [hroot, hl, hstack, htop]

/-- The lexemes of a node are read as that node wherever one may come next and there is room for its
    lists, and the heads that are not registered are recorded. -/
def Reads (known : String → Bool) (options : ParseOptions) (row : List Lexeme) (n : Node) : Prop :=
  ∀ p : PartialFormula, p.IsReady → n.nesting + p.stack.length ≤ options.maxDepth →
    p.steps known options row =
      .ok (({ p with unresolved := (n.unresolved known).reverse ++ p.unresolved } :
        PartialFormula).add n)

/-- The arguments of a list are read one after the other. -/
theorem steps_args {args : List (List Lexeme × Node)}
    (hargs : ∀ arg ∈ args, Reads known options arg.1 arg.2) {p : PartialFormula} {top : OpenList}
    {outer : List OpenList} (hroot : p.root = none) (hstack : p.stack = top :: outer)
    (htop : top.head.isSome = true)
    (hdepth : Node.nestingAll (args.map (·.2)) + p.stack.length ≤ options.maxDepth) :
    p.steps known options (args.map (·.1)).flatten =
      .ok { p with
        stack := { top with args := (args.map (·.2)).reverse ++ top.args } :: outer
        unresolved := ((args.map (·.2)).flatMap (Node.unresolved known)).reverse ++ p.unresolved } := by
  induction args generalizing p top with
  | nil =>
    rw [List.map_nil, List.map_nil, List.reverse_nil, List.nil_append, ← hstack]
    rfl
  | cons arg rest ih =>
    obtain ⟨harg, hrest⟩ := List.forall_mem_cons.1 hargs
    rw [List.map_cons, Node.nestingAll] at hdepth
    have hready : p.IsReady := ⟨hroot, by cases h : top.head <;> simp_all [wantsHead]⟩
    have hfirst := harg p hready (by omega)
    have hadd : ({ p with unresolved := (arg.2.unresolved known).reverse ++ p.unresolved } :
        PartialFormula).add arg.2 =
        { p with
          stack := { top with args := arg.2 :: top.args } :: outer
          unresolved := (arg.2.unresolved known).reverse ++ p.unresolved } := by
      simp [add, hstack]
    rw [hadd] at hfirst
    have hnext := ih hrest
      (p := { p with
        stack := { top with args := arg.2 :: top.args } :: outer
        unresolved := (arg.2.unresolved known).reverse ++ p.unresolved })
      hroot rfl htop (by simp [hstack] at hdepth ⊢; omega)
    rw [List.map_cons, List.flatten_cons, steps_append_of_steps hfirst, hnext]
    simp [List.append_assoc]

theorem reads_list {name : String} {args : List (List Lexeme × Node)}
    (offset headOffset closeOffset : Nat) (hname : isOperatorWord name.toList = true)
    (hallowed : known name = true ∨ options.allowUnknown = true)
    (hargs : ∀ arg ∈ args, Reads known options arg.1 arg.2) :
    Reads known options
      (⟨.openList, offset⟩ :: ⟨.bare name.toList, headOffset⟩ ::
        ((args.map (·.1)).flatten ++ [⟨.closeList, closeOffset⟩]))
      (.list (.atom (.operator name) headOffset :: args.map (·.2)) offset) := by
  intro p hready hdepth
  rw [Node.nesting_application] at hdepth
  have hopen : p.step known options ⟨.openList, offset⟩ =
      .ok { p with stack := ⟨offset, none, []⟩ :: p.stack } :=
    step_openList hready (by omega) rfl
  have hhead := step_head (p := { p with stack := ⟨offset, none, []⟩ :: p.stack })
    (l := ⟨.bare name.toList, headOffset⟩) hready.root_eq_none rfl rfl hname hallowed rfl
  let own : List Unresolved := if known name then [] else [⟨name, headOffset⟩]
  have hsteps := steps_args hargs
    (p := { p with
      stack := ⟨offset, some (name, headOffset), []⟩ :: p.stack
      unresolved := own ++ p.unresolved })
    hready.root_eq_none rfl rfl (by rw [List.length_cons]; omega)
  rw [List.append_nil] at hsteps
  let q : PartialFormula := { p with
    stack := ⟨offset, some (name, headOffset), (args.map (·.2)).reverse⟩ :: p.stack
    unresolved := ((args.map (·.2)).flatMap (Node.unresolved known)).reverse ++ (own ++ p.unresolved) }
  have hclose : q.step known options ⟨.closeList, closeOffset⟩ = _ :=
    step_closeList hready.root_eq_none rfl rfl rfl
  have hunresolved : ((Node.list (.atom (.operator name) headOffset :: args.map (·.2)) offset).unresolved
      known).reverse = ((args.map (·.2)).flatMap (Node.unresolved known)).reverse ++ own := by
    rw [Node.unresolved_application, List.reverse_append]
    congr 1
    dsimp only [own]
    split <;> rfl
  rw [steps_cons_of_step hopen, steps_cons_of_step hhead, steps_append_of_steps hsteps,
    steps_cons_of_step hclose, hunresolved, List.append_assoc, OpenList.close, List.reverse_reverse]
  rfl

/-- Whatever the grammar derives is read. -/
theorem reads_of_derives {row : List Lexeme} {n : Node} (h : Derives known options row n) :
    Reads known options row n := by
  induction h with
  | quoted s offset => 
    intro p hready _
    rw [steps_cons_of_step (step_quoted hready rfl)]
    rfl
  | word offset harg =>
    intro p hready _
    rw [steps_cons_of_step (step_word hready rfl (wordAtom_eq_ok_iff.2 harg))]
    rfl
  | list offset headOffset closeOffset hname hallowed _ ih =>
    exact reads_list offset headOffset closeOffset hname hallowed ih

end PartialFormula

theorem parseChars_eq_ok_iff {known : String → Bool} {options : ParseOptions} {text : List Char}
    {f : Formula} : parseChars known options text = .ok f ↔ ∃ row p, lex text = .ok row ∧
      PartialFormula.empty.steps known options row = .ok p ∧ p.finish = .ok f := by
  unfold parseChars
  cases lex text with
  | error e => simp [Bind.bind, Except.bind]
  | ok row =>
    simp only [Bind.bind, Except.bind]
    cases hsteps : PartialFormula.empty.steps known options row <;> simp [hsteps]

theorem parseChars_eq_error_iff {known : String → Bool} {options : ParseOptions} {text : List Char}
    {e : SyntaxError} : parseChars known options text = .error e ↔ lex text = .error e ∨
      ∃ row, lex text = .ok row ∧ (PartialFormula.empty.steps known options row = .error e ∨
        ∃ p, PartialFormula.empty.steps known options row = .ok p ∧ p.finish = .error e) := by
  unfold parseChars
  cases lex text with
  | error e' => simp [Bind.bind, Except.bind]
  | ok row =>
    simp only [Bind.bind, Except.bind]
    cases hsteps : PartialFormula.empty.steps known options row <;> simp [hsteps]

/-- An answer is known to be an error by what of it can be compared. -/
theorem parseChars_eq_error_of_map {known : String → Bool} {options : ParseOptions}
    {text : List Char} {e : SyntaxError}
    (h : (parseChars known options text).map Formula.unresolved = .error e) :
    parseChars known options text = .error e := by
  cases hparse : parseChars known options text with
  | error e' =>
    rw [hparse] at h
    exact congrArg Except.error (Except.error.inj h)
  | ok f =>
    rw [hparse] at h
    cases h

/-- A text whose lexemes the grammar derives is read as the tree that they are derived as. -/
theorem parseChars_of_derives {known : String → Bool} {options : ParseOptions} {text : List Char}
    {row : List Lexeme} {n : Node} (hlex : lex text = .ok row) (h : Derives known options row n)
    (hdepth : n.nesting ≤ options.maxDepth) :
    parseChars known options text = .ok ⟨n, n.unresolved known⟩ := by
  refine parseChars_eq_ok_iff.2
    ⟨row, _, hlex, PartialFormula.reads_of_derives h .empty ⟨rfl, rfl⟩ hdepth, ?_⟩
  simp [PartialFormula.empty, PartialFormula.add, PartialFormula.finish]

/-- What is printed for a well-formed tree is read as a tree of the same shape. -/
theorem parseChars_chars {known : String → Bool} {options : ParseOptions} {n : Node}
    (h : n.WellFormed known options) (hdepth : n.nesting ≤ options.maxDepth) :
    ∃ f, parseChars known options n.chars = .ok f ∧ f.root.shape = n.shape ∧
      f.unresolved.map Unresolved.name = n.unknownHeads known := by
  obtain ⟨row, hlex, hrow⟩ := h.lex_chars
  obtain ⟨n', hderives, hshape⟩ := h.exists_derives row hrow
  have hnesting : n'.nesting = n.nesting := by
    rw [← Node.nesting_shape, hshape, Node.nesting_shape]
  refine ⟨_, parseChars_of_derives hlex hderives (hnesting.trans_le hdepth), hshape, ?_⟩
  rw [Node.map_name_unresolved, ← Node.unknownHeads_shape, hshape, Node.unknownHeads_shape]

end MissionScript
