import MissionScript.Proofs.Formula.Reading

/-!
Whatever is read is derived by the grammar. An invariant of the lists that are open says which
lexemes they stand for: their own, and those that their arguments are derived from.
-/

namespace MissionScript

namespace OpenList

/-- A list that is open and the lexemes since it was opened. -/
inductive Covers (known : String → Bool) (options : ParseOptions) : OpenList → List Lexeme → Prop where
  | opened (offset : Nat) : Covers known options ⟨offset, none, []⟩ [⟨.openList, offset⟩]
  | headed {name : String} {args : List (List Lexeme × Node)} (offset headOffset : Nat)
    (hname : isOperatorWord name.toList = true)
    (hallowed : known name = true ∨ options.allowUnknown = true)
    (hargs : ∀ arg ∈ args, Derives known options arg.1 arg.2) :
    Covers known options ⟨offset, some (name, headOffset), (args.map (·.2)).reverse⟩
      (⟨.openList, offset⟩ :: ⟨.bare name.toList, headOffset⟩ :: (args.map (·.1)).flatten)

/-- The lists that are open and the lexemes since the outermost was opened. Only the innermost may
    wait for its head, and none is deeper than the options let it be. -/
inductive AllCover (known : String → Bool) (options : ParseOptions) :
    List OpenList → List Lexeme → Prop where
  | nil : AllCover known options [] []
  | cons {l : OpenList} {outer : List OpenList} {row own : List Lexeme}
    (hl : l.Covers known options own) (hheads : ∀ l ∈ outer.head?, l.head.isSome = true)
    (hdepth : Node.nestingAll l.args + (outer.length + 1) ≤ options.maxDepth)
    (houter : AllCover known options outer row) : AllCover known options (l :: outer) (row ++ own)

/-- The heads of an open list that are not registered. -/
def unresolved (known : String → Bool) (l : OpenList) : List Unresolved :=
  (l.head.toList.flatMap fun head => if known head.1 then [] else [⟨head.1, head.2⟩]) ++
    l.args.reverse.flatMap (Node.unresolved known)

variable {known : String → Bool} {options : ParseOptions} {l : OpenList} {row own : List Lexeme}

/-- An open list that has its head takes one more argument. -/
theorem Covers.add {n : Node} (hl : l.Covers known options own) (hhead : l.head.isSome = true)
    (hn : Derives known options row n) :
    ({ l with args := n :: l.args } : OpenList).Covers known options (own ++ row) := by
  cases hl with
  | opened offset => cases hhead
  | @headed name args offset headOffset hname hallowed hargs =>
    have hall : ∀ arg ∈ args ++ [(row, n)], Derives known options arg.1 arg.2 :=
      List.forall_mem_append.2 ⟨hargs, List.forall_mem_singleton.2 hn⟩
    simpa using Covers.headed offset headOffset hname hallowed hall

/-- An open list that has its head is closed. -/
theorem Covers.close {name : String} {headOffset : Nat} (hl : l.Covers known options own)
    (hhead : l.head = some (name, headOffset)) (closeOffset : Nat) :
    Derives known options (own ++ [⟨.closeList, closeOffset⟩]) (l.close name headOffset) := by
  cases hl with
  | opened offset => cases hhead
  | @headed name' args offset headOffset' hname hallowed hargs =>
    obtain ⟨rfl, rfl⟩ := Prod.mk.inj (Option.some.inj hhead)
    rw [OpenList.close, List.reverse_reverse]
    exact .list offset _ closeOffset hname hallowed hargs

theorem unresolved_close {name : String} {headOffset : Nat}
    (hhead : l.head = some (name, headOffset)) :
    (l.close name headOffset).unresolved known = l.unresolved known := by
  simp [OpenList.close, OpenList.unresolved, Node.unresolved_application, hhead]

theorem nesting_close (l : OpenList) (name : String) (headOffset : Nat) :
    (l.close name headOffset).nesting = Node.nestingAll l.args + 1 := by
  rw [OpenList.close, Node.nesting_application, Node.nestingAll_reverse]

end OpenList

namespace PartialFormula

variable {known : String → Bool} {options : ParseOptions}

/-- What has been read and its lexemes: lists that are still open, or a whole expression. The heads
    that are not registered have been recorded. -/
inductive Covers (known : String → Bool) (options : ParseOptions) :
    PartialFormula → List Lexeme → Prop where
  | unfinished {stack : List OpenList} {found : List Unresolved} {row : List Lexeme}
    (hstack : OpenList.AllCover known options stack row)
    (hfound : found.reverse = stack.reverse.flatMap (OpenList.unresolved known)) :
    Covers known options ⟨stack, none, found⟩ row
  | complete {n : Node} {found : List Unresolved} {row : List Lexeme}
    (h : Derives known options row n) (hdepth : n.nesting ≤ options.maxDepth)
    (hfound : found.reverse = n.unresolved known) : Covers known options ⟨[], some n, found⟩ row

/-- A complete node is kept where it belongs. -/
theorem covers_add {stack : List OpenList} {found : List Unresolved} {row own : List Lexeme}
    {n : Node} (hstack : OpenList.AllCover known options stack row)
    (hheads : ∀ l ∈ stack.head?, l.head.isSome = true) (hn : Derives known options own n)
    (hdepth : n.nesting + stack.length ≤ options.maxDepth)
    (hfound : found.reverse =
      stack.reverse.flatMap (OpenList.unresolved known) ++ n.unresolved known) :
    Covers known options (add ⟨stack, none, found⟩ n) (row ++ own) := by
  cases hstack with
  | nil => exact .complete hn hdepth hfound
  | @cons l outer row opened hl houterHeads hlDepth houter =>
    have hhead : l.head.isSome = true := hheads l rfl
    rw [List.append_assoc]
    refine .unfinished (.cons (hl.add hhead hn) houterHeads ?_ houter) ?_
    · rw [List.length_cons] at hdepth
      rw [Node.nestingAll]
      omega
    · simpa [OpenList.unresolved] using hfound

theorem isSome_head_of_not_wantsHead {p : PartialFormula} (hwants : p.wantsHead = false) :
    ∀ l ∈ p.stack.head?, l.head.isSome = true := by
  intro l hl
  unfold wantsHead at hwants
  rw [Option.mem_def.1 hl] at hwants
  cases h : l.head <;> simp_all

theorem length_le_of_allCover {stack : List OpenList} {row : List Lexeme}
    (h : OpenList.AllCover known options stack row) : stack.length ≤ options.maxDepth := by
  cases h with
  | nil => exact Nat.zero_le _
  | cons _ _ hdepth _ =>
    rw [List.length_cons]
    omega

theorem covers_add_atom {stack : List OpenList} {found : List Unresolved} {row : List Lexeme}
    {l : Lexeme} {a : Atom} (hstack : OpenList.AllCover known options stack row)
    (hfound : found.reverse = stack.reverse.flatMap (OpenList.unresolved known))
    (hwants : wantsHead ⟨stack, none, found⟩ = false)
    (ha : Derives known options [l] (.atom a l.offset)) :
    Covers known options (add ⟨stack, none, found⟩ (.atom a l.offset)) (row ++ [l]) := by
  refine covers_add hstack (isSome_head_of_not_wantsHead hwants) ha ?_ ?_
  · rw [Node.nesting, Nat.zero_add]
    exact length_le_of_allCover hstack
  · rw [Node.unresolved, List.append_nil, hfound]

theorem covers_takeHead {stack : List OpenList} {found : List Unresolved} {row : List Lexeme}
    {word : List Char} {offset : Nat} {next : PartialFormula}
    (hstack : OpenList.AllCover known options stack row)
    (hfound : found.reverse = stack.reverse.flatMap (OpenList.unresolved known))
    (hwants : wantsHead ⟨stack, none, found⟩ = true)
    (hstep : takeHead known options ⟨stack, none, found⟩ word offset = .ok next) :
    Covers known options next (row ++ [⟨.bare word, offset⟩]) := by
  cases hstack with
  | nil => cases hwants
  | @cons l outer row opened hl houterHeads hdepth houter =>
    cases hl with
    | headed => cases hwants
    | opened start =>
      obtain ⟨name, rfl⟩ : ∃ name : String, word = name.toList :=
        ⟨String.ofList word, String.toList_ofList.symm⟩
      have hcovers (hname : isOperatorWord name.toList = true)
          (hallowed : known name = true ∨ options.allowUnknown = true) :
          OpenList.AllCover known options (⟨start, some (name, offset), []⟩ :: outer)
            (row ++ [⟨.openList, start⟩, ⟨.bare name.toList, offset⟩]) :=
        .cons (@OpenList.Covers.headed _ _ _ [] start offset hname hallowed nofun) houterHeads hdepth
          houter
      rw [List.append_assoc]
      unfold takeHead at hstep
      simp only [String.ofList_toList] at hstep
      split at hstep
      · cases hstep
      · next hname =>
        rw [Bool.not_eq_true, Bool.not_eq_false'] at hname
        split at hstep
        · next hknown =>
          obtain rfl := Except.ok.inj hstep
          refine .unfinished (hcovers hname (.inl hknown)) ?_
          simpa [OpenList.unresolved, hknown] using hfound
        · next hknown =>
          split at hstep
          · next hallowed =>
            obtain rfl := Except.ok.inj hstep
            refine .unfinished (hcovers hname (.inr hallowed)) ?_
            simpa [OpenList.unresolved, hknown] using hfound
          · cases hstep

/-- One lexeme more is covered. -/
theorem covers_step {p next : PartialFormula} {row : List Lexeme} {l : Lexeme}
    (hp : p.Covers known options row) (hstep : p.step known options l = .ok next) :
    next.Covers known options (row ++ [l]) := by
  obtain ⟨token, offset⟩ := l
  cases hp with
  | complete => cases hstep
  | @unfinished stack found row hstack hfound =>
    simp only [step, Option.isSome_none, Bool.false_eq_true, if_false] at hstep
    cases token with
    | openList =>
      dsimp only at hstep
      split at hstep
      · cases hstep
      · next hwants =>
        split at hstep
        · cases hstep
        · next hroom =>
          obtain rfl := Except.ok.inj hstep
          have hheads := isSome_head_of_not_wantsHead (by simpa using hwants)
          refine .unfinished (.cons (.opened offset) hheads ?_ hstack) ?_
          · rw [Node.nestingAll]
            omega
          · simpa [OpenList.unresolved] using hfound
    | closeList =>
      cases hstack with
      | nil => cases hstep
      | @cons top outer row opened htop houterHeads hdepth houter =>
        simp only at hstep
        split at hstep
        · cases hstep
        · next name headOffset hhead =>
          obtain rfl := Except.ok.inj hstep
          rw [List.append_assoc]
          refine covers_add houter houterHeads (htop.close hhead offset) ?_ ?_
          · rw [OpenList.nesting_close]
            omega
          · rw [OpenList.unresolved_close hhead]
            simpa using hfound
    | quoted s =>
      dsimp only at hstep
      split at hstep
      · cases hstep
      · next hwants =>
        obtain rfl := Except.ok.inj hstep
        exact covers_add_atom (l := ⟨.quoted s, offset⟩) hstack hfound (by simpa using hwants)
          (.quoted s offset)
    | bare word =>
      dsimp only at hstep
      split at hstep
      · next hwants => exact covers_takeHead hstack hfound hwants hstep
      · next hwants =>
        split at hstep
        · cases hstep
        · next a ha =>
          obtain rfl := Except.ok.inj hstep
          exact covers_add_atom (l := ⟨.bare word, offset⟩) hstack hfound (by simpa using hwants)
            (.word offset (wordAtom_eq_ok_iff.1 ha))

theorem covers_steps {p next : PartialFormula} {row row' : List Lexeme}
    (hp : p.Covers known options row) (hsteps : p.steps known options row' = .ok next) :
    next.Covers known options (row ++ row') := by
  induction row' generalizing p row with
  | nil =>
    obtain rfl : p = next := Except.ok.inj hsteps
    rwa [List.append_nil]
  | cons l row' ih =>
    rw [steps_cons] at hsteps
    cases hstep : p.step known options l with
    | error e =>
      rw [hstep] at hsteps
      cases hsteps
    | ok q =>
      rw [hstep] at hsteps
      rw [List.append_cons]
      exact ih (covers_step hp hstep) hsteps

/-- What has been read from the beginning of a text stands for the lexemes that were taken. -/
theorem covers_of_steps {p : PartialFormula} {row : List Lexeme}
    (hsteps : empty.steps known options row = .ok p) : p.Covers known options row :=
  covers_steps (.unfinished .nil rfl) hsteps

end PartialFormula

/-- A text is read as a formula exactly when the grammar derives the formula's tree from its lexemes
    and the tree is not too deep. -/
theorem parseChars_eq_ok_iff_derives {known : String → Bool} {options : ParseOptions}
    {text : List Char} {f : Formula} :
    parseChars known options text = .ok f ↔ ∃ row, Splits 0 text row ∧
      Derives known options row f.root ∧ f.root.nesting ≤ options.maxDepth ∧
      f.unresolved = f.root.unresolved known := by
  constructor
  · intro hparse
    obtain ⟨row, p, hlex, hsteps, hfinish⟩ := parseChars_eq_ok_iff.1 hparse
    have hp := PartialFormula.covers_of_steps hsteps
    refine ⟨row, lex_eq_ok_iff.1 hlex, ?_⟩
    cases hp with
    | @unfinished stack found row hstack hfound => cases stack <;> cases hfinish
    | complete hderives hdepth hfound =>
      obtain rfl := Except.ok.inj hfinish
      exact ⟨hderives, hdepth, hfound⟩
  · rintro ⟨row, hsplits, hderives, hdepth, hfound⟩
    obtain ⟨root, found⟩ := f
    obtain rfl : found = root.unresolved known := hfound
    exact parseChars_of_derives (lex_eq_ok_iff.2 hsplits) hderives hdepth

theorem IsArgument.wellFormed {known : String → Bool} {options : ParseOptions} {word : List Char}
    {a : Atom} (h : IsArgument word a) (hword : Node.IsBareWord word) (offset : Nat) :
    (Node.atom a offset).WellFormed known options := by
  cases h with
  | «variable» hname =>
    refine .variable offset ?_
    rw [String.toList_ofList]
    exact ⟨hname, (List.forall_mem_cons.1 hword.2).2⟩
  | number _ hread => exact .number offset (isFinite_of_readNumber? hread)
  | text => exact .text _ offset

/-- What the grammar derives from lexemes that can be written again is well-formed. -/
theorem Derives.wellFormed {known : String → Bool} {options : ParseOptions} {row : List Lexeme}
    {n : Node} (h : Derives known options row n) (hrow : ∀ l ∈ row, l.IsSound) :
    n.WellFormed known options := by
  induction h with
  | quoted s offset => exact .text s offset
  | word offset harg => exact harg.wellFormed (hrow _ (List.mem_singleton_self _) _ rfl) offset
  | @list name args offset headOffset closeOffset hname hallowed _ ih =>
    obtain ⟨hhead, hrest⟩ := List.forall_mem_cons.1 (List.forall_mem_cons.1 hrow).2
    refine .list headOffset offset ⟨hhead _ rfl, hname, hallowed⟩ fun n hn => ?_
    obtain ⟨arg, harg, rfl⟩ := List.mem_map.1 hn
    refine ih arg harg fun l hl => hrest l (List.mem_append_left _ ?_)
    exact List.mem_flatten.2 ⟨arg.1, List.mem_map_of_mem harg, hl⟩

/-- Whatever is read is well-formed and not too deep, and the heads that are not registered are
    recorded in the order in which they are written. -/
theorem wellFormed_of_parseChars {known : String → Bool} {options : ParseOptions} {text : List Char}
    {f : Formula} (hparse : parseChars known options text = .ok f) :
    f.root.WellFormed known options ∧ f.root.nesting ≤ options.maxDepth ∧
      f.unresolved.map Unresolved.name = f.root.unknownHeads known := by
  obtain ⟨row, hsplits, hderives, hdepth, hfound⟩ := parseChars_eq_ok_iff_derives.1 hparse
  refine ⟨hderives.wellFormed hsplits.isSound, hdepth, ?_⟩
  rw [hfound, Node.map_name_unresolved]

end MissionScript
