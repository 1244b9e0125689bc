import MissionScript.Proofs.Typing.Issues
import MissionScript.Proofs.Formula.Soundness
import MissionScript.Proofs.Operator.Index

/-!
Strict and lenient reading. A strict reader does what a lenient one does up to the first head that is
not registered, and there it stops. The heads that a lenient reader lets through are those that
validation finds unknown.
-/

namespace MissionScript

/-- The options of a reader that refuses heads that are not registered. -/
def ParseOptions.strict (maxDepth : Nat) : ParseOptions :=
  ⟨false, maxDepth⟩

/-- The options of a reader that lets them through. -/
def ParseOptions.lenient (maxDepth : Nat) : ParseOptions :=
  ⟨true, maxDepth⟩

/-- The lexeme of a head that is not registered. -/
def Unresolved.lexeme (u : Unresolved) : Lexeme :=
  ⟨.bare u.name.toList, u.offset⟩

/-- The error of a strict reader at a head that is not registered, in the list of an operator. -/
def Unresolved.error (u : Unresolved) (operator : Option String) : SyntaxError :=
  ⟨.unknownOperator u.name, u.offset, operator⟩

/-- The name of the operator that is not registered, if that is what is wrong. -/
def IssueKind.unknownOperator? : IssueKind → Option String
  | .unknownOperator name => some name
  | _ => none

namespace PartialFormula

/-- Whether a lenient reader that has read some lexemes comes to `q`, where a list waits for its head,
    and there lets a head through that is not registered. -/
structure LetsThrough (known : String → Bool) (maxDepth : Nat) (p : PartialFormula)
    (before : List Lexeme) (q : PartialFormula) (u : Unresolved) (next : PartialFormula) : Prop where
  read : p.steps known (.lenient maxDepth) before = .ok q
  wantsHead : q.wantsHead = true
  unknown : known u.name = false
  accepted : q.step known (.lenient maxDepth) u.lexeme = .ok next

variable {known : String → Bool} {maxDepth : Nat}

theorem unresolved_add (p : PartialFormula) (n : Node) : (p.add n).unresolved = p.unresolved := by
  unfold add
  split <;> rfl

theorem unresolved_setHead (p : PartialFormula) (name : String) (offset : Nat) :
    (p.setHead name offset).unresolved = p.unresolved := by
  unfold setHead
  split <;> rfl

/-- Whether the two readers make the same of something, and let no head through. -/
def Concur (p : PartialFormula) (strict lenient : Except SyntaxError PartialFormula) : Prop :=
  strict = lenient ∧ ∀ next, lenient = .ok next → next.unresolved = p.unresolved

theorem concur_error (p : PartialFormula) (e : SyntaxError) : p.Concur (.error e) (.error e) := by
  refine ⟨rfl, fun _ hok => ?_⟩
  cases hok

theorem concur_fail (p q : PartialFormula) (offset : Nat) (kind : SyntaxErrorKind) :
    p.Concur (q.fail offset kind) (q.fail offset kind) :=
  p.concur_error _

theorem concur_ok {p next : PartialFormula} (h : next.unresolved = p.unresolved) :
    p.Concur (.ok next) (.ok next) := by
  refine ⟨rfl, fun _ hok => ?_⟩
  cases hok
  exact h

/-- At a head that is not registered a strict reader stops, and a lenient one lets it through. -/
theorem takeHead_cases (known : String → Bool) (maxDepth : Nat) (p : PartialFormula)
    (word : List Char) (offset : Nat) :
    p.Concur (p.takeHead known (.strict maxDepth) word offset)
      (p.takeHead known (.lenient maxDepth) word offset) ∨
    ∃ (u : Unresolved) (next : PartialFormula), u.lexeme = ⟨.bare word, offset⟩ ∧ known u.name = false ∧
      p.takeHead known (.lenient maxDepth) word offset = .ok next ∧
      next.unresolved = u :: p.unresolved ∧
      p.takeHead known (.strict maxDepth) word offset = .error (u.error p.operator?) := by
  unfold takeHead
  dsimp only
  split
  · exact Or.inl (concur_fail p p offset _)
  · split
    · exact Or.inl (concur_ok (p.unresolved_setHead _ _))
    · next hknown =>
      refine Or.inr ⟨⟨String.ofList word, offset⟩, _, ?_, by simpa using hknown, rfl, ?_, rfl⟩
      · rw [Unresolved.lexeme, String.toList_ofList]
      · exact unresolved_setHead _ _ _

/-- The two readers part only at a head that is not registered. -/
theorem step_cases (known : String → Bool) (maxDepth : Nat) (p : PartialFormula) (l : Lexeme) :
    p.Concur (p.step known (.strict maxDepth) l) (p.step known (.lenient maxDepth) l) ∨
    ∃ (u : Unresolved) (next : PartialFormula), u.lexeme = l ∧
      p.LetsThrough known maxDepth [] p u next ∧ next.unresolved = u :: p.unresolved ∧
      p.step known (.strict maxDepth) l = .error (u.error p.operator?) := by
  obtain ⟨token, offset⟩ := l
  cases hroot : p.root.isSome with
  | true =>
    simp only [step, hroot, if_true]
    exact Or.inl (p.concur_error _)
  | false =>
    simp only [step, hroot, Bool.false_eq_true, if_false]
    cases token with
    | openList =>
      refine Or.inl ?_
      dsimp only
      split
      · exact concur_fail p p offset _
      · change p.Concur (if maxDepth ≤ p.stack.length then _ else _)
          (if maxDepth ≤ p.stack.length then _ else _)
        split
        · exact concur_fail p p offset _
        · exact concur_ok rfl
    | closeList =>
      refine Or.inl ?_
      dsimp only
      split
      · exact concur_fail p p offset _
      · split
        · exact concur_fail p _ _ _
        · exact concur_ok (unresolved_add _ _)
    | quoted s =>
      refine Or.inl ?_
      dsimp only
      split
      · exact concur_fail p p offset _
      · exact concur_ok (p.unresolved_add _)
    | bare word =>
      dsimp only
      split
      · next hwants =>
        refine (p.takeHead_cases known maxDepth word offset).imp_right ?_
        rintro ⟨u, next, hu, hunknown, hlenient, hnext, hstrict⟩
        refine ⟨u, next, hu, ⟨rfl, hwants, hunknown, ?_⟩, hnext, hstrict⟩
        rw [hu]
        simp only [step, hroot, Bool.false_eq_true, if_false, hwants, if_true]
        exact hlenient
      · refine Or.inl ?_
        split
        · exact concur_fail p p offset _
        · exact concur_ok (p.unresolved_add _)

/-- A reader only adds to the heads that were let through. -/
theorem exists_unresolved_steps {p next : PartialFormula} {row : List Lexeme}
    (hsteps : p.steps known (.lenient maxDepth) row = .ok next) :
    ∃ found, next.unresolved = found ++ p.unresolved := by
  induction row generalizing p with
  | nil =>
    obtain rfl : p = next := Except.ok.inj hsteps
    exact ⟨[], rfl⟩
  | cons l row ih =>
    rw [steps_cons] at hsteps
    cases hstep : p.step known (.lenient maxDepth) l with
    | error e =>
      rw [hstep] at hsteps
      cases hsteps
    | ok q =>
      rw [hstep] at hsteps
      obtain ⟨found, hfound⟩ := ih hsteps
      rcases p.step_cases known maxDepth l with ⟨-, hkept⟩ | ⟨u, q', rfl, hlets, hadded, -⟩
      · exact ⟨found, by rw [hfound, hkept q hstep]⟩
      · obtain rfl : q' = q := Except.ok.inj (hlets.accepted.symm.trans hstep)
        exact ⟨found ++ [u], by rw [hfound, hadded, List.append_assoc, List.singleton_append]⟩

/-- The two readers do the same up to the first head that is not registered. -/
theorem steps_cases (known : String → Bool) (maxDepth : Nat) (p : PartialFormula)
    (row : List Lexeme) :
    p.Concur (p.steps known (.strict maxDepth) row) (p.steps known (.lenient maxDepth) row) ∨
    ∃ before u after q next, row = before ++ u.lexeme :: after ∧
      p.LetsThrough known maxDepth before q u next ∧ next.unresolved = u :: p.unresolved ∧
      p.steps known (.strict maxDepth) row = .error (u.error q.operator?) := by
  induction row generalizing p with
  | nil => exact Or.inl (concur_ok rfl)
  | cons l row ih =>
    rw [steps_cons, steps_cons]
    rcases p.step_cases known maxDepth l with ⟨hsame, hkept⟩ | ⟨u, next, rfl, hlets, hadded, hstop⟩
    · rw [hsame]
      cases hstep : p.step known (.lenient maxDepth) l with
      | error e => exact Or.inl ⟨rfl, nofun⟩
      | ok q =>
        have hq := hkept q hstep
        rcases ih q with ⟨hsame, hkept⟩ | ⟨before, u, after, q', next, rfl, hlets, hadded, hstop⟩
        · exact Or.inl ⟨hsame, fun next hnext => (hkept next hnext).trans hq⟩
        · refine Or.inr ⟨l :: before, u, after, q', next, rfl, ⟨?_, hlets.wantsHead, hlets.unknown,
            hlets.accepted⟩, hq ▸ hadded, hstop⟩
          rw [steps_cons_of_step hstep]
          exact hlets.read
    · refine Or.inr ⟨[], u, row, p, next, rfl, hlets, hadded, ?_⟩
      rw [hstop]
      rfl

theorem unresolved_finish {p : PartialFormula} {f : Formula} (hfinish : p.finish = .ok f) :
    f.unresolved = p.unresolved.reverse := by
  unfold finish at hfinish
  split at hfinish
  · cases hfinish
  · cases hfinish
    rfl
  · cases hfinish

/-- What is let through first comes first among the heads that the formula was read with. -/
theorem LetsThrough.head?_unresolved {before after : List Lexeme} {q next p : PartialFormula}
    {u : Unresolved} {f : Formula} (h : empty.LetsThrough known maxDepth before q u next)
    (hnext : next.unresolved = [u])
    (hsteps : empty.steps known (.lenient maxDepth) (before ++ u.lexeme :: after) = .ok p)
    (hfinish : p.finish = .ok f) : f.unresolved.head? = some u := by
  rw [steps_append_of_steps h.read, steps_cons_of_step h.accepted] at hsteps
  obtain ⟨found, hfound⟩ := exists_unresolved_steps hsteps
  rw [unresolved_finish hfinish, hfound, hnext, List.reverse_append]
  rfl

end PartialFormula

/-- A strict reader answers as a lenient one that lets no head through; otherwise it stops at the first
    one that the lenient reader lets through. -/
theorem parseChars_cases (known : String → Bool) (maxDepth : Nat) (text : List Char) :
    (parseChars known (.strict maxDepth) text = parseChars known (.lenient maxDepth) text ∧
      ∀ f, parseChars known (.lenient maxDepth) text = .ok f → f.unresolved = []) ∨
    ∃ before u after q next, Splits 0 text (before ++ u.lexeme :: after) ∧
      PartialFormula.empty.LetsThrough known maxDepth before q u next ∧
      parseChars known (.strict maxDepth) text = .error (u.error q.operator?) ∧
      ∀ f, parseChars known (.lenient maxDepth) text = .ok f → f.unresolved.head? = some u := by
  cases hlex : lex text with
  | error e =>
    have hfail (options : ParseOptions) : parseChars known options text = .error e := by
      rw [parseChars, hlex]
      rfl
    rw [hfail, hfail]
    exact Or.inl ⟨rfl, nofun⟩
  | ok row =>
    have hread (options : ParseOptions) : parseChars known options text =
        (PartialFormula.empty.steps known options row).bind PartialFormula.finish := by
      rw [parseChars, hlex]
      rfl
    have hsteps {f : Formula} (hparse : parseChars known (.lenient maxDepth) text = .ok f) :
        ∃ p, PartialFormula.empty.steps known (.lenient maxDepth) row = .ok p ∧ p.finish = .ok f := by
      obtain ⟨_, p, hlex', hp⟩ := parseChars_eq_ok_iff.1 hparse
      obtain rfl := Except.ok.inj (hlex.symm.trans hlex')
      exact ⟨p, hp⟩
    rcases PartialFormula.empty.steps_cases known maxDepth row with
      ⟨hsame, hkept⟩ | ⟨before, u, after, q, next, rfl, hlets, hnext, hstop⟩
    · refine Or.inl ⟨by rw [hread, hread, hsame], fun f hparse => ?_⟩
      obtain ⟨p, hp, hfinish⟩ := hsteps hparse
      rw [PartialFormula.unresolved_finish hfinish, hkept p hp]
      rfl
    · refine Or.inr ⟨before, u, after, q, next, lex_eq_ok_iff.1 hlex, hlets, ?_, fun f hparse => ?_⟩
      · rw [hread, hstop]
        rfl
      · obtain ⟨p, hp, hfinish⟩ := hsteps hparse
        exact hlets.head?_unresolved hnext hp hfinish

namespace Validation

/-- Whether none of some issues is an unknown operator. -/
def KnowsOperators (kinds : List IssueKind) : Prop :=
  ∀ k ∈ kinds, k.unknownOperator? = none

/-- An unknown operator is reported where it is applied, and not where its value is an argument. -/
theorem AtMostOne.knowsOperators {kinds : List IssueKind} (h : AtMostOne kinds) :
    KnowsOperators kinds := by
  intro k hk
  have hown := h.isOwn hk
  cases k <;> first | rfl | cases hown

theorem knowsOperators_count (operator : Operator) (found : Nat) :
    KnowsOperators (count operator found) := by
  intro k hk
  rcases mem_count_iff.1 hk with ⟨-, rfl⟩ | ⟨most, -, -, rfl⟩ <;> rfl

/-- The unknown operators of a formula's issues. -/
def unknownOperators (issues : List Issue) : List String :=
  issues.filterMap (·.kind.unknownOperator?)

/-- The unknown operator of an application is the one at its head. -/
theorem unknownOperators_application (formula : String) (registry : Registry)
    (vars : Option Variables) (path : Path) (n : Node) :
    unknownOperators (application formula registry vars path n) =
      Node.unknownHead registry.has n.children := by
  unfold application Node.unknownHead Node.operator?
  cases Node.headName? n.children with
  | none => rfl
  | some name =>
    have hhas : registry.has name = (registry.get? name).isSome := registry.indexed.has_eq name
    dsimp only
    cases hget : registry.get? name with
    | none => simp [unknownOperators, IssueKind.unknownOperator?, hhas, hget]
    | some operator =>
      have hhead : (some name).toList.filter (fun name => !registry.has name) = [] := by
        simp [hhas, hget]
      rw [hhead]
      refine List.filterMap_eq_nil_iff.2 (List.forall_mem_append.2 ⟨fun i hi => ?_, fun i hi => ?_⟩)
      · obtain ⟨k, hk, rfl⟩ := List.mem_map.1 hi
        exact knowsOperators_count operator _ k hk
      · obtain ⟨⟨arg, index⟩, -, hi⟩ := List.mem_flatMap.1 hi
        obtain ⟨k, hk, rfl⟩ := List.mem_map.1 hi
        exact (atMostOne_argument _ _ _ _ _ _).knowsOperators k hk

theorem unknownOperators_node (formula : String) (registry : Registry) (vars : Option Variables)
    (path : Path) (n : Node) : unknownOperators (node formula registry vars (path, n)) =
      Node.unknownHead registry.has n.children := by
  unfold node
  split
  · next name offset heq =>
    cases heq
    refine List.filterMap_eq_nil_iff.2 fun i hi => ?_
    obtain ⟨k, hk, rfl⟩ := List.mem_map.1 hi
    exact (atMostOne_undeclared vars _).knowsOperators k hk
  · next heq =>
    cases heq
    exact unknownOperators_application formula registry vars path n

mutual

/-- A walk through a formula meets the unknown heads in the order in which they are written. -/
theorem unknownOperators_walkFrom (formula : String) (registry : Registry) (vars : Option Variables)
    (path : Path) (n : Node) :
    unknownOperators ((n.walkFrom path).flatMap (node formula registry vars)) =
      n.unknownHeads registry.has := by
  cases n with
  | atom a offset =>
    rw [Node.walkFrom, List.flatMap_singleton, unknownOperators_node]
    rfl
  | list children offset =>
    have hall := unknownOperators_walkAll formula registry vars path 0 children
    rw [Node.walkFrom, List.flatMap_cons, unknownOperators, List.filterMap_append,
      Node.unknownHeads]
    exact congrArg₂ (· ++ ·) (unknownOperators_node formula registry vars path _) hall

theorem unknownOperators_walkAll (formula : String) (registry : Registry) (vars : Option Variables)
    (path : Path) (index : Nat) (nodes : List Node) :
    unknownOperators ((Node.walkAll path index nodes).flatMap (node formula registry vars)) =
      Node.unknownHeadsAll registry.has nodes := by
  cases nodes with
  | nil => rfl
  | cons n rest =>
    have hfirst := unknownOperators_walkFrom formula registry vars (path.child index) n
    have hrest := unknownOperators_walkAll formula registry vars path (index + 1) rest
    rw [Node.walkAll, List.flatMap_append, unknownOperators, List.filterMap_append,
      Node.unknownHeadsAll]
    exact congrArg₂ (· ++ ·) hfirst hrest

end

end Validation

/-- Strict reading, lenient reading and validation agree on the operators that are not registered. A
    text is read by the strict reader exactly if the lenient one reads it without letting a head through,
    and then as the same formula. If heads are let through, then the strict reader stops at the first of
    them. What the lenient reader refuses the strict one refuses too, with the same error or at a head
    that is let through before the error. And the heads that are let through are those that validation
    reports as unknown, in order. -/
theorem leniency_exact (registry : Registry) (maxDepth : Nat) (text : String) :
    let strict := parseChars registry.has (.strict maxDepth) text.toList
    let lenient := parseChars registry.has (.lenient maxDepth) text.toList
    (∀ f, strict = .ok f ↔ lenient = .ok f ∧ f.unresolved = []) ∧
    (∀ f u later, lenient = .ok f → f.unresolved = u :: later →
      ∃ operator, strict = .error ⟨.unknownOperator u.name, u.offset, operator⟩) ∧
    (∀ e, lenient = .error e → strict = .error e ∨
      ∃ before u after q next, Splits 0 text.toList (before ++ u.lexeme :: after) ∧
        PartialFormula.empty.LetsThrough registry.has maxDepth before q u next ∧
        strict = .error ⟨.unknownOperator u.name, u.offset, q.operator?⟩) ∧
    ∀ f (id : String) (vars : Option Variables), lenient = .ok f →
      f.unresolved.map Unresolved.name = Validation.unknownOperators (validate id registry vars f) := by
  dsimp only
  refine ⟨fun f => ?_, fun f u later hparse hfound => ?_, fun e hparse => ?_,
    fun f id vars hparse => ?_⟩
  · rcases parseChars_cases registry.has maxDepth text.toList with
      ⟨hsame, hkept⟩ | ⟨_, u, _, _, _, -, -, hstop, hfirst⟩
    · rw [hsame]
      exact ⟨fun hparse => ⟨hparse, hkept f hparse⟩, fun hparse => hparse.1⟩
    · rw [hstop]
      refine ⟨nofun, fun ⟨hparse, hnone⟩ => ?_⟩
      have hhead := hfirst f hparse
      rw [hnone] at hhead
      cases hhead
  · rcases parseChars_cases registry.has maxDepth text.toList with
      ⟨-, hkept⟩ | ⟨_, u', _, q, _, -, -, hstop, hfirst⟩
    · rw [hkept f hparse] at hfound
      cases hfound
    · have hhead := hfirst f hparse
      rw [hfound] at hhead
      cases hhead
      exact ⟨q.operator?, hstop⟩
  · rcases parseChars_cases registry.has maxDepth text.toList with
      ⟨hsame, -⟩ | ⟨before, u, after, q, next, hsplits, hlets, hstop, -⟩
    · exact Or.inl (hsame.trans hparse)
    · exact Or.inr ⟨before, u, after, q, next, hsplits, hlets, hstop⟩
  · rw [(wellFormed_of_parseChars hparse).2.2]
    exact (Validation.unknownOperators_walkFrom id registry vars [] f.root).symm

namespace Drive

/-- Two operators and no others. -/
def registry : Registry :=
  [.control .and, .control .or].foldl Registry.registerBuiltin .empty

/-- A formula with two heads that are not registered. -/
def formula : String :=
  "(and (warp 1) (jump))"

/-- A formula that breaks off after such a head. -/
def fragment : String :=
  "(or (warp 1"

theorem exists_formula : ∃ f,
    parseChars registry.has (.lenient 256) formula.toList = .ok f ∧
      f.unresolved = [⟨"warp", 6⟩, ⟨"jump", 15⟩] := by
  have hcheck : (parseChars registry.has (.lenient 256) formula.toList).map Formula.unresolved =
      .ok [⟨"warp", 6⟩, ⟨"jump", 15⟩] := by decide +kernel
  cases hparse : parseChars registry.has (.lenient 256) formula.toList with
  | error e =>
    rw [hparse] at hcheck
    cases hcheck
  | ok f =>
    rw [hparse] at hcheck
    exact ⟨f, rfl, Except.ok.inj hcheck⟩

end Drive

open Drive in
/-- The strict reader stops at the first of the two heads, both of which validation finds; and it does
    not come to the end of the fragment. -/
theorem leniency_exact_drive : ∃ f operator,
    parseChars registry.has (.lenient 256) formula.toList = .ok f ∧
    f.unresolved = [⟨"warp", 6⟩, ⟨"jump", 15⟩] ∧
    parseChars registry.has (.strict 256) formula.toList =
      .error ⟨.unknownOperator "warp", 6, operator⟩ ∧
    Validation.unknownOperators (validate "drive" registry none f) = ["warp", "jump"] ∧
    parseChars registry.has (.lenient 256) fragment.toList =
      .error ⟨.unclosed, 4, some "warp"⟩ ∧
    ∃ before u after q next, Splits 0 fragment.toList (before ++ u.lexeme :: after) ∧
      PartialFormula.empty.LetsThrough registry.has 256 before q u next ∧
      parseChars registry.has (.strict 256) fragment.toList =
        .error ⟨.unknownOperator u.name, u.offset, q.operator?⟩ := by
  obtain ⟨f, hparse, hfound⟩ := exists_formula
  obtain ⟨-, hfirst, -, hnames⟩ := leniency_exact registry 256 formula
  obtain ⟨-, -, herror, -⟩ := leniency_exact registry 256 fragment
  obtain ⟨operator, hstrict⟩ := hfirst f _ _ hparse hfound
  have hlenient : parseChars registry.has (.lenient 256) fragment.toList =
      .error ⟨.unclosed, 4, some "warp"⟩ := parseChars_eq_error_of_map (by decide +kernel)
  have hstop : parseChars registry.has (.strict 256) fragment.toList =
      .error ⟨.unknownOperator "warp", 5, some "or"⟩ := parseChars_eq_error_of_map (by decide +kernel)
  refine ⟨f, operator, hparse, hfound, hstrict, ?_, hlenient, ?_⟩
  · rw [← hnames f "drive" none hparse, hfound]
    rfl
  · refine (herror _ hlenient).resolve_left fun hsame => ?_
    rw [hstop] at hsame
    cases hsame

end MissionScript
