import MissionScript.Proofs.Formula.Shape
import MissionScript.Proofs.Operator.Builtin
import MissionScript.Proofs.Typing.Issues
import Mathlib.Tactic.Common

/-!
What a formula is like in which validation finds nothing wrong: every list applies a built-in
operator to as many arguments as it takes, and each of them can only have values that it accepts.
-/

namespace MissionScript

/-- What a variable of a type gives. -/
def VariableType.gives : VariableType → ReturnType
  | .number => .number
  | .string => .string

namespace Node

/-- What a node gives, as far as it can be told without evaluating it. -/
def gives (vars : Variables) : Node → ReturnType
  | .atom (.number _) _ => .number
  | .atom (.text _) _ => .string
  | .atom (.variable name) _ => (vars.get? name).elim .any fun v => v.type.gives
  | .atom (.operator _) _ => .any
  | .list children _ =>
    ((headName? children).bind Registry.builtin.get?).elim .any fun operator =>
      operator.signature.returns

/-- Whether a node fits a constraint: a variable by its name, or a node that gives what is
    accepted. -/
def Fits (vars : Variables) (c : Constraint) (n : Node) : Prop :=
  if c = .variable then ∃ name offset, n = .atom (.variable name) offset
  else c.acceptsReturn (n.gives vars) = true

/-- Trees of built-in operators and declared variables that fit together. Which of two arguments
    a conditional gives is not known, so there is none. -/
inductive Checked (vars : Variables) : Node → Prop where
  | number (x : Float) (offset : Nat) : Checked vars (.atom (.number x) offset)
  | text (s : String) (offset : Nat) : Checked vars (.atom (.text s) offset)
  | variable {name : String} (offset : Nat) (hdeclared : vars.declares name = true) :
    Checked vars (.atom (.variable name) offset)
  | application {name : String} {args : List Node} {b : Builtin} (headOffset offset : Nat)
    (hget : Registry.builtin.get? name = some b.operator) (hb : b ≠ .control .ifThenElse)
    (hcount : b.operator.signature.acceptsCount args.length = true)
    (hfits : ∀ (i : Nat) (arg : Node), args[i]? = some arg → arg.Fits vars (b.operator.signature.constraintAt i))
    (hargs : ∀ arg ∈ args, Checked vars arg) :
    Checked vars (.list (.atom (.operator name) headOffset :: args) offset)

/-- Whether an operator is applied anywhere in a node. -/
def Uses (n : Node) (operator : String) : Prop :=
  ∃ place ∈ n.walk, ∃ name, place.2.operator? = some name ∧ sameName name operator = true

end Node

namespace Validation

theorem acceptsReturn_number {c : Constraint} {x : Float} (h : c.acceptsValue (.number x) = true) :
    c.acceptsReturn .number = true := by
  cases c <;> first | rfl | cases h

theorem acceptsReturn_string {c : Constraint} {s : String} (h : c.acceptsValue (.text s) = true) :
    c.acceptsReturn .string = true := by
  cases c <;> first | rfl | cases h

theorem variableArgument_eq_nil {vars : Variables} {c : Constraint} {name : String}
    (h : variableArgument (some vars) c name = []) :
    ∃ v, vars.get? name = some v ∧ c.acceptsReturn v.type.gives = true := by
  unfold variableArgument at h
  dsimp only at h
  split at h
  · cases h
  · next v hv =>
    refine ⟨v, hv, ?_⟩
    cases htype : v.type with
    | number =>
      simp only [htype] at h
      split at h
      · next haccepts => exact acceptsReturn_number haccepts
      · cases h
    | string =>
      simp only [htype] at h
      split at h
      · next haccepts => exact acceptsReturn_string haccepts
      · cases h

theorem wrongReturn_eq_none {vars : Variables} {c : Constraint} {children : List Node} {offset : Nat}
    (h : wrongReturn Registry.builtin c (.list children offset) = none) :
    c.acceptsReturn ((Node.list children offset).gives vars) = true := by
  have hgives : (Node.list children offset).gives vars =
      ((Node.headName? children).bind Registry.builtin.get?).elim .any
        fun operator => operator.signature.returns := rfl
  change (((Node.headName? children).bind Registry.builtin.get?).bind fun nested =>
    if c.acceptsReturn nested.signature.returns then none
    else some nested.signature.returns.word) = none at h
  rw [hgives]
  cases hoperator : (Node.headName? children).bind Registry.builtin.get? with
  | none => cases c <;> rfl
  | some nested =>
    rw [hoperator, Option.bind_some] at h
    split at h
    · assumption
    · cases h

/-- An argument in which nothing is wrong fits its constraint, and a variable is declared. -/
theorem argument_eq_nil {vars : Variables} {operator : String} {index : Nat} {c : Constraint}
    {arg : Node} (h : argument Registry.builtin (some vars) operator index c arg = []) :
    arg.Fits vars c ∧
      ∀ name offset, arg = .atom (.variable name) offset → vars.declares name = true := by
  unfold argument at h
  dsimp only at h
  split at h
  · next name offset =>
    refine ⟨⟨name, offset, rfl⟩, ?_⟩
    rintro name offset ⟨⟩
    unfold undeclared at h
    dsimp only at h
    split at h
    · assumption
    · cases h
  · cases h
  · next x offset hc =>
    rw [Node.Fits, if_neg (by simpa using hc)]
    split at h
    · next haccepts => exact ⟨acceptsReturn_number haccepts, by rintro name offset ⟨⟩⟩
    · cases h
  · next s offset hc =>
    rw [Node.Fits, if_neg (by simpa using hc)]
    split at h
    · next haccepts => exact ⟨acceptsReturn_string haccepts, by rintro name offset ⟨⟩⟩
    · cases h
  · next _ name offset hc =>
    obtain ⟨v, hv, haccepts⟩ := variableArgument_eq_nil h
    rw [Node.Fits, if_neg (by simpa using hc)]
    refine ⟨?_, ?_⟩
    · rw [Node.gives, hv]
      exact haccepts
    · rintro name offset ⟨⟩
      unfold Variables.declares Table.contains
      change (vars.get? name).isSome = true
      rw [hv]
      rfl
  · cases h
  · next children offset hc =>
    rw [Node.Fits, if_neg (by simpa using hc)]
    cases hwrong : wrongReturn Registry.builtin c (.list children offset) with
    | none => exact ⟨wrongReturn_eq_none hwrong, by rintro name offset ⟨⟩⟩
    | some found =>
      rw [hwrong] at h
      cases h

theorem application_eq_nil {formula : String} {registry : Registry} {vars : Option Variables}
    {path : Path} {name : String} {headOffset offset : Nat} {args : List Node}
    (h : application formula registry vars path
      (.list (.atom (.operator name) headOffset :: args) offset) = []) :
    ∃ operator, registry.get? name = some operator ∧
      operator.signature.acceptsCount args.length = true ∧
      ∀ i arg, args[i]? = some arg → argument registry vars operator.name i
        (operator.signature.constraintAt i) arg = [] := by
  have hname : (Node.list (.atom (.operator name) headOffset :: args) offset).operator? = some name := rfl
  cases hget : registry.get? name with
  | none =>
    rw [application_eq_of_unknown hname hget] at h
    cases h
  | some operator =>
    rw [application_eq hname hget] at h
    obtain ⟨hcount, hargs⟩ := List.append_eq_nil_iff.1 h
    refine ⟨operator, rfl, count_eq_nil_iff.1 (List.map_eq_nil_iff.1 hcount), fun i arg hat => ?_⟩
    have hmem : (arg, i) ∈ args.zipIdx := List.mk_mem_zipIdx_iff_getElem?.2 hat
    exact List.map_eq_nil_iff.1 (List.flatMap_eq_nil_iff.1 hargs _ hmem)

end Validation

namespace Node

variable {vars : Variables}

/-- A well-formed tree in which nothing is wrong is one that fits together. -/
theorem checked_of_walk {formula : String} {known : String → Bool} {options : ParseOptions} {n : Node}
    (h : n.WellFormed known options) {path : Path}
    (hissues : ∀ place ∈ walkFrom path n,
      Validation.node formula Registry.builtin (some vars) place = [])
    (huses : ∀ place ∈ walkFrom path n, ∀ name, place.2.operator? = some name →
      sameName name Control.ifThenElse.definition.name = false)
    (hdeclared : ∀ name offset, n = .atom (.variable name) offset → vars.declares name = true) :
    n.Checked vars := by
  induction h generalizing path with
  | number offset hfinite => exact .number _ offset
  | text s offset => exact .text s offset
  | «variable» offset hname => exact .variable offset (hdeclared _ _ rfl)
  | @list name args headOffset offset hhead hargs ih =>
    have hself : (path, list (atom (.operator name) headOffset :: args) offset) ∈
        walkFrom path (list (atom (.operator name) headOffset :: args) offset) := by
      rw [walkFrom]
      exact List.mem_cons_self
    have hnode := hissues _ hself
    rw [Validation.node_eq (Or.inr rfl)] at hnode
    obtain ⟨operator, hget, hcount, harguments⟩ := Validation.application_eq_nil hnode
    obtain ⟨b, rfl, hname⟩ := Registry.exists_builtin_of_get? hget
    refine .application headOffset offset hget ?_ hcount ?_ ?_
    · rintro rfl
      have hother := huses _ hself name rfl
      have hsame : sameName name Control.ifThenElse.definition.name = true :=
        sameName_iff.2 hname.symm
      rw [hother] at hsame
      cases hsame
    · exact fun i arg hat => (Validation.argument_eq_nil (harguments i arg hat)).1
    · intro arg harg
      obtain ⟨i, hat⟩ := List.mem_iff_getElem?.1 harg
      have hsub : ∀ place ∈ walkFrom (path.child (i + 1)) arg, place ∈
          walkFrom path (list (atom (.operator name) headOffset :: args) offset) := by
        intro place hplace
        obtain ⟨below, hpath, hplace⟩ := (mem_walkFrom_iff ..).1 hplace
        refine (mem_walkFrom_iff ..).2 ⟨(i + 1) :: below, hpath.trans (List.append_assoc ..), ?_⟩
        change (args[i]?).bind (·.at? below) = some place.2
        rwa [hat, Option.bind_some]
      exact ih arg harg (fun place hplace => hissues place (hsub place hplace))
        (fun place hplace => huses place (hsub place hplace))
        (Validation.argument_eq_nil (harguments i arg hat)).2

theorem validate_eq_nil {formula : String} {registry : Registry} {vars : Option Variables}
    {f : Formula} (hvalid : validate formula registry vars f = []) :
    ∀ place ∈ f.root.walk, Validation.node formula registry vars place = [] :=
  List.flatMap_eq_nil_iff.1 hvalid

theorem declares_of_node {formula : String} {registry : Registry} {name : String} {offset : Nat}
    (hnode : Validation.node formula registry (some vars) ([], .atom (.variable name) offset) = []) :
    vars.declares name = true := by
  have hundeclared := List.map_eq_nil_iff.1 hnode
  unfold Validation.undeclared at hundeclared
  dsimp only at hundeclared
  split at hundeclared
  · assumption
  · cases hundeclared

/-- A formula in which validation finds nothing wrong fits together. -/
theorem checked_of_validate {formula : String} {known : String → Bool} {options : ParseOptions}
    {f : Formula} (h : f.root.WellFormed known options)
    (huses : ¬f.root.Uses Control.ifThenElse.definition.name)
    (hvalid : validate formula Registry.builtin (some vars) f = []) : f.root.Checked vars := by
  have hissues := validate_eq_nil hvalid
  refine checked_of_walk h hissues ?_ ?_
  · intro place hplace name hname
    by_contra hsame
    exact huses ⟨place, hplace, name, hname, by simpa using hsame⟩
  · intro name offset hroot
    have hself : ([], f.root) ∈ f.root.walk := by
      rw [hroot]
      exact List.mem_singleton_self _
    have hnode := hissues _ hself
    rw [hroot] at hnode
    exact declares_of_node hnode

end Node

end MissionScript
