import MissionScript.Proofs.Evaluation.Ensures

/-!
Where errors come from. An error is raised by one node, for a reason that lies in this node, and never
because another one has failed.
-/

namespace MissionScript

variable {H : Type}

/-- Whether an error is what an operator says of the values of its arguments. -/
def EvalError.isComplaint : EvalError → Bool
  | .argumentMismatch .. | .failed .. => true
  | _ => false

/-- Whether an answer has no other errors than complaints. -/
def Complains {α : Type} (answer : Except EvalError α) : Prop :=
  ∀ e, answer = .error e → e.isComplaint = true

theorem complains_ok {α : Type} (a : α) : Complains (.ok a) :=
  nofun

theorem complains_error {α : Type} {e : EvalError} (he : e.isComplaint = true) :
    Complains (.error e : Except EvalError α) := by
  rintro _ ⟨⟩
  exact he

theorem Complains.bind {α β : Type} {answer : Except EvalError α} {k : α → Except EvalError β}
    (h : Complains answer) (hk : ∀ a, Complains (k a)) : Complains (answer >>= k) := by
  cases answer with
  | error e => exact complains_error (h e rfl)
  | ok a => exact hk a

/-- What comes of an application by an operator: it has no operator, or one that is not registered, or
    one that is given too few or too many arguments; it names a variable that is unknown; or else the
    operator complains of its arguments. -/
inductive Registry.Raises (registry : Registry) (args : List Node) : Option String → EvalError → Prop where
  | noOperator : Raises registry args none .notAnOperator
  | unknownOperator {name : String} (hget : registry.get? name = none) :
    Raises registry args (some name) (.unknownOperator name)
  | arity {name : String} {operator : Operator} (hget : registry.get? name = some operator)
    (hcount : operator.signature.acceptsCount args.length = false) :
    Raises registry args (some name) (Evaluation.arityError operator args.length)
  | unknownVariable {name target : String} {operator : Operator} {c : Control}
    (hget : registry.get? name = some operator)
    (hcount : operator.signature.acceptsCount args.length = true)
    (hbehaviour : operator.behaviour = .builtin (.control c))
    (hc : c = .modifyVariable ∨ c = .variableIsSet)
    (htarget : args.head?.bind Node.variableName? = some target) :
    Raises registry args (some name) (.unknownVariable target)
  | complaint {name : String} {operator : Operator} {e : EvalError}
    (hget : registry.get? name = some operator)
    (hcount : operator.signature.acceptsCount args.length = true) (he : e.isComplaint = true) :
    Raises registry args (some name) e

/-- The errors that a node itself can raise at its path. -/
inductive Node.Raises (registry : Registry) (path : Path) : Node → EvalError → Prop where
  | tooDeep {n : Node} (hdeep : maxEvalDepth ≤ path.length) :
    Raises registry path n (.depthExceeded maxEvalDepth)
  | unknownVariable (name : String) (offset : Nat) :
    Raises registry path (.atom (.variable name) offset) (.unknownVariable name)
  | noOperator (name : String) (offset : Nat) :
    Raises registry path (.atom (.operator name) offset) .notAnOperator
  | application {children : List Node} {offset : Nat} {e : EvalError}
    (h : registry.Raises children.tail (headName? children) e) :
    Raises registry path (.list children offset) e

/-! ### Complaints -/

namespace Query

variable (operator : String)

theorem complains_numberArg (index : Nat) (v : Value) : Complains (numberArg operator index v) := by
  cases v with
  | number x => exact complains_ok x
  | text | unknown => exact complains_error rfl

theorem complains_textArg (index : Nat) (v : Value) : Complains (textArg operator index v) := by
  cases v with
  | text s => exact complains_ok s
  | number | unknown => exact complains_error rfl

theorem complains_numbersFrom (index : Nat) (args : List Value) :
    Complains (numbersFrom operator index args) := by
  induction args generalizing index with
  | nil => exact complains_ok []
  | cons v rest ih =>
    exact (complains_numberArg operator index v).bind fun x => (ih _).bind fun xs => complains_ok (x :: xs)

theorem complains_textsFrom (index : Nat) (args : List Value) :
    Complains (textsFrom operator index args) := by
  induction args generalizing index with
  | nil => exact complains_ok []
  | cons v rest ih =>
    exact (complains_textArg operator index v).bind fun s => (ih _).bind fun texts =>
      complains_ok (s :: texts)

theorem complains_argAt (args : List Value) (index : Nat) : Complains (argAt operator args index) := by
  unfold argAt
  split
  · exact complains_ok _
  · exact complains_error rfl

theorem complains_numberAt (args : List Value) (index : Nat) :
    Complains (numberAt operator args index) :=
  (complains_argAt operator args index).bind (complains_numberArg operator index)

theorem complains_textAt (args : List Value) (index : Nat) : Complains (textAt operator args index) :=
  (complains_argAt operator args index).bind (complains_textArg operator index)

theorem complains_combine (args : List Value) (step : Float → Float → Except Failure Float) :
    Complains (combine operator args step) := by
  refine (complains_numbersFrom operator 0 args).bind fun numbers => ?_
  cases numbers with
  | nil => exact complains_error rfl
  | cons x rest =>
    dsimp only
    split
    · exact complains_error rfl
    · split
      · exact complains_ok _
      · exact complains_error rfl

theorem complains_compareFirst (args : List Value) (holds : Float → Float → Bool) :
    Complains (compareFirst operator args holds) := by
  refine (complains_numbersFrom operator 0 args).bind fun numbers => ?_
  cases numbers with
  | nil => exact complains_error rfl
  | cons x rest => exact complains_ok _

theorem complains_eventArg (l : Ledger) (args : List Value) : Complains (eventArg operator l args) := by
  refine (complains_textAt operator args 0).bind fun name => ?_
  split
  · exact complains_ok _
  · exact complains_error rfl

theorem complains_goalArg (l : Ledger) (args : List Value) : Complains (goalArg operator l args) := by
  refine (complains_textAt operator args 0).bind fun name => ?_
  split
  · exact complains_ok _
  · exact complains_error rfl

/-- A query that does not answer complains of its arguments. -/
theorem complains_answer [Host H] (q : Query) (host : H) (l : Ledger) (args : List Value) :
    Complains (q.answer host l args) := by
  cases q with
  | always | never | missionTime | doNothing => exact complains_ok _
  | not | isIndeterminate => exact (complains_argAt _ args 0).bind fun _ => complains_ok _
  | xor =>
    exact (complains_argAt _ args 0).bind fun _ => (complains_argAt _ args 1).bind fun _ =>
      complains_ok _
  | add | multiply | divide | modulo | least | greatest => exact complains_combine _ args _
  | subtract =>
    unfold answer
    dsimp only
    split
    · exact (complains_numberArg _ 0 _).bind fun _ => complains_ok _
    · exact complains_combine _ _ _
  | absolute | hasTimeElapsed | numberToString =>
    exact (complains_numberAt _ args 0).bind fun _ => complains_ok _
  | equal | less | greater | atMost | atLeast | notEqual => exact complains_compareFirst _ args _
  | stringEquals =>
    refine (complains_textsFrom _ 0 args).bind fun texts => ?_
    cases texts with
    | nil => exact complains_error rfl
    | cons s rest => exact complains_ok _
  | stringConcatenate | isDestroyed | hasDeparted | hasArrived =>
    exact (complains_textsFrom _ 0 args).bind fun _ => complains_ok _
  | stringLength | hitsLeft | shipExists | wingHasArrived =>
    exact (complains_textAt _ args 0).bind fun _ => complains_ok _
  | stringToNumber =>
    refine (complains_textAt _ args 0).bind fun text => ?_
    split
    · exact complains_ok _
    · exact complains_error rfl
  | percentWingDestroyed =>
    refine (complains_textAt _ args 0).bind fun wing => ?_
    exact complains_ok _
  | isEventTrue | isEventFalse => exact (complains_eventArg _ l args).bind fun _ => complains_ok _
  | isEventTrueDelay =>
    exact (complains_numberAt _ args 1).bind fun _ => (complains_eventArg _ l args).bind fun _ =>
      complains_ok _
  | isGoalTrue | isGoalFalse => exact (complains_goalArg _ l args).bind fun _ => complains_ok _

end Query

/-- An action that fails complains of its arguments. -/
theorem Action.complains_perform [Host H] (a : Action) (args : List Value) (env : Env H) :
    Complains (a.perform args env).1 := by
  have hbounds (operator : String) : Complains (randomBounds operator args) := by
    refine (Query.complains_numberAt operator args 0).bind fun low => ?_
    refine (Query.complains_numberAt operator args 1).bind fun high => ?_
    dsimp only
    split
    · exact complains_error rfl
    · exact complains_ok _
  have hmessage (operator : String) : Complains (messageArgs operator args) :=
    (Query.complains_textAt operator args 0).bind fun persona =>
      (Query.complains_textAt operator args 1).bind fun text => complains_ok (persona, text)
  unfold perform
  cases a with
  | random =>
    dsimp only
    split
    · next e he => exact complains_error (hbounds _ e he)
    · exact complains_ok _
  | sendMessage =>
    dsimp only
    split
    · next e he => exact complains_error (hmessage _ e he)
    · exact complains_ok _
  | spawnWing | selfDestruct | invalidateGoal | validateGoal =>
    dsimp only
    split
    · next e he => exact complains_error (Query.complains_textsFrom _ 0 args e he)
    · exact complains_ok _

/-! ### Errors of applications -/

/-- What is computed first does not matter, only what is answered in the end. -/
theorem ensures_bind_last {α β : Type} {m : EvalM H α} {k : α → EvalM H β} {Q : β → Prop}
    (hk : ∀ a, Ensures (fun _ => True) (k a) Q) : Ensures (fun _ => True) (m >>= k) Q :=
  Ensures.bind (Q := fun _ => True) (fun _ _ => ⟨trivial, trivial⟩) fun a _ => hk a

namespace Control

/-- Whether an error is one that a control raises, given its arguments: a complaint, or that the variable
    that is its target is unknown. -/
def Raises (c : Control) (args : List Node) (e : EvalError) : Prop :=
  e.isComplaint = true ∨ (c = .modifyVariable ∨ c = .variableIsSet) ∧
    ∃ target, args.head?.bind Node.variableName? = some target ∧ e = .unknownVariable target

theorem complains_target (operator : String) (n : Node) : Complains (target operator n) := by
  unfold target
  split
  · exact complains_ok _
  · exact complains_error rfl

theorem raises_store {operator name : String} {value : Value} {env : Env H} {e : EvalError}
    (h : (store operator name value env).1 = .error e) :
    e.isComplaint = true ∨ e = .unknownVariable name := by
  unfold store at h
  split at h
  · cases h
  · split at h
    · cases h
    · next undeclared heq =>
      obtain rfl := Except.error.inj h
      refine Or.inr (congrArg _ ?_)
      unfold Variables.setValue Variables.set at heq
      grind
    · exact Or.inl (Except.error.inj h ▸ rfl)
    · exact Or.inl (Except.error.inj h ▸ rfl)

theorem raises_isSet {vars : Variables} {name : String} {e : EvalError}
    (h : isSet vars name = .error e) : e = .unknownVariable name := by
  unfold isSet at h
  split at h
  · cases h
  · exact (Except.error.inj h).symm

theorem raises_run [Host H] (c : Control) (formula : String) (args : List (Arg H)) :
    Ensures (fun _ => True) (c.run formula args) fun outcome =>
      ∀ e, outcome = .error e → c.Raises (args.map (·.node)) e := by
  have hok (v : Value) : Ensures (fun _ => True) (pure (.ok v) : EvalM H (Except EvalError Value))
      fun outcome => ∀ e, outcome = .error e → c.Raises (args.map (·.node)) e := ensures_pure nofun
  have hcomplaint {e : EvalError} (he : e.isComplaint = true) :
      Ensures (fun _ => True) (pure (.error e) : EvalM H (Except EvalError Value))
        fun outcome => ∀ e, outcome = .error e → c.Raises (args.map (·.node)) e :=
    ensures_pure fun e' he' => Or.inl (complains_error he e' he')
  cases c with
  | and | or => exact ensures_bind_last fun _ => hok _
  | andInSequence => exact ensures_bind_last fun _ => ensures_bind_last fun _ => hok _
  | «when» | everyTime =>
    cases args with
    | nil => exact hcomplaint rfl
    | cons condition actions =>
      refine ensures_bind_last fun v => ?_
      dsimp only
      split
      · exact ensures_bind_last fun _ => hok _
      · exact hok _
  | ifThenElse =>
    rcases args with _ | ⟨condition, _ | ⟨yes, _ | ⟨no, rest⟩⟩⟩
    · exact hcomplaint rfl
    · exact hcomplaint rfl
    · exact hcomplaint rfl
    · refine ensures_bind_last fun v => ?_
      dsimp only
      split
      · exact hok _
      · split <;> exact ensures_bind_last fun _ => hok _
  | modifyVariable =>
    rcases args with _ | ⟨ref, _ | ⟨value, rest⟩⟩
    · exact hcomplaint rfl
    · exact hcomplaint rfl
    · dsimp only [run]
      split
      · next e htarget => exact hcomplaint (complains_target _ _ e htarget)
      · next name htarget =>
        refine ensures_bind_last fun v => ensures_modifyGet fun env _ => ⟨fun e he => ?_, trivial⟩
        refine (raises_store he).imp_right fun heq => ⟨Or.inl rfl, name, ?_, heq⟩
        exact variableName?_of_target htarget
  | variableIsSet =>
    cases args with
    | nil => exact hcomplaint rfl
    | cons ref rest =>
      dsimp only [run]
      split
      · next e htarget => exact hcomplaint (complains_target _ _ e htarget)
      · next name htarget =>
        refine ensures_bind_last fun env => ensures_pure fun e he => ?_
        exact Or.inr ⟨Or.inr rfl, name, variableName?_of_target htarget, raises_isSet he⟩

end Control

namespace Evaluation

theorem exists_mismatch {operator : Operator} {values : List Value} {e : EvalError}
    (h : mismatch? operator values = some e) :
    ∃ index expected found, e = .argumentMismatch operator.name index expected found := by
  obtain ⟨⟨v, i⟩, -, hv⟩ := List.exists_of_findSome?_eq_some h
  dsimp only at hv
  split at hv
  · cases hv
  · exact ⟨i, _, _, (Option.some.inj hv).symm⟩

theorem complains_scriptedAnswer (formula : String) (path : Path) (count : Nat) (reply : Reply) :
    Complains (scriptedAnswer formula path count reply) := by
  cases reply with
  | fail reason => exact complains_error rfl
  | count | place | give => exact complains_ok _

/-- There is one value for each argument, whatever these do. -/
theorem ensures_length_evalAll (args : List (Arg H)) :
    Ensures (fun _ => True) (evalAll args) fun values => values.length = args.length :=
  (ensures_evalAll (Q := fun _ _ => True) fun _ _ _ _ => ⟨trivial, trivial⟩).mono
    fun _ hvalues => hvalues.length_eq.symm

variable [Host H]

/-- Given as many values as it takes, an operator that is no control complains of them if it fails. -/
theorem complains_applyEager {operator : Operator} (hlazy : operator.behaviour.isLazy = false)
    {values : List Value} (hcount : operator.signature.acceptsCount values.length = true)
    (formula : String) (path : Path) (env : Env H) :
    Complains (applyEager operator formula path values env).1 := by
  unfold applyEager
  rw [if_neg (by simp [hcount])]
  split
  · next e hmismatch =>
    obtain ⟨index, expected, found, rfl⟩ := exists_mismatch hmismatch
    exact complains_error rfl
  · split
    · exact complains_ok _
    · split
      · exact Query.complains_answer _ _ _ _
      · exact Action.complains_perform _ _ env
      · next c hc =>
        rw [hc] at hlazy
        cases hlazy
      · exact complains_scriptedAnswer _ _ _ _

/-- Whatever its arguments do, an application raises no errors but its own. -/
theorem raises_apply (registry : Registry) (formula : String) (path : Path) (name : Option String)
    (args : List (Arg H)) : Ensures (fun _ => True) (apply registry formula path name args)
      fun outcome => ∀ e, outcome = .error e → registry.Raises (args.map (·.node)) name e := by
  unfold apply
  split
  · refine ensures_pure fun e he => ?_
    cases he
    exact .noOperator
  · next name =>
    split
    · next hget =>
      refine ensures_pure fun e he => ?_
      cases he
      exact .unknownOperator hget
    · next operator hget =>
      have harity (hcount : ¬ operator.signature.acceptsCount args.length = true) :
          registry.Raises (args.map (·.node)) (some name) (arityError operator args.length) := by
        have hcount : operator.signature.acceptsCount (args.map (·.node)).length = false := by
          rw [List.length_map]
          exact Bool.eq_false_iff.2 hcount
        have hraises := Registry.Raises.arity hget hcount
        rwa [List.length_map] at hraises
      have hcomplaint {e : EvalError} (hcount : operator.signature.acceptsCount args.length = true)
          (he : e.isComplaint = true) : registry.Raises (args.map (·.node)) (some name) e :=
        .complaint hget (by rwa [List.length_map]) he
      split
      · next hlazy =>
        unfold applyLazy
        split
        · next hcount =>
          refine ensures_pure fun e he => ?_
          cases he
          exact harity (by simpa using hcount)
        · next hcount =>
          have hcount : operator.signature.acceptsCount args.length = true := by simpa using hcount
          split
          · next c hc =>
            refine (Control.raises_run c formula args).mono fun outcome houtcome e he => ?_
            rcases houtcome e he with he | ⟨hc', target, htarget, rfl⟩
            · exact hcomplaint hcount he
            · exact .unknownVariable hget (by rwa [List.length_map]) hc hc' htarget
          · next b hcontrol hb =>
            rw [hb] at hlazy
            cases b with
            | control c => exact absurd rfl (hcontrol c)
            | query | action => cases hlazy
          · refine ensures_bind_last fun _ => ensures_pure fun e he => ?_
            exact hcomplaint hcount (complains_scriptedAnswer _ _ _ _ e he)
      · next hlazy =>
        refine (ensures_length_evalAll args).bind fun values hlength =>
          ensures_modifyGet fun env _ => ⟨fun e he => ?_, trivial⟩
        by_cases hcount : operator.signature.acceptsCount args.length = true
        · exact hcomplaint hcount (complains_applyEager (Bool.eq_false_iff.2 hlazy) (hlength ▸ hcount)
            formula path env e he)
        · rw [applyEager, if_pos (by simp [hlength, hcount]), hlength] at he
          cases he
          exact harity hcount

theorem raises_atomValue (registry : Registry) (path : Path) {vars : Variables} {a : Atom}
    (offset : Nat) {e : EvalError} (h : atomValue vars a = .error e) :
    (Node.atom a offset).Raises registry path e := by
  cases a with
  | number | text => cases h
  | operator name =>
    cases h
    exact .noOperator name offset
  | «variable» name =>
    rw [atomValue] at h
    split at h
    · cases h
    · cases h
      exact .unknownVariable name offset

theorem map_node_childArgs (registry : Registry) (formula : String) (path : Path) (index : Nat)
    (nodes : List Node) :
    (childArgs (H := H) registry formula path index nodes).map (·.node) = nodes := by
  induction nodes generalizing index with
  | nil => rfl
  | cons n rest ih => rw [childArgs, List.map_cons, ih]

end Evaluation

/-! ### Errors in traces -/

/-- Whether a step, if it leaves a node with an error, leaves a node of the formula that raises this error
    itself. -/
def Visit.Owns (registry : Registry) (root : Node) : Visit → Prop
  | .leave path (.error e) => ∃ n, root.at? path = some n ∧ n.Raises registry path e
  | _ => True

/-- Whether all steps of a trace have a property. -/
def Env.Traces (P : Visit → Prop) (env : Env H) : Prop :=
  ∀ v ∈ env.trace, P v

theorem Env.Traces.record {P : Visit → Prop} {env : Env H} (h : env.Traces P) {v : Visit} (hv : P v) :
    (env.record v).Traces P := by
  intro w hw
  rcases Array.mem_push.1 hw with hw | rfl
  · exact h w hw
  · exact hv

section

variable [Host H]

theorem Env.steady_traces (P : Visit → Prop) : Env.Steady (Env.Traces (H := H) P) := by
  have hstable : Env.Stable (Env.Traces (H := H) P) := by
    intro env env' heffect h
    unfold Traces
    rwa [heffect.trace_eq]
  exact hstable.steady

namespace Evaluation

variable {registry : Registry} {formula : String} {root n : Node} {path : Path}

/-- A visit owns its error if what is attempted raises it at this node. -/
theorem owns_visit (hn : root.at? path = some n) {attempt : EvalM H (Except EvalError Value)}
    (hkeeps : Preserves (Env.Traces (Visit.Owns registry root)) attempt)
    (hraises : Ensures (fun _ => True) attempt fun outcome =>
      ∀ e, outcome = .error e → n.Raises registry path e) :
    Preserves (Env.Traces (Visit.Owns registry root)) (visit formula path n attempt) := by
  have hattempt : Ensures (Env.Traces (Visit.Owns registry root)) attempt fun outcome =>
      ∀ e, outcome = .error e → n.Raises registry path e :=
    fun env henv => ⟨(hraises env trivial).1, (hkeeps env henv).2⟩
  refine (ensures_visit (Env.steady_traces _).calm hattempt ?_ ?_ ?_).preserves
  · rintro hdeep e ⟨⟩
    exact .tooDeep hdeep
  · exact fun env henv => henv.record trivial
  · intro env outcome houtcome henv
    refine henv.record ?_
    cases outcome with
    | ok v => trivial
    | error e => exact ⟨n, hn, houtcome e rfl⟩

mutual

theorem owns_evalNode (registry : Registry) (formula : String) (root : Node) (path : Path) (n : Node)
    (hn : root.at? path = some n) :
    Preserves (Env.Traces (H := H) (Visit.Owns registry root)) (evalNode registry formula path n) := by
  cases n with
  | atom a offset =>
    rw [evalNode]
    refine owns_visit hn (ensures_get.bind fun _ _ => ensures_pure trivial) ?_
    exact ensures_bind_last fun env => ensures_pure fun e he => raises_atomValue registry path offset he
  | list children offset =>
    have hargs : ∀ arg ∈ (childArgs (H := H) registry formula path 0 children).tail,
        Preserves (Env.Traces (Visit.Owns registry root)) arg.eval := fun arg harg =>
      owns_childArgs registry formula root path 0 children (fun i child hi => by
        rw [Node.at?_child, hn, Option.bind_some, Nat.zero_add]
        exact hi) arg (List.mem_of_mem_tail harg)
    rw [evalNode]
    refine owns_visit hn ?_ ?_
    · exact preserves_apply_of_steady (Env.steady_traces _) registry formula path _ hargs
    · refine (raises_apply registry formula path _ _).mono fun outcome houtcome e he => ?_
      have hraises := houtcome e he
      rw [List.map_tail, map_node_childArgs] at hraises
      exact .application hraises

theorem owns_childArgs (registry : Registry) (formula : String) (root : Node) (path : Path)
    (index : Nat) (nodes : List Node)
    (hnodes : ∀ i n, nodes[i]? = some n → root.at? (path.child (index + i)) = some n) :
    ∀ arg ∈ childArgs (H := H) registry formula path index nodes,
      Preserves (Env.Traces (Visit.Owns registry root)) arg.eval := by
  cases nodes with
  | nil =>
    rw [childArgs]
    exact fun arg harg => absurd harg List.not_mem_nil
  | cons n rest =>
    rw [childArgs]
    refine List.forall_mem_cons.2 ⟨?_, ?_⟩
    · exact owns_evalNode registry formula root (path.child index) n (hnodes 0 n rfl)
    · exact owns_childArgs registry formula root path (index + 1) rest fun i n hi => by
        rw [Nat.add_assoc, Nat.add_comm 1]
        exact hnodes (i + 1) n hi

end

end Evaluation

/-- Every node that an evaluation leaves with an error raises this error itself. -/
theorem owns_evaluate (registry : Registry) (formula : String) (root : Node) (env : Env H) :
    ∀ v ∈ ((evaluate registry formula root).run env).2.trace, v.Owns registry root :=
  (Evaluation.owns_evalNode registry formula root [] root (Node.at?_nil root)
    { env with trace := #[] } fun v hv => absurd hv (Array.not_mem_empty v)).2

end

end MissionScript
