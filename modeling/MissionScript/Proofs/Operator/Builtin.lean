import MissionScript.Proofs.Operator.Index

/-!
The registry of the built-in operators holds nothing else, each under its own name.
-/

namespace MissionScript

/-- A built-in operator as it is registered. -/
def Builtin.operator (b : Builtin) : Operator :=
  let d := b.definition
  ⟨d.name,
    { d.signature with flags := { d.signature.flags with isLazy := (Behaviour.builtin b).isLazy } },
    .builtin b, d.description⟩

/-- The names of the built-in operators are folded already. -/
theorem Builtin.foldName_name (b : Builtin) : foldName b.definition.name = b.definition.name := by
  have hall : Builtin.all.all (fun b => foldName b.definition.name == b.definition.name) = true := by
    decide +kernel
  exact beq_iff_eq.1 (List.all_eq_true.1 hall b b.mem_all)

namespace Registry

/-- A built-in operator whose name is still free is added under it. -/
theorem registerBuiltin_of_new {r : Registry} {b : Builtin}
    (hname : isOperatorName b.definition.name.toList = true) (hnew : r.has b.definition.name = false) :
    (r.registerBuiltin b).toOperatorTable = r.add b.operator := by
  obtain ⟨after, hafter⟩ : ∃ after, r.register b.definition.name b.definition.signature (.builtin b)
      b.definition.description = .ok after := exists_register_iff.2 ⟨hname, hnew⟩
  unfold registerBuiltin
  simp only [hafter]
  exact eq_add_of_register hafter

end Registry

namespace OperatorTable

/-- The table of some built-in operators, each at its place and under its own name. -/
def ofBuiltins (bs : List Builtin) : OperatorTable :=
  ⟨bs.map Builtin.operator, ⟨bs.zipIdx.map fun entry => (entry.1.definition.name, entry.2)⟩⟩

theorem keys_ofBuiltins (bs : List Builtin) :
    (ofBuiltins bs).index.keys = bs.map fun b => b.definition.name := by
  have hkeys : (ofBuiltins bs).index.keys =
      (bs.zipIdx.map Prod.fst).map fun b => b.definition.name := by
    rw [List.map_map, ofBuiltins, Table.keys, List.map_map]
    rfl
  rw [hkeys, List.zipIdx_map_fst]

theorem add_ofBuiltins {bs : List Builtin} {b : Builtin}
    (hnew : b.definition.name ∉ bs.map fun b => b.definition.name) :
    (ofBuiltins bs).add b.operator = ofBuiltins (bs ++ [b]) := by
  have hkey : foldName b.operator.name = b.definition.name := b.foldName_name
  have hlength : (ofBuiltins bs).values.length = bs.length := List.length_map _
  rw [← keys_ofBuiltins] at hnew
  rw [add, hkey, hlength, Table.insert_of_new hnew]
  simp [ofBuiltins, List.zipIdx_append]

end OperatorTable

namespace Registry

/-- Built-in operators with valid and distinct names are put in one after the other. -/
theorem foldl_registerBuiltin {before bs : List Builtin} {r : Registry}
    (hbefore : r.toOperatorTable = .ofBuiltins before)
    (hnames : ∀ b ∈ bs, isOperatorName b.definition.name.toList = true)
    (hdistinct : ((before ++ bs).map fun b => b.definition.name).Nodup) :
    (bs.foldl registerBuiltin r).toOperatorTable = .ofBuiltins (before ++ bs) := by
  induction bs generalizing before r with
  | nil => rw [List.append_nil, List.foldl_nil, hbefore]
  | cons b rest ih =>
    obtain ⟨hname, hnames⟩ := List.forall_mem_cons.1 hnames
    have hnew : b.definition.name ∉ before.map fun b => b.definition.name := by
      rw [List.map_append, List.map_cons, List.nodup_middle, List.nodup_cons] at hdistinct
      exact fun hmem => hdistinct.1 (List.mem_append_left _ hmem)
    have hfree : r.has b.definition.name = false := by
      rw [hbefore, OperatorTable.has, ← Bool.not_eq_true, Table.contains_iff, b.foldName_name,
        OperatorTable.keys_ofBuiltins]
      exact hnew
    rw [List.append_cons] at hdistinct ⊢
    refine ih ?_ hnames hdistinct
    rw [registerBuiltin_of_new hname hfree, hbefore, OperatorTable.add_ofBuiltins hnew]

theorem nodup_builtin_names : (Builtin.all.map fun b => b.definition.name).Nodup := by
  decide +kernel

/-- The table of the built-in operators, entry by entry. -/
theorem toOperatorTable_builtin : builtin.toOperatorTable = .ofBuiltins Builtin.all := by
  have hnames : Builtin.all.all (fun b => isOperatorName b.definition.name.toList) = true := by
    decide +kernel
  change _ = OperatorTable.ofBuiltins ([] ++ Builtin.all)
  exact foldl_registerBuiltin rfl (List.all_eq_true.1 hnames) nodup_builtin_names

/-- The registry of the built-in operators, entry by entry. -/
theorem builtin_eq : builtin =
    ⟨.ofBuiltins Builtin.all, toOperatorTable_builtin ▸ builtin.indexed⟩ :=
  eq_of_toOperatorTable_eq toOperatorTable_builtin

/-- What is found in the registry of the built-in operators is one of them, and has that name. -/
theorem exists_builtin_of_get? {name : String} {operator : Operator}
    (hget : Registry.builtin.get? name = some operator) :
    ∃ b : Builtin, operator = b.operator ∧ foldName b.definition.name = foldName name := by
  obtain ⟨hmem, hname⟩ := builtin.indexed.get?_eq_some_iff.1 hget
  rw [toOperatorTable_builtin] at hmem
  obtain ⟨b, -, rfl⟩ := List.mem_map.1 hmem
  exact ⟨b, rfl, hname⟩

/-- Every built-in operator is found under its name. -/
theorem get?_builtin (b : Builtin) : builtin.get? b.definition.name = some b.operator := by
  rw [builtin.indexed.get?_eq_some_iff, toOperatorTable_builtin]
  exact ⟨List.mem_map_of_mem b.mem_all, rfl⟩

end Registry

namespace Signature

theorem constraintAt_eq (s : Signature) (i : Nat) : s.constraintAt i ∈ s.args ∨ s.constraintAt i = .any := by
  unfold constraintAt
  cases hat : s.args[i]? with
  | some c => exact Or.inl (List.mem_of_getElem? hat)
  | none =>
    cases hlast : s.args.getLast? with
    | some c => exact Or.inl (List.mem_of_getLast? hlast)
    | none => exact Or.inr rfl

theorem constraintAt_of_args_eq {s : Signature} {c : Constraint} (h : s.args = [c]) (i : Nat) :
    s.constraintAt i = c := by
  cases i with
  | zero => simp [constraintAt, h]
  | succ i => simp [constraintAt, h]

theorem acceptsCount_of_le {s : Signature} (hmax : s.maxArgs = none) {n : Nat} (hmin : s.minArgs ≤ n) :
    s.acceptsCount n = true := by
  rw [acceptsCount, hmax, Bool.and_eq_true, decide_eq_true_iff]
  exact ⟨hmin, rfl⟩

theorem eq_of_acceptsCount {s : Signature} {k n : Nat} (hmin : s.minArgs = k) (hmax : s.maxArgs = some k)
    (h : s.acceptsCount n = true) : n = k := by
  simp only [acceptsCount, hmin, hmax, Option.all_some, Bool.and_eq_true, decide_eq_true_eq] at h
  omega

end Signature

/-- Only controls take a variable by its name. -/
theorem constraintAt_ne_variable {b : Builtin} (hlazy : (Behaviour.builtin b).isLazy = false) (i : Nat) :
    b.operator.signature.constraintAt i ≠ .variable := by
  have hargs : Constraint.variable ∉ b.operator.signature.args := by
    cases b with
    | query q => cases q <;> decide
    | action a => cases a <;> decide
    | control c => cases hlazy
  intro hvariable
  rcases b.operator.signature.constraintAt_eq i with hmem | hany
  · exact hargs (hvariable ▸ hmem)
  · rw [hvariable] at hany
    cases hany

end MissionScript
