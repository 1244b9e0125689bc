import MissionScript.Operator.Registry
import Mathlib.Data.List.Nodup
import Mathlib.Tactic.Common

/-!
What is found through the index of a table of operators. The index leads to every operator under its own
name and to nothing else, so that no name is without an operator or has two of them.
-/

namespace MissionScript

namespace OperatorTable

variable {t : OperatorTable} {o : Operator} {name : String}

theorem getElem?_names (t : OperatorTable) (place : Nat) :
    t.names[place]? = t.values[place]?.map fun o => foldName o.name :=
  List.getElem?_map

/-- Every operator has a place, and the index has this place under its name. -/
theorem IsIndexed.exists_place (h : t.IsIndexed) (ho : o ∈ t.values) :
    ∃ place, t.values[place]? = some o ∧ t.index.find? (foldName o.name) = some place := by
  obtain ⟨place, hplace⟩ := List.mem_iff_getElem?.1 ho
  refine ⟨place, hplace, (h _ _).2 ?_⟩
  rw [getElem?_names, hplace]
  rfl

/-- The index has no place that is empty or has an operator of another name. -/
theorem IsIndexed.exists_value (h : t.IsIndexed) {key : String} {place : Nat}
    (hplace : t.index.find? key = some place) :
    ∃ o, t.values[place]? = some o ∧ foldName o.name = key := by
  have hname := (h key place).1 hplace
  rw [getElem?_names] at hname
  exact Option.map_eq_some_iff.1 hname

/-- No two operators have the same folded name. -/
theorem IsIndexed.nodup_names (h : t.IsIndexed) : t.names.Nodup := by
  rw [List.nodup_iff_getElem?_ne_getElem?]
  intro i j hlt hj heq
  have hname : t.names[j]? = some t.names[j] := List.getElem?_eq_getElem hj
  have hindex := (h _ i).2 (heq.trans hname)
  rw [(h _ j).2 hname] at hindex
  exact Nat.ne_of_gt hlt (Option.some.inj hindex)

/-- An operator is found under a name exactly if it is in the table and the name is its own. -/
theorem IsIndexed.get?_eq_some_iff (h : t.IsIndexed) :
    t.get? name = some o ↔ o ∈ t.values ∧ foldName o.name = foldName name := by
  unfold get?
  constructor
  · intro hget
    obtain ⟨place, hplace, hat⟩ := Option.bind_eq_some_iff.1 hget
    obtain ⟨o', hat', hname⟩ := h.exists_value hplace
    obtain rfl : o' = o := Option.some.inj (hat'.symm.trans hat)
    exact ⟨List.mem_of_getElem? hat, hname⟩
  · rintro ⟨ho, hname⟩
    obtain ⟨place, hat, hplace⟩ := h.exists_place ho
    rw [← hname, hplace]
    exact hat

/-- What is found is the first operator of the name. -/
theorem IsIndexed.get?_eq_find? (h : t.IsIndexed) (name : String) :
    t.get? name = t.values.find? fun o => sameName o.name name := by
  cases hfind : t.values.find? fun o => sameName o.name name with
  | some o =>
    have hsame : sameName o.name name = true := by simpa using List.find?_some hfind
    exact h.get?_eq_some_iff.2 ⟨List.mem_of_find?_eq_some hfind, sameName_iff.1 hsame⟩
  | none =>
    rw [List.find?_eq_none] at hfind
    rw [Option.eq_none_iff_forall_ne_some]
    intro o hget
    obtain ⟨ho, hname⟩ := h.get?_eq_some_iff.1 hget
    exact hfind o ho (sameName_iff.2 hname)

/-- The place of every name in the index has an operator. -/
theorem IsIndexed.has_eq (h : t.IsIndexed) (name : String) : t.has name = (t.get? name).isSome := by
  unfold has Table.contains get?
  cases hplace : t.index.find? (foldName name) with
  | none => rfl
  | some place =>
    obtain ⟨o, hat, -⟩ := h.exists_value hplace
    rw [Option.bind_some, hat]
    rfl

end OperatorTable

namespace Registry

variable {r after : Registry} {name : String} {signature : Signature} {behaviour : Behaviour}
  {description : String}

theorem eq_of_toOperatorTable_eq (h : r.toOperatorTable = after.toOperatorTable) : r = after := by
  obtain ⟨table, hindexed⟩ := r
  obtain ⟨table', hindexed'⟩ := after
  obtain rfl : table = table' := h
  rfl

/-- All that can come of registering an operator. -/
theorem register_cases (r : Registry) (name : String) (signature : Signature) (behaviour : Behaviour)
    (description : String) :
    (isOperatorName name.toList = false ∧
      r.register name signature behaviour description = .error (.invalidName name)) ∨
    (isOperatorName name.toList = true ∧ r.has name = true ∧
      r.register name signature behaviour description = .error (.duplicate name)) ∨
    (isOperatorName name.toList = true ∧ r.has name = false ∧ ∃ after,
      r.register name signature behaviour description = .ok after ∧
      after.toOperatorTable = r.add (.define name signature behaviour description)) := by
  unfold register
  dsimp only
  rcases r.toOperatorTable.register_cases name signature behaviour description with
    ⟨hname, hmade⟩ | ⟨hname, hhas, hmade⟩ | ⟨hname, hhas, hmade⟩
  · rw [congrArg Prod.fst hmade]
    exact Or.inl ⟨hname, rfl⟩
  · rw [congrArg Prod.fst hmade]
    exact Or.inr (Or.inl ⟨hname, hhas, rfl⟩)
  · rw [congrArg Prod.fst hmade]
    exact Or.inr (Or.inr ⟨hname, hhas, _, rfl, congrArg Prod.snd hmade⟩)

theorem register_eq_invalidName_iff :
    r.register name signature behaviour description = .error (.invalidName name) ↔
      isOperatorName name.toList = false := by
  rcases r.register_cases name signature behaviour description with
    ⟨hname, hmade⟩ | ⟨hname, -, hmade⟩ | ⟨hname, -, after, hmade, -⟩
  · simp [hname, hmade]
  · simp [hname, hmade]
  · simp [hname, hmade]

theorem exists_register_iff :
    (∃ after, r.register name signature behaviour description = .ok after) ↔
      isOperatorName name.toList = true ∧ r.has name = false := by
  rcases r.register_cases name signature behaviour description with
    ⟨hname, hmade⟩ | ⟨hname, hhas, hmade⟩ | ⟨hname, hhas, after, hmade, -⟩
  · simp [hname, hmade]
  · simp [hhas, hmade]
  · simp [hname, hhas, hmade]

/-- A call that succeeds puts the operator at the end. -/
theorem eq_add_of_register (h : r.register name signature behaviour description = .ok after) :
    after.toOperatorTable = r.add (.define name signature behaviour description) := by
  rcases r.register_cases name signature behaviour description with
    ⟨-, hmade⟩ | ⟨-, -, hmade⟩ | ⟨-, -, after', hmade, hadd⟩
  · cases hmade.symm.trans h
  · cases hmade.symm.trans h
  · obtain rfl : after' = after := Except.ok.inj (hmade.symm.trans h)
    exact hadd

theorem has_of_register (h : r.register name signature behaviour description = .ok after) :
    after.has name = true := by
  rw [eq_add_of_register h]
  simp [OperatorTable.has, OperatorTable.add, Operator.define, Table.contains]

end Registry

end MissionScript
