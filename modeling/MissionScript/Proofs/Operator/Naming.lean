import MissionScript.Proofs.Formula.Soundness
import MissionScript.Proofs.Formula.Traversal
import MissionScript.Proofs.Operator.Builtin

/-!
Which names can be registered, and which can be written at the head of a list. A registry refuses
what is no bare word and what begins like a variable; a reader refuses besides what looks like a
number. So every head that is read can be registered, but not everything that is registered can be
read.
-/

namespace MissionScript

/-- Whether the list of nothing but a name is read as an application of the operator of this name. -/
def IsWritten (known : String → Bool) (options : ParseOptions) (name : String) : Prop :=
  ∃ f, parseChars known options ("(" ++ name ++ ")").toList = .ok f ∧
    f.root.shape = .list [.atom (.operator name) 0] 0

theorem isOperatorName_iff {name : List Char} :
    isOperatorName name = true ↔ Node.IsBareWord name ∧ name.head? ≠ some '@' := by
  simp only [isOperatorName, Node.IsBareWord, Bool.and_eq_true, Bool.not_eq_true',
    List.isEmpty_eq_false_iff, bne_iff_ne, List.all_eq_true]
  tauto

theorem isOperatorWord_iff {name : List Char} :
    isOperatorWord name = true ↔ name.head? ≠ some '@' ∧ looksNumeric name = false := by
  simp only [isOperatorWord, Bool.and_eq_true, bne_iff_ne, Bool.not_eq_true']

section

variable {known : String → Bool} {options : ParseOptions} {name : String}

/-- The heads that can be read are the names that can be registered and do not look like numbers. -/
theorem isHead_iff : Node.IsHead known options name ↔ isOperatorName name.toList = true ∧
    looksNumeric name.toList = false ∧ (known name = true ∨ options.allowUnknown = true) := by
  constructor
  · rintro ⟨hbare, hword, hallowed⟩
    obtain ⟨hat, hnumeric⟩ := isOperatorWord_iff.1 hword
    exact ⟨isOperatorName_iff.2 ⟨hbare, hat⟩, hnumeric, hallowed⟩
  · rintro ⟨hname, hnumeric, hallowed⟩
    obtain ⟨hbare, hat⟩ := isOperatorName_iff.1 hname
    exact ⟨hbare, isOperatorWord_iff.2 ⟨hat, hnumeric⟩, hallowed⟩

theorem eq_of_shape_eq_application {n : Node}
    (h : n.shape = .list [.atom (.operator name) 0] 0) :
    ∃ headOffset offset, n = .list [.atom (.operator name) headOffset] offset := by
  cases n with
  | atom a offset => cases h
  | list children offset =>
    obtain ⟨hchildren, -⟩ := Node.list.inj h
    rw [Node.shapeAll_eq_map] at hchildren
    obtain ⟨head, rfl, hhead⟩ := List.map_eq_singleton_iff.1 hchildren
    cases head with
    | list children' offset' => cases hhead
    | atom a headOffset =>
      obtain ⟨rfl, -⟩ := Node.atom.inj hhead
      exact ⟨headOffset, offset, rfl⟩

/-- A name is written at the head of a list exactly if it can be a head and there is room for a list. -/
theorem isWritten_iff : IsWritten known options name ↔
    Node.IsHead known options name ∧ 0 < options.maxDepth := by
  constructor
  · rintro ⟨f, hparse, hshape⟩
    obtain ⟨hwell, hdepth, -⟩ := wellFormed_of_parseChars hparse
    obtain ⟨headOffset, offset, hroot⟩ := eq_of_shape_eq_application hshape
    rw [hroot] at hwell hdepth
    rw [Node.nesting_application] at hdepth
    cases hwell with
    | list _ _ hhead _ => exact ⟨hhead, hdepth⟩
  · rintro ⟨hhead, hroom⟩
    have hwell : (Node.list [.atom (.operator name) 0] 0).WellFormed known options :=
      .list 0 0 hhead (List.forall_mem_nil _)
    obtain ⟨f, hparse, hshape, -⟩ := parseChars_chars hwell hroom
    have hchars : ("(" ++ name ++ ")").toList =
        (Node.list [.atom (.operator name) 0] 0).chars := by
      rw [String.toList_append, String.toList_append]
      rfl
    exact ⟨f, hchars ▸ hparse, hshape⟩

/-- Every application in a well-formed tree has a head. -/
theorem Node.WellFormed.isHead_of_mem_walkFrom {n : Node} (h : n.WellFormed known options) :
    ∀ (path : Path) (place : Path × Node), place ∈ n.walkFrom path →
      place.2.operator? = some name → Node.IsHead known options name := by
  induction h with
  | number | text | «variable» =>
    intro path place hplace hname
    rw [walkFrom, List.mem_singleton] at hplace
    rw [hplace] at hname
    cases hname
  | @list head args headOffset offset hhead _ ih =>
    intro path place hplace hname
    rw [walkFrom, List.mem_cons, walkAll, walkFrom, List.singleton_append, List.mem_cons] at hplace
    rcases hplace with rfl | rfl | hargs
    · obtain rfl : head = name := Option.some.inj hname
      exact hhead
    · cases hname
    · obtain ⟨i, below, -, hat⟩ := (mem_walkAll_iff ..).1 hargs
      obtain ⟨n, hn, hat⟩ := Option.bind_eq_some_iff.1 hat
      exact ih n (List.mem_of_getElem? hn) [] (below, place.2) (mem_walk_iff.2 hat) hname

end

/-- What can be registered against what can be written, for every registry and every name that is not
    yet in it. Whatever reads the name, the list of nothing but the name is read as an application of
    its operator exactly if registering the name succeeds, it does not look like a number, the reader
    knows it or lets unknown operators through, and there is room for a list. What is registered is
    known from then on, and no head that is read anywhere would be refused as a name. -/
theorem Registry.written_iff_registers (r : Registry) (name : String) (hnew : r.has name = false)
    (signature : Signature) (behaviour : Behaviour) (description : String) :
    (∀ (reader : Registry) (options : ParseOptions), IsWritten reader.has options name ↔
      (∃ after, r.register name signature behaviour description = .ok after) ∧
        looksNumeric name.toList = false ∧
        (reader.has name = true ∨ options.allowUnknown = true) ∧ 0 < options.maxDepth) ∧
    (∀ after, r.register name signature behaviour description = .ok after →
      after.has name = true) ∧
    ∀ (reader : Registry) (options : ParseOptions) (text : String) (f : Formula),
      parseChars reader.has options text.toList = .ok f →
      ∀ place ∈ f.root.walk, ∀ head, place.2.operator? = some head →
        r.register head signature behaviour description ≠ .error (.invalidName head) := by
  refine ⟨fun reader options => ?_, fun after => has_of_register, ?_⟩
  · rw [isWritten_iff, isHead_iff, exists_register_iff]
    simp only [hnew, and_true, and_assoc]
  · intro reader options text f hparse place hplace head hname hrefused
    obtain ⟨hwell, -, -⟩ := wellFormed_of_parseChars hparse
    obtain ⟨hvalid, -⟩ := isHead_iff.1 (hwell.isHead_of_mem_walkFrom [] place hplace hname)
    rw [register_eq_invalidName_iff, hvalid] at hrefused
    cases hrefused

/-- The signature of a condition without arguments. -/
def Signature.flag : Signature :=
  ⟨0, some 0, [], .boolean, ⟨false, false, false⟩⟩

/-- A name that begins with a sign but not like a number can be registered and written. -/
theorem Registry.written_iff_registers_raid :
    builtin.has "-raid" = false ∧ ∃ after,
      builtin.register "-raid" .flag (.scripted false (.give .unknown)) "" = .ok after ∧
      IsWritten after.has .default "-raid" := by
  have hnew : builtin.has "-raid" = false := by
    rw [builtin_eq]
    decide +kernel
  obtain ⟨hwritten, hknown, -⟩ := written_iff_registers builtin "-raid" hnew .flag
    (.scripted false (.give .unknown)) ""
  obtain ⟨after, hregister⟩ : ∃ after,
      builtin.register "-raid" .flag (.scripted false (.give .unknown)) "" = .ok after :=
    exists_register_iff.2 ⟨by decide, hnew⟩
  exact ⟨hnew, after, hregister, (hwritten after .default).2
    ⟨⟨after, hregister⟩, by decide, .inl (hknown after hregister), by decide⟩⟩

/-- A name that begins with a digit can be registered, but is not read as a head. -/
theorem Registry.registered_not_written : ∃ after,
    builtin.has "2x" = false ∧
    builtin.register "2x" .flag (.scripted false (.give .unknown)) "" = .ok after ∧
    ∀ options, ¬ IsWritten after.has options "2x" := by
  have hnew : builtin.has "2x" = false := by
    rw [builtin_eq]
    decide +kernel
  obtain ⟨after, hregister⟩ : ∃ after,
      builtin.register "2x" .flag (.scripted false (.give .unknown)) "" = .ok after :=
    exists_register_iff.2 ⟨by decide, hnew⟩
  refine ⟨after, hnew, hregister, fun options hwritten => ?_⟩
  obtain ⟨-, hnumeric, -⟩ := isHead_iff.1 (isWritten_iff.1 hwritten).1
  revert hnumeric
  decide

end MissionScript
