import MissionScript.Proofs.Formula.Soundness
import MissionScript.Operator.Registry

/-!
Reading and printing undo each other.
-/

namespace MissionScript

theorem beq_self_of_isFinite {x : Float} (h : x.isFinite = true) : (x == x) = true := by
  change x.toModel.unpack.isFinite = true at h
  change x.toModel.unpack.beq x.toModel.unpack = true
  cases hunpack : x.toModel.unpack with
  | notANumber | infinity => simp [hunpack, Float.Model.UnpackedFloat.isFinite] at h
  | zero s => rfl
  | finite s m e hpos => cases s <;> simp [Float.Model.UnpackedFloat.beq, Float.Model.UnpackedFloat.compare]

namespace Node

theorem equivalentAll_of_shapeAll_eq {nodes nodes' : List Node}
    (hnodes : ∀ n ∈ nodes, ∀ n' : Node, n'.shape = n.shape → n'.equivalent n = true)
    (hshape : shapeAll nodes' = shapeAll nodes) : equivalentAll nodes' nodes = true := by
  induction nodes generalizing nodes' with
  | nil =>
    cases nodes' with
    | nil => rfl
    | cons n' rest' => cases hshape
  | cons n rest ih =>
    cases nodes' with
    | nil => cases hshape
    | cons n' rest' =>
      obtain ⟨hn, hrest⟩ := List.forall_mem_cons.1 hnodes
      obtain ⟨hfirst, hshape⟩ := List.cons.inj hshape
      rw [equivalentAll, hn n' hfirst, ih hrest hshape, Bool.true_and]

theorem equivalent_atom_of_shape_eq {a : Atom} {offset : Nat} (ha : a.equals a = true) {n : Node}
    (hshape : n.shape = (atom a offset).shape) : n.equivalent (atom a offset) = true := by
  cases n with
  | atom b start =>
    obtain rfl : b = a := (Node.atom.inj hshape).1
    rwa [equivalent]
  | list children start => cases hshape

/-- A tree of the shape of a well-formed one is equivalent to it, as its numbers equal themselves. -/
theorem WellFormed.equivalent_of_shape_eq {known : String → Bool} {options : ParseOptions} {n : Node}
    (h : n.WellFormed known options) : ∀ n' : Node, n'.shape = n.shape → n'.equivalent n = true := by
  induction h with
  | number offset hfinite =>
    exact fun n' => equivalent_atom_of_shape_eq (a := .number _) (beq_self_of_isFinite hfinite)
  | text s offset => exact fun n' => equivalent_atom_of_shape_eq (a := .text s) (beq_self_eq_true s)
  | @«variable» name offset hname =>
    exact fun n' => equivalent_atom_of_shape_eq (a := .variable name) (beq_self_eq_true name)
  | @list name args headOffset offset hhead hargs ih =>
    intro n' hshape
    cases n' with
    | atom a start => cases hshape
    | list children start =>
      rw [equivalent]
      refine equivalentAll_of_shapeAll_eq (List.forall_mem_cons.2 ⟨?_, ih⟩)
        (Node.list.inj hshape).1
      exact fun n' => equivalent_atom_of_shape_eq (a := .operator name) (beq_self_eq_true name)

end Node

/-- Reading and printing are inverse to each other, for every registry and all options. What is
    printed for a formula that was read is read as the same formula but for its offsets, and prints
    as the same text; and what is printed for any well-formed tree is read as an equivalent tree. -/
theorem parse_printed (registry : Registry) (options : ParseOptions) :
    (∀ (text : String) (f : Formula), parseChars registry.has options text.toList = .ok f →
      ∃ g, parseChars registry.has options f.root.printed.toList = .ok g ∧
        g.root.shape = f.root.shape ∧
        g.unresolved.map Unresolved.name = f.unresolved.map Unresolved.name ∧
        g.root.printed = f.root.printed) ∧
    ∀ n : Node, n.WellFormed registry.has options → n.nesting ≤ options.maxDepth →
      ∃ g, parseChars registry.has options n.printed.toList = .ok g ∧
        g.root.shape = n.shape ∧ g.root.equivalent n = true := by
  constructor
  · intro text f hparse
    obtain ⟨hwell, hdepth, hunresolved⟩ := wellFormed_of_parseChars hparse
    obtain ⟨g, hread, hshape, hheads⟩ := parseChars_chars hwell hdepth
    refine ⟨g, ?_, hshape, ?_, ?_⟩
    · rw [Node.printed, String.toList_ofList, hread]
    · rw [hheads, hunresolved]
    · rw [Node.printed, Node.printed, ← Node.chars_shape g.root, hshape, Node.chars_shape]
  · intro n hwell hdepth
    obtain ⟨g, hread, hshape, -⟩ := parseChars_chars hwell hdepth
    refine ⟨g, ?_, hshape, hwell.equivalent_of_shape_eq g.root hshape⟩
    rw [Node.printed, String.toList_ofList, hread]

/-- A formula with a variable, the negative zero, an escaped quote and a bare text. -/
theorem parse_printed_builtin : ∃ f g,
    parseChars Registry.builtin.has .default "(and (not @x) -0 \"a\\\"b\" word)".toList = .ok f ∧
      parseChars Registry.builtin.has .default f.root.printed.toList = .ok g ∧
      g.root.shape = f.root.shape := by
  have hok : (parseChars Registry.builtin.has .default
      "(and (not @x) -0 \"a\\\"b\" word)".toList).isOk = true := by decide +kernel
  cases hparse : parseChars Registry.builtin.has .default
      "(and (not @x) -0 \"a\\\"b\" word)".toList with
  | error e =>
    rw [hparse] at hok
    cases hok
  | ok f =>
    obtain ⟨g, hread, hshape, -⟩ := (parse_printed Registry.builtin .default).1 _ f hparse
    exact ⟨f, g, rfl, hread, hshape⟩

end MissionScript
