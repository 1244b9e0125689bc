import MissionScript.Operator.Registry
import MissionScript.Proofs.Formula.Soundness
import MissionScript.Proofs.Formula.Spacing

/-!
The reader accepts exactly what the grammar derives. A text falls apart in one way, and its lexemes
are derived as one tree, as the reader can give but one answer.
-/

namespace MissionScript

/-- A text falls apart into lexemes in one way. -/
theorem Splits.unique {text : List Char} {row row' : List Lexeme} (h : Splits 0 text row)
    (h' : Splits 0 text row') : row = row' :=
  Except.ok.inj ((lex_eq_ok_iff.2 h).symm.trans (lex_eq_ok_iff.2 h'))

/-- The lexemes of a text begin one after the other. -/
theorem Splits.pairwise_offset {offset : Nat} {text : List Char} {row : List Lexeme}
    (h : Splits offset text row) :
    (∀ l ∈ row, offset ≤ l.offset) ∧ row.Pairwise fun l l' => l.offset < l'.offset := by
  have hfirst {offset length : Nat} {row : List Lexeme} (token : Token) (hlength : 0 < length)
      (hrow : (∀ l ∈ row, offset + length ≤ l.offset) ∧
        row.Pairwise fun l l' => l.offset < l'.offset) :
      (∀ l ∈ (⟨token, offset⟩ : Lexeme) :: row, offset ≤ l.offset) ∧
        ((⟨token, offset⟩ : Lexeme) :: row).Pairwise fun l l' => l.offset < l'.offset := by
    have hafter (l : Lexeme) (hl : l ∈ row) : offset < l.offset :=
      (Nat.lt_add_of_pos_right hlength).trans_le (hrow.1 l hl)
    exact ⟨List.forall_mem_cons.2 ⟨le_rfl, fun l hl => (hafter l hl).le⟩,
      List.pairwise_cons.2 ⟨hafter, hrow.2⟩⟩
  induction h with
  | nil => exact ⟨List.forall_mem_nil _, .nil⟩
  | blank _ _ ih | comment _ _ _ ih =>
    exact ⟨fun l hl => (Nat.le_add_right _ _).trans (ih.1 l hl), ih.2⟩
  | openList _ ih | closeList _ ih => exact hfirst _ (Char.utf8Size_pos _) ih
  | quoted _ _ ih => exact hfirst _ (byteLength_pos (List.cons_ne_nil _ _)) ih
  | bare hword _ _ ih => exact hfirst _ (byteLength_pos hword.1) ih

/-- The lexemes before one of a text are known by where it begins. -/
theorem Splits.eq_of_offset_eq {text : List Char} {row row' after after' : List Lexeme}
    {l l' : Lexeme} (h : Splits 0 text (row ++ l :: after))
    (h' : Splits 0 text (row' ++ l' :: after')) (hoffset : l.offset = l'.offset) : row = row' := by
  have hbefore {row after : List Lexeme} {l : Lexeme} (h : Splits 0 text (row ++ l :: after)) :
      (row ++ l :: after).takeWhile (·.offset < l.offset) = row := by
    obtain ⟨-, -, hrow⟩ := List.pairwise_append.1 h.pairwise_offset.2
    have hall : ∀ x ∈ row, decide (x.offset < l.offset) = true :=
      fun x hx => decide_eq_true (hrow x hx l List.mem_cons_self)
    rw [List.takeWhile_append_of_pos hall, List.takeWhile_cons_of_neg (by simp), List.append_nil]
  rw [← hbefore h, ← hbefore h', hoffset, h.unique h']

/-- The grammar does not depend on how deep lists may be. -/
theorem Derives.of_allowUnknown {known : String → Bool} {options options' : ParseOptions}
    {row : List Lexeme} {n : Node} (h : Derives known options row n)
    (hallow : options.allowUnknown = true → options'.allowUnknown = true) :
    Derives known options' row n := by
  induction h with
  | quoted s offset => exact .quoted s offset
  | word offset harg => exact .word offset harg
  | list offset headOffset closeOffset hname hallowed _ ih =>
    exact .list offset headOffset closeOffset hname (hallowed.imp_right hallow) ih

/-- A row of lexemes is derived as one tree. -/
theorem Derives.unique {known : String → Bool} {options : ParseOptions} {row : List Lexeme}
    {n n' : Node} (h : Derives known options row n) (h' : Derives known options row n') : n = n' := by
  -- with room for both trees the reader gives both as its answer
  let deep : ParseOptions := ⟨options.allowUnknown, max n.nesting n'.nesting⟩
  have hread {n : Node} (h : Derives known options row n) (hdepth : n.nesting ≤ deep.maxDepth) :=
    have hdeep : Derives known deep row n := h.of_allowUnknown id
    PartialFormula.reads_of_derives hdeep .empty ⟨rfl, rfl⟩ hdepth
  have hroot := congrArg PartialFormula.root
    (Except.ok.inj ((hread h (Nat.le_max_left ..)).symm.trans (hread h' (Nat.le_max_right ..))))
  exact Option.some.inj hroot

/-- The reader accepts exactly the grammar, for every registry, all options and every text. A text is
    read as a formula if and only if it falls apart into the lexemes of one expression that is not
    too deep, and the formula's tree is what that expression is derived as; there is but one such
    derivation. White space and comments between the lexemes are free: a text with others is read as
    the same formula or refused with the same error, but for the offsets. -/
theorem parse_grammatical (registry : Registry) (options : ParseOptions) (text : String) :
    (∀ f : Formula, parseChars registry.has options text.toList = .ok f ↔
      ∃ row, Splits 0 text.toList row ∧ Derives registry.has options row f.root ∧
        f.root.nesting ≤ options.maxDepth ∧ f.unresolved = f.root.unresolved registry.has) ∧
    (∀ row row' n n', Splits 0 text.toList row → Derives registry.has options row n →
      Splits 0 text.toList row' → Derives registry.has options row' n' → row = row' ∧ n = n') ∧
    ∀ text' : String, Respaced text.toList text'.toList →
      shapeOf Formula.shape (parseChars registry.has options text'.toList) =
        shapeOf Formula.shape (parseChars registry.has options text.toList) := by
  refine ⟨fun f => parseChars_eq_ok_iff_derives, ?_, ?_⟩
  · intro row row' n n' hsplits hderives hsplits' hderives'
    obtain rfl := hsplits.unique hsplits'
    exact ⟨rfl, hderives.unique hderives'⟩
  · intro text' hspaced
    exact (shapeOf_parseChars (hspaced.shapeOf_lexFrom 0 0)).symm

/-- A comparison in one line, and in three with comments. -/
theorem respaced_time : Respaced "(> (mission-time) 30)".toList
    "; objective check\n(>\n  (mission-time) ; seconds\n  30)".toList := by
  have hplain : "(> (mission-time) 30)".toList =
      '(' :: (['>'] ++ ' ' :: '(' :: ("mission-time".toList ++ ')' :: ' ' :: (['3', '0'] ++ [')']))) := by
    decide
  have hcommented : "; objective check\n(>\n  (mission-time) ; seconds\n  30)".toList =
      ';' :: (" objective check".toList ++ '\n' :: '(' :: (['>'] ++ '\n' :: ' ' :: ' ' :: '(' ::
        ("mission-time".toList ++ ')' :: ' ' :: ';' :: (" seconds".toList ++ '\n' :: ' ' :: ' ' ::
          (['3', '0'] ++ [')']))))) := by
    decide
  have hspace : Text.isBlank ' ' = true := by decide
  have hends {c : Char} (hc : isBareChar c = false) (rest : List Char) : EndsWord (c :: rest) :=
    endsWord_cons.2 hc
  have hword {word : List Char} (hne : word ≠ []) (hall : word.all isBareChar = true) :
      Node.IsBareWord word :=
    ⟨hne, List.all_eq_true.1 hall⟩
  rw [hplain, hcommented]
  refine .symm (.comment (by decide) (by simp) (.blank isBlank_newline (.symm (.openList ?_))))
  refine .bare (hword (by decide) (by decide)) (hends (by decide) _) (hends (by decide) _) ?_
  refine .blank hspace (.symm (.blank isBlank_newline (.blank hspace (.blank hspace (.symm ?_)))))
  refine .openList (.bare (hword (by decide) (by decide)) (hends (by decide) _) (hends (by decide) _)
    (.closeList ?_))
  refine .blank hspace (.symm (.blank hspace (.comment (by decide) (by simp) ?_)))
  exact .blank isBlank_newline (.blank hspace (.blank hspace (.refl _)))

/-- A comparison is read, its derivation is the only one, and with comments it is read as the same. -/
theorem parse_grammatical_time : ∃ f g row,
    parseChars Registry.builtin.has .default "(> (mission-time) 30)".toList = .ok f ∧
      Splits 0 "(> (mission-time) 30)".toList row ∧
      Derives Registry.builtin.has .default row f.root ∧
      (∀ n, Derives Registry.builtin.has .default row n → f.root = n) ∧
      parseChars Registry.builtin.has .default
        "; objective check\n(>\n  (mission-time) ; seconds\n  30)".toList = .ok g ∧
      g.shape = f.shape := by
  obtain ⟨haccept, hunique, hspaced⟩ :=
    parse_grammatical Registry.builtin .default "(> (mission-time) 30)"
  have hsame := hspaced _ respaced_time
  have hok : (parseChars Registry.builtin.has .default "(> (mission-time) 30)".toList).isOk = true := by
    decide +kernel
  cases hparse : parseChars Registry.builtin.has .default "(> (mission-time) 30)".toList with
  | error e =>
    rw [hparse] at hok
    cases hok
  | ok f =>
    obtain ⟨row, hsplits, hderives, -, -⟩ := (haccept f).1 hparse
    rw [hparse] at hsame
    cases hother : parseChars Registry.builtin.has .default
        "; objective check\n(>\n  (mission-time) ; seconds\n  30)".toList with
    | error e =>
      rw [hother] at hsame
      cases hsame
    | ok g =>
      rw [hother] at hsame
      exact ⟨f, g, row, rfl, hsplits, hderives,
        fun n hn => (hunique row row f.root n hsplits hderives hsplits hn).2, rfl,
        Except.ok.inj hsame⟩

end MissionScript
