import MissionScript.Proofs.Number.Spelling
import MissionScript.Proofs.Variable.Store

/-!
Saved values. What a store saves of a variable is read back as the value that it had, and starts the
variable of its name and no other one.
-/

namespace MissionScript

section

variable {σ α β : Type} {f : σ → α → σ} {g : σ → β} {q : α → Bool} {items : List α}

/-- Steps that are not seen in a view change nothing in it. -/
theorem view_foldl_of_nil (hstep : ∀ s a, q a = false → g (f s a) = g s)
    (h : items.filter q = []) (s : σ) : g (items.foldl f s) = g s := by
  induction items generalizing s with
  | nil => rfl
  | cons first rest ih =>
    rw [List.filter_cons] at h
    split at h
    · cases h
    · next hother => rw [List.foldl_cons, ih h, hstep s first (Bool.not_eq_true _ ▸ hother)]

/-- If a single step is seen in a view, the view is as after this step. -/
theorem view_foldl_of_singleton (hstep : ∀ s a, q a = false → g (f s a) = g s) {a : α}
    (h : items.filter q = [a]) (s : σ) :
    q a = true ∧ ∃ s', g s' = g s ∧ g (items.foldl f s) = g (f s' a) := by
  induction items generalizing s with
  | nil => cases h
  | cons first rest ih =>
    rw [List.filter_cons] at h
    split at h
    · next hseen =>
      obtain ⟨rfl, hrest⟩ := List.cons_eq_cons.1 h
      exact ⟨hseen, s, rfl, view_foldl_of_nil hstep hrest _⟩
    · next hother =>
      obtain ⟨hseen, s', hs', hg⟩ := ih h (f s first)
      rw [hstep s first (Bool.not_eq_true _ ▸ hother)] at hs'
      exact ⟨hseen, s', hs', hg⟩

end

namespace Text

theorem isBlank_digit {c : Char} (h : isDigit c = true) : isBlank c = false := by
  have hrange : 48 ≤ c.toNat ∧ c.toNat ≤ 57 := by
    simpa [isDigit, Char.le_def, UInt32.le_iff_toNat_le] using h
  rw [← Bool.not_eq_true, isBlank, CodePoints.contains_iff]
  rintro ⟨run, hrun, hlow, hhigh⟩
  simp only [whiteSpace, List.mem_cons, List.not_mem_nil, or_false] at hrun
  rcases hrun with rfl | rfl | rfl | rfl | rfl | rfl | rfl | rfl | rfl | rfl <;> omega

theorem trim_of_forall {s : List Char} (h : ∀ c ∈ s, isBlank c = false) : trim s = s := by
  have hdrop {s : List Char} (h : ∀ c ∈ s, isBlank c = false) : s.dropWhile isBlank = s := by
    cases s with
    | nil => rfl
    | cons c rest => rw [List.dropWhile_cons_of_neg (by simpa using h c (List.mem_cons_self ..))]
  rw [trim, hdrop h, hdrop (by simpa using h), List.reverse_reverse]

end Text

namespace Stored

/-- Whether a stored value is a text or a finite number. -/
def IsFinite : Stored → Prop
  | .number x => x.isFinite = true
  | .string _ => True

theorem isBlank_numberText {x : Float} (h : x.isFinite = true) :
    ∀ c ∈ numberText .plain x, Text.isBlank c = false := by
  obtain ⟨negative, m, e, hparts⟩ := exists_floatParts h
  simp only [numberText, hparts]
  generalize Decimal.shortest _ x negative m e = d
  obtain ⟨digit, rest, htext, hdigit, hrest⟩ := d.exists_text_plain
  intro c hc
  rw [htext] at hc
  rcases List.mem_append.1 hc with hsign | hc
  · unfold signText at hsign
    split at hsign
    · obtain rfl := List.mem_singleton.1 hsign
      rfl
    · cases hsign
  · rcases List.mem_cons.1 hc with rfl | hc
    · exact Text.isBlank_digit hdigit
    · rcases hrest c hc with hc | rfl
      · exact Text.isBlank_digit hc
      · rfl

/-- A finite value is read back from its text. -/
theorem ofText?_text {v : Stored} (h : v.IsFinite) : ofText? v.type v.text = some v := by
  cases v with
  | string s => rfl
  | number x =>
    change (readNumber? (Text.trim (String.ofList (numberText .plain x)).toList)).map Stored.number = _
    rw [String.toList_ofList, Text.trim_of_forall (isBlank_numberText h), readNumber?_numberText h]
    rfl

end Stored

/-- The saved values of those who keep the values of a scope. -/
def Snapshot.ofScope (saved : Snapshot) : Scope → List Saved
  | .mission => []
  | .player => saved.player
  | .campaign => saved.campaign

/-- The saved values of a name. -/
def Saved.ofName (name : String) (saved : List Saved) : List Saved :=
  saved.filter fun s => sameName s.name name

namespace Variables

variable {vars : Variables}

/-- The variables that are saved for a scope, and not for any other one. -/
theorem IsFiled.ofName_saved (h : vars.IsFiled) (scope : Scope) (name : String) :
    Saved.ofName name (vars.saved scope) =
      ((vars.get? name).filter fun v => v.scope == scope && scope.isPersistent).toList.map save := by
  have hperm : (Saved.ofName name (vars.saved scope)).Perm
      (((vars.get? name).filter fun v => v.scope == scope && scope.isPersistent).toList.map save) := by
    refine ((List.mergeSort_perm _ _).filter _).trans (List.Perm.of_eq ?_)
    have hname : ((fun s => sameName s.name name) ∘ save) = fun v => sameName v.name name := rfl
    rw [List.filter_map, hname, List.filter_filter, List.filter_congr fun _ _ => Bool.and_comm _ _,
      ← List.filter_filter, h.filter_values]
    cases vars.get? name with
    | none => rfl
    | some v =>
      rw [Option.toList_some, List.filter_cons, Option.filter_some]
      split <;> rfl
  cases hv : (vars.get? name).filter fun v => v.scope == scope && scope.isPersistent with
  | none =>
    rw [hv] at hperm
    exact hperm.eq_nil
  | some v =>
    rw [hv] at hperm
    exact List.perm_singleton.1 hperm

/-- The store after one saved value has been used, if it can be. -/
def start (vars : Variables) (saved : Saved) : Variables :=
  match vars.overlay saved with
  | .applied value => Table.modify vars (foldName saved.name) fun v => { v with value, initial := value }
  | .skipped | .typeMismatch _ | .invalidText => vars

theorem applySaved_eq (vars : Variables) (saved : List Saved) :
    (vars.applySaved saved).1 = saved.foldl start vars := by
  induction saved generalizing vars with
  | nil => rfl
  | cons first rest ih =>
    rw [applySaved, List.foldl_cons, start]
    cases vars.overlay first with
    | skipped | typeMismatch | invalidText | applied => exact ih _

theorem IsFiled.start (h : vars.IsFiled) (saved : Saved) : (vars.start saved).IsFiled := by
  unfold Variables.start
  split
  · exact h.modify _ fun _ => rfl
  all_goals exact h

theorem IsFiled.applySaved (h : vars.IsFiled) (saved : List Saved) :
    (vars.applySaved saved).1.IsFiled := by
  rw [applySaved_eq]
  induction saved generalizing vars with
  | nil => exact h
  | cons first rest ih => exact ih (h.start first)

/-- A saved value starts no variable of another name. -/
theorem get?_start_of_ne {saved : Saved} {name : String} (h : sameName saved.name name = false) :
    (vars.start saved).get? name = vars.get? name := by
  have hname : foldName name ≠ foldName saved.name := foldName_ne (by simp [h])
  unfold start
  split
  · rw [get?, Table.find?_modify, if_neg hname]
    rfl
  all_goals rfl

theorem get?_start_save {u v : Variable} {name : String} (hv : vars.get? name = some v)
    (hname : foldName u.name = foldName name) (hscope : v.scope.isPersistent = true)
    (htype : v.type = u.type) (hvalue : u.value.type = u.type) (hfinite : u.value.IsFinite) :
    (vars.start (save u)).get? name = some { v with value := u.value, initial := u.value } := by
  have hfound : vars.get? u.name = some v := (get?_congr hname vars).trans hv
  have hread : Stored.ofText? u.type u.value.text = some u.value := hvalue ▸ Stored.ofText?_text hfinite
  have hoverlay : vars.overlay (save u) = .applied u.value := by
    simp only [overlay, save, hfound, hscope, htype, hread, Bool.not_true, Bool.false_eq_true, if_false,
      ne_eq, not_true_eq_false]
  have hkey : foldName name = foldName (save u).name := hname.symm
  rw [start, hoverlay, get?, Table.find?_modify, if_pos hkey]
  rw [show vars.find? (foldName (save u).name) = some v from hfound]
  rfl

theorem get?_applySaved_of_none {saved : List Saved} {name : String} (h : vars.get? name = none) :
    (vars.applySaved saved).1.get? name = none := by
  rw [applySaved_eq]
  induction saved generalizing vars with
  | nil => exact h
  | cons first rest ih =>
    apply ih
    cases hname : sameName first.name name with
    | true =>
      have hskipped : vars.overlay first = .skipped := by
        rw [overlay, (get?_congr (sameName_iff.1 hname) vars).trans h]
      rw [start, hskipped]
      exact h
    | false =>
      rw [get?_start_of_ne hname]
      exact h

theorem get?_applySaved_of_nil {saved : List Saved} {name : String} (h : Saved.ofName name saved = [])
    (vars : Variables) : (vars.applySaved saved).1.get? name = vars.get? name := by
  rw [applySaved_eq]
  exact view_foldl_of_nil (f := start) (g := fun vars => get? vars name)
    (fun _ _ hother => get?_start_of_ne hother) h vars

/-- The one saved value of a name starts the variable of this name. -/
theorem get?_applySaved_of_singleton {saved : List Saved} {u v : Variable} {name : String}
    (hsaved : Saved.ofName name saved = [save u]) (hv : vars.get? name = some v)
    (hscope : v.scope.isPersistent = true) (htype : v.type = u.type) (hvalue : u.value.type = u.type)
    (hfinite : u.value.IsFinite) :
    (vars.applySaved saved).1.get? name = some { v with value := u.value, initial := u.value } := by
  rw [applySaved_eq]
  obtain ⟨hsame, before, hbefore, hafter⟩ := view_foldl_of_singleton (f := start)
    (g := fun vars => get? vars name) (fun _ _ hother => get?_start_of_ne hother) hsaved vars
  rw [hafter]
  exact get?_start_save (hbefore.trans hv) (sameName_iff.1 hsame) hscope htype hvalue hfinite

end Variables

end MissionScript
