import MissionScript.Proofs.Variable.Overlay

/-!
What a variable starts from. Of the saved values of its name that it can hold, the last one is its value
and its initial value.
-/

namespace MissionScript

namespace Variable

/-- The value that a saved one would start a variable from: one of the same type, if the variable
    outlives a mission. -/
def read? (v : Variable) (saved : Saved) : Option Stored :=
  if v.scope.isPersistent = true ∧ v.type = saved.type then Stored.ofText? saved.type saved.text
  else none

theorem type_of_read? {v : Variable} {saved : Saved} {value : Stored} (h : v.read? saved = some value) :
    value.type = v.type := by
  unfold read? at h
  split at h
  · next hholds => exact (Stored.type_of_ofText? h).trans hholds.2.symm
  · cases h

/-- The value that a list of saved ones starts a variable of a name from. -/
def startValue? (v : Variable) (name : String) (saved : List Saved) : Option Stored :=
  ((Saved.ofName name saved).filterMap v.read?).getLast?

/-- The variable with a value that it starts from. -/
def startFrom (v : Variable) : Option Stored → Variable
  | none => v
  | some value => { v with value, initial := value }

theorem startFrom_startFrom (v : Variable) (first second : Option Stored) :
    (v.startFrom first).startFrom second = v.startFrom (second.or first) := by
  cases first <;> cases second <;> rfl

/-- What a variable can start from does not depend on what it holds. -/
@[simp]
theorem read?_startFrom (v : Variable) (value : Option Stored) : (v.startFrom value).read? = v.read? := by
  cases value <;> rfl

@[simp]
theorem startValue?_startFrom (v : Variable) (value : Option Stored) :
    (v.startFrom value).startValue? = v.startValue? := by
  funext name saved
  rw [startValue?, startValue?, read?_startFrom]

theorem startValue?_append (v : Variable) (name : String) (first second : List Saved) :
    v.startValue? name (first ++ second) =
      (v.startValue? name second).or (v.startValue? name first) := by
  rw [startValue?, Saved.ofName, List.filter_append, List.filterMap_append, List.getLast?_append]
  rfl

theorem startValue?_cons (v : Variable) (name : String) (first : Saved) (rest : List Saved) :
    v.startValue? name (first :: rest) = (v.startValue? name rest).or
      (if sameName first.name name then v.read? first else none) := by
  rw [← List.singleton_append, startValue?_append, startValue?, startValue?, Saved.ofName, Saved.ofName,
    List.filter_singleton]
  cases sameName first.name name with
  | false => rfl
  | true => cases hread : v.read? first <;> simp [hread]

end Variable

/-- What is reported of a saved value for which there is a variable that cannot hold it. -/
def Overlay.fault? (saved : Saved) : Overlay → Option OverlayFault
  | .typeMismatch declared => some (.typeMismatch saved.name declared saved.type)
  | .invalidText => some (.invalidText saved.name saved.text)
  | .skipped | .applied _ => none

namespace Variables

variable {vars : Variables} {name : String} {v : Variable}

theorem get?_start (hv : vars.get? name = some v) (saved : Saved) :
    (vars.start saved).get? name =
      some (v.startFrom (if sameName saved.name name then v.read? saved else none)) := by
  cases hname : sameName saved.name name with
  | false =>
    rw [get?_start_of_ne hname]
    exact hv
  | true =>
    have hkey : foldName saved.name = foldName name := sameName_iff.1 hname
    have hfound : vars.find? (foldName saved.name) = some v := (get?_congr hkey vars).trans hv
    have hstart : vars.start saved = (v.read? saved).elim vars fun value =>
        Table.modify vars (foldName saved.name) fun v => { v with value, initial := value } := by
      rw [start, overlay, get?, hfound, Variable.read?]
      by_cases hscope : v.scope.isPersistent = true
      · by_cases htype : v.type = saved.type
        · cases Stored.ofText? saved.type saved.text <;> simp [hscope, htype]
        · simp [hscope, htype]
      · simp [hscope]
    rw [hstart, if_pos rfl]
    cases v.read? saved with
    | none => exact hv
    | some value =>
      rw [Option.elim_some, get?, Table.find?_modify, if_pos hkey.symm, hfound]
      rfl

/-- A variable starts from the last saved value of its name that it can hold. -/
theorem get?_applySaved {saved : List Saved} (hv : vars.get? name = some v) :
    (vars.applySaved saved).1.get? name = some (v.startFrom (v.startValue? name saved)) := by
  rw [applySaved_eq]
  induction saved generalizing vars v with
  | nil => exact hv
  | cons first rest ih =>
    rw [List.foldl_cons, ih (get?_start hv first), Variable.startFrom_startFrom,
      Variable.startValue?_startFrom, v.startValue?_cons]

/-- Whether a saved value is used: there is a variable of its name, and it can hold the value. -/
def uses (vars : Variables) (saved : Saved) : Bool :=
  (vars.get? saved.name).any fun v => (v.read? saved).isSome

theorem overlay_eq_applied_iff {saved : Saved} {value : Stored} : vars.overlay saved = .applied value ↔
    ∃ v, vars.get? saved.name = some v ∧ v.read? saved = some value := by
  unfold overlay
  cases vars.get? saved.name with
  | none => simp
  | some v =>
    simp only [Option.some.injEq, exists_eq_left', Variable.read?]
    by_cases hscope : v.scope.isPersistent = true
    · by_cases htype : v.type = saved.type
      · cases Stored.ofText? saved.type saved.text <;> simp [hscope, htype]
      · simp [hscope, htype]
    · simp [hscope]

theorem uses_iff (vars : Variables) (saved : Saved) :
    vars.uses saved = true ↔ ∃ value, vars.overlay saved = .applied value := by
  simp only [uses, Option.any_eq_true, Option.isSome_iff_exists, overlay_eq_applied_iff]
  exact ⟨fun ⟨v, hv, value, hvalue⟩ => ⟨value, v, hv, hvalue⟩,
    fun ⟨value, v, hv, hvalue⟩ => ⟨v, hv, value, hvalue⟩⟩

/-- What becomes of a saved value is a matter of the scope and the type of its variable. -/
theorem overlay_congr {vars' : Variables} {saved : Saved}
    (h : (vars'.get? saved.name).map (fun v => (v.scope, v.type)) =
      (vars.get? saved.name).map fun v => (v.scope, v.type)) :
    vars'.overlay saved = vars.overlay saved := by
  unfold overlay
  cases hv : vars.get? saved.name with
  | none =>
    rw [hv] at h
    rw [Option.map_eq_none_iff.1 h]
  | some v =>
    rw [hv] at h
    obtain ⟨v', hv', hsame⟩ := Option.map_eq_some_iff.1 h
    obtain ⟨hscope, htype⟩ := Prod.mk.inj hsame
    rw [hv']
    dsimp only
    rw [hscope, htype]

/-- It does not depend on the saved values that have been used before. -/
@[simp]
theorem overlay_start (vars : Variables) (first saved : Saved) :
    (vars.start first).overlay saved = vars.overlay saved := by
  apply overlay_congr
  cases hv : vars.get? saved.name with
  | none =>
    have hnone : (vars.applySaved [first]).1.get? saved.name = none := get?_applySaved_of_none hv
    rw [applySaved_eq] at hnone
    exact congrArg (Option.map _) hnone
  | some v =>
    rw [get?_start hv]
    cases (if sameName first.name saved.name then v.read? first else none) <;> rfl

theorem overlay_foldl_start (vars : Variables) (first : List Saved) (saved : Saved) :
    (first.foldl start vars).overlay saved = vars.overlay saved := by
  induction first generalizing vars with
  | nil => rfl
  | cons s rest ih => rw [List.foldl_cons, ih, overlay_start]

/-- As many saved values are counted as are used, and those are reported that could have been. -/
theorem applySaved_snd (vars : Variables) (saved : List Saved) : (vars.applySaved saved).2 =
    (saved.countP vars.uses, saved.filterMap fun s => (vars.overlay s).fault? s) := by
  induction saved generalizing vars with
  | nil => rfl
  | cons first rest ih =>
    have hoverlay : (vars.start first).overlay = vars.overlay := funext (vars.overlay_start first)
    have huses : (vars.start first).uses = vars.uses := by
      funext s
      rw [Bool.eq_iff_iff, uses_iff, uses_iff, hoverlay]
    have ih := ih (vars.start first)
    rw [hoverlay, huses] at ih
    have hfirst := vars.uses_iff first
    rw [List.countP_cons, List.filterMap_cons, applySaved]
    cases hcase : vars.overlay first with
    | applied value =>
      have hused : vars.uses first = true := hfirst.2 ⟨value, hcase⟩
      rw [start, hcase] at ih
      simp only [ih, hused, if_true]
      rfl
    | skipped | typeMismatch | invalidText =>
      have hunused : ¬ vars.uses first = true := by simp [hfirst, hcase]
      rw [start, hcase] at ih
      simp only [ih, hunused]
      rfl

theorem keys_applySaved (vars : Variables) (saved : List Saved) :
    (vars.applySaved saved).1.keys = vars.keys := by
  rw [applySaved_eq]
  refine List.foldlRecOn saved start (motive := fun after => after.keys = vars.keys) rfl ?_
  intro after hafter first _
  rw [← hafter, start]
  split
  · exact Table.keys_modify ..
  all_goals rfl

/-- Using saved values once more changes nothing. -/
theorem IsFiled.applySaved_again (h : vars.IsFiled) (saved : List Saved) :
    (vars.applySaved saved).1.applySaved saved = vars.applySaved saved := by
  have hoverlay : (vars.applySaved saved).1.overlay = vars.overlay := by
    funext s
    rw [applySaved_eq, overlay_foldl_start]
  have huses : (vars.applySaved saved).1.uses = vars.uses := by
    funext s
    rw [Bool.eq_iff_iff, uses_iff, uses_iff, hoverlay]
  refine Prod.ext (Table.ext_of_find? ?_ (h.applySaved saved).distinct fun key hkey => ?_) ?_
  · exact keys_applySaved _ _
  · obtain ⟨entry, hentry, rfl⟩ := List.mem_map.1 hkey
    rw [(h.applySaved saved).filed entry hentry]
    change get? _ _ = get? _ _
    cases hv : vars.get? entry.2.name with
    | none =>
      have hnone : (vars.applySaved saved).1.get? entry.2.name = none := get?_applySaved_of_none hv
      rw [get?_applySaved_of_none hnone, hnone]
    | some v =>
      have hstarted : (vars.applySaved saved).1.get? entry.2.name =
        some (v.startFrom (v.startValue? entry.2.name saved)) := get?_applySaved hv
      rw [get?_applySaved hstarted, hstarted, Variable.startFrom_startFrom,
        Variable.startValue?_startFrom, Option.or_self]
  · rw [applySaved_snd, applySaved_snd, hoverlay, huses]

end Variables

end MissionScript
