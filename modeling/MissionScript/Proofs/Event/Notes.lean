import MissionScript.Proofs.Event.Record

/-!
What turns notify. Whenever an event fires that is notified, with what its author has said of it and
how often it has fired by then; so the notifications of an event are an account of its fires, and
those of a tick follow the order of the events.
-/

namespace MissionScript

/-- The event that a notification tells has fired. -/
def Notification.firing? : Notification → Option String
  | .eventFired event .. => some event
  | .goalChanged .. | .goalValidity .. | .outcomeChanged .. => none

/-- Whether a notification tells that the event of a name has fired. -/
def Notification.isFiringOf (name : String) (n : Notification) : Bool :=
  n.firing?.any (sameName · name)

/-- What is notified of an event that has fired in these turns. -/
def Event.account (e : Event) (fires : List Schedule.Turn) : List Notification :=
  fires.mapIdx fun k t => .eventFired e.name e.score e.objective (k + 1) t.now

theorem Event.account_concat (e : Event) (fires : List Schedule.Turn) (t : Schedule.Turn) :
    e.account (fires ++ [t]) =
      e.account fires ++ [.eventFired e.name e.score e.objective (fires.length + 1) t.now] :=
  List.mapIdx_concat ..

/-- No turn changes what an event adds to the score, or its objective. -/
theorem Event.turned_score_objective (e : Event) (now : Float) (reading : Option Truth) :
    (e.turned now reading).score = e.score ∧ (e.turned now reading).objective = e.objective := by
  cases reading with
  | none =>
    rw [turned]
    split <;> exact ⟨rfl, rfl⟩
  | some reading =>
    cases reading with
    | trueNow | knownTrue =>
      rw [turned, settle, fire_eq]
      exact ⟨rfl, rfl⟩
    | knownFalse | falseNow | unknown => exact ⟨rfl, rfl⟩

theorem Event.account_turned (e : Event) (now : Float) (reading : Option Truth)
    (fires : List Schedule.Turn) : (e.turned now reading).account fires = e.account fires := by
  obtain ⟨hscore, hobjective⟩ := e.turned_score_objective now reading
  rw [account, account, (e.turned_name_chain now reading).1, hscore, hobjective]

namespace Schedule

/-- What a turn notifies. -/
def Turn.notes (t : Turn) : List Notification :=
  match t.before.events[t.place]?, t.reading with
  | some e, some reading => e.announce t.now reading
  | _, _ => []

/-- Whether the notifications so far are an account of the fires of every event. -/
def Accounts (s : Schedule) (turns : List Turn) (notes : List Notification) : Prop :=
  ∀ (i : Nat) (e : Event), s.events[i]? = some e →
    notes.filter (Notification.isFiringOf e.name) = e.account (firings i turns)

section

variable {H : Type} [Host H] {registry : Registry} {now : Float} {s : Schedule} {i : Nat}
  {env : Env H}

theorem notes_turn (registry : Registry) (now : Float) (s : Schedule) (i : Nat) (env : Env H)
    (after : Schedule) : ((s.turn registry now i).run env).1.2 =
      Turn.notes ⟨i, now, s, s.reading? registry now i env, after⟩ := by
  rw [Turn.notes]
  dsimp only
  cases hreading : s.reading? registry now i env with
  | none =>
    rw [run_turn_of_reading?_eq_none hreading]
    cases s.events[i]? <;> rfl
  | some reading =>
    rw [reading?_eq] at hreading
    obtain ⟨e, hi, hreading⟩ := Option.bind_eq_some_iff.1 hreading
    cases hplan : e.plan (s.isOpened e now) now with
    | rest | retire =>
      rw [hplan] at hreading
      cases hreading
    | evaluate =>
      rw [hplan] at hreading
      obtain rfl := Option.some.inj hreading
      rw [hi]
      unfold turn
      rw [hi]
      dsimp only
      rw [hplan]
      rfl

theorem notes_turns (registry : Registry) (now : Float) (s : Schedule) (env : Env H)
    (places : List Nat) : ((s.turns registry now places).run env).1.2 =
      (s.turnsOf registry now env places).flatMap Turn.notes := by
  induction places generalizing s env with
  | nil => rfl
  | cons i rest ih => exact congrArg₂ (· ++ ·) (notes_turn registry now s i env _) (ih _ _)

theorem notes_tick (registry : Registry) (s : Schedule) (env : Env H) :
    ((s.tick registry).run env).1.2 = (s.ticked registry env).flatMap Turn.notes := by
  rw [run_tick, notes_turns]
  rfl

end

section

variable {s s' : Schedule} {t : Turn} {turns : List Turn} {notes : List Notification}

/-- A turn notifies that its event fires, if it does. -/
theorem Turn.IsSound.notes_cases (ht : t.IsSound) : t.fires = false ∧ t.notes = [] ∨
    t.fires = true ∧ ∃ e, t.before.events[t.place]? = some e ∧
      t.notes = [.eventFired e.name e.score e.objective (e.triggers + 1) t.now] := by
  rw [notes, fires]
  cases hreading : t.reading with
  | none => exact Or.inl ⟨rfl, by cases t.before.events[t.place]? <;> rfl⟩
  | some reading =>
    obtain ⟨e, hi, -⟩ := ht.evaluates (by rw [hreading]; rfl)
    rw [hi, Option.any_some]
    dsimp only
    rw [Event.announce]
    cases reading.isTrue with
    | false => exact Or.inl ⟨rfl, rfl⟩
    | true => exact Or.inr ⟨rfl, e, rfl, rfl⟩

theorem firings_concat (i : Nat) (turns : List Turn) (t : Turn) : firings i (turns ++ [t]) =
    firings i turns ++ if t.place = i ∧ t.fires = true then [t] else [] := by
  have hreads : t.fires = true → t.reading.isSome = true := by
    rw [Turn.fires]
    cases t.reading with
    | none => exact fun h => absurd h Bool.false_ne_true
    | some reading => exact fun _ => rfl
  rw [firings, evaluations_concat, List.filter_append, firings]
  congr 1
  by_cases hplace : t.place = i
  · cases hfires : t.fires with
    | false => split <;> simp [hfires]
    | true =>
      rw [if_pos ⟨hplace, hreads hfires⟩, if_pos ⟨hplace, rfl⟩, List.filter_singleton, hfires]
      rfl
  · rw [if_neg fun h => hplace h.1, if_neg fun h => hplace h.1, List.filter_nil]

/-- Events that have names of their own are told apart by their notifications. -/
theorem isFiringOf_eq_false {i j : Nat} {e e' : Event} (hdistinct : (s.names.map foldName).Nodup)
    (hi : s.events[i]? = some e) (hj : s.events[j]? = some e') (hij : j ≠ i) (score : Int)
    (objective : Option String) (triggers : Nat) (now : Float) :
    Notification.isFiringOf e.name (.eventFired e'.name score objective triggers now) = false := by
  have hkey {k : Nat} {e : Event} (hk : s.events[k]? = some e) :
      (s.names.map foldName)[k]? = some (foldName e.name) := by
    rw [names, List.map_map, List.getElem?_map, hk]
    rfl
  rw [Notification.isFiringOf, Notification.firing?, Option.any_some, ← Bool.not_eq_true,
    sameName_iff]
  intro hsame
  have hlt := (List.getElem?_eq_some_iff.1 (hkey hj)).1
  exact hij ((List.getElem?_inj hlt hdistinct).1 (by rw [hkey hj, hkey hi, hsame]))

/-- A turn in which an event fires is the next one in its account, and adds nothing to those of
    others. -/
theorem Turn.IsSound.accounts (ht : t.IsSound) (hdistinct : (t.before.names.map foldName).Nodup)
    (hrecounts : t.before.Recounts turns) (h : t.before.Accounts turns notes) :
    t.after.Accounts (turns ++ [t]) (notes ++ t.notes) := by
  intro i e' hi'
  rw [ht.after_eq] at hi'
  obtain ⟨e, hi, rfl⟩ := getElem?_modify_eq_some.1 hi'
  have hsame : (if t.place = i then e.turned t.now t.reading else e).name = e.name ∧
      ∀ fires, (if t.place = i then e.turned t.now t.reading else e).account fires =
        e.account fires := by
    split
    · exact ⟨(e.turned_name_chain t.now t.reading).1, e.account_turned t.now t.reading⟩
    · exact ⟨rfl, fun _ => rfl⟩
  rw [hsame.1, hsame.2, List.filter_append, h i e hi, firings_concat]
  -- names are distinct, so a notification is in the account of no other event
  rcases ht.notes_cases with ⟨hfires, hnotes⟩ | ⟨hfires, e₁, hi₁, hnotes⟩
  · rw [hnotes, hfires, if_neg (by simp), List.filter_nil, List.append_nil, List.append_nil]
  · rw [hnotes, List.filter_singleton]
    by_cases hplace : t.place = i
    · obtain rfl : e = e₁ := Option.some.inj (hi.symm.trans (hplace ▸ hi₁))
      have htriggers : e.triggers = (firings i turns).length := (hrecounts i e hi).triggers
      rw [if_pos ⟨hplace, hfires⟩, Event.account_concat, ← htriggers, Notification.isFiringOf,
        Notification.firing?, Option.any_some, sameName_refl]
      rfl
    · rw [if_neg fun h => hplace h.1, isFiringOf_eq_false hdistinct hi hi₁ hplace, cond_false,
        List.append_nil, List.append_nil]

/-- The notifications of turns follow the order of the turns. -/
theorem Turns.sublist_firing? (h : Turns s turns s') :
    ((turns.flatMap Turn.notes).map Notification.firing?).Sublist
      (turns.map fun t => s.names[t.place]?) := by
  induction h with
  | nil s => exact .slnil
  | @cons t rest s' ht hrest ih =>
    rw [ht.names_eq] at ih
    rw [List.flatMap_cons, List.map_append, List.map_cons]
    rcases ht.notes_cases with ⟨-, hnotes⟩ | ⟨-, e, hi, hnotes⟩
    · rw [hnotes]
      exact .cons _ ih
    · have hname : t.before.names[t.place]? = some e.name := by
        rw [names, List.getElem?_map, hi, Option.map_some]
      rw [hnotes, hname]
      exact .cons_cons _ ih

end

section

variable {H : Type} [Host H]

/-- The notifications of a tick follow the order of the events. -/
theorem sublist_firing?_tick (registry : Registry) (s : Schedule) (env : Env H) :
    (((s.tick registry).run env).1.2.map Notification.firing?).Sublist (s.names.map some) := by
  have hplaces : (s.ticked registry env).map Turn.place = List.range s.names.length := by
    rw [names, List.length_map]
    exact map_place_turnsOf registry _ s env _
  have hnames : (List.range s.names.length).map (s.names[·]?) = s.names.map some := by
    refine List.ext_getElem (by simp) fun i hi _ => ?_
    rw [List.length_map, List.length_range] at hi
    rw [List.getElem_map, List.getElem_range, List.getElem_map, List.getElem?_eq_getElem hi]
  have hsublist := (turns_ticked registry s env).sublist_firing?
  rw [notes_tick, ← hnames, ← hplaces, List.map_map]
  exact hsublist

theorem now_of_mem_turnsOf (registry : Registry) (now : Float) (s : Schedule) (env : Env H)
    (places : List Nat) : ∀ t ∈ s.turnsOf registry now env places, t.now = now := by
  induction places generalizing s env with
  | nil => exact List.forall_mem_nil _
  | cons i rest ih => exact List.forall_mem_cons.2 ⟨rfl, ih _ _⟩

end

end Schedule

end MissionScript
