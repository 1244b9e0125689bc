import MissionScript.Proofs.Operator.Index

/-!
The history of a table of operators. Whatever is registered, the index keeps in step with the operators,
the first registration under a name stands for good, and what is refused changes nothing.
-/

namespace MissionScript

/-- A call that registers an operator, with all that it is given. -/
structure Registration where
  name : String
  signature : Signature
  behaviour : Behaviour
  description : String

namespace Registration

/-- The operator that a call adds. -/
def operator (c : Registration) : Operator :=
  .define c.name c.signature c.behaviour c.description

/-- What comes of a call, and the table that it leaves. -/
def make (c : Registration) (t : OperatorTable) : Except RegistryError Unit × OperatorTable :=
  t.register c.name c.signature c.behaviour c.description

/-- The table that some calls leave, made one after the other whatever comes of them. -/
def makeAll (calls : List Registration) (t : OperatorTable) : OperatorTable :=
  calls.foldl (fun t c => (c.make t).2) t

/-- Those of some calls that succeed, if they are made one after the other. -/
def successes : List Registration → OperatorTable → List Registration
  | [], _ => []
  | c :: rest, t =>
    match c.make t with
    | (.ok (), after) => c :: successes rest after
    | (.error _, after) => successes rest after

variable {c : Registration} {calls : List Registration} {t : OperatorTable}

/-- A call is refused and changes nothing, for its name is not valid or is taken, or else its operator is
    added. -/
theorem make_cases (c : Registration) (t : OperatorTable) :
    ((isOperatorName c.name.toList = false ∨ t.has c.name = true) ∧ ∃ e, c.make t = (.error e, t)) ∨
    (isOperatorName c.name.toList = true ∧ t.has c.name = false) ∧
      c.make t = (.ok (), t.add c.operator) := by
  rcases t.register_cases c.name c.signature c.behaviour c.description with
    ⟨hname, hmade⟩ | ⟨-, hhas, hmade⟩ | ⟨hname, hhas, hmade⟩
  · exact Or.inl ⟨Or.inl hname, _, hmade⟩
  · exact Or.inl ⟨Or.inr hhas, _, hmade⟩
  · exact Or.inr ⟨⟨hname, hhas⟩, hmade⟩

theorem refused_iff : (∃ e, (c.make t).1 = .error e) ↔
    isOperatorName c.name.toList = false ∨ t.has c.name = true := by
  rcases make_cases c t with ⟨hreason, e, hmade⟩ | ⟨⟨hname, hhas⟩, hmade⟩
  · simp [hmade, hreason]
  · simp [hmade, hname, hhas]

theorem make_of_refused {e : RegistryError} (h : (c.make t).1 = .error e) : (c.make t).2 = t := by
  rcases make_cases c t with ⟨-, e', hmade⟩ | ⟨-, hmade⟩
  · rw [hmade]
  · rw [hmade] at h
    cases h

theorem isIndexed_makeAll (h : t.IsIndexed) (calls : List Registration) :
    (makeAll calls t).IsIndexed := by
  induction calls generalizing t with
  | nil => exact h
  | cons c rest ih => exact ih (h.register c.name c.signature c.behaviour c.description)

/-- Calls add the operators of those that succeed, in order, and leave what was there. -/
theorem values_makeAll (calls : List Registration) (t : OperatorTable) :
    (makeAll calls t).values = t.values ++ (successes calls t).map operator := by
  induction calls generalizing t with
  | nil => exact (List.append_nil _).symm
  | cons c rest ih =>
    rw [makeAll, List.foldl_cons, ← makeAll, ih, successes]
    rcases make_cases c t with ⟨-, e, hmade⟩ | ⟨-, hmade⟩
    · rw [hmade]
    · rw [hmade, List.map_cons, OperatorTable.add, List.append_assoc, List.singleton_append]

/-- An operator that is found stays the one that is found. -/
theorem get?_makeAll (h : t.IsIndexed) {name : String} {o : Operator} (hget : t.get? name = some o)
    (calls : List Registration) : (makeAll calls t).get? name = some o := by
  obtain ⟨hmem, hname⟩ := h.get?_eq_some_iff.1 hget
  rw [(isIndexed_makeAll h calls).get?_eq_some_iff, values_makeAll]
  exact ⟨List.mem_append_left _ hmem, hname⟩

end Registration

/-- Whatever has been registered, the index has the folded name of every operator with its place and
    nothing else, and no two operators share a folded name. The operators are those of the calls that
    succeeded, in order. Under a name the first of them is found, and no other later on, whatever is
    registered then; and a name is there exactly if an operator is found under it. An operator is lazy
    by its signature exactly if it is applied lazily. A call is refused exactly if its name is not valid
    or is that of an earlier success, and then it changes nothing. -/
theorem Registration.index_exact (calls : List Registration) :
    let t := makeAll calls .empty
    let succeeded := successes calls .empty
    t.IsIndexed ∧ t.names.Nodup ∧ t.values = succeeded.map operator ∧
    (∀ name, t.get? name = (succeeded.find? fun c => sameName c.name name).map operator ∧
      t.has name = (t.get? name).isSome) ∧
    (∀ later name o, t.get? name = some o → (makeAll (calls ++ later) .empty).get? name = some o) ∧
    (∀ o ∈ t.values, o.signature.flags.isLazy = o.behaviour.isLazy) ∧
    ∀ c : Registration, ((∃ e, (c.make t).1 = .error e) ↔
        isOperatorName c.name.toList = false ∨ ∃ c' ∈ succeeded, sameName c'.name c.name = true) ∧
      ∀ e, (c.make t).1 = .error e → (c.make t).2 = t := by
  intro t succeeded
  have hindexed : t.IsIndexed := isIndexed_makeAll OperatorTable.isIndexed_empty calls
  have hvalues : t.values = succeeded.map operator := values_makeAll calls .empty
  have hget (name : String) :
      t.get? name = (succeeded.find? fun c => sameName c.name name).map operator := by
    rw [hindexed.get?_eq_find?, hvalues, List.find?_map]
    rfl
  refine ⟨hindexed, hindexed.nodup_names, hvalues, fun name => ⟨hget name, hindexed.has_eq name⟩,
    fun later name o ho => ?_, fun o ho => ?_, fun c => ⟨?_, fun e => make_of_refused⟩⟩
  · rw [makeAll, List.foldl_append]
    exact get?_makeAll hindexed ho later
  · rw [hvalues] at ho
    obtain ⟨c, -, rfl⟩ := List.mem_map.1 ho
    rfl
  · rw [refused_iff, hindexed.has_eq, hget, Option.isSome_map, List.find?_isSome]

namespace Signal

/-- A condition that is evaluated eagerly, though its signature says otherwise. -/
def ping (name : String) : Registration :=
  ⟨name, ⟨0, some 0, [], .boolean, ⟨false, false, true⟩⟩, .scripted false (.give .unknown), ""⟩

/-- Three calls, of which the second has a name that is taken and the third one that is not valid. -/
def calls : List Registration :=
  [ping "ping", ping "PING", ping "bad name"]

end Signal

open Signal in
/-- The first call alone succeeds, and its operator is found under every spelling of its name, also after
    one more call that succeeds. The other two are refused and change nothing. -/
theorem Registration.index_exact_signal :
    let t := makeAll calls .empty
    t.values = [(ping "ping").operator] ∧ t.index.find? "ping" = some 0 ∧
    t.get? "Ping" = some (ping "ping").operator ∧
    (makeAll (calls ++ [ping "pong"]) .empty).get? "Ping" = some (ping "ping").operator ∧
    (ping "ping").operator.signature.flags.isLazy = false ∧
    ((ping "Ping").make t).2 = t ∧ ((ping "bad name").make t).2 = t := by
  intro t
  obtain ⟨hindexed, -, hvalues, hfound, hstays, hlazy, hrefused⟩ := index_exact calls
  have hsucceeded : successes calls .empty = [ping "ping"] := by rfl
  rw [hsucceeded] at hvalues hfound hrefused
  have hget : t.get? "Ping" = some (ping "ping").operator := (hfound "Ping").1.trans (by rfl)
  obtain ⟨_, htaken⟩ := (hrefused (ping "Ping")).1.2
    (Or.inr ⟨_, List.mem_singleton_self _, by decide +kernel⟩)
  obtain ⟨_, hinvalid⟩ := (hrefused (ping "bad name")).1.2 (Or.inl (by decide +kernel))
  refine ⟨hvalues, (hindexed "ping" 0).2 ?_, hget, hstays [ping "pong"] "Ping" _ hget,
    hlazy (ping "ping").operator (hvalues ▸ List.mem_singleton_self _),
    (hrefused (ping "Ping")).2 _ htaken, (hrefused (ping "bad name")).2 _ hinvalid⟩
  rw [OperatorTable.names, hvalues]
  rfl

end MissionScript
