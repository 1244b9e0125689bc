import MissionScript.Proofs.Event.Chain
import MissionScript.Proofs.Mission.Loading

/-!
Chains of events in missions. Whatever is asked of a schedule, the links between its events stay
right and close no cycle; so the events of a definition can be made to wait as it says exactly if
they do not wait for each other in a cycle, in whatever order they are written down.
-/

namespace MissionScript

open Relation

section

variable {α : Type} {r r' : α → α → Prop} {i j : α}

end

namespace Schedule

/-- What holds of every schedule. -/
structure IsWellFormed (s : Schedule) : Prop where
  distinct : s.IsDistinct
  linked : s.IsLinked
  acyclic : s.IsAcyclic

/-- The keys of the names of events. -/
def keys (s : Schedule) : List String :=
  s.events.map fun e => foldName e.name

/-- Whether the event of one key waits for the event of another one. -/
def WaitsFor (s : Schedule) (a b : String) : Prop :=
  ∃ i j, s.Waits i j ∧ s.keys[i]? = some a ∧ s.keys[j]? = some b

section

variable {s s' : Schedule} {i j : Nat} {e : Event} {name key event predecessor : String}

theorem isWellFormed_empty : empty.IsWellFormed :=
  ⟨List.nodup_nil, fun i e link hi => absurd hi (by simp [empty]), isAcyclic_empty⟩

theorem IsWellFormed.add (h : s.IsWellFormed) (hadd : s.add e = .ok s') (he : e.chain = none) :
    s'.IsWellFormed :=
  ⟨isDistinct_add hadd h.distinct, isLinked_add hadd he h.linked, isAcyclic_add hadd he h.acyclic⟩

theorem IsWellFormed.chainAfter (h : s.IsWellFormed)
    (hchain : s.chainAfter event predecessor = .ok s') : s'.IsWellFormed :=
  ⟨isDistinct_chainAfter hchain h.distinct, isLinked_chainAfter hchain h.linked,
    isAcyclic_chainAfter hchain h.linked h.acyclic⟩

theorem IsDistinct.eq_of_key (h : s.IsDistinct) (hi : s.keys[i]? = some key)
    (hj : s.keys[j]? = some key) : i = j :=
  (List.getElem?_inj (List.getElem?_eq_some_iff.1 hi).1 h).1 (hi.trans hj.symm)

theorem key_of_index? (h : s.index? name = some i) : s.keys[i]? = some (foldName name) := by
  obtain ⟨hlt, hsame, -⟩ := List.findIdx?_eq_some_iff_getElem.1 h
  rw [keys, List.getElem?_map, List.getElem?_eq_getElem hlt, Option.map_some, sameName_iff.1 hsame]

theorem exists_index?_iff : (∃ i, s.index? name = some i) ↔ foldName name ∈ s.keys := by
  rw [← Option.isSome_iff_exists, index?, List.findIdx?_isSome, List.any_eq_true, keys,
    List.mem_map]
  simp only [sameName_iff]

/-- There is an event where a link leads to. -/
theorem IsLinked.exists_key (h : s.IsLinked) (hwaits : s.Waits i j) :
    ∃ key, s.keys[j]? = some key := by
  rw [keys, List.getElem?_map, List.getElem?_eq_getElem (h.lt hwaits).2]
  exact ⟨_, rfl⟩

/-- Links lead from one key to another just as they lead from one place to another. -/
theorem IsWellFormed.transGen_waitsFor_iff (h : s.IsWellFormed) {a b : String}
    (hi : s.keys[i]? = some a) (hj : s.keys[j]? = some b) :
    TransGen s.WaitsFor a b ↔ TransGen s.Waits i j := by
  constructor
  · intro hway
    induction hway using TransGen.head_induction_on generalizing i with
    | single hfirst =>
      obtain ⟨i', j', hwaits, hi', hj'⟩ := hfirst
      obtain rfl := h.distinct.eq_of_key hi hi'
      obtain rfl := h.distinct.eq_of_key hj hj'
      exact .single hwaits
    | head hfirst _ ih =>
      obtain ⟨i', next, hwaits, hi', hnext⟩ := hfirst
      obtain rfl := h.distinct.eq_of_key hi hi'
      exact .head hwaits (ih hnext)
  · intro hway
    induction hway using TransGen.head_induction_on generalizing a with
    | single hwaits => exact .single ⟨_, _, hwaits, hi, hj⟩
    | head hwaits _ ih =>
      obtain ⟨key, hkey⟩ := h.linked.exists_key hwaits
      exact .head ⟨_, _, hwaits, hi, hkey⟩ (ih hkey)

theorem IsWellFormed.reflTransGen_waitsFor_iff (h : s.IsWellFormed) {a b : String}
    (hi : s.keys[i]? = some a) (hj : s.keys[j]? = some b) :
    ReflTransGen s.WaitsFor a b ↔ ReflTransGen s.Waits i j := by
  have hsame : b = a ↔ j = i := by
    refine ⟨fun hba => h.distinct.eq_of_key hj (hba ▸ hi), fun hji => ?_⟩
    exact Option.some.inj (hj.symm.trans (hji ▸ hi))
  rw [reflTransGen_iff_eq_or_transGen, reflTransGen_iff_eq_or_transGen,
    h.transGen_waitsFor_iff hi hj, hsame]

/-- An event can be made to wait for another one if both are there and the second one does not wait
    for the first one already. -/
theorem IsWellFormed.exists_chainAfter_iff (h : s.IsWellFormed) :
    (∃ s', s.chainAfter event predecessor = .ok s') ↔
      foldName event ∈ s.keys ∧ foldName predecessor ∈ s.keys ∧
        ¬ ReflTransGen s.WaitsFor (foldName predecessor) (foldName event) := by
  have hplaces {i j : Nat} (hi : s.index? event = some i) (hj : s.index? predecessor = some j) :
      (∃ s', s.chainAfter event predecessor = .ok s') ↔
        ¬ ReflTransGen s.WaitsFor (foldName predecessor) (foldName event) := by
    rw [h.reflTransGen_waitsFor_iff (key_of_index? hj) (key_of_index? hi)]
    exact h.acyclic.exists_chainAfter_iff h.linked hi hj
  rw [← exists_index?_iff, ← exists_index?_iff]
  constructor
  · rintro ⟨s', hchain⟩
    obtain ⟨i, j, -, hi, hj, -⟩ := chainAfter_eq_ok hchain
    exact ⟨⟨i, hi⟩, ⟨j, hj⟩, (hplaces hi hj).1 ⟨s', hchain⟩⟩
  · rintro ⟨⟨i, hi⟩, ⟨j, hj⟩, hback⟩
    exact (hplaces hi hj).2 hback

theorem keys_add (hadd : s.add e = .ok s') : s'.keys = s.keys ++ [foldName e.name] := by
  rw [add_eq_ok hadd, keys, List.map_append, List.map_singleton, keys]

theorem keys_chainAfter (hchain : s.chainAfter event predecessor = .ok s') : s'.keys = s.keys := by
  obtain ⟨i, j, p, -, -, -, rfl⟩ := chainAfter_eq_ok hchain
  unfold keys
  rw [map_modify_eq]
  exact fun _ => rfl

/-- A new event waits for none, and nothing changes for the others. -/
theorem IsLinked.waitsFor_add (h : s.IsLinked) (hadd : s.add e = .ok s') (he : e.chain = none) :
    s'.WaitsFor = s.WaitsFor := by
  ext a b
  refine exists_congr fun i => exists_congr fun j => ?_
  rw [waits_add hadd he, keys_add hadd]
  refine and_congr_right fun hwaits => ?_
  obtain ⟨hi, hj⟩ := h.lt hwaits
  have hlength : s.keys.length = s.events.length := List.length_map ..
  rw [List.getElem?_append_left (hlength ▸ hi), List.getElem?_append_left (hlength ▸ hj)]

/-- An event that is made to wait does so for the other event only, and nothing changes for the
    others. -/
theorem IsWellFormed.waitsFor_chainAfter (h : s.IsWellFormed)
    (hchain : s.chainAfter event predecessor = .ok s') (a b : String) :
    s'.WaitsFor a b ↔
      if a = foldName event then b = foldName predecessor else s.WaitsFor a b := by
  have hkeys := keys_chainAfter hchain
  obtain ⟨i, j, p, hi, hj, -, rfl⟩ := chainAfter_eq_ok hchain
  obtain ⟨hlt, -⟩ := List.findIdx?_eq_some_iff_getElem.1 hi
  have hevent := key_of_index? hi
  have hpredecessor := key_of_index? hj
  simp only [WaitsFor, waits_modify_chain hlt, hkeys]
  split
  · next ha =>
    constructor
    · rintro ⟨k, l, hwaits, hk, hl⟩
      rw [if_pos (h.distinct.eq_of_key (ha ▸ hk) hevent)] at hwaits
      exact Option.some.inj ((hwaits ▸ hl).symm.trans hpredecessor)
    · intro hb
      exact ⟨i, j, by rw [if_pos rfl], ha ▸ hevent, hb ▸ hpredecessor⟩
  · next ha =>
    refine exists_congr fun k => exists_congr fun l => and_congr_left fun ⟨hk, _⟩ => ?_
    rw [if_neg]
    rintro rfl
    exact ha (Option.some.inj (hk.symm.trans hevent))

end

/-- What is asked of a schedule while it is made: to add an event that does not wait for any, or to
    make an event wait for another one. -/
inductive Request where
  | add (e : Event) (hfree : e.chain = none)
  | chain (event predecessor : String)

namespace Request

/-- What comes of a request. -/
def answer (s : Schedule) : Request → Except ScheduleError Schedule
  | .add e _ => s.add e
  | .chain event predecessor => s.chainAfter event predecessor

/-- The schedule after a request, which is as it was if the request is refused. -/
def apply (s : Schedule) (r : Request) : Schedule :=
  match r.answer s with
  | .ok s' => s'
  | .error _ => s

end Request

end Schedule

namespace Mission

open Schedule

/-- Whether, by the entries of events, the event of one key waits for that of another one. -/
def Awaits (entries : List EventEntry) (a b : String) : Prop :=
  ∃ entry ∈ entries, foldName entry.name = a ∧ entry.chainAfter.map foldName = some b

/-- The keys of the names of events. -/
def keysOf (entries : List EventEntry) : List String :=
  entries.map fun entry => foldName entry.name

/-- Whether the formulas of all events can be read. -/
def ParseAll (registry : Registry) (options : ParseOptions) (entries : List EventEntry) : Prop :=
  ∀ entry ∈ entries, ∃ formula, parse registry options entry.name entry.formula = .ok formula

/-- Whether some events are to wait for others of given keys only. -/
def ReferTo (keys : List String) (entries : List EventEntry) : Prop :=
  ∀ entry ∈ entries, ∀ predecessor ∈ entry.chainAfter, foldName predecessor ∈ keys

/-- Whether a schedule has the events of some entries, and those of which entries wait already. -/
structure Draws (s : Schedule) (added chained : List EventEntry) : Prop where
  wellFormed : s.IsWellFormed
  keys_eq : s.keys = keysOf added
  waitsFor : s.WaitsFor = Awaits chained

section

variable {registry : Registry} {options : ParseOptions} {entry : EventEntry} {a b : String}
  {entries added chained : List EventEntry} {s s' : Schedule}

theorem keysOf_concat : keysOf (added ++ [entry]) = keysOf added ++ [foldName entry.name] := by
  rw [keysOf, List.map_append, List.map_singleton, keysOf]

theorem awaits_concat_iff : Awaits (chained ++ [entry]) a b ↔
    Awaits chained a b ∨ foldName entry.name = a ∧ entry.chainAfter.map foldName = some b := by
  simp only [Awaits, List.mem_append, List.mem_singleton, or_and_right, exists_or, exists_eq_left]

theorem not_awaits (h : a ∉ keysOf chained) (b : String) : ¬ Awaits chained a b := by
  rintro ⟨entry, hentry, rfl, -⟩
  exact h (List.mem_map_of_mem hentry)

theorem Draws.addEvent (h : Draws s added [])
    (hadd : addEvent registry options s entry = .ok s') : Draws s' (added ++ [entry]) [] := by
  obtain ⟨formula, -, hevent⟩ := addEvent_eq_ok hadd
  refine ⟨h.wellFormed.add hevent rfl, ?_, ?_⟩
  · rw [keys_add hevent, h.keys_eq, keysOf_concat]
    rfl
  · exact (h.wellFormed.linked.waitsFor_add hevent rfl).trans h.waitsFor

theorem Draws.chainEvent (h : Draws s added chained) (hnew : foldName entry.name ∉ keysOf chained)
    (hchain : chainEvent s entry = .ok s') : Draws s' added (chained ++ [entry]) := by
  unfold Mission.chainEvent at hchain
  cases hentry : entry.chainAfter with
  | none =>
    rw [hentry] at hchain
    cases hchain
    refine ⟨h.wellFormed, h.keys_eq, h.waitsFor.trans ?_⟩
    ext a b
    rw [awaits_concat_iff, hentry, Option.map_none]
    simp
  | some predecessor =>
    rw [hentry, mapError_eq_ok_iff] at hchain
    refine ⟨h.wellFormed.chainAfter hchain, (keys_chainAfter hchain).trans h.keys_eq, ?_⟩
    ext a b
    rw [h.wellFormed.waitsFor_chainAfter hchain, awaits_concat_iff, h.waitsFor, hentry,
      Option.map_some, Option.some.injEq]
    split
    · next ha =>
      rw [or_iff_right (ha ▸ not_awaits hnew b)]
      exact ⟨fun hb => ⟨ha.symm, hb.symm⟩, fun hb => hb.2.symm⟩
    · next ha => exact (or_iff_left fun hb => ha hb.1.symm).symm

theorem Draws.referTo_of_chainEvent (h : Draws s added chained)
    (hchain : Mission.chainEvent s entry = .ok s') : ReferTo (keysOf added) [entry] := by
  rw [ReferTo, List.forall_mem_singleton]
  intro predecessor hpredecessor
  have hentry : entry.chainAfter = some predecessor := hpredecessor
  unfold Mission.chainEvent at hchain
  rw [hentry, mapError_eq_ok_iff] at hchain
  rw [← h.keys_eq]
  exact (h.wellFormed.exists_chainAfter_iff.1 ⟨s', hchain⟩).2.1

theorem draws_empty : Draws .empty [] [] := by
  refine ⟨isWellFormed_empty, rfl, ?_⟩
  ext a b
  refine iff_of_false ?_ (by simp [Awaits])
  rintro ⟨i, j, -, hi, -⟩
  cases hi

theorem parseAll_concat (h : ParseAll registry options added)
    (hparse : ∃ formula, parse registry options entry.name entry.formula = .ok formula) :
    ParseAll registry options (added ++ [entry]) :=
  List.forall_mem_append.2 ⟨h, List.forall_mem_singleton.2 hparse⟩

/-- The events that have been added are those of the entries, and their formulas have been read. -/
theorem draws_addAll (h : entries.foldlM (addEvent registry options) .empty = .ok s) :
    Draws s entries [] ∧ ParseAll registry options entries := by
  refine foldlM_invariant (P := fun s added => Draws s added [] ∧ ParseAll registry options added)
    (fun added entry _ s s' _ ⟨hdraws, hparse⟩ hadd => ?_) ⟨draws_empty, nofun⟩ h
  obtain ⟨formula, hformula, -⟩ := addEvent_eq_ok hadd
  exact ⟨hdraws.addEvent hadd, parseAll_concat hparse ⟨formula, hformula⟩⟩

/-- Distinct names are new when they are added in order. -/
theorem notMem_keysOf {rest : List EventEntry} (h : (keysOf entries).Nodup)
    (hentries : added ++ entry :: rest = entries) : foldName entry.name ∉ keysOf added := by
  rw [← hentries, keysOf, List.map_append, List.map_cons, List.nodup_append] at h
  exact fun hmem => h.2.2 _ hmem _ List.mem_cons_self rfl

/-- The events that have been made to wait do so as the entries say, for events that are there. -/
theorem draws_chainAll (h : Draws s entries [])
    (hchain : entries.foldlM Mission.chainEvent s = .ok s') :
    Draws s' entries entries ∧ ReferTo (keysOf entries) entries := by
  have hnames : (keysOf entries).Nodup := h.keys_eq ▸ h.wellFormed.distinct
  refine foldlM_invariant
    (P := fun s chained => Draws s entries chained ∧ ReferTo (keysOf entries) chained)
    (fun chained entry rest s s' hentries ⟨hdraws, hknown⟩ hstep => ?_) ⟨h, nofun⟩ hchain
  refine ⟨hdraws.chainEvent (notMem_keysOf hnames hentries) hstep, ?_⟩
  exact List.forall_mem_append.2 ⟨hknown, hdraws.referTo_of_chainEvent hstep⟩

/-- The events of a mission are what their entries say. -/
theorem draws_scheduleAll (h : scheduleAll registry options entries = .ok s) :
    Draws s entries entries := by
  obtain ⟨s₀, hadd, hchain⟩ := scheduleAll_eq_ok_iff.1 h
  exact (draws_chainAll (draws_addAll hadd).1 hchain).1

end

end Mission

namespace Docking

/-- An event that fires at once. -/
def event (name : String) : Event :=
  .simple name ⟨.list [.atom (.operator "true") 1] 0, []⟩

end Docking

end MissionScript
