import MissionScript.Proofs.Event.History
import Mathlib.Data.Fintype.Pigeonhole
import Mathlib.Logic.Relation

/-!
Chains of events. Every event waits for at most one other, and no event waits for itself, not even
by way of others; so following the links always comes to an end, and the search for a cycle finds
one exactly when there would be one.
-/

namespace MissionScript

section

open Relation

variable {α : Type} {r r' : α → α → Prop} {i j : α}

/-- A way along links of which one may be new uses only old ones, or it comes to the new one and
    goes on from its end. -/
theorem transGen_of_newLink (hnew : ∀ a b, r' a b → r a b ∨ a = i ∧ b = j) {a b : α}
    (h : TransGen r' a b) : TransGen r a b ∨ ReflTransGen r a i ∧ ReflTransGen r j b := by
  -- old links lead to the first use of the new one, and on from its last use
  induction h using TransGen.head_induction_on with
  | @single a hab =>
    rcases hnew a b hab with hold | ⟨rfl, rfl⟩
    · exact Or.inl (.single hold)
    · exact Or.inr ⟨.refl, .refl⟩
  | @head a c hac _ ih =>
    rcases hnew a c hac with hold | ⟨rfl, rfl⟩
    · exact ih.imp (.head hold) (.imp_left (.head hold))
    · exact Or.inr ⟨.refl, ih.elim TransGen.to_reflTransGen And.right⟩

/-- A new link closes no cycle if there is no way back from its end. -/
theorem acyclic_of_newLink (hacyclic : ∀ a, ¬ TransGen r a a)
    (hnew : ∀ a b, r' a b → r a b ∨ a = i ∧ b = j) (hback : ¬ ReflTransGen r j i) (a : α) :
    ¬ TransGen r' a a := by
  intro h
  rcases transGen_of_newLink hnew h with hold | ⟨hto, hfrom⟩
  · exact hacyclic a hold
  · exact hback (hfrom.trans hto)

end

namespace Schedule

open Relation

/-- Whether the event at a place waits for the one at another place. -/
def Waits (s : Schedule) (i j : Nat) : Prop :=
  s.predecessor? i = some j

/-- Whether no event waits for itself, not even by way of others. -/
def IsAcyclic (s : Schedule) : Prop :=
  ∀ i, ¬ TransGen s.Waits i i

/-- The place that so many links lead to. -/
def ancestor? (s : Schedule) : (links : Nat) → Nat → Option Nat
  | 0, i => some i
  | links + 1, i => (s.predecessor? i).bind (s.ancestor? links)

section

variable {s s' : Schedule} {i j : Nat} {e : Event} {event predecessor : String}

theorem waits_iff : s.Waits i j ↔
    ∃ e link, s.events[i]? = some e ∧ e.chain = some link ∧ link.index = j := by
  simp only [Waits, predecessor?, Option.bind_eq_some_iff, Option.map_eq_some_iff]
  exact ⟨fun ⟨e, hi, link, hlink, hj⟩ => ⟨e, link, hi, hlink, hj⟩,
    fun ⟨e, link, hi, hlink, hj⟩ => ⟨e, hi, link, hlink, hj⟩⟩

/-- Links lead from events to events. -/
theorem IsLinked.lt (h : s.IsLinked) (hwaits : s.Waits i j) :
    i < s.events.length ∧ j < s.events.length := by
  obtain ⟨e, link, hi, hlink, rfl⟩ := waits_iff.1 hwaits
  obtain ⟨p, hp, -⟩ := h i e link hi hlink
  exact ⟨(List.getElem?_eq_some_iff.1 hi).1, (List.getElem?_eq_some_iff.1 hp).1⟩

theorem ancestor?_succ (s : Schedule) (links i : Nat) :
    s.ancestor? (links + 1) i = (s.predecessor? i).bind (s.ancestor? links) := rfl

theorem ancestor?_one (s : Schedule) (i : Nat) : s.ancestor? 1 i = s.predecessor? i :=
  Option.bind_fun_some _

theorem ancestor?_add (s : Schedule) (m n i : Nat) :
    s.ancestor? (m + n) i = (s.ancestor? m i).bind (s.ancestor? n) := by
  induction m generalizing i with
  | zero => rw [Nat.zero_add, ancestor?, Option.bind_some]
  | succ m ih =>
    rw [Nat.succ_add, ancestor?_succ, ancestor?_succ, Option.bind_assoc]
    exact Option.bind_congr fun next _ => ih next

theorem transGen_of_ancestor? {links : Nat} (h : s.ancestor? (links + 1) i = some j) :
    TransGen s.Waits i j := by
  induction links generalizing i with
  | zero => exact .single ((s.ancestor?_one i).symm.trans h)
  | succ links ih =>
    rw [ancestor?_succ] at h
    obtain ⟨next, hnext, hj⟩ := Option.bind_eq_some_iff.1 h
    exact .head hnext (ih hj)

theorem exists_ancestor?_of_transGen (h : TransGen s.Waits i j) :
    ∃ links, s.ancestor? (links + 1) i = some j := by
  induction h using TransGen.head_induction_on with
  | single hwaits => exact ⟨0, (s.ancestor?_one _).trans hwaits⟩
  | head hwaits _ ih =>
    obtain ⟨links, hlinks⟩ := ih
    exact ⟨links + 1, by rw [ancestor?_succ, hwaits, Option.bind_some, hlinks]⟩

/-- Wherever so many links lead to, fewer of them lead to an event. -/
theorem IsLinked.exists_ancestor? (hlinked : s.IsLinked) (hi : i < s.events.length) {links : Nat}
    (hway : s.ancestor? links i = some j) {k : Nat} (hk : k ≤ links) :
    ∃ place : Fin s.events.length, s.ancestor? k i = some place.val := by
  induction k with
  | zero => exact ⟨⟨i, hi⟩, rfl⟩
  | succ k ih =>
    obtain ⟨place, hplace⟩ := ih (Nat.le_of_succ_le hk)
    obtain ⟨rest, hrest⟩ := Nat.exists_eq_add_of_le hk
    rw [hrest, ancestor?_add] at hway
    obtain ⟨next, hnext, -⟩ := Option.bind_eq_some_iff.1 hway
    have hwaits : s.Waits place next := by
      rwa [ancestor?_add, hplace, Option.bind_some, ancestor?_one] at hnext
    exact ⟨⟨next, (hlinked.lt hwaits).2⟩, hnext⟩

/-- Following the links from an event comes to an end before there are as many of them as events:
    otherwise the way would come to some event twice. -/
theorem IsAcyclic.ancestor?_eq_none (hacyclic : s.IsAcyclic) (hlinked : s.IsLinked)
    (hi : i < s.events.length) : s.ancestor? s.events.length i = none := by
  rw [Option.eq_none_iff_forall_ne_some]
  intro last hlast
  have hway (k : Fin (s.events.length + 1)) :=
    hlinked.exists_ancestor? hi hlast (Nat.le_of_lt_succ k.isLt)
  choose place hplace using hway
  -- the way has one place more than there are events
  obtain ⟨k, k', hne, hsame⟩ := Fintype.exists_ne_map_eq_of_card_lt place (by simp)
  wlog hlt : k < k' generalizing k k'
  · exact this k' k hne.symm hsame.symm (by omega)
  obtain ⟨links, hlinks⟩ : ∃ links, k'.val = k.val + (links + 1) := ⟨k'.val - k.val - 1, by omega⟩
  have hreturn := hplace k'
  rw [hlinks, ancestor?_add, hplace k, Option.bind_some, ← hsame] at hreturn
  exact hacyclic _ (transGen_of_ancestor? hreturn)

theorem reaches_eq_true_iff {target steps : Nat} : s.reaches target steps i = true ↔
    ∃ links < steps, s.ancestor? (links + 1) i = some target := by
  induction steps generalizing i with
  | zero => simp [reaches]
  | succ steps ih =>
    rw [reaches, Option.any_eq_true]
    constructor
    · rintro ⟨next, hnext, hfound⟩
      rw [Bool.or_eq_true, beq_iff_eq] at hfound
      rcases hfound with rfl | hfound
      · exact ⟨0, Nat.succ_pos _, (s.ancestor?_one i).trans hnext⟩
      · obtain ⟨links, hlt, hlinks⟩ := ih.1 hfound
        refine ⟨links + 1, Nat.succ_lt_succ hlt, ?_⟩
        rw [ancestor?_succ, hnext, Option.bind_some, hlinks]
    · rintro ⟨links, hlt, hlinks⟩
      rw [ancestor?_succ] at hlinks
      obtain ⟨next, hnext, hrest⟩ := Option.bind_eq_some_iff.1 hlinks
      refine ⟨next, hnext, ?_⟩
      rw [Bool.or_eq_true, beq_iff_eq]
      cases links with
      | zero => exact Or.inl (Option.some.inj hrest)
      | succ links => exact Or.inr (ih.2 ⟨links, Nat.lt_of_succ_lt_succ hlt, hrest⟩)

/-- A search of at least as many steps as there are events finds whatever the links lead to. -/
theorem IsAcyclic.reaches_iff (hacyclic : s.IsAcyclic) (hlinked : s.IsLinked) {steps : Nat}
    (hsteps : s.events.length ≤ steps) (target i : Nat) :
    s.reaches target steps i = true ↔ TransGen s.Waits i target := by
  rw [reaches_eq_true_iff]
  constructor
  · rintro ⟨links, -, hlinks⟩
    exact transGen_of_ancestor? hlinks
  · intro h
    obtain ⟨next, hwaits, -⟩ := TransGen.head'_iff.1 h
    have hend := hacyclic.ancestor?_eq_none hlinked (hlinked.lt hwaits).1
    obtain ⟨links, hlinks⟩ := exists_ancestor?_of_transGen h
    refine ⟨links, Nat.lt_of_not_le fun hle => ?_, hlinks⟩
    have hle' : s.events.length ≤ links + 1 := by omega
    obtain ⟨rest, hrest⟩ := Nat.exists_eq_add_of_le hle'
    rw [hrest, ancestor?_add, hend] at hlinks
    cases hlinks

/-- What comes of making an event wait for another one, if both are there. -/
theorem chainAfter_of_index? (hi : s.index? event = some i) (hj : s.index? predecessor = some j)
    (hne : i ≠ j) : ∃ p, s.events[j]? = some p ∧ s.chainAfter event predecessor =
      if s.reaches i s.events.length j then .error (.chainCycle event predecessor)
      else .ok ⟨s.events.modify i ({ · with chain := some ⟨p.name, j⟩ })⟩ := by
  obtain ⟨hlt, -⟩ := List.findIdx?_eq_some_iff_getElem.1 hj
  refine ⟨_, List.getElem?_eq_getElem hlt, ?_⟩
  rw [chainAfter, hi, hj]
  dsimp only
  rw [if_neg hne, List.getElem?_eq_getElem hlt]
  rfl

/-- Making an event wait is refused exactly if that one is reached from the other one. -/
theorem IsAcyclic.chainAfter_eq (hacyclic : s.IsAcyclic) (hlinked : s.IsLinked)
    (hi : s.index? event = some i) (hj : s.index? predecessor = some j) (hne : i ≠ j) :
    (ReflTransGen s.Waits j i →
      s.chainAfter event predecessor = .error (.chainCycle event predecessor)) ∧
    (¬ ReflTransGen s.Waits j i → ∃ p, s.events[j]? = some p ∧ s.chainAfter event predecessor =
      .ok ⟨s.events.modify i ({ · with chain := some ⟨p.name, j⟩ })⟩) := by
  obtain ⟨p, hp, hchain⟩ := chainAfter_of_index? hi hj hne
  have hreaches : s.reaches i s.events.length j = true ↔ ReflTransGen s.Waits j i := by
    rw [hacyclic.reaches_iff hlinked (Nat.le_refl _), reflTransGen_iff_eq_or_transGen,
      or_iff_right hne]
  rw [hchain, ← hreaches]
  refine ⟨fun hback => if_pos hback, fun hback => ⟨p, hp, if_neg hback⟩⟩

/-- An event can be made to wait for one that does not wait for it already. -/
theorem IsAcyclic.exists_chainAfter_iff (hacyclic : s.IsAcyclic) (hlinked : s.IsLinked)
    (hi : s.index? event = some i) (hj : s.index? predecessor = some j) :
    (∃ s', s.chainAfter event predecessor = .ok s') ↔ ¬ ReflTransGen s.Waits j i := by
  by_cases hij : i = j
  · subst hij
    refine iff_of_false ?_ (not_not.2 .refl)
    rw [chainAfter, hi, hj]
    dsimp only
    rw [if_pos rfl]
    exact nofun
  · obtain ⟨hrefused, hlinks⟩ := hacyclic.chainAfter_eq hlinked hi hj hij
    constructor
    · rintro ⟨s', hchain⟩ hback
      rw [hrefused hback] at hchain
      cases hchain
    · intro hback
      obtain ⟨p, -, hchain⟩ := hlinks hback
      exact ⟨_, hchain⟩

/-- A new event waits for nothing, and nothing changes for the others. -/
theorem waits_add (hadd : s.add e = .ok s') (he : e.chain = none) :
    s'.Waits i j ↔ s.Waits i j := by
  rw [waits_iff, waits_iff, add_eq_ok hadd]
  refine exists_congr fun e' => exists_congr fun link => and_congr_left fun ⟨hlink, _⟩ => ?_
  rw [List.getElem?_append]
  split
  · exact Iff.rfl
  · next hlt =>
    refine iff_of_false (fun hi => ?_) (fun hi => hlt (List.getElem?_eq_some_iff.1 hi).1)
    obtain rfl := List.mem_singleton.1 (List.mem_of_getElem? hi)
    rw [he] at hlink
    cases hlink

/-- An event that is made to wait does so for the other event only, and nothing changes for the
    others. -/
theorem waits_modify_chain {name : String} {k l : Nat} (hi : i < s.events.length) :
    Waits ⟨s.events.modify i ({ · with chain := some ⟨name, j⟩ })⟩ k l ↔
      if k = i then l = j else s.Waits k l := by
  rw [waits_iff]
  constructor
  · rintro ⟨e', link, hk, hlink, rfl⟩
    obtain ⟨e, he, rfl⟩ := getElem?_modify_eq_some.1 hk
    by_cases hki : k = i
    · subst hki
      rw [if_pos rfl] at hlink ⊢
      exact congrArg ChainLink.index (Option.some.inj hlink).symm
    · rw [if_neg (Ne.symm hki)] at hlink
      rw [if_neg hki]
      exact waits_iff.2 ⟨e, link, he, hlink, rfl⟩
  · intro h
    by_cases hki : k = i
    · subst hki
      rw [if_pos rfl] at h
      subst h
      refine ⟨_, ⟨name, l⟩, getElem?_modify_eq_some.2 ⟨_, List.getElem?_eq_getElem hi, rfl⟩, ?_,
        rfl⟩
      rw [if_pos rfl]
    · rw [if_neg hki] at h
      obtain ⟨e, link, he, hlink, rfl⟩ := waits_iff.1 h
      refine ⟨e, link, getElem?_modify_eq_some.2 ⟨e, he, ?_⟩, hlink, rfl⟩
      rw [if_neg (Ne.symm hki)]

theorem isAcyclic_empty : empty.IsAcyclic := by
  intro i h
  obtain ⟨j, hwaits, -⟩ := TransGen.head'_iff.1 h
  obtain ⟨e, link, he, -⟩ := waits_iff.1 hwaits
  cases he

theorem isAcyclic_add (hadd : s.add e = .ok s') (he : e.chain = none) (h : s.IsAcyclic) :
    s'.IsAcyclic := by
  intro i hcycle
  exact h i (TransGen.mono (fun _ _ hwaits => (waits_add hadd he).1 hwaits) _ _ hcycle)

/-- Making an event wait closes no cycle. -/
theorem isAcyclic_chainAfter (hchain : s.chainAfter event predecessor = .ok s')
    (hlinked : s.IsLinked) (h : s.IsAcyclic) : s'.IsAcyclic := by
  obtain ⟨i, j, p, hi, hj, -, rfl⟩ := chainAfter_eq_ok hchain
  obtain ⟨hlt, -⟩ := List.findIdx?_eq_some_iff_getElem.1 hi
  have hback := (h.exists_chainAfter_iff hlinked hi hj).1 ⟨_, hchain⟩
  refine acyclic_of_newLink h (fun k l hwaits => ?_) hback
  rw [waits_modify_chain hlt] at hwaits
  split at hwaits
  · next hki => exact Or.inr ⟨hki, hwaits⟩
  · exact Or.inl hwaits

end

end Schedule

end MissionScript
