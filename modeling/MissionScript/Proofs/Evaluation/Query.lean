import MissionScript.Evaluation.Query
import Mathlib.Tactic.Common

/-!
The arguments of queries. Queries that take arguments of one kind only find them all, in order.
-/

namespace MissionScript.Query

theorem numbersFrom_map (operator : String) (index : Nat) (xs : List Float) :
    numbersFrom operator index (xs.map .number) = .ok xs := by
  induction xs generalizing index with
  | nil => rfl
  | cons x rest ih =>
    rw [List.map_cons, numbersFrom, ih]
    rfl

theorem textsFrom_map (operator : String) (index : Nat) (texts : List String) :
    textsFrom operator index (texts.map .text) = .ok texts := by
  induction texts generalizing index with
  | nil => rfl
  | cons s rest ih =>
    rw [List.map_cons, textsFrom, ih]
    rfl

/-- Texts are found only if the arguments are nothing else. -/
theorem eq_map_of_textsFrom {operator : String} {index : Nat} {values : List Value}
    {texts : List String} (h : textsFrom operator index values = .ok texts) :
    values = texts.map .text := by
  induction values generalizing index texts with
  | nil =>
    cases h
    rfl
  | cons v rest ih =>
    cases v with
    | text s =>
      cases hrest : textsFrom operator (index + 1) rest with
      | error e =>
        rw [textsFrom, hrest] at h
        cases h
      | ok others =>
        rw [textsFrom, hrest] at h
        cases h
        rw [List.map_cons, ih hrest]
    | number | unknown => cases h

theorem everyShip_map {H : Type} [Host H] (operator : String) (host : H) (ships : List String)
    (reading : Option ShipStatus → Truth) : everyShip operator host (ships.map .text) reading =
      .ok (Truth.all true (ships.map fun ship => reading (Host.shipStatus host ship))).toValue := by
  rw [everyShip, textsFrom_map]
  rfl

end MissionScript.Query
