import ExchangeRates.Json
import Mathlib.Data.List.Forall2

namespace ExchangeRates.Json

mutual

/-- Two values are the same but for the order of members. -/
inductive Same : Json → Json → Prop where
  | refl (j : Json) : Same j j
  | array {items others : List Json} : SameItems items others → Same (.array items) (.array others)
  | object {members aligned others : List (String × Json)} : members.Perm aligned →
      SameMembers aligned others → Same (.object members) (.object others)

/-- The items of two arrays are the same, one by one. -/
inductive SameItems : List Json → List Json → Prop where
  | nil : SameItems [] []
  | cons {item other : Json} {items others : List Json} : Same item other →
      SameItems items others → SameItems (item :: items) (other :: others)

/-- The members of two objects are the same, one by one. -/
inductive SameMembers : List (String × Json) → List (String × Json) → Prop where
  | nil : SameMembers [] []
  | cons {key : String} {value other : Json} {members others : List (String × Json)} :
      Same value other → SameMembers members others →
        SameMembers ((key, value) :: members) ((key, other) :: others)

end

theorem SameMembers.refl (members : List (String × Json)) : SameMembers members members := by
  induction members with
  | nil => exact .nil
  | cons m members ih => exact .cons (.refl m.2) ih

theorem Same.of_perm {members others : List (String × Json)} (h : members.Perm others) :
    Same (.object members) (.object others) :=
  .object h (.refl others)

theorem SameItems.of_forall₂ {α : Type} {same : α → α → Prop} {write : α → Json}
    (h : ∀ a b, same a b → Same (write a) (write b)) {as bs : List α}
    (hsame : List.Forall₂ same as bs) : SameItems (as.map write) (bs.map write) := by
  induction hsame with
  | nil => exact .nil
  | cons hab _ ih => exact .cons (h _ _ hab) ih

end ExchangeRates.Json
