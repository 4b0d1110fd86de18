import LayeredConfig.Ascription
import LayeredConfig.Proofs.Fields

namespace LayeredConfig.Node

mutual

def Everywhere (p : Node → Prop) : Node → Prop
  | .mapping fields => p (.mapping fields) ∧ FieldsEverywhere p fields
  | .sequence items => p (.sequence items) ∧ ItemsEverywhere p items
  | .conditional condition value => p (.conditional condition value) ∧ value.Everywhere p
  | n => p n

def ItemsEverywhere (p : Node → Prop) : List Node → Prop
  | [] => True
  | item :: rest => item.Everywhere p ∧ ItemsEverywhere p rest

def FieldsEverywhere (p : Node → Prop) : List (String × Node) → Prop
  | [] => True
  | (_, value) :: rest => value.Everywhere p ∧ FieldsEverywhere p rest

end

def SettledHere : Node → Prop
  | .mapping fields => (Fields.keys fields).Nodup ∧
      ∀ key ∈ Fields.keys fields, Ascription.read? key = none
  | .expression _ | .tag _ _ | .conditional _ _ => False
  | _ => True

abbrev Settled (n : Node) : Prop := n.Everywhere SettledHere

def StripsHere : Node → Prop
  | .mapping fields => ((Fields.keys fields).map Ascription.strip).Nodup ∧
      ∀ key ∈ Fields.keys fields, Ascription.read? (Ascription.strip key) = none
  | _ => True

def ApartHere : Node → Prop
  | .mapping fields =>
    ((Fields.keys fields).map fun key => Ascription.strip (Ascription.strip key)).Nodup
  | _ => True

lemma ApartHere.once {fields : List (String × Node)} (h : ApartHere (.mapping fields)) :
    ((Fields.keys fields).map Ascription.strip).Nodup := by
  apply List.Nodup.of_map Ascription.strip
  rw [List.map_map]
  exact h

lemma ApartHere.distinct {fields : List (String × Node)} (h : ApartHere (.mapping fields)) :
    (Fields.keys fields).Nodup := h.of_map _

def UnnestedHere : Node → Prop
  | .conditional _ (.conditional _ _) => False
  | _ => True

end LayeredConfig.Node
