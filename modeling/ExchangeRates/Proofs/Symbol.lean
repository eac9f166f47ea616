import ExchangeRates.Proofs.Json.Quoted
import ExchangeRates.Symbol.Format

namespace ExchangeRates

/-- A text without white space at its ends, of characters that are their own uppercase. -/
structure Text.IsNormal (cs : List Char) : Prop where
  trimmed : Text.Trimmed cs
  upper : ∀ c ∈ cs, Text.upperChar c = [c]

theorem isNormal_normalForm (spelling : String) : Text.IsNormal (normalForm spelling).toList := by
  rw [normalForm, String.toList_ofList]
  exact ⟨Text.trimmed_uppercase (Text.trimmed_trim _), fun _ => Text.upperChar_of_mem_uppercase⟩

theorem normalForm_eq_self_iff {text : String} :
    normalForm text = text ↔ Text.IsNormal text.toList := by
  constructor
  · intro h
    rw [← h]
    exact isNormal_normalForm text
  · intro h
    rw [normalForm, Text.trim_eq_self h.trimmed, Text.uppercase_eq_self h.upper,
      String.ofList_toList]

namespace Symbol

theorem isNormal_text (a : Symbol) : Text.IsNormal a.text.toList :=
  normalForm_eq_self_iff.mp a.normal

/-- A symbol is read back from the text of its JSON. -/
theorem ofText?_toJson_bind_ofJson? (a : Symbol) :
    (Json.ofText? a.toJson.compactText).bind ofJson? = some a := by
  rw [toJson, Json.ofText?_compactText_text, Option.bind_some]
  exact congrArg some (ofText_text a)

/-- One of two symbols is ether and the other is wrapped ether. -/
def EtherPair (a b : Symbol) : Prop :=
  a.text = "ETH" ∧ b.text = "WETH" ∨ a.text = "WETH" ∧ b.text = "ETH"

instance (a b : Symbol) : Decidable (EtherPair a b) := inferInstanceAs (Decidable (_ ∨ _))

theorem isEtherPair_iff {a b : Symbol} : a.isEtherPair b = true ↔ EtherPair a b := by
  simp [isEtherPair, EtherPair]

theorem etherPair_iff {a b : Symbol} :
    EtherPair a b ↔ a = ether ∧ b = wrappedEther ∨ a = wrappedEther ∧ b = ether := by
  have htext (a b : Symbol) : a.text = b.text ↔ a = b := ⟨ext_text, congrArg text⟩
  have hether : ether.text = "ETH" := by decide
  have hwrapped : wrappedEther.text = "WETH" := by decide
  rw [EtherPair, ← hether, ← hwrapped, htext, htext, htext, htext]

theorem not_etherPair_self (a : Symbol) : ¬ EtherPair a a := by
  rw [etherPair_iff]
  rintro (⟨rfl, h⟩ | ⟨rfl, h⟩) <;> exact absurd h (by decide)

/-- Neither form of ether is worth as much as a dollar by its name alone. -/
theorem not_etherPair_dollar (a : Symbol) : ¬ EtherPair a dollar := by
  rw [etherPair_iff]
  rintro (⟨-, h⟩ | ⟨-, h⟩) <;> exact absurd h (by decide)

end Symbol

end ExchangeRates
