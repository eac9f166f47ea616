import ExchangeRates.Text.Uppercase

namespace ExchangeRates

/-- Trims a spelling and uppercases it. -/
def normalForm (spelling : String) : String :=
  String.ofList (Text.uppercase (Text.trim spelling.toList))

theorem normalForm_normalForm (spelling : String) :
    normalForm (normalForm spelling) = normalForm spelling := by
  unfold normalForm
  rw [String.toList_ofList, Text.trim_eq_self (Text.trimmed_uppercase (Text.trimmed_trim _)),
    Text.uppercase_uppercase]

/-- The symbol of an asset, a token or a currency. It is kept in normal form, so that two spellings
that differ only in case or surrounding white space are one symbol. -/
structure Symbol where
  text : String
  normal : normalForm text = text
deriving DecidableEq

namespace Symbol

/-- The symbol that a spelling stands for. -/
def ofText (spelling : String) : Symbol where
  text := normalForm spelling
  normal := normalForm_normalForm spelling

theorem ext_text {a b : Symbol} (h : a.text = b.text) : a = b := by
  cases a
  cases b
  simp_all

/-- A symbol's own text stands for it. -/
theorem ofText_text (a : Symbol) : ofText a.text = a :=
  ext_text a.normal

def ether : Symbol := ofText "ETH"

def wrappedEther : Symbol := ofText "WETH"

def dollar : Symbol := ofText "USD"

/-- Whether two symbols are ether and wrapped ether, in either order. Wrapped ether is redeemable
one to one, so the two have the same value whatever rates are quoted. -/
def isEtherPair (a b : Symbol) : Bool :=
  a.text == "ETH" && b.text == "WETH" || a.text == "WETH" && b.text == "ETH"

/-- Symbols compare by code points. -/
instance : Ord Symbol where
  compare a b := compareOfLessAndEq a.text b.text

end Symbol

end ExchangeRates
