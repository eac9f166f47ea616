import ExchangeRates.Engine.Lifecycle

namespace ExchangeRates.Engine

variable {φ : Type}

/-- The name of the source that holds the merged rates. -/
def mergedSource : String := "config"

/-- The name of the source that holds the rates of the default feed. -/
def defaultFeedSource : String := "default"

/-- The rates of a source. The source named `default` stands for the default feed; any other name is
first looked for among the feeds that have answered, and `config` stands for the merged rates if no
feed has that name. -/
def ratesFrom (e : Engine φ) (source : String) : Except RateError Rates :=
  if source = defaultFeedSource then
    match e.book.prices? e.settings.defaultFeed with
    | some rates => .ok rates
    | none => .error (.unknownSource e.settings.defaultFeed)
  else
    match e.book.prices? source with
    | some rates => .ok rates
    | none => if source = mergedSource then .ok e.book.merged else .error (.unknownSource source)

/-- What is reported when the rates of a source are asked for: that the default feed has none. -/
def ratesEvents (e : Engine φ) (source : String) : List LogEvent :=
  if source = defaultFeedSource ∧ (e.book.prices? e.settings.defaultFeed).isNone then
    [.defaultFeedUnknown e.settings.defaultFeed]
  else []

/-- Asks for the rates of a source. -/
def askRates (e : Engine φ) (source : String) : Except RateError Rates × Engine φ :=
  (e.ratesFrom source, e.note (e.ratesEvents source))

/-- The value in dollars of `price` units of an asset, given the rates: an asset that needs no
conversion, or has no rate, keeps its price. -/
def adjusted (config : RateConfig) (rates : Rates) (asset : Symbol) (price : Float) :
    Float :=
  match rates.get? asset with
  | some rate => if config.requires asset then rate * price else price
  | none => price

/-- The value of an amount of one asset in another, given the rates. -/
def convertedAmount (rates : Rates) (amount : Float) (source target : Symbol) :
    Except RateError Float :=
  if source.isEtherPair target then .ok amount
  else
    let sourceRate := (rates.get? source).getD noRate
    let targetRate := (rates.get? target).getD noRate
    if sourceRate.isNaN || targetRate.isNaN then .error (.rateNotKnown source target)
    else .ok (amount * sourceRate / targetRate)

variable [PriceFeed φ]

/-- Asks for the value in dollars of `price` units of an asset. -/
def askDollars (e : Engine φ) (asset : String) (price : Float) (source : Option String) :
    Except RateError Float × Engine φ :=
  let (rates, e) := e.startIfIdle.askRates (source.getD mergedSource)
  (rates.map fun rates => adjusted e.config rates (.ofText asset) price, e)

/-- Asks for the value of an amount of one asset in another. -/
def askConversion (e : Engine φ) (amount : Float) (fromAsset toAsset : String)
    (source : Option String) : Except RateError Float × Engine φ :=
  let (rates, e) := e.startIfIdle.askRates (source.getD mergedSource)
  (rates.bind fun rates => convertedAmount rates amount (.ofText fromAsset) (.ofText toAsset), e)

end ExchangeRates.Engine
