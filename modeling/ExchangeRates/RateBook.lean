import ExchangeRates.Config.RateConfig
import ExchangeRates.Log

namespace ExchangeRates

/-- What a feed answers when it is asked for its prices. -/
abbrev Answer := Except RateError Rates

/-- The prices of one feed, and when they were captured. -/
structure Snapshot where
  prices : Rates
  takenAt : Instant

/-- The latest prices of every feed, and the table merged from them. -/
structure RateBook where
  /-- The latest prices of every feed that has answered, by its name. -/
  snapshots : Table String Snapshot
  /-- The current rate of every configured asset. -/
  merged : Rates

/-- An asset whose feed has no usable price for it. -/
structure Miss where
  asset : Symbol
  feed : String
deriving DecidableEq

/-- What a refresh has done. -/
structure RefreshResult where
  /-- The number of rates written. -/
  updated : Nat
  /-- Lookups that found no usable price. -/
  missing : List Miss
  /-- The feeds that failed. -/
  failed : List String

/-- Whether a lookup has failed; a failed feed is no error of the configuration. -/
def RefreshResult.hasMisses (o : RefreshResult) : Bool := !o.missing.isEmpty

/-- Whether a price may become a rate: it is finite and greater than zero. -/
def isValidPrice (price : Float) : Bool := price.isFinite && 0.0 < price

namespace RateBook

def empty : RateBook := ⟨.empty, .empty⟩

/-- Replaces the merged table by the default rates of a configuration. -/
def reset (book : RateBook) (config : RateConfig) : RateBook :=
  { book with merged := config.initialRates }

/-- The prices of a feed. -/
def prices? (book : RateBook) (feed : String) : Option Rates :=
  (book.snapshots.get? feed).map Snapshot.prices

/-- The prices of every feed. -/
def pricesByFeed (book : RateBook) : Table String Rates :=
  book.snapshots.map fun _ s => s.prices

/-- The rate of an asset. -/
def rate? (book : RateBook) (asset : Symbol) : Option Float := book.merged.get? asset

/-- How long ago the prices of a feed were captured. -/
def age? (book : RateBook) (now : Instant) (feed : String) : Option Duration :=
  (book.snapshots.get? feed).map fun s => ⟨now - s.takenAt⟩

/-- When the most recent prices were captured. -/
def lastCapture? (book : RateBook) : Option Instant :=
  (book.snapshots.entries.map fun e => e.2.takenAt).max?

/-- Keeps the prices of the feeds that answered. -/
def capture (now : Instant) (book : RateBook) (answers : List (String × Answer)) : RateBook :=
  { book with
    snapshots := answers.foldl (fun snapshots a =>
      match a.2 with
      | .ok prices => snapshots.insert a.1 ⟨prices, now⟩
      | .error _ => snapshots) book.snapshots }

/-- The names of the feeds that answered. -/
def answered (answers : List (String × Answer)) : List String :=
  answers.filterMap fun a => match a.2 with
    | .ok _ => some a.1
    | .error _ => none

/-- The feeds that failed, and how. -/
def failures (answers : List (String × Answer)) : List (String × RateError) :=
  answers.filterMap fun a => match a.2 with
    | .ok _ => none
    | .error e => some (a.1, e)

/-- The assets of a configuration that a feed is the source of. -/
def sourcedFrom (config : RateConfig) (feed : String) : List Symbol :=
  (config.global.entries.filter fun e => e.2.isFrom feed).map Prod.fst

/-- The usable price that a table has for an asset. -/
def validPrice? (prices : Rates) (asset : Symbol) : Option Float :=
  (prices.get? asset).filter isValidPrice

/-- The merged table while it is being written, and the account of it. -/
structure Merge where
  merged : Rates
  updated : Nat
  missing : List Miss

/-- Looks one asset up in the prices of a feed. -/
def Merge.lookup (prices : Rates) (feed : String) (m : Merge) (asset : Symbol) : Merge :=
  match validPrice? prices asset with
  | some price => { m with merged := m.merged.insert asset price, updated := m.updated + 1 }
  | none => { m with missing := m.missing ++ [⟨asset, feed⟩] }

/-- Looks up all assets that a feed is the source of. -/
def Merge.feed (book : RateBook) (config : RateConfig) (m : Merge) (feed : String) : Merge :=
  match book.prices? feed with
  | some prices => (sourcedFrom config feed).foldl (Merge.lookup prices feed) m
  | none => m

/-- Goes through the answers of all feeds: captures them, and merges what the configuration takes
from them. All prices are in place before any rate changes. Fails, and changes nothing, if there are
feeds and none of them answered. -/
def refresh (now : Instant) (book : RateBook) (config : RateConfig)
    (answers : List (String × Answer)) : Except RateError (RateBook × RefreshResult) :=
  let names := answered answers
  if !answers.isEmpty && names.isEmpty then .error .noAnswer
  else
    let captured := book.capture now answers
    let m := names.foldl (Merge.feed captured config) ⟨captured.merged, 0, []⟩
    .ok ({ captured with merged := m.merged },
      ⟨m.updated, m.missing, (failures answers).map Prod.fst⟩)

/-- What the log says of the feeds that failed. -/
def failureEvents (answers : List (String × Answer)) : List LogEvent :=
  (failures answers).map fun f => .feedFailed f.1 f.2

end RateBook

end ExchangeRates
