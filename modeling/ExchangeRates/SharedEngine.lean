import ExchangeRates.Engine.Query

namespace ExchangeRates

/-- A process that may share an engine. The first engine that is installed, or made when one is
first asked for, stays the one engine of the process. -/
structure SharedEngine (φ : Type) where
  environment : Environment
  /-- Whether tasks can run in the background. -/
  runtime : Bool
  /-- How many engines have been made; an engine's number tells it from the others. -/
  made : Nat
  /-- The shared engine and its number. -/
  shared : Option (Nat × Engine φ)

namespace SharedEngine

variable {φ : Type}

/-- A process that shares no engine yet. -/
def new (environment : Environment) (runtime : Bool) : SharedEngine φ :=
  ⟨environment, runtime, 0, none⟩

/-- Changes the environment of the process. -/
def setEnvironment (s : SharedEngine φ) (environment : Environment) : SharedEngine φ :=
  { s with environment, shared := s.shared.map fun (n, e) => (n, e.setEnvironment environment) }

/-- Shares an engine, unless one is shared already: then it is handed back. -/
def install (s : SharedEngine φ) (engine : Engine φ) : Except (Engine φ) Unit × SharedEngine φ :=
  match s.shared with
  | some _ => (.error engine, { s with made := s.made + 1 })
  | none => (.ok (), { s with made := s.made + 1, shared := some (s.made, engine) })

/-- An engine without feeds, with the settings and the lists of the environment. -/
def engineOf (environment : Environment) (runtime : Bool) : Except Fault (Engine φ) :=
  (Settings.ofEnvironment environment).map fun settings =>
    .new settings .environment [] [] environment runtime

/-- Asks for the shared engine. As long as its configuration is empty, this resolves it again. -/
def access (s : SharedEngine φ) : Except Fault (Nat × Engine φ) × SharedEngine φ :=
  match s.shared with
  | some (n, e) =>
    let e := if e.config.isEmpty then e.reconfigure else e
    (.ok (n, e), { s with shared := some (n, e) })
  | none =>
    match engineOf s.environment s.runtime with
    | .ok e => (.ok (s.made, e), { s with made := s.made + 1, shared := some (s.made, e) })
    | .error fault => (.error fault, s)

/-- Puts a later state of the shared engine in its place. -/
def update (s : SharedEngine φ) (engine : Engine φ) : SharedEngine φ :=
  { s with shared := s.shared.map fun (n, _) => (n, engine) }

end SharedEngine

end ExchangeRates
