import CodeAtlas.Models.Basic
import Std.Data.TreeMap

/-!
What the models were used for and what it cost. Every successful call adds to its model's account; prices
are looked up by the model's full name and then by what follows its last slash.
-/
namespace CodeAtlas.Models

/-- The price of a token in dollars. -/
structure Price where
  input : Float
  output : Float
  cached : Option Float := none

namespace Price

/-- Prices for a million tokens. -/
def perMillion (input output cached : Float) : Price :=
  ⟨input / 1000000.0, output / 1000000.0, some (cached / 1000000.0)⟩

/-- What some tokens cost; cached ones have a price of their own where there is one. -/
def cost (p : Price) (u : TokenUsage) : Float :=
  let cached := TokenUsage.count (min u.cached u.input)
  let uncached := TokenUsage.count u.input - cached
  uncached * p.input + cached * p.cached.getD p.input + TokenUsage.count u.output * p.output

/-- Encode a price. -/
def encode (p : Price) : Json :=
  .obj [("input_cost_per_token", .float p.input), ("output_cost_per_token", .float p.output),
    ("cached_input_cost_per_token", Json.optional .float p.cached)]

/-- Decode a price. -/
def decode? (j : Json) : Option Price := do
  let r ← j.record? ["input_cost_per_token", "output_cost_per_token", "cached_input_cost_per_token"]
  return {
    input := ← r.need "input_cost_per_token" Json.float?
    output := ← r.need "output_cost_per_token" Json.float?
    cached := ← r.maybeOrElse "cached_input_cost_per_token" Json.float? }

end Price

/-- Prices by model. -/
abbrev PriceList := List (String × Price)

/-- The prices that are known without being told. -/
def knownPrices : PriceList := [
  ("gpt-4.1", .perMillion 2.00 8.00 0.50), ("gpt-4.1-mini", .perMillion 0.40 1.60 0.10),
  ("gpt-4.1-nano", .perMillion 0.10 0.40 0.025), ("gpt-4o", .perMillion 2.50 10.00 1.25),
  ("gpt-4o-mini", .perMillion 0.15 0.60 0.075),
  ("text-embedding-3-small", .perMillion 0.02 0.0 0.02),
  ("text-embedding-3-large", .perMillion 0.13 0.0 0.13)]

/-- The calls made to one model. -/
structure Account where
  calls : Nat := 0
  input : Nat := 0
  output : Nat := 0
  cached : Nat := 0
  cost : Float := 0.0

/-- Encode an account. -/
def Account.encode (a : Account) : Json :=
  .obj [("calls", .nat a.calls), ("input_tokens", .nat a.input), ("output_tokens", .nat a.output),
    ("cached_tokens", .nat a.cached), ("cost_usd", .float a.cost)]

/-- Add a call to an account. -/
def Account.add (a : Account) (t : TokenUsage) (cost : Float) : Account where
  calls := a.calls + 1
  input := a.input + t.input
  output := a.output + t.output
  cached := a.cached + t.cached
  cost := a.cost + cost

/-- The accounts of all models. -/
structure Usage where
  prices : PriceList := knownPrices
  accounts : Std.TreeMap String Account := {}

namespace Usage

/-- What follows the last slash of a name. -/
def shortName (model : String) : String :=
  String.ofList ((model.toList.reverse.takeWhile (· ≠ '/')).reverse)

/-- The price of a model. -/
def price? (u : Usage) (model : String) : Option Price :=
  (u.prices.lookup model).or (u.prices.lookup (shortName model))

/-- Add a call to the account of a model. -/
def record (u : Usage) (model : String) (t : TokenUsage) : Usage :=
  let cost := ((u.price? model).map (·.cost t)).getD 0.0
  { u with accounts := u.accounts.alter model fun a => some ((a.getD {}).add t cost) }

/-- The account of a model. -/
def account? (u : Usage) (model : String) : Option Account := u.accounts[model]?

/-- All accounts by model. -/
def snapshot (u : Usage) : List (String × Account) := u.accounts.toList

/-- What all calls cost together; nothing at all is minus zero. -/
def totalCost (u : Usage) : Float := u.snapshot.foldl (fun sum (_, a) => sum + a.cost) (-0.0)

/-- Encode all accounts by model. -/
def encode (u : Usage) : Json := Json.list (fun (model, a) => .arr [.str model, a.encode]) u.snapshot

/-- What all calls cost together, with nine places. -/
def costText (u : Usage) : String := Decimal.fixed 9 (0.0 + u.totalCost)

end Usage
end CodeAtlas.Models
