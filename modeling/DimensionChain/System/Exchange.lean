import DimensionChain.Contract.Library

/-!
# The relay between two assets

The market for memory holds the balances of two connectors and the supply of a token of its own. A
conversion goes from one connector into that token, or out of it into a connector. The prices are
arbitrary functions of the three numbers that the source reads, in place of powers in floating
point that are truncated to 64 bits.
-/

namespace DimensionChain.System

namespace Config

def ramSymbol : Nat := 82 * 2 ^ 8 + 65 * 2 ^ 16 + 77 * 2 ^ 24

def ramcoreSymbol : Nat :=
  4 + 82 * 2 ^ 8 + 65 * 2 ^ 16 + 77 * 2 ^ 24 + 67 * 2 ^ 32 + 79 * 2 ^ 40 + 82 * 2 ^ 48 + 69 * 2 ^ 56

end Config

structure Pricing where
  issued : Int64 → Int64 → Int64 → Int64
  out : Int64 → Int64 → Int64 → Int64

structure ExchangeState where
  supply : Asset
  base : Asset
  quote : Asset
  deriving DecidableEq, Repr

inductive Connector where
  | base
  | quote
  deriving DecidableEq, Repr

namespace ExchangeState

def balance (es : ExchangeState) : Connector → Asset
  | .base => es.base
  | .quote => es.quote

def setBalance (es : ExchangeState) (amount : Int64) : Connector → ExchangeState
  | .base => { es with base.amount := amount }
  | .quote => { es with quote.amount := amount }

section Convert
variable (p : Pricing) (es : ExchangeState)

def convertToExchange (c : Connector) (input : Asset) : Result (Asset × ExchangeState) := do
  let issued :=
    p.issued es.supply.amount ((es.balance c).amount + input.amount) input.amount
  let after :=
    { es with supply.amount := es.supply.amount + issued }.setBalance
      ((es.balance c).amount + input.amount) c
  let result ← Asset.make issued es.supply.symbol
  pure (result, after)

def convertFromExchange (c : Connector) (input : Asset) : Result (Asset × ExchangeState) := do
  eosioAssert (input.symbol = es.supply.symbol) "unexpected asset symbol input"
  let out := p.out (es.supply.amount - input.amount) (es.balance c).amount input.amount
  let after :=
    { es with supply.amount := es.supply.amount - input.amount }.setBalance
      ((es.balance c).amount - out) c
  let result ← Asset.make out (es.balance c).symbol
  pure (result, after)

def convertRound (input : Asset) (target : Nat) : Result (Asset × ExchangeState) :=
  if input.symbol ≠ es.supply.symbol then
    if input.symbol = es.base.symbol then es.convertToExchange p .base input
    else if input.symbol = es.quote.symbol then es.convertToExchange p .quote input
    else .error ⟨.eosioAssertMessage, "invalid sell"⟩
  else
    if target = es.base.symbol then es.convertFromExchange p .base input
    else if target = es.quote.symbol then es.convertFromExchange p .quote input
    else .error ⟨.eosioAssertMessage, "invalid conversion"⟩

end Convert

/-- The recursion of `convert`, with as many further rounds as it is given. -/
def convertLoop (p : Pricing) : Nat → ExchangeState → Asset → Nat →
    Result (Asset × ExchangeState)
  | 0, es, input, target => es.convertRound p input target
  | fuel + 1, es, input, target => do
    let (output, es) ← es.convertRound p input target
    if target ≠ output.symbol then convertLoop p fuel es output target else pure (output, es)

/-- `convert`. A second round is always the last one. -/
def convert (p : Pricing) (es : ExchangeState) (input : Asset) (target : Nat) :
    Result (Asset × ExchangeState) := convertLoop p 1 es input target

variable {p : Pricing} {es es' : ExchangeState} {input output : Asset} {target : Nat}
  {c : Connector}

structure SameSymbols (es es' : ExchangeState) : Prop where
  supply : es'.supply.symbol = es.supply.symbol
  base : es'.base.symbol = es.base.symbol
  quote : es'.quote.symbol = es.quote.symbol

lemma sameSymbols_setBalance (es : ExchangeState) (supply amount : Int64) (c : Connector) :
    es.SameSymbols ({ es with supply.amount := supply }.setBalance amount c) := by
  cases c with
  | base => exact ⟨rfl, rfl, rfl⟩
  | quote => exact ⟨rfl, rfl, rfl⟩

lemma convertToExchange_ok (h : es.convertToExchange p c input = .ok (output, es')) :
    output.symbol = es.supply.symbol ∧
      es' = { es with supply.amount := es.supply.amount + output.amount }.setBalance
        ((es.balance c).amount + input.amount) c := by
  obtain ⟨result, hmake, h⟩ := bind_ok_iff.mp h
  obtain ⟨-, -, rfl⟩ := Asset.make_ok_iff.mp hmake
  cases h
  exact ⟨rfl, rfl⟩

lemma convertFromExchange_ok (h : es.convertFromExchange p c input = .ok (output, es')) :
    Asset.AmountInRange output.amount ∧ output.symbol = (es.balance c).symbol ∧
      es' = { es with supply.amount := es.supply.amount - input.amount }.setBalance
        ((es.balance c).amount - output.amount) c := by
  obtain ⟨_, h⟩ := ok_after h
  obtain ⟨result, hmake, h⟩ := bind_ok_iff.mp h
  obtain ⟨hrange, -, rfl⟩ := Asset.make_ok_iff.mp hmake
  cases h
  exact ⟨hrange, rfl, rfl⟩

/-- A round is into the market's token from a connector, or out of it to the target. -/
inductive Round (p : Pricing) (es : ExchangeState) (input : Asset) (target : Nat)
    (output : Asset) (es' : ExchangeState) : Prop where
  | enter (c : Connector) : input.symbol ≠ es.supply.symbol → input.symbol = (es.balance c).symbol →
      es.convertToExchange p c input = .ok (output, es') → Round p es input target output es'
  | leave (c : Connector) : input.symbol = es.supply.symbol → target = (es.balance c).symbol →
      es.convertFromExchange p c input = .ok (output, es') → Round p es input target output es'

lemma round_of_ok (h : es.convertRound p input target = .ok (output, es')) :
    Round p es input target output es' := by
  unfold convertRound at h
  split at h
  · rename_i hsell
    split at h
    · rename_i hbase
      exact .enter .base hsell hbase h
    split at h
    · rename_i hquote
      exact .enter .quote hsell hquote h
    · cases h
  rename_i hsell
  rw [not_not] at hsell
  split at h
  · rename_i hbase
    exact .leave .base hsell hbase h
  split at h
  · rename_i hquote
    exact .leave .quote hsell hquote h
  · cases h

lemma Round.sameSymbols (h : Round p es input target output es') : es.SameSymbols es' := by
  cases h with
  | enter c _ _ h =>
    rw [(convertToExchange_ok h).2]
    exact sameSymbols_setBalance es _ _ c
  | leave c _ _ h =>
    rw [(convertFromExchange_ok h).2.2]
    exact sameSymbols_setBalance es _ _ c

lemma Round.symbol (h : Round p es input target output es') (hne : target ≠ output.symbol) :
    input.symbol ≠ es.supply.symbol ∧ output.symbol = es.supply.symbol := by
  cases h with
  | enter c hsell _ h => exact ⟨hsell, (convertToExchange_ok h).1⟩
  | leave c _ htarget h => exact absurd (htarget.trans (convertFromExchange_ok h).2.1.symm) hne

lemma convert_ok (h : es.convert p input target = .ok (output, es')) :
    (target = output.symbol ∧ Round p es input target output es') ∨
      ∃ token es₁, Round p es input target token es₁ ∧ target ≠ token.symbol ∧
        Round p es₁ token target output es' := by
  obtain ⟨⟨token, es₁⟩, hround, h⟩ := bind_ok_iff.mp h
  change (if target ≠ token.symbol then convertLoop p 0 es₁ token target else pure (token, es₁)) =
    .ok (output, es') at h
  by_cases hne : target ≠ token.symbol
  · rw [if_pos hne] at h
    exact .inr ⟨token, es₁, round_of_ok hround, hne, round_of_ok h⟩
  · rw [if_neg hne] at h
    cases h
    exact .inl ⟨not_not.mp hne, round_of_ok hround⟩

end ExchangeState

end DimensionChain.System
