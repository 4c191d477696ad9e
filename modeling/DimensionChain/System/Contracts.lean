import DimensionChain.System.NameAuction
import DimensionChain.System.RamMarket

/-!
# The system contract and the token contract

An action on resources runs in the system contract after its constructor has, and then the
transfers that it has sent run in the token contract; if one of them fails, so does the action. A
step is an action at a time that is not before the last one. The refund that a deferred
transaction carries out takes that transaction with it.
-/

namespace DimensionChain.System

structure Call where
  env : Env
  isAccount : AccountName → Bool
  authorized : ∀ account ∈ env.auths, isAccount account = true

inductive ResourceAction where
  | delegatebw (source receiver : AccountName) (netQuantity cpuQuantity : Asset) (transfer : Bool)
  | undelegatebw (source receiver : AccountName) (netQuantity cpuQuantity : Asset)
  | refund (owner : AccountName)
  | deferredRefund (owner : AccountName)
  | buyram (payer receiver : AccountName) (quant : Asset)
  | buyrambytes (payer receiver : AccountName) (bytes : UInt32)
  | sellram (account : AccountName) (bytes : Int64)
  | setram (maxRamSize : UInt64)
  | newaccount (creator newact : AccountName)
  deriving DecidableEq, Repr

namespace SystemState
variable {Key : Type}

/-- The deferred transaction that calls `refund`, from the time for which it is scheduled. -/
def deferredRefund (s : SystemState Key) (env : Env) (owner : AccountName) :
    Result (SystemState Key) := do
  let delayUntil ← getRow s.deferredRefunds owner "unknown transaction"
  eosAssert (delayUntil ≤ env.now) .transaction "this transaction isn't ready"
  let s ← s.refund env owner
  pure { s with deferredRefunds := s.deferredRefunds.erase owner }

def resource (s : SystemState Key) (p : Pricing) (env : Env) :
    ResourceAction → Result (SystemState Key)
  | .delegatebw source receiver net cpu transfer => s.delegatebw env source receiver net cpu transfer
  | .undelegatebw source receiver net cpu => s.undelegatebw env source receiver net cpu
  | .refund owner => s.refund env owner
  | .deferredRefund owner => s.deferredRefund env owner
  | .buyram payer receiver quant => s.buyram p env payer receiver quant
  | .buyrambytes payer receiver bytes => s.buyrambytes p env payer receiver bytes
  | .sellram account bytes => s.sellram p env account bytes
  | .setram maxRamSize => s.setram env maxRamSize
  | .newaccount creator newact => s.newaccount creator newact

lemma deferredRefund_ok {s s' : SystemState Key} {env : Env} {owner : AccountName}
    (h : s.deferredRefund env owner = .ok s') : ∃ s₁, s.refund env owner = .ok s₁ ∧
      s' = { s₁ with deferredRefunds := s₁.deferredRefunds.erase owner } := by
  simp only [deferredRefund, bind_ok_iff] at h
  obtain ⟨delayUntil, -, _, -, s₁, hrefund, h⟩ := h
  cases h
  exact ⟨s₁, hrefund, rfl⟩

end SystemState

structure ContractState (Key : Type) where
  system : SystemState Key := {}
  token : Token.TokenState := {}
  now : Time := 0

namespace ContractState
variable {Key : Type}

def constructed (c : ContractState Key) : Result (SystemState Key) :=
  { c.system with transfers := [] }.construct c.token

def exec (c : ContractState Key) (p : Pricing) (call : Call) (action : ResourceAction) :
    Result (ContractState Key) := do
  let s ← c.constructed
  let s ← s.resource p call.env action
  let token ← Token.TokenState.runInline call.isAccount s.transfers c.token
  pure ⟨s, token, call.env.now⟩

def Step (p : Pricing) (c : ContractState Key) (label : Call × ResourceAction)
    (c' : ContractState Key) : Prop :=
  c.now ≤ label.1.env.now ∧ c.exec p label.1 label.2 = .ok c'

def step? (p : Pricing) (c : ContractState Key) (label : Call × ResourceAction) :
    Option (ContractState Key) :=
  if c.now ≤ label.1.env.now then (c.exec p label.1 label.2).toOption else none

variable {c c' : ContractState Key} {p : Pricing} {call : Call} {action : ResourceAction}

lemma step_of_step? {label : Call × ResourceAction} (h : c.step? p label = some c') :
    Step p c label c' :=
  ok_of_guarded h

lemma constructed_ok {s : SystemState Key} (h : c.constructed = .ok s) :
    s = { c.system with transfers := [], rammarket := s.rammarket } ∧
      (c.system.rammarket ≠ none → s.rammarket = c.system.rammarket) := by
  obtain ⟨hframe, hsame⟩ := SystemState.construct_ok h
  refine ⟨hframe, fun hne => ?_⟩
  rw [hsame hne]

lemma exec_ok (h : c.exec p call action = .ok c') :
    ∃ s, c.constructed = .ok s ∧ s.resource p call.env action = .ok c'.system ∧
      Token.TokenState.runInline call.isAccount c'.system.transfers c.token = .ok c'.token ∧
      c'.now = call.env.now := by
  simp only [exec, bind_ok_iff] at h
  obtain ⟨s, hconstruct, s', hact, token, hinline, h⟩ := h
  cases h
  exact ⟨s, hconstruct, hact, hinline, rfl⟩

end ContractState

def staker : AccountName := Name.stringToName ['s', 't', 'a', 'k', 'e', 'r']

def friend : AccountName := Name.stringToName ['f', 'r', 'i', 'e', 'n', 'd']

def coreTokens (amount : Int64) : Asset := ⟨amount, Config.coreSymbol⟩

def heldBy (owner : AccountName) (amount : Int64) : Token.TokenState where
  stats := FlatMap.empty.set (Symbol.name Config.coreSymbol)
    ⟨coreTokens amount, coreTokens Asset.maxAmount, owner⟩
  accounts := FlatMap.empty.set (toLex (owner, Symbol.name Config.coreSymbol)) (coreTokens amount)

def callAt (now : Time) (account : AccountName) : Call where
  env := ⟨now, [account], 0, 0⟩
  isAccount _ := true
  authorized _ _ := rfl

def evenPricing : Pricing := ⟨fun _ _ amount => amount, fun _ _ amount => amount⟩

end DimensionChain.System
