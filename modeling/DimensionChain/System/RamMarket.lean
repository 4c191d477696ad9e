import DimensionChain.System.State
import DimensionChain.Token.Contract

/-!
# The market for memory

The constructor of the contract opens the market as soon as there are core tokens. The actions
trade with it, and keep the bytes and the tokens that went through it in the global state. An
action that reads a market that is not there fails.
-/

namespace DimensionChain.System

open DimensionChain.Config System.Config

def GlobalState.freeRam (g : GlobalState) : UInt64 := g.maxRamSize - g.totalRamBytesReserved

def ramFee (amount : Int64) : Int64 := (amount + 199) / 200

namespace SystemState
variable {Key : Type}

section Actions
variable (s : SystemState Key)

def construct (token : Token.TokenState) : Result (SystemState Key) :=
  match s.rammarket with
  | some _ => pure s
  | none => do
    let systemTokenSupply ← token.getSupply (Symbol.name coreSymbol)
    if 0 < systemTokenSupply.amount then
      pure { s with
        rammarket := some
          ⟨⟨100000000000000, ramcoreSymbol⟩, ⟨s.gstate.freeRam.toInt64, ramSymbol⟩,
            ⟨systemTokenSupply.amount / 1000, coreSymbol⟩⟩ }
    else pure s

def getMarket (message : String) : Result ExchangeState :=
  match s.rammarket with
  | none => .error ⟨.eosioAssertMessage, message⟩
  | some market => .ok market

def changeRam (account : AccountName) (res : UserResources) (bytes : Int64) :
    Result (SystemState Key) := do
  let row : UserResources := { res with ramBytes := res.ramBytes + bytes }
  let s ← s.setResourceLimits account row.ramBytes row.netWeight row.cpuWeight
  pure { s with userres := s.userres.set account row }

def buyram (p : Pricing) (env : Env) (payer receiver : AccountName) (quant : Asset) :
    Result (SystemState Key) := do
  requireAuth env payer
  eosioAssert (0 < quant.amount) "must purchase a positive amount"
  let fee := ramFee quant.amount
  let quantAfterFee : Asset := ⟨quant.amount - fee, quant.symbol⟩
  let s := s.sendAsset payer ramAccount quantAfterFee "buy ram"
  let s := if 0 < fee then s.sendAsset payer ramfeeAccount ⟨fee, quant.symbol⟩ "ram fee" else s
  let market ← s.getMarket "ram market does not exist"
  let (bytesOut, market) ← market.convert p quantAfterFee ramSymbol
  eosioAssert (0 < bytesOut.amount) "must reserve a positive amount"
  let s : SystemState Key := { s with
    rammarket := some market
    gstate.totalRamBytesReserved := s.gstate.totalRamBytesReserved + bytesOut.amount.toUInt64
    gstate.totalRamStake := s.gstate.totalRamStake + quantAfterFee.amount }
  s.changeRam receiver ((s.userres.find? receiver).getD ⟨0, 0, 0⟩) bytesOut.amount

def buyrambytes (p : Pricing) (env : Env) (payer receiver : AccountName) (bytes : UInt32) :
    Result (SystemState Key) := do
  let tmp ← s.getMarket "ram market does not exist"
  let (eosout, _) ← tmp.convert p ⟨bytes.toUInt64.toInt64, ramSymbol⟩ coreSymbol
  s.buyram p env payer receiver eosout

def sellram (p : Pricing) (env : Env) (account : AccountName) (bytes : Int64) :
    Result (SystemState Key) := do
  requireAuth env account
  eosioAssert (0 < bytes) "cannot sell negative byte"
  let res ← getRow s.userres account "no resource row"
  eosioAssert (bytes ≤ res.ramBytes) "insufficient quota"
  let market ← s.getMarket "cannot pass end iterator to modify"
  let sold ← Asset.make bytes ramSymbol
  let (tokensOut, market) ← market.convert p sold coreSymbol
  eosioAssert (1 < tokensOut.amount) "token amount received from selling ram is too low"
  let s : SystemState Key := { s with
    rammarket := some market
    gstate.totalRamBytesReserved := s.gstate.totalRamBytesReserved - bytes.toUInt64
    gstate.totalRamStake := s.gstate.totalRamStake - tokensOut.amount }
  eosioAssert (0 ≤ s.gstate.totalRamStake) "error, attempt to unstake more tokens than previously staked"
  let s ← s.changeRam account res (-bytes)
  let s := s.sendAsset ramAccount account tokensOut "sell ram"
  let fee := ramFee tokensOut.amount
  pure (if 0 < fee then s.send account ramfeeAccount fee "sell ram fee" else s)

def setram (env : Env) (maxRamSize : UInt64) : Result (SystemState Key) := do
  requireAuth env Config.systemAccountName
  eosioAssert (s.gstate.maxRamSize < maxRamSize) "ram may only be increased"
  eosioAssert (maxRamSize < 1024 * 1024 * 1024 * 1024 * 1024) "ram size is unrealistic"
  eosioAssert (s.gstate.totalRamBytesReserved < maxRamSize) "attempt to set max below reserved"
  let delta := maxRamSize.toInt64 - s.gstate.maxRamSize.toInt64
  let market ← s.getMarket "cannot pass end iterator to modify"
  pure { s with
    rammarket := some { market with base.amount := market.base.amount + delta }
    gstate.maxRamSize := maxRamSize }

end Actions

variable {s s' : SystemState Key} {p : Pricing} {env : Env} {payer receiver : AccountName}
  {account : AccountName} {bytes : Int64}

@[simp] lemma getMarket_ok_iff {message : String} {market : ExchangeState} :
    s.getMarket message = .ok market ↔ s.rammarket = some market := by
  unfold getMarket
  cases s.rammarket with
  | none => simp
  | some found => simp

lemma construct_ok {token : Token.TokenState} (h : s.construct token = .ok s') :
    s' = { s with rammarket := s'.rammarket } ∧ (s.rammarket ≠ none → s' = s) := by
  unfold construct at h
  cases hmarket : s.rammarket with
  | some market =>
    rw [hmarket] at h
    cases h
    exact ⟨rfl, fun _ => rfl⟩
  | none =>
    rw [hmarket] at h
    refine ⟨?_, fun hne => absurd rfl hne⟩
    obtain ⟨supply, h⟩ := ok_after h
    split at h
    · cases h
      rfl
    · cases h
      rfl

lemma changeRam_ok {res : UserResources} (h : s.changeRam account res bytes = .ok s') :
    s' = { s with
      userres := s.userres.set account { res with ramBytes := res.ramBytes + bytes }
      resourceLimits :=
        s.resourceLimits.set account ⟨res.ramBytes + bytes, res.netWeight, res.cpuWeight⟩ } := by
  obtain ⟨s₁, hlimits, h⟩ := bind_ok_iff.mp h
  obtain rfl := setResourceLimits_ok hlimits
  cases h
  rfl

lemma buyram_ok {quant : Asset} (h : s.buyram p env payer receiver quant = .ok s') :
    ∃ market market' bytesOut res, s.rammarket = some market ∧
      market.convert p ⟨quant.amount - ramFee quant.amount, quant.symbol⟩ ramSymbol =
        .ok (bytesOut, market') ∧
      0 < bytesOut.amount ∧ res = (s.userres.find? receiver).getD ⟨0, 0, 0⟩ ∧
      s' = { s with
        rammarket := some market'
        gstate.totalRamBytesReserved := s.gstate.totalRamBytesReserved + bytesOut.amount.toUInt64
        gstate.totalRamStake := s.gstate.totalRamStake + (quant.amount - ramFee quant.amount)
        userres := s.userres.set receiver { res with ramBytes := res.ramBytes + bytesOut.amount }
        resourceLimits := s.resourceLimits.set receiver
          ⟨res.ramBytes + bytesOut.amount, res.netWeight, res.cpuWeight⟩
        transfers := s.transfers ++
          (⟨payer, ramAccount, ⟨quant.amount - ramFee quant.amount, quant.symbol⟩, "buy ram"⟩ ::
            if 0 < ramFee quant.amount then
              [⟨payer, ramfeeAccount, ⟨ramFee quant.amount, quant.symbol⟩, "ram fee"⟩]
            else []) } := by
  obtain ⟨_, h⟩ := ok_after h
  obtain ⟨_, h⟩ := ok_after h
  obtain ⟨market, hmarket, h⟩ := bind_ok_iff.mp h
  obtain ⟨⟨bytesOut, market'⟩, hconvert, h⟩ := bind_ok_iff.mp h
  obtain ⟨_, hpos, hram⟩ := bind_ok_iff.mp h
  have hram := changeRam_ok hram
  rw [getMarket_ok_iff] at hmarket
  by_cases hfee : 0 < ramFee quant.amount
  · rw [if_pos hfee] at hmarket hram
    refine ⟨market, market', bytesOut, _, hmarket, hconvert, eosioAssert_ok_iff.mp hpos, rfl, ?_⟩
    rw [hram, if_pos hfee]
    simp only [sendAsset, List.append_assoc, List.singleton_append]
  rw [if_neg hfee] at hmarket hram
  refine ⟨market, market', bytesOut, _, hmarket, hconvert, eosioAssert_ok_iff.mp hpos, rfl, ?_⟩
  rw [hram, if_neg hfee]
  rfl

lemma buyrambytes_ok {bytes : UInt32} (h : s.buyrambytes p env payer receiver bytes = .ok s') :
    ∃ market market' eosout, s.rammarket = some market ∧
      market.convert p ⟨bytes.toUInt64.toInt64, ramSymbol⟩ coreSymbol =
        .ok (eosout, market') ∧ s.buyram p env payer receiver eosout = .ok s' := by
  obtain ⟨market, hmarket, h⟩ := bind_ok_iff.mp h
  obtain ⟨⟨eosout, market'⟩, hconvert, h⟩ := bind_ok_iff.mp h
  exact ⟨market, market', eosout, getMarket_ok_iff.mp hmarket, hconvert, h⟩

lemma sellram_ok (h : s.sellram p env account bytes = .ok s') :
    ∃ market market' tokensOut res, s.rammarket = some market ∧
      market.convert p ⟨bytes, ramSymbol⟩ coreSymbol = .ok (tokensOut, market') ∧
      1 < tokensOut.amount ∧ s.userres.find? account = some res ∧
      0 ≤ s.gstate.totalRamStake - tokensOut.amount ∧
      s' = { s with
        rammarket := some market'
        gstate.totalRamBytesReserved := s.gstate.totalRamBytesReserved - bytes.toUInt64
        gstate.totalRamStake := s.gstate.totalRamStake - tokensOut.amount
        userres := s.userres.set account { res with ramBytes := res.ramBytes + -bytes }
        resourceLimits := s.resourceLimits.set account
          ⟨res.ramBytes + -bytes, res.netWeight, res.cpuWeight⟩
        transfers := s.transfers ++
          (⟨ramAccount, account, tokensOut, "sell ram"⟩ ::
            if 0 < ramFee tokensOut.amount then
              [⟨account, ramfeeAccount, ⟨ramFee tokensOut.amount, coreSymbol⟩,
                "sell ram fee"⟩]
            else []) } := by
  obtain ⟨_, h⟩ := ok_after h
  obtain ⟨_, h⟩ := ok_after h
  obtain ⟨res, hres, h⟩ := bind_ok_iff.mp h
  obtain ⟨_, h⟩ := ok_after h
  obtain ⟨market, hmarket, h⟩ := bind_ok_iff.mp h
  obtain ⟨sold, hsold, h⟩ := bind_ok_iff.mp h
  obtain ⟨⟨tokensOut, market'⟩, hconvert, h⟩ := bind_ok_iff.mp h
  obtain ⟨_, hlow, h⟩ := bind_ok_iff.mp h
  obtain ⟨_, hstake, h⟩ := bind_ok_iff.mp h
  obtain ⟨s₁, hram, hsend⟩ := bind_ok_iff.mp h
  obtain ⟨-, -, rfl⟩ := Asset.make_ok_iff.mp hsold
  obtain rfl := changeRam_ok hram
  refine ⟨market, market', tokensOut, res, getMarket_ok_iff.mp hmarket, hconvert,
    eosioAssert_ok_iff.mp hlow, getRow_ok_iff.mp hres, eosioAssert_ok_iff.mp hstake, ?_⟩
  cases hsend
  by_cases hfee : 0 < ramFee tokensOut.amount
  · rw [if_pos hfee, if_pos hfee]
    simp only [send, sendAsset, List.append_assoc, List.singleton_append]
  · rw [if_neg hfee, if_neg hfee]
    rfl

lemma setram_ok {maxRamSize : UInt64} (h : s.setram env maxRamSize = .ok s') :
    ∃ market, s.rammarket = some market ∧
      s' = { s with
        rammarket := some { market with
          base.amount :=
            market.base.amount + (maxRamSize.toInt64 - s.gstate.maxRamSize.toInt64) }
        gstate.maxRamSize := maxRamSize } := by
  simp only [setram, bind_ok_iff] at h
  obtain ⟨_, -, _, -, _, -, _, -, market, hmarket, h⟩ := h
  cases h
  exact ⟨market, getMarket_ok_iff.mp hmarket, rfl⟩

end SystemState

end DimensionChain.System
