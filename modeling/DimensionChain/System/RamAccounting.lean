import DimensionChain.System.Contracts
import DimensionChain.Token.Conservation

/-!
# The accounts of the market for memory

The market, the counters of the global state, the bytes of the accounts and the tokens of the
account for memory have to agree after every trade. The prices are arbitrary, and the counters and
the balances of the market agree as 64-bit integers. A purchase is paid in whatever asset it
names. In core tokens it keeps the accounts in order; the other assets that the market knows are
counted as core tokens all the same.
-/

namespace DimensionChain.System

open Option UInt64 SystemState DimensionChain.Symbol ExchangeState DimensionChain.Config System.Config

namespace ExchangeState
variable {p : Pricing} {m m' : ExchangeState} {input output : Asset}

structure Symbols (m : ExchangeState) : Prop where
  supply : m.supply.symbol = ramcoreSymbol
  base : m.base.symbol = ramSymbol
  quote : m.quote.symbol = coreSymbol

lemma Symbols.of_same (h : m.Symbols) (hsame : m.SameSymbols m') : m'.Symbols :=
  ⟨hsame.supply.trans h.supply, hsame.base.trans h.base, hsame.quote.trans h.quote⟩

lemma ramcore_ne_ram : ramcoreSymbol ≠ ramSymbol := by decide

lemma ramcore_ne_core : ramcoreSymbol ≠ coreSymbol := by decide

lemma ram_ne_core : ramSymbol ≠ coreSymbol := by decide

variable (h : m.Symbols) {target : Nat}
include h

lemma Round.leave_of_ne (hround : Round p m input target output m')
    (hne : output.symbol ≠ ramcoreSymbol) :
    ∃ c, target = (m.balance c).symbol ∧ output.symbol = (m.balance c).symbol ∧
      input.symbol = ramcoreSymbol ∧ Asset.AmountInRange output.amount ∧
      m' = { m with supply.amount := m.supply.amount - input.amount }.setBalance
        ((m.balance c).amount - output.amount) c := by
  cases hround with
  | enter c _ _ hto => exact absurd ((convertToExchange_ok hto).1.trans h.supply) hne
  | leave c hsell htarget hfrom =>
    obtain ⟨hrange, hsymbol, hm⟩ := convertFromExchange_ok hfrom
    exact ⟨c, htarget, hsymbol, hsell.trans h.supply, hrange, hm⟩

/-- What a conversion out of the market's assets does: a single round from the token of the market,
or one round into it and one out of it that cancel in the supply. -/
lemma convert_cases (htarget : target ≠ ramcoreSymbol)
    (hok : m.convert p input target = .ok (output, m')) :
    (∃ c, input.symbol = ramcoreSymbol ∧ target = (m.balance c).symbol ∧
        m' = { m with supply.amount := m.supply.amount - input.amount }.setBalance
          ((m.balance c).amount - output.amount) c) ∨
      ∃ c d m₁, input.symbol = (m.balance c).symbol ∧ target = (m.balance d).symbol ∧
        output.symbol = (m.balance d).symbol ∧ Asset.AmountInRange output.amount ∧
        m₁ = m.setBalance ((m.balance c).amount + input.amount) c ∧
        m' = m₁.setBalance ((m₁.balance d).amount - output.amount) d := by
  rcases convert_ok hok with ⟨heq, hround⟩ | ⟨token, m₁, hfirst, hne, hsecond⟩
  · obtain ⟨c, hc, -, hsell, -, hm⟩ := hround.leave_of_ne h (heq ▸ htarget)
    exact .inl ⟨c, hsell, hc, hm⟩
  have hsymbols := h.of_same hfirst.sameSymbols
  have htoken : token.symbol = ramcoreSymbol := (hfirst.symbol hne).2.trans h.supply
  have hsold := (hfirst.symbol hne).1
  cases hfirst with
  | leave c hsell _ hfrom => exact absurd hsell hsold
  | enter c _ hinput hto =>
    obtain ⟨-, hm₁⟩ := convertToExchange_ok hto
    cases hsecond with
    | enter d hsell _ _ => exact absurd (htoken.trans hsymbols.supply.symm) hsell
    | leave d _ hd hfrom =>
      obtain ⟨hrange, hout, hm'⟩ := convertFromExchange_ok hfrom
      have hbalance : (m₁.balance d).symbol = (m.balance d).symbol := by
        cases d with
        | base => exact hsymbols.base.trans h.base.symm
        | quote => exact hsymbols.quote.trans h.quote.symm
      refine .inr ⟨c, d, m.setBalance ((m.balance c).amount + input.amount) c, hinput,
        hd.trans hbalance, hout.trans hbalance, hrange, rfl, ?_⟩
      -- the token is issued in the first round and taken back in the second
      have hsupply : m.supply.amount + token.amount - token.amount = m.supply.amount := by abel
      rw [hm', hm₁]
      cases c <;> cases d <;> simp only [setBalance, balance, hsupply]

lemma convert_to_ram (hok : m.convert p input ramSymbol = .ok (output, m')) :
    (input.symbol = coreSymbol ∧ m' = { m with
        base.amount := m.base.amount - output.amount
        quote.amount := m.quote.amount + input.amount }) ∨
      (input.symbol ≠ coreSymbol ∧ m'.quote = m.quote) := by
  rcases convert_cases h ramcore_ne_ram.symm hok with ⟨c, hsell, htarget, hm⟩ |
    ⟨c, d, m₁, hinput, htarget, -, -, hm₁, hm⟩
  · refine .inr ⟨by rw [hsell]; exact ramcore_ne_core, ?_⟩
    cases c with
    | base => rw [hm]; rfl
    | quote => exact absurd (htarget.trans h.quote) ram_ne_core
  cases d with
  | quote => exact absurd (htarget.trans h.quote) ram_ne_core
  | base =>
    cases c with
    | base =>
      refine .inr ⟨by rw [hinput]; exact fun heq => ram_ne_core (h.base.symm.trans heq), ?_⟩
      rw [hm, hm₁]
      rfl
    | quote =>
      refine .inl ⟨hinput.trans h.quote, ?_⟩
      rw [hm, hm₁]
      rfl

lemma convert_to_core {bytes : Int64}
    (hok : m.convert p ⟨bytes, ramSymbol⟩ coreSymbol = .ok (output, m')) :
    output.symbol = coreSymbol ∧ Asset.AmountInRange output.amount ∧ m' = { m with
      base.amount := m.base.amount + bytes
      quote.amount := m.quote.amount - output.amount } := by
  rcases convert_cases h ramcore_ne_core.symm hok with ⟨c, hsell, -, -⟩ |
    ⟨c, d, m₁, hinput, htarget, hout, hrange, hm₁, hm⟩
  · exact absurd hsell.symm ramcore_ne_ram
  cases d with
  | base => exact absurd (htarget.trans h.base).symm ram_ne_core
  | quote =>
    cases c with
    | quote => exact absurd (hinput.trans h.quote) ram_ne_core
    | base =>
      refine ⟨hout.trans h.quote, hrange, ?_⟩
      rw [hm, hm₁]
      rfl

end ExchangeState

def ResourceAction.IsTrade : ResourceAction → Prop
  | .buyram _ _ _ => True
  | .buyrambytes _ _ _ => True
  | .sellram _ _ => True
  | .setram _ => True
  | _ => False

def ResourceAction.InCore : ResourceAction → Prop
  | .buyram _ _ quant => quant.symbol = coreSymbol
  | _ => True

namespace ContractState
variable {Key : Type} {c c' : ContractState Key} {p : Pricing} {label : Call × ResourceAction}
  {token : Token.TokenState} {m : ExchangeState}

/-- The market, the counters, the accounts and the tokens agree; `supply` and `quote` are what the
market was opened with. -/
structure RamAccounted (supply quote : Int64) (c : ContractState Key) : Prop where
  conserved : c.token.Conserved
  market : ∃ m, c.system.rammarket = some m ∧ m.Symbols ∧ m.supply.amount = supply ∧
    m.base.amount = c.system.gstate.freeRam.toInt64 ∧
    m.quote.amount = quote + c.system.gstate.totalRamStake
  reserved : c.system.gstate.totalRamBytesReserved.toInt64 =
    c.system.userres.total fun _ res => res.ramBytes
  stake : 0 ≤ c.system.gstate.totalRamStake.toInt
  covered : c.system.gstate.totalRamStake.toInt ≤
    c.token.balance ramAccount (Symbol.name coreSymbol)

section Trades
variable {supply quote : Int64} {s : SystemState Key}

lemma ramAccount_ne_ramfeeAccount : ramAccount ≠ ramfeeAccount := by decide

lemma fee_spares_market {payer : AccountName} (hne : ramAccount ≠ payer) {quantity : Asset}
    {memo : String} {c : Prop} [Decidable c] :
    ∀ args ∈ (if c then [(⟨payer, ramfeeAccount, quantity, memo⟩ : Transfer)] else []),
      ramAccount ≠ args.sender ∧ ramAccount ≠ args.receiver := by
  intro args hargs
  split at hargs
  · rw [List.mem_singleton.mp hargs]
    exact ⟨hne, ramAccount_ne_ramfeeAccount⟩
  · cases hargs

lemma total_ramBytes (m : FlatMap AccountName UserResources) (account : AccountName)
    (bytes : Int64) :
    (m.set account { (m.find? account).getD ⟨0, 0, 0⟩ with
        ramBytes := ((m.find? account).getD ⟨0, 0, 0⟩).ramBytes + bytes }).total
      (fun _ res => res.ramBytes) = m.total (fun _ res => res.ramBytes) + bytes := by
  rw [FlatMap.total_set_sub]
  cases m.find? account with
  | none =>
    simp only [getD_none, map_none]
    abel
  | some res =>
    simp only [getD_some, map_some]
    abel

variable (h : c.RamAccounted supply quote)
include h

lemma RamAccounted.trade {bytes amount : Int64}
    (hconserved : c'.token.Conserved) (hm : c.system.rammarket = some m)
    (hmarket : c'.system.rammarket = some { m with
      base.amount := m.base.amount - bytes, quote.amount := m.quote.amount + amount })
    (hmax : c'.system.gstate.maxRamSize = c.system.gstate.maxRamSize)
    (hreserved : c'.system.gstate.totalRamBytesReserved.toInt64 =
      c.system.gstate.totalRamBytesReserved.toInt64 + bytes)
    (hbytes : c'.system.userres.total (fun _ res => res.ramBytes) =
      c.system.userres.total (fun _ res => res.ramBytes) + bytes)
    (hstake : c'.system.gstate.totalRamStake = c.system.gstate.totalRamStake + amount)
    (hnonneg : 0 ≤ amount.toInt ∨ 0 ≤ (c.system.gstate.totalRamStake + amount).toInt)
    (hbalance : c'.token.balance ramAccount (Symbol.name coreSymbol) =
      c.token.balance ramAccount (Symbol.name coreSymbol) + amount.toInt) :
    c'.RamAccounted supply quote := by
  obtain ⟨m₀, hm₀, hsymbols, hsupply, hbase, hquote⟩ := h.market
  rw [hm] at hm₀
  cases hm₀
  -- the stake is covered by balances, before and after, so that the sum does not wrap
  have hstake₀ := h.stake
  have hcovered := h.covered
  have hlimit := h.conserved.balance_le ramAccount (name coreSymbol)
  have hlimit' := hconserved.balance_le ramAccount (name coreSymbol)
  have hbalance' := hconserved.balance_nonneg ramAccount (name coreSymbol)
  have hexact : (c.system.gstate.totalRamStake + amount).toInt =
      c.system.gstate.totalRamStake.toInt + amount.toInt :=
    toInt_add_of_fits (by omega) (by omega)
  refine ⟨hconserved, ⟨_, hmarket, ?_, hsupply, ?_, ?_⟩, ?_, ?_, ?_⟩
  · exact ⟨hsymbols.supply, hsymbols.base, hsymbols.quote⟩
  · change m.base.amount - bytes = _
    unfold GlobalState.freeRam at hbase ⊢
    rw [hmax, toInt64_sub, hreserved, hbase, toInt64_sub]
    abel
  · change m.quote.amount + amount = _
    rw [hstake, hquote]
    abel
  · rw [hreserved, hbytes, h.reserved]
  · rw [hstake]
    omega
  · rw [hstake, hbalance, hexact]
    omega

variable (hs : s = { c.system with transfers := [] }) {call : Call}
include hs

lemma RamAccounted.buyram_iff {payer receiver : AccountName}
    {quant : Asset} (hok : s.buyram p call.env payer receiver quant = .ok c'.system)
    (hinline : Token.TokenState.runInline call.isAccount c'.system.transfers c.token = .ok c'.token) :
    c'.RamAccounted supply quote ↔ quant.symbol = coreSymbol := by
  obtain ⟨m, market', bytesOut, res, hm, hconvert, -, hres, heq⟩ := buyram_ok hok
  rw [hs] at hm hres heq
  obtain ⟨m₀, hm₀, hsymbols, -, -, hquote⟩ := h.market
  cases hm₀.symm.trans hm
  have htransfers : c'.system.transfers =
      ⟨payer, ramAccount, ⟨quant.amount - ramFee quant.amount, quant.symbol⟩, "buy ram"⟩ ::
        if 0 < ramFee quant.amount then
          [⟨payer, ramfeeAccount, ⟨ramFee quant.amount, quant.symbol⟩, "ram fee"⟩]
        else [] := by
    rw [heq]
    rfl
  rw [htransfers] at hinline
  obtain ⟨t₁, hfirst, hrest⟩ := bind_ok_iff.mp hinline
  obtain ⟨hne, hpos, -, hbalance⟩ := h.conserved.balance_transfer hfirst
  have hstake : c'.system.gstate.totalRamStake =
      c.system.gstate.totalRamStake + (quant.amount - ramFee quant.amount) := by rw [heq]
  have hmarket : c'.system.rammarket = some market' := by rw [heq]
  rcases convert_to_ram hsymbols hconvert with ⟨hcore, hmarket'⟩ | ⟨hcore, hkept⟩
  · refine iff_of_true ?_ hcore
    have hconserved := (h.conserved.transfer hfirst).2
    have hpaid : c'.token.balance ramAccount (name coreSymbol) =
        c.token.balance ramAccount (name coreSymbol) +
          (quant.amount - ramFee quant.amount).toInt := by
      rw [hconserved.balance_runInline_of_others hrest (fee_spares_market hne.symm), hbalance,
        if_neg fun hq => hne hq.1.symm, if_pos ⟨rfl, by rw [hcore]⟩, sub_zero]
    refine h.trade (hconserved.runInline hrest).2 hm (hmarket.trans (congrArg some hmarket'))
      (by rw [heq]) ?_ ?_ hstake (.inl hpos.le) hpaid
    · rw [heq]
      rw [toInt64_add, Int64.toInt64_toUInt64]
    · rw [heq, hres]
      exact total_ramBytes c.system.userres receiver bytesOut.amount
  refine iff_of_false ?_ hcore
  -- the payment is counted as a stake but is not in the balance
  intro hafter
  obtain ⟨m', hm', -, -, -, hquote'⟩ := hafter.market
  cases hmarket.symm.trans hm'
  rw [hstake, hkept, hquote, ← add_assoc] at hquote'
  have hzero : quant.amount - ramFee quant.amount = 0 := left_eq_add.mp hquote'
  change 0 < (quant.amount - ramFee quant.amount).toInt at hpos
  rw [hzero] at hpos
  exact absurd hpos (by decide)

lemma RamAccounted.sellram {account : AccountName}
    {bytes : Int64} (hok : s.sellram p call.env account bytes = .ok c'.system)
    (hinline : Token.TokenState.runInline call.isAccount c'.system.transfers c.token = .ok c'.token) :
    c'.RamAccounted supply quote := by
  obtain ⟨m, market', tokensOut, res, hm, hconvert, hlow, hres, hnonneg, heq⟩ :=
    sellram_ok hok
  rw [hs] at hm hres hnonneg heq
  obtain ⟨m₀, hm₀, hsymbols, -, -, -⟩ := h.market
  cases hm₀.symm.trans hm
  obtain ⟨hcore, hrange, hmarket'⟩ := convert_to_core hsymbols hconvert
  have htransfers : c'.system.transfers =
      ⟨ramAccount, account, tokensOut, "sell ram"⟩ ::
        if 0 < ramFee tokensOut.amount then
          [⟨account, ramfeeAccount, ⟨ramFee tokensOut.amount, coreSymbol⟩, "sell ram fee"⟩]
        else [] := by
    rw [heq]
    rfl
  rw [htransfers] at hinline
  obtain ⟨t₁, hfirst, hrest⟩ := bind_ok_iff.mp hinline
  obtain ⟨hne, hpos, -, hbalance⟩ := h.conserved.balance_transfer hfirst
  have hconserved := (h.conserved.transfer hfirst).2
  have hneg : (-tokensOut.amount).toInt = -tokensOut.amount.toInt := Asset.toInt_neg_of_inRange hrange
  have hpaid : c'.token.balance ramAccount (name coreSymbol) =
      c.token.balance ramAccount (name coreSymbol) +
        (-tokensOut.amount).toInt := by
    rw [hconserved.balance_runInline_of_others hrest (fee_spares_market hne), hbalance,
      if_pos ⟨rfl, by rw [hcore]⟩,
      if_neg fun hq => hne hq.1, add_zero, hneg, sub_eq_add_neg]
  have hmarket : c'.system.rammarket = some { m with
      base.amount := m.base.amount - -bytes, quote.amount := m.quote.amount + -tokensOut.amount } := by
    rw [heq, hmarket', sub_neg_eq_add, sub_eq_add_neg]
  refine h.trade (hconserved.runInline hrest).2 hm hmarket (by rw [heq]) ?_ ?_ ?_ (.inr ?_) hpaid
  · rw [heq]
    rw [toInt64_sub, Int64.toInt64_toUInt64, sub_eq_add_neg]
  · have hrow : res = (c.system.userres.find? account).getD ⟨0, 0, 0⟩ := by
      rw [hres]
      rfl
    rw [heq, hrow]
    exact total_ramBytes c.system.userres account (-bytes)
  · rw [heq]
    exact sub_eq_add_neg _ _
  · rw [← sub_eq_add_neg]
    exact Int64.le_iff_toInt_le.mp hnonneg

lemma RamAccounted.setram {maxRamSize : UInt64} (hok : s.setram call.env maxRamSize = .ok c'.system)
    (hinline : Token.TokenState.runInline call.isAccount c'.system.transfers c.token = .ok c'.token) :
    c'.RamAccounted supply quote := by
  obtain ⟨m, hm, heq⟩ := setram_ok hok
  rw [hs] at hm heq
  obtain ⟨m₀, hm₀, hsymbols, hsupply, hbase, hquote⟩ := h.market
  cases hm₀.symm.trans hm
  have htoken : c.token = c'.token := by
    rw [heq] at hinline
    exact Except.ok.inj hinline
  have hmarket : c'.system.rammarket = some { m with
      base.amount :=
        m.base.amount + (maxRamSize.toInt64 - c.system.gstate.maxRamSize.toInt64) } := by
    rw [heq]
  refine ⟨htoken ▸ h.conserved, ⟨_, hmarket, ?_, hsupply, ?_, ?_⟩, ?_, ?_, ?_⟩
  · exact ⟨hsymbols.supply, hsymbols.base, hsymbols.quote⟩
  · rw [heq]
    change m.base.amount + _ = (maxRamSize - c.system.gstate.totalRamBytesReserved).toInt64
    unfold GlobalState.freeRam at hbase
    rw [hbase, toInt64_sub, toInt64_sub]
    abel
  · rw [heq]
    exact hquote
  · rw [heq]
    exact h.reserved
  · rw [heq]
    exact h.stake
  · rw [heq, ← htoken]
    exact h.covered

omit hs

lemma RamAccounted.step_iff (htrade : label.2.IsTrade) (hstep : Step p c label c') :
    c'.RamAccounted supply quote ↔ label.2.InCore := by
  obtain ⟨call, action⟩ := label
  obtain ⟨s, hconstruct, hact, hinline, -⟩ := exec_ok hstep.2
  obtain ⟨m, hm, -⟩ := h.market
  have hs : s = { c.system with transfers := [] } := by
    obtain ⟨hframe, hsame⟩ := constructed_ok hconstruct
    rw [hframe, hsame (by rw [hm]; exact some_ne_none m)]
  cases action with
  | buyram payer receiver quant => exact h.buyram_iff hs hact hinline
  | buyrambytes payer receiver bytes =>
    refine iff_of_true ?_ trivial
    obtain ⟨m₁, market', eosout, hm₁, hconvert, hbuy⟩ := buyrambytes_ok hact
    obtain ⟨m₂, hm₂, hsymbols, -⟩ := h.market
    rw [hs] at hm₁
    cases hm₂.symm.trans hm₁
    exact (h.buyram_iff hs hbuy hinline).mpr (convert_to_core hsymbols hconvert).1
  | sellram account bytes => exact iff_of_true (h.sellram hs hact hinline) trivial
  | setram maxRamSize => exact iff_of_true (h.setram hs hact hinline) trivial
  | delegatebw => exact htrade.elim
  | undelegatebw => exact htrade.elim
  | refund => exact htrade.elim
  | deferredRefund => exact htrade.elim
  | newaccount => exact htrade.elim

end Trades

structure NoRam (s : SystemState Key) : Prop where
  reserved : s.gstate.totalRamBytesReserved = 0
  stake : s.gstate.totalRamStake = 0
  row : ∀ account res, s.userres.find? account = some res → res.ramBytes = 0

lemma ramAccounted_opened {s₀ s₁ : SystemState Key}
    (hconserved : token.Conserved) (hnone : s₀.rammarket = none) (hfresh : NoRam s₀)
    (hopen : s₀.construct token = .ok s₁) (hm : s₁.rammarket = some m) (now : Time) :
    (⟨s₁, token, now⟩ : ContractState Key).RamAccounted m.supply.amount m.quote.amount := by
  unfold construct at hopen
  rw [hnone] at hopen
  obtain ⟨core, hopen⟩ := ok_after hopen
  split at hopen
  · cases hopen
    cases hm
    refine ⟨hconserved, ⟨_, rfl, ⟨rfl, rfl, rfl⟩, rfl, rfl, ?_⟩, ?_, ?_, ?_⟩
    · rw [hfresh.stake, add_zero]
    · rw [hfresh.reserved, FlatMap.total_eq_zero hfresh.row]
      rfl
    · rw [hfresh.stake]
      exact le_rfl
    · rw [hfresh.stake]
      exact hconserved.balance_nonneg _ _
  · cases hopen
    rw [hnone] at hm
    cases hm

/-- From the opening of the market on, the accounts are in order in every state of a run of trades
exactly when every purchase in it names core tokens, and a single trade keeps them in order
exactly then. -/
theorem ram_accounted_iff {s₀ s₁ : SystemState Key} {token : Token.TokenState} {m : ExchangeState}
    {now : Time} {ts : List (Token.TokenState × (Token.Env × Token.TokenAction) × Token.TokenState)}
    {es : List (ContractState Key × (Call × ResourceAction) × ContractState Key)}
    (htoken : Steps Token.TokenState.Step {} ts token) (hnone : s₀.rammarket = none)
    (hfresh : NoRam s₀) (hopen : s₀.construct token = .ok s₁) (hm : s₁.rammarket = some m)
    (hrun : Steps (fun c label c' => label.2.IsTrade ∧ Step p c label c') ⟨s₁, token, now⟩ es c) :
    ((∀ e ∈ es, e.2.2.RamAccounted m.supply.amount m.quote.amount) ↔ ∀ e ∈ es, e.2.1.2.InCore) ∧
      ∀ label c', c.RamAccounted m.supply.amount m.quote.amount → label.2.IsTrade →
        Step p c label c' → (c'.RamAccounted m.supply.amount m.quote.amount ↔ label.2.InCore) := by
  have hconserved := Token.TokenState.conserved_of_steps htoken
  refine ⟨?_, fun label c' hc htrade hstep => hc.step_iff htrade hstep⟩
  exact hrun.throughout_iff (Q := fun _ => True)
    (P := RamAccounted m.supply.amount m.quote.amount) (C := fun _ label => label.2.InCore)
    (fun _ _ => trivial) (fun _ hc hstep => hc.step_iff hstep.1 hstep.2) trivial
    (ramAccounted_opened hconserved hnone hfresh hopen hm now)

instance : (action : ResourceAction) → Decidable action.IsTrade
  | .buyram _ _ _ => .isTrue trivial
  | .buyrambytes _ _ _ => .isTrue trivial
  | .sellram _ _ => .isTrue trivial
  | .setram _ => .isTrue trivial
  | .delegatebw _ _ _ _ _ => .isFalse id
  | .undelegatebw _ _ _ _ => .isFalse id
  | .refund _ => .isFalse id
  | .deferredRefund _ => .isFalse id
  | .newaccount _ _ => .isFalse id

def trade? (p : Pricing) (c : ContractState Key) (label : Call × ResourceAction) :
    Option (ContractState Key) :=
  if label.2.IsTrade then c.step? p label else none

lemma isTrade_of_trade? (h : c.trade? p label = some c') : label.2.IsTrade ∧ Step p c label c' := by
  unfold trade? at h
  by_cases htrade : label.2.IsTrade
  · rw [if_pos htrade] at h
    exact ⟨htrade, step_of_step? h⟩
  · rw [if_neg htrade] at h
    cases h

def ramCurrencySteps : List (Token.Env × Token.TokenAction) :=
  [(⟨[Token.selfAccount], fun _ => true⟩, .create staker (coreTokens 4000000000000)),
    (⟨[staker], fun _ => true⟩, .issue staker (coreTokens 2000000000000) ""),
    (⟨[Token.selfAccount], fun _ => true⟩, .create staker ⟨1000000, ramSymbol⟩),
    (⟨[staker], fun _ => true⟩, .issue staker ⟨1000000, ramSymbol⟩ "")]

/-- The tokens, the market of a new chain, and its state after purchases of the account. -/
def purchases (quants : List Asset) :
    Option (Token.TokenState × SystemState Nat × ContractState Nat) :=
  (Steps.replay (fun t label => (Token.TokenState.apply t label.1 label.2).toOption) {}
      ramCurrencySteps).bind fun token =>
    ((({} : SystemState Nat).construct token).toOption).bind fun s =>
      (Steps.replay (trade? evenPricing) ⟨s, token, 0⟩
        (quants.map fun quant => (callAt 1 staker, .buyram staker staker quant))).map
          fun c => (token, s, c)

lemma purchases_run {quants : List Asset} {s : SystemState Nat}
    {c : ContractState Nat} (h : purchases quants = some (token, s, c)) :
    ∃ ts es, Steps Token.TokenState.Step {} ts token ∧
      ({} : SystemState Nat).construct token = .ok s ∧
      Steps (fun c label c' => label.2.IsTrade ∧ Step evenPricing c label c') ⟨s, token, 0⟩ es c ∧
      es.map (fun e => e.2.1) =
        quants.map fun quant => (callAt 1 staker, .buyram staker staker quant) := by
  obtain ⟨token', htoken, h⟩ := bind_eq_some_iff.mp h
  obtain ⟨s', hopen, h⟩ := bind_eq_some_iff.mp h
  obtain ⟨c', hreplay, heq⟩ := map_eq_some_iff.mp h
  cases heq
  obtain ⟨ts, hfunding, -⟩ := Steps.of_replay ok_of_toOption htoken
  obtain ⟨es, hrun, hlabels⟩ := Steps.of_replay isTrade_of_trade? hreplay
  exact ⟨ts, es, hfunding, ok_of_toOption hopen, hrun, hlabels⟩

def ramFigures (r : Token.TokenState × SystemState Nat × ContractState Nat) :
    Option (Int64 × Int64) × Option (Int64 × Int64) × Int64 × Int64 :=
  (r.2.1.rammarket.map fun m => (m.base.amount, m.quote.amount),
    r.2.2.system.rammarket.map fun m => (m.base.amount, m.quote.amount),
    r.2.2.system.gstate.freeRam.toInt64, r.2.2.system.gstate.totalRamStake)

lemma purchases_replay : (purchases [⟨1000, ramSymbol⟩]).map ramFigures =
      some (some (68719476736, 2000000000), some (68719476736, 2000000000), 68719475741, 995) ∧
    (purchases [coreTokens 1000]).map ramFigures =
      some (some (68719476736, 2000000000), some (68719475741, 2000000995), 68719475741, 995) := by
  decide +kernel

lemma noRam_start : NoRam ({} : SystemState Key) :=
  ⟨rfl, rfl, fun _ _ h => by cases h⟩

/-- A purchase in the currency by the name of the market's memory: the bytes are reserved without
leaving the market, and the payment is counted without reaching it. -/
theorem ram_paid_in_ram : ∃ token, ∃ s : SystemState Nat, ∃ c m m' ts es,
    Steps Token.TokenState.Step {} ts token ∧ ({} : SystemState Nat).construct token = .ok s ∧
      s.rammarket = some m ∧
      Steps (fun c label c' => label.2.IsTrade ∧ Step evenPricing c label c') ⟨s, token, 0⟩ es c ∧
      c.system.rammarket = some m' ∧ m'.base.amount ≠ c.system.gstate.freeRam.toInt64 ∧
      m'.quote.amount ≠ m.quote.amount + c.system.gstate.totalRamStake := by
  obtain ⟨⟨token, s, c⟩, hpurchases, hfigures⟩ := map_eq_some_iff.mp purchases_replay.1
  obtain ⟨ts, es, hfunding, hopen, hrun, -⟩ := purchases_run hpurchases
  simp only [ramFigures, Prod.mk.injEq, map_eq_some_iff] at hfigures
  obtain ⟨⟨m, hm, -, hquote⟩, ⟨m', hm', hbase', hquote'⟩, hfree, hstake⟩ := hfigures
  refine ⟨token, s, c, m, m', ts, es, hfunding, hopen, hm, hrun, hm', ?_, ?_⟩
  · rw [hbase', hfree]
    decide
  · rw [hquote', hquote, hstake]
    decide

/-- The same purchase in core tokens. -/
theorem ram_accounted_in_core : ∃ token, ∃ s : SystemState Nat, ∃ c m es,
    ({} : SystemState Nat).construct token = .ok s ∧ s.rammarket = some m ∧
    Steps (fun c label c' => label.2.IsTrade ∧ Step evenPricing c label c') ⟨s, token, 0⟩ es c ∧
    es.map (fun e => e.2.1) = [(callAt 1 staker, .buyram staker staker (coreTokens 1000))] ∧
    c.system.gstate.totalRamStake = 995 ∧ c.RamAccounted m.supply.amount m.quote.amount := by
  obtain ⟨⟨token, s, c⟩, hpurchases, hfigures⟩ := map_eq_some_iff.mp purchases_replay.2
  obtain ⟨ts, es, hfunding, hopen, hrun, hlabels⟩ := purchases_run hpurchases
  simp only [ramFigures, Prod.mk.injEq, map_eq_some_iff] at hfigures
  obtain ⟨⟨m, hm, -⟩, -, -, hstake⟩ := hfigures
  have hiff := (ram_accounted_iff hfunding rfl noRam_start hopen hm hrun).1
  have hall := hiff.mpr (by
    intro e he
    have hlabel := List.mem_map_of_mem (f := fun e => e.2.1) he
    rw [hlabels] at hlabel
    rw [List.mem_singleton.mp hlabel]
    rfl)
  have hopened := ramAccounted_opened (Token.TokenState.conserved_of_steps hfunding) rfl noRam_start
    hopen hm 0
  exact ⟨token, s, c, m, es, hopen, hm, hrun, hlabels, hstake, hrun.of_visited hopened hall⟩

end ContractState

end DimensionChain.System
