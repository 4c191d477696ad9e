import DimensionChain.Base.FlatMapSum
import DimensionChain.Base.Steps
import DimensionChain.Contract.Library

/-!
# The token contract

The statistics of a currency are stored under the letters of its symbol, without the precision,
and a balance under its owner and these letters. Payers of memory and notifications are left
out. An action carries out the transfer that it sends before it is over.
-/

namespace DimensionChain.Token

open DimensionChain.Symbol

def selfAccount : AccountName :=
  Name.stringToName ['e', 'o', 'n', 'i', 'o', '.', 't', 'o', 'k', 'e', 'n']

structure CurrencyStats where
  supply : Asset
  maxSupply : Asset
  issuer : AccountName
  deriving DecidableEq, Repr

structure TokenState where
  stats : FlatMap Nat CurrencyStats := .empty
  accounts : FlatMap (AccountName ×ₗ Nat) Asset := .empty

structure Env where
  auths : List AccountName
  isAccount : AccountName → Bool

inductive TokenAction where
  | create (issuer : AccountName) (maximumSupply : Asset)
  | issue (receiver : AccountName) (quantity : Asset) (memo : String)
  | transfer (args : Transfer)

namespace TokenState

section Actions
variable (t : TokenState)

def subBalance (owner : AccountName) (value : Asset) : Result TokenState := do
  let balance ← getRow t.accounts (toLex (owner, name value.symbol)) "no balance object found"
  eosioAssert (value.amount ≤ balance.amount) "overdrawn balance"
  if balance.amount = value.amount then
    pure { t with accounts := t.accounts.erase (toLex (owner, name value.symbol)) }
  else do
    let rest ← balance.sub value
    pure { t with accounts := t.accounts.set (toLex (owner, name value.symbol)) rest }

def addBalance (owner : AccountName) (value : Asset) : Result TokenState :=
  match t.accounts.find? (toLex (owner, name value.symbol)) with
  | none => pure { t with accounts := t.accounts.set (toLex (owner, name value.symbol)) value }
  | some balance => do
    let sum ← balance.add value
    pure { t with accounts := t.accounts.set (toLex (owner, name value.symbol)) sum }

def create (env : Env) (issuer : AccountName) (maximumSupply : Asset) : Result TokenState := do
  requireAuthOf env.auths selfAccount
  eosioAssert (isValid maximumSupply.symbol = true) "invalid symbol name"
  eosioAssert maximumSupply.IsValid "invalid supply"
  eosioAssert (0 < maximumSupply.amount) "max-supply must be positive"
  eosioAssert (t.stats.find? (name maximumSupply.symbol) = none)
    "token with symbol already exists"
  pure { t with
    stats := t.stats.set (name maximumSupply.symbol)
      ⟨⟨0, maximumSupply.symbol⟩, maximumSupply, issuer⟩ }

/-- The state after `issue`, and the transfer that it sends to another account than the issuer's. -/
def issue (env : Env) (receiver : AccountName) (quantity : Asset) (memo : String) :
    Result (TokenState × List Transfer) := do
  eosioAssert (isValid quantity.symbol = true) "invalid symbol name"
  eosioAssert (memo.utf8ByteSize ≤ 256) "memo has more than 256 bytes"
  let st ← getRow t.stats (name quantity.symbol)
    "token with symbol does not exist, create token before issue"
  requireAuthOf env.auths st.issuer
  eosioAssert quantity.IsValid "invalid quantity"
  eosioAssert (0 < quantity.amount) "must issue positive quantity"
  eosioAssert (quantity.symbol = st.supply.symbol) "symbol precision mismatch"
  eosioAssert (quantity.amount ≤ st.maxSupply.amount - st.supply.amount)
    "quantity exceeds available supply"
  let supply ← st.supply.add quantity
  let t ← { t with
    stats := t.stats.set (name quantity.symbol) { st with supply := supply } }.addBalance
      st.issuer quantity
  pure (t, if receiver ≠ st.issuer then [⟨st.issuer, receiver, quantity, memo⟩] else [])

def transfer (env : Env) (args : Transfer) : Result TokenState := do
  eosioAssert (args.sender ≠ args.receiver) "cannot transfer to self"
  requireAuthOf env.auths args.sender
  eosioAssert (env.isAccount args.receiver = true) "to account does not exist"
  let st ← getRow t.stats (name args.quantity.symbol) "unable to find key"
  eosioAssert args.quantity.IsValid "invalid quantity"
  eosioAssert (0 < args.quantity.amount) "must transfer positive quantity"
  eosioAssert (args.quantity.symbol = st.supply.symbol) "symbol precision mismatch"
  eosioAssert (args.memo.utf8ByteSize ≤ 256) "memo has more than 256 bytes"
  let t ← t.subBalance args.sender args.quantity
  t.addBalance args.receiver args.quantity

def getSupply (symbolName : Nat) : Result Asset := do
  let st ← getRow t.stats symbolName "unable to find key"
  pure st.supply

end Actions

/-- Inline transfers in the order in which they were sent, each under the authority of its
sender. -/
def runInline (isAccount : AccountName → Bool) :
    List Transfer → TokenState → Result TokenState
  | [], t => .ok t
  | args :: rest, t => do
    let t ← t.transfer ⟨[args.sender], isAccount⟩ args
    runInline isAccount rest t

def apply (t : TokenState) (env : Env) : TokenAction → Result TokenState
  | .create issuer maximumSupply => t.create env issuer maximumSupply
  | .issue receiver quantity memo => do
    let (t, inline) ← t.issue env receiver quantity memo
    runInline env.isAccount inline t
  | .transfer args => t.transfer env args

def Step (t : TokenState) (label : Env × TokenAction) (t' : TokenState) : Prop :=
  t.apply label.1 label.2 = .ok t'

def balance (t : TokenState) (owner : AccountName) (symbolName : Nat) : Int :=
  ((t.accounts.find? (toLex (owner, symbolName))).map fun a => a.amount.toInt).getD 0

def circulating (t : TokenState) (symbolName : Nat) : Int :=
  t.accounts.total fun k a => if (ofLex k).2 = symbolName then a.amount.toInt else 0

variable {t t' : TokenState} {env : Env} {owner : AccountName} {value : Asset}

lemma subBalance_ok (h : t.subBalance owner value = .ok t') :
    ∃ balance, t.accounts.find? (toLex (owner, name value.symbol)) = some balance ∧
      value.amount ≤ balance.amount ∧
      t' = { t with
        accounts :=
          if balance.amount = value.amount then
            t.accounts.erase (toLex (owner, name value.symbol))
          else t.accounts.set (toLex (owner, name value.symbol))
            ⟨balance.amount - value.amount, balance.symbol⟩ } := by
  obtain ⟨balance, hrow, h⟩ := bind_ok_iff.mp h
  obtain ⟨_, hle, h⟩ := bind_ok_iff.mp h
  refine ⟨balance, getRow_ok_iff.mp hrow, eosioAssert_ok_iff.mp hle, ?_⟩
  by_cases hall : balance.amount = value.amount
  · rw [if_pos hall] at h ⊢
    cases h
    rfl
  rw [if_neg hall] at h ⊢
  obtain ⟨rest, hrest, h⟩ := bind_ok_iff.mp h
  obtain ⟨-, -, rfl⟩ := Asset.sub_ok_iff.mp hrest
  cases h
  rfl

lemma addBalance_ok (h : t.addBalance owner value = .ok t') : ∃ row : Asset, t' = { t with
        accounts := t.accounts.set (toLex (owner, name value.symbol)) row } ∧
      row.symbol = value.symbol ∧
      ((t.accounts.find? (toLex (owner, name value.symbol)) = none ∧ row = value) ∨
        ∃ balance, t.accounts.find? (toLex (owner, name value.symbol)) = some balance ∧
          row = ⟨balance.amount + value.amount, balance.symbol⟩) := by
  unfold addBalance at h
  cases hrow : t.accounts.find? (toLex (owner, name value.symbol)) with
  | none =>
    rw [hrow] at h
    cases h
    exact ⟨value, rfl, rfl, .inl ⟨rfl, rfl⟩⟩
  | some balance =>
    rw [hrow] at h
    obtain ⟨sum, hsum, h⟩ := bind_ok_iff.mp h
    obtain ⟨hsymbol, -, rfl⟩ := Asset.add_ok_iff.mp hsum
    cases h
    exact ⟨_, rfl, hsymbol.symm, .inr ⟨balance, rfl, rfl⟩⟩

lemma create_ok {issuer : AccountName} {maximumSupply : Asset}
    (h : t.create env issuer maximumSupply = .ok t') :
    maximumSupply.IsValid ∧ 0 < maximumSupply.amount ∧
      t.stats.find? (name maximumSupply.symbol) = none ∧
      t' = { t with
        stats := t.stats.set (name maximumSupply.symbol)
          ⟨⟨0, maximumSupply.symbol⟩, maximumSupply, issuer⟩ } := by
  simp only [create, bind_ok_iff] at h
  obtain ⟨_, -, _, -, _, hvalid, _, hpos, _, hnone, h⟩ := h
  cases h
  exact ⟨eosioAssert_ok_iff.mp hvalid, eosioAssert_ok_iff.mp hpos, eosioAssert_ok_iff.mp hnone, rfl⟩

structure Movable (t : TokenState) (quantity : Asset) (st : CurrencyStats) : Prop where
  stat : t.stats.find? (name quantity.symbol) = some st
  valid : quantity.IsValid
  pos : 0 < quantity.amount
  symbol : quantity.symbol = st.supply.symbol

lemma issue_ok {receiver : AccountName} {quantity : Asset} {memo : String} {inline : List Transfer}
    (h : t.issue env receiver quantity memo = .ok (t', inline)) :
    ∃ st, t.Movable quantity st ∧ quantity.amount ≤ st.maxSupply.amount - st.supply.amount ∧
      Asset.AmountInRange (st.supply.amount + quantity.amount) ∧
      { t with
        stats := t.stats.set (name quantity.symbol)
          { st with supply := ⟨st.supply.amount + quantity.amount, st.supply.symbol⟩ } }.addBalance
        st.issuer quantity = .ok t' := by
  simp only [issue, bind_ok_iff] at h
  obtain ⟨_, -, _, -, st, hst, _, -, _, hvalid, _, hpos, _, hsymbol, _, hmax, supply, hsupply,
    t₁, hadd, hpair⟩ := h
  obtain ⟨-, hrange, rfl⟩ := Asset.add_ok_iff.mp hsupply
  cases hpair
  exact ⟨st, ⟨getRow_ok_iff.mp hst, eosioAssert_ok_iff.mp hvalid, eosioAssert_ok_iff.mp hpos,
    eosioAssert_ok_iff.mp hsymbol⟩, eosioAssert_ok_iff.mp hmax, hrange, hadd⟩

lemma transfer_ok_iff {args : Transfer} : t.transfer env args = .ok t' ↔
      args.sender ≠ args.receiver ∧ args.sender ∈ env.auths ∧ env.isAccount args.receiver = true ∧
        (∃ st, t.Movable args.quantity st) ∧ args.memo.utf8ByteSize ≤ 256 ∧
        ∃ t₁, t.subBalance args.sender args.quantity = .ok t₁ ∧
          t₁.addBalance args.receiver args.quantity = .ok t' := by
  unfold transfer
  simp only [bind_ok_iff, eosioAssert_ok_iff, requireAuthOf_ok_iff, getRow_ok_iff, exists_const]
  constructor
  · rintro ⟨hne, hauth, hacc, st, hst, hvalid, hpos, hsymbol, hmemo, hmove⟩
    exact ⟨hne, hauth, hacc, ⟨st, hst, hvalid, hpos, hsymbol⟩, hmemo, hmove⟩
  · rintro ⟨hne, hauth, hacc, ⟨st, hst, hvalid, hpos, hsymbol⟩, hmemo, hmove⟩
    exact ⟨hne, hauth, hacc, st, hst, hvalid, hpos, hsymbol, hmemo, hmove⟩

end TokenState

end DimensionChain.Token
