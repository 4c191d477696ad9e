import DimensionChain.Token.Contract

/-!
# Conservation of tokens

The supply of a currency is what the accounts own and what is owed, that is, taken from one
account and not yet given to another. The two halves of a transfer move an amount to the owed part
and back, an issue creates an owed amount and gives it to the issuer, and nothing is owed between
actions. No account owns more than the supply, which fits the range of amounts.
-/

namespace DimensionChain.Token.TokenState

open Int64 Asset FlatMap DimensionChain.Symbol Config

structure Backed (t : TokenState) (owed : Nat → Int) : Prop where
  stat : ∀ name st, t.stats.find? name = some st →
    Symbol.name st.supply.symbol = name ∧ 0 ≤ st.supply.amount.toInt ∧
      st.supply.amount.toInt ≤ st.maxSupply.amount.toInt ∧ st.maxSupply.amount.toInt ≤ 2 ^ 62 - 1
  row : ∀ owner name a, t.accounts.find? (toLex (owner, name)) = some a →
    0 < a.amount.toInt ∧ ∃ st, t.stats.find? name = some st ∧ a.symbol = st.supply.symbol
  sum : ∀ name st, t.stats.find? name = some st →
    st.supply.amount.toInt = t.circulating name + owed name

def Conserved (t : TokenState) : Prop := t.Backed fun _ => 0

def owing (owed : Nat → Int) (name : Nat) (amount : Int) (n : Nat) : Int :=
  owed n + if n = name then amount else 0

lemma owing_self (owed : Nat → Int) (name : Nat) (amount : Int) :
    owing owed name amount name = owed name + amount := by
  rw [owing, if_pos rfl]

lemma owing_of_ne (owed : Nat → Int) {name n : Nat} (amount : Int) (h : n ≠ name) :
    owing owed name amount n = owed n := by
  rw [owing, if_neg h, add_zero]

section Movements
variable {t t' : TokenState} {owed : Nat → Int} {value : Asset} {st : CurrencyStats}

lemma Movable.bounds (hm : t.Movable value st) :
    0 < value.amount.toInt ∧ value.amount.toInt ≤ 2 ^ 62 - 1 :=
  ⟨lt_iff_toInt_lt.mp hm.pos, (amountInRange_iff.mp hm.valid.1).2⟩

lemma Movable.of_stats (hm : t.Movable value st) (hstats : t'.stats = t.stats) :
    t'.Movable value st :=
  ⟨hstats ▸ hm.stat, hm.valid, hm.pos, hm.symbol⟩

variable {owner : AccountName} {a : Asset} {name : Nat}

lemma Backed.row_le (h : t.Backed owed) (ha : t.accounts.find? (toLex (owner, name)) = some a)
    (hst : t.stats.find? name = some st) : a.amount.toInt + owed name ≤ st.supply.amount.toInt := by
  have hnonneg : ∀ k v, t.accounts.find? k = some v →
      0 ≤ if (ofLex k).2 = name then v.amount.toInt else 0 := by
    intro k v hk
    split
    · exact (h.row (ofLex k).1 (ofLex k).2 v hk).1.le
    · exact le_rfl
  have hle : a.amount.toInt ≤ t.circulating name := by
    unfold circulating
    simpa using le_total hnonneg ha
  have hsum := h.sum name st hst
  omega

lemma circulating_store (t : TokenState) (owner : AccountName) (name : Nat) (row : Asset) {c : Prop}
    [Decidable c] (hc : c → row.amount.toInt = 0) (n : Nat) :
    { t with
      accounts := if c then t.accounts.erase (toLex (owner, name))
        else t.accounts.set (toLex (owner, name)) row }.circulating n =
      t.circulating n + if n = name then row.amount.toInt - t.balance owner name else 0 := by
  unfold circulating balance
  rw [total_store]
  · by_cases hn : n = name
    · subst hn
      simp
    have hne : name ≠ n := fun he => hn he.symm
    rw [if_neg hn]
    cases t.accounts.find? (toLex (owner, name)) with
    | none => simp [hne]
    | some a => simp [hne]
  · intro h
    rw [hc h, ite_self]

lemma circulating_set (t : TokenState) (owner : AccountName) (name : Nat) (row : Asset) (n : Nat) :
    { t with accounts := t.accounts.set (toLex (owner, name)) row }.circulating n =
      t.circulating n + if n = name then row.amount.toInt - t.balance owner name else 0 := by
  have hset := circulating_store t owner name row (c := False) False.elim n
  exact hset

lemma key_inj {q owner : AccountName} {n name : Nat} (h : toLex (q, n) = toLex (owner, name)) :
    q = owner ∧ n = name :=
  Prod.mk.inj (toLex_inj.mp h)

lemma balance_of_find?
    (h : t.accounts.find? (toLex (owner, name)) = some a) : t.balance owner name = a.amount.toInt := by
  unfold balance
  rw [h]
  rfl

section Payer
variable (h : t.Backed owed) (hm : t.Movable value st)
include h hm

lemma Backed.symbol_eq (ha : t.accounts.find? (toLex (owner, Symbol.name value.symbol)) = some a) :
    value.symbol = a.symbol := by
  obtain ⟨-, st', hst', hsym⟩ := h.row owner _ a ha
  rw [hm.stat] at hst'
  cases hst'
  rw [hm.symbol, hsym]

variable (howed : 0 ≤ owed (Symbol.name value.symbol))
include howed

lemma Backed.rest (ha : t.accounts.find? (toLex (owner, Symbol.name value.symbol)) = some a)
    (hle : value.amount ≤ a.amount) : 0 ≤ (a.amount - value.amount).toInt ∧
      (a.amount - value.amount).toInt = a.amount.toInt - value.amount.toInt ∧
      (a.amount = value.amount ↔ (a.amount - value.amount).toInt = 0) := by
  have hpos := hm.bounds.1
  have hle' := le_iff_toInt_le.mp hle
  have hfits := h.row_le ha hm.stat
  have hstat := h.stat _ _ hm.stat
  have hrest : (a.amount - value.amount).toInt = a.amount.toInt - value.amount.toInt :=
    toInt_sub_of_fits (by omega) (by omega)
  refine ⟨by omega, hrest, ?_⟩
  rw [hrest, sub_eq_zero, toInt_inj]

lemma Backed.subBalance (hok : t.subBalance owner value = .ok t') :
    t'.stats = t.stats ∧ t'.Backed (owing owed (Symbol.name value.symbol) value.amount.toInt) := by
  obtain ⟨a, ha, hle, rfl⟩ := subBalance_ok hok
  obtain ⟨hnonneg, hrest, hzero⟩ := h.rest hm howed ha hle
  refine ⟨rfl, h.stat, ?_, ?_⟩
  · intro q n b hb
    rw [find?_store] at hb
    by_cases hkey : toLex (q, n) = toLex (owner, name value.symbol)
    · rw [if_pos hkey] at hb
      obtain ⟨rfl, rfl⟩ := key_inj hkey
      split at hb
      · cases hb
      rename_i hall
      cases hb
      have hne := fun he => hall (hzero.mpr he)
      exact ⟨lt_of_le_of_ne hnonneg (Ne.symm hne), (h.row q _ a ha).2⟩
    · rw [if_neg hkey] at hb
      exact h.row q n b hb
  intro n st' hst'
  rw [circulating_store t owner _ _ hzero.mp, balance_of_find? ha, hrest, h.sum n st' hst']
  unfold owing
  split <;> omega

lemma Backed.balance_subBalance (hok : t.subBalance owner value = .ok t') :
    value.amount.toInt ≤ t.balance owner (Symbol.name value.symbol) ∧
      ∀ q n, t'.balance q n = t.balance q n -
        if q = owner ∧ n = Symbol.name value.symbol then value.amount.toInt else 0 := by
  obtain ⟨a, ha, hle, rfl⟩ := subBalance_ok hok
  obtain ⟨hnonneg, hrest, hzero⟩ := h.rest hm howed ha hle
  have hbal := balance_of_find? ha
  refine ⟨by omega, ?_⟩
  intro q n
  by_cases hkey : q = owner ∧ n = name value.symbol
  · rw [if_pos hkey]
    obtain ⟨rfl, rfl⟩ := hkey
    rw [hbal, ← hrest]
    unfold balance
    rw [find?_store, if_pos rfl]
    split
    · rename_i hall
      exact (hzero.mp hall).symm
    · rfl
  · rw [if_neg hkey, sub_zero]
    unfold balance
    rw [find?_store, if_neg fun he => hkey (key_inj he)]

lemma Backed.sub_ok (ha : t.accounts.find? (toLex (owner, Symbol.name value.symbol)) = some a)
    (hle : value.amount ≤ a.amount) : a.sub value = .ok ⟨a.amount - value.amount, a.symbol⟩ := by
  have hpos := hm.bounds.1
  obtain ⟨hnonneg, hrest, -⟩ := h.rest hm howed ha hle
  have hfits := h.row_le ha hm.stat
  have hstat := h.stat _ _ hm.stat
  have hrange : Asset.AmountInRange (a.amount - value.amount) := by
    rw [amountInRange_iff]
    omega
  exact sub_ok_iff.mpr ⟨h.symbol_eq hm ha, hrange, rfl⟩

lemma Backed.subBalance_succeeds (owner : AccountName)
    (hcover : value.amount.toInt ≤ t.balance owner (Symbol.name value.symbol)) :
    ∃ t', t.subBalance owner value = .ok t' := by
  cases ha : t.accounts.find? (toLex (owner, name value.symbol)) with
  | none =>
    unfold balance at hcover
    rw [ha] at hcover
    exact absurd (lt_of_lt_of_le hm.bounds.1 hcover) (lt_irrefl 0)
  | some a =>
    rw [balance_of_find? ha] at hcover
    have hle : value.amount ≤ a.amount := le_iff_toInt_le.mpr hcover
    unfold TokenState.subBalance
    simp only [bind_ok_iff, getRow_ok_iff, eosioAssert_ok_iff, ha, Option.some.injEq, exists_const,
      exists_eq_left', hle, true_and, h.sub_ok hm howed ha hle]
    split
    · exact ⟨_, rfl⟩
    · exact ⟨_, rfl⟩

lemma Backed.noOverflow_subBalance (owner : AccountName) :
    NoOverflow (t.subBalance owner value) := by
  -- it fails for want of a balance, or of a large enough one
  refine .row (by decide) fun a ha => ?_
  refine .assert (by decide) fun hle => ?_
  split
  · exact .of_ok _
  · rw [h.sub_ok hm howed ha hle]
    exact .of_ok _

end Payer

variable (h : t.Backed (owing owed (Symbol.name value.symbol) value.amount.toInt))
  (hm : t.Movable value st) (howed : 0 ≤ owed (Symbol.name value.symbol))
include h hm howed

lemma Backed.received {row : Asset}
    (hrow : (t.accounts.find? (toLex (owner, Symbol.name value.symbol)) = none ∧ row = value) ∨
      ∃ a, t.accounts.find? (toLex (owner, Symbol.name value.symbol)) = some a ∧
        row = ⟨a.amount + value.amount, a.symbol⟩) :
    row.amount.toInt = t.balance owner (Symbol.name value.symbol) + value.amount.toInt ∧
      0 < row.amount.toInt ∧ row.amount.toInt ≤ 2 ^ 62 - 1 := by
  obtain ⟨hpos, hmax⟩ := hm.bounds
  rcases hrow with ⟨hnone, rfl⟩ | ⟨a, ha, rfl⟩
  · have hbal : t.balance owner (name row.symbol) = 0 := by
      unfold balance
      rw [hnone]
      rfl
    omega
  have hfits := h.row_le ha hm.stat
  rw [owing_self] at hfits
  have hold := (h.row owner _ a ha).1
  have hstat := h.stat _ _ hm.stat
  have hexact : (a.amount + value.amount).toInt = a.amount.toInt + value.amount.toInt :=
    toInt_add_of_fits (by omega) (by omega)
  rw [balance_of_find? ha, hexact]
  omega

lemma Backed.addBalance (hok : t.addBalance owner value = .ok t') :
    t'.stats = t.stats ∧ t'.Backed owed := by
  obtain ⟨row, rfl, hsymbol, hcases⟩ := addBalance_ok hok
  obtain ⟨hrow, hpos, -⟩ := h.received hm howed hcases
  refine ⟨rfl, h.stat, ?_, ?_⟩
  · intro q n b hb
    rw [find?_set] at hb
    split at hb
    · rename_i hkey
      cases hb
      obtain ⟨rfl, rfl⟩ := key_inj hkey
      exact ⟨hpos, st, hm.stat, hsymbol.trans hm.symbol⟩
    · exact h.row q n b hb
  intro n st' hst'
  rw [circulating_set, hrow, h.sum n st' hst']
  unfold owing
  split <;> omega

lemma Backed.addBalance_succeeds (owner : AccountName) :
    ∃ t', t.addBalance owner value = .ok t' := by
  unfold TokenState.addBalance
  cases ha : t.accounts.find? (toLex (owner, name value.symbol)) with
  | none => exact ⟨_, rfl⟩
  | some a =>
    obtain ⟨-, hpos, hmax⟩ := h.received hm howed (.inr ⟨a, ha, rfl⟩)
    have hrange : Asset.AmountInRange (a.amount + value.amount) := by
      rw [amountInRange_iff]
      exact ⟨le_trans (by decide) hpos.le, hmax⟩
    exact ⟨_, bind_ok_iff.mpr ⟨_, add_ok_iff.mpr ⟨h.symbol_eq hm ha, hrange, rfl⟩, rfl⟩⟩

lemma Backed.balance_addBalance (hok : t.addBalance owner value = .ok t') (q : AccountName) (n : Nat) :
    t'.balance q n = t.balance q n +
      if q = owner ∧ n = Symbol.name value.symbol then value.amount.toInt else 0 := by
  obtain ⟨row, rfl, -, hcases⟩ := addBalance_ok hok
  by_cases hkey : q = owner ∧ n = name value.symbol
  · rw [if_pos hkey]
    obtain ⟨rfl, rfl⟩ := hkey
    rw [← (h.received hm howed hcases).1]
    unfold balance
    rw [find?_set, if_pos rfl]
    rfl
  · rw [if_neg hkey, add_zero]
    unfold balance
    rw [find?_set, if_neg fun he => hkey (key_inj he)]

lemma Backed.noOverflow_addBalance (owner : AccountName) :
    NoOverflow (t.addBalance owner value) := by
  obtain ⟨t', hok⟩ := h.addBalance_succeeds hm howed owner
  rw [hok]
  exact NoOverflow.of_ok t'

end Movements

section Transfers
variable {t t' : TokenState} {env : Env} {st : CurrencyStats}

variable {isAccount : AccountName → Bool} {args : Transfer} (h : t.Conserved)
  {inline : List Transfer}
include h

lemma Conserved.transfer (hok : t.transfer env args = .ok t') :
    t'.stats = t.stats ∧ t'.Conserved := by
  obtain ⟨-, -, -, ⟨st, hm⟩, -, t₁, hsub, hadd⟩ := transfer_ok_iff.mp hok
  obtain ⟨hstats, howing⟩ := Backed.subBalance h hm le_rfl hsub
  obtain ⟨hstats', hbacked⟩ := howing.addBalance (hm.of_stats hstats) le_rfl hadd
  exact ⟨hstats'.trans hstats, hbacked⟩

lemma Conserved.balance_transfer (hok : t.transfer env args = .ok t') :
    args.sender ≠ args.receiver ∧ 0 < args.quantity.amount.toInt ∧
      args.quantity.amount.toInt ≤ t.balance args.sender (Symbol.name args.quantity.symbol) ∧
      ∀ q n, t'.balance q n = t.balance q n -
          (if q = args.sender ∧ n = Symbol.name args.quantity.symbol
            then args.quantity.amount.toInt else 0) +
          (if q = args.receiver ∧ n = Symbol.name args.quantity.symbol
            then args.quantity.amount.toInt else 0) := by
  obtain ⟨hne, -, -, ⟨st, hm⟩, -, t₁, hsub, hadd⟩ := transfer_ok_iff.mp hok
  obtain ⟨hstats, howing⟩ := Backed.subBalance h hm le_rfl hsub
  obtain ⟨hcover, hpaid⟩ := Backed.balance_subBalance h hm le_rfl hsub
  refine ⟨hne, hm.bounds.1, hcover, fun q n => ?_⟩
  rw [howing.balance_addBalance (hm.of_stats hstats) le_rfl hadd, hpaid]

lemma Conserved.balance_nonneg (owner : AccountName) (name : Nat) : 0 ≤ t.balance owner name := by
  unfold balance
  cases ha : t.accounts.find? (toLex (owner, name)) with
  | none => exact le_rfl
  | some a => exact (h.row owner name a ha).1.le

lemma Conserved.transfer_succeeds
    (hne : args.sender ≠ args.receiver) (hauth : args.sender ∈ env.auths)
    (haccount : env.isAccount args.receiver = true) (hm : t.Movable args.quantity st)
    (hmemo : args.memo.utf8ByteSize ≤ 256) (hcover : args.quantity.amount.toInt ≤
      t.balance args.sender (name args.quantity.symbol)) :
    ∃ t', t.transfer env args = .ok t' := by
  obtain ⟨t₁, hsub⟩ := Backed.subBalance_succeeds h hm le_rfl args.sender hcover
  obtain ⟨hstats, howing⟩ := Backed.subBalance h hm le_rfl hsub
  obtain ⟨t', hadd⟩ := howing.addBalance_succeeds (hm.of_stats hstats) le_rfl args.receiver
  exact ⟨t', transfer_ok_iff.mpr ⟨hne, hauth, haccount, ⟨st, hm⟩, hmemo, t₁, hsub, hadd⟩⟩

lemma Conserved.runInline (hok : TokenState.runInline isAccount inline t = .ok t') :
    t'.stats = t.stats ∧ t'.Conserved := by
  induction inline generalizing t with
  | nil =>
    cases hok
    exact ⟨rfl, h⟩
  | cons args rest ih =>
    obtain ⟨t₁, htransfer, hrest⟩ := bind_ok_iff.mp hok
    obtain ⟨hstats, hconserved⟩ := h.transfer htransfer
    obtain ⟨hstats', hconserved'⟩ := ih hconserved hrest
    exact ⟨hstats'.trans hstats, hconserved'⟩

lemma Conserved.balance_runInline_of_others
    {q : AccountName} (hok : TokenState.runInline isAccount inline t = .ok t')
    (hothers : ∀ args ∈ inline, q ≠ args.sender ∧ q ≠ args.receiver) (name : Nat) :
    t'.balance q name = t.balance q name := by
  induction inline generalizing t with
  | nil =>
    cases hok
    rfl
  | cons args rest ih =>
    obtain ⟨t₁, htransfer, hrest⟩ := bind_ok_iff.mp hok
    obtain ⟨hsender, hreceiver⟩ := hothers args List.mem_cons_self
    obtain ⟨-, -, -, hbalance⟩ := h.balance_transfer htransfer
    rw [ih (h.transfer htransfer).2 hrest fun a ha => hothers a (List.mem_cons_of_mem _ ha),
      hbalance, if_neg fun hq => hsender hq.1, if_neg fun hq => hreceiver hq.1]
    omega

lemma Conserved.balance_le (owner : AccountName) (name : Nat) :
    t.balance owner name ≤ 2 ^ 62 - 1 := by
  unfold balance
  cases ha : t.accounts.find? (toLex (owner, name)) with
  | none => exact by decide
  | some a =>
    obtain ⟨-, st, hst, -⟩ := h.row owner name a ha
    have hle := Backed.row_le h ha hst
    obtain ⟨-, -, hsupply, hmax⟩ := h.stat name st hst
    change a.amount.toInt ≤ _
    omega

end Transfers

section Actions
variable {t t' : TokenState} {env : Env}

lemma conserved_start : ({} : TokenState).Conserved := by
  refine ⟨?_, ?_, ?_⟩ <;> intros <;> contradiction

lemma Conserved.create (h : t.Conserved) {issuer : AccountName} {maximumSupply : Asset}
    (hok : t.create env issuer maximumSupply = .ok t') : t'.Conserved := by
  obtain ⟨hvalid, hpos, hnone, rfl⟩ := create_ok hok
  have hpos' : 0 < maximumSupply.amount.toInt := lt_iff_toInt_lt.mp hpos
  have hmax := (amountInRange_iff.mp hvalid.1).2
  -- nobody owns a currency that does not exist
  have hunowned : t.circulating (name maximumSupply.symbol) = 0 := by
    refine total_eq_zero fun k a hk => ?_
    obtain ⟨-, st, hst, -⟩ := h.row (ofLex k).1 (ofLex k).2 a hk
    by_cases hn : (ofLex k).2 = name maximumSupply.symbol
    · rw [hn, hnone] at hst
      cases hst
    · rw [if_neg hn]
  refine ⟨?_, ?_, ?_⟩
  · intro name st hst
    rw [find?_set] at hst
    split at hst
    · rename_i hname
      cases hst
      exact ⟨hname.symm, le_rfl, hpos'.le, hmax⟩
    · exact h.stat name st hst
  · intro owner name a ha
    obtain ⟨hrow, st, hst, hsym⟩ := h.row owner name a ha
    refine ⟨hrow, st, ?_, hsym⟩
    rw [find?_set, if_neg ?_]
    · exact hst
    · rintro rfl
      rw [hnone] at hst
      cases hst
  intro name st hst
  rw [find?_set] at hst
  split at hst
  · rename_i hname
    cases hst
    subst hname
    exact (congrArg (· + 0) hunowned).symm
  · exact h.sum name st hst

variable {quantity : Asset} {st : CurrencyStats}

lemma Conserved.supply (h : t.Conserved)
    (hm : t.Movable quantity st) (hmax : quantity.amount ≤ st.maxSupply.amount - st.supply.amount) :
    (st.supply.amount + quantity.amount).toInt = st.supply.amount.toInt + quantity.amount.toInt ∧
      { t with
        stats := t.stats.set (name quantity.symbol)
          { st with supply := ⟨st.supply.amount + quantity.amount, st.supply.symbol⟩ } }.Backed
        (owing (fun _ => 0) (name quantity.symbol) quantity.amount.toInt) := by
  obtain ⟨hpos, -⟩ := hm.bounds
  obtain ⟨hname, hnonneg, hle, hlimit⟩ := h.stat _ _ hm.stat
  have hdiff : (st.maxSupply.amount - st.supply.amount).toInt =
      st.maxSupply.amount.toInt - st.supply.amount.toInt :=
    toInt_sub_of_fits (by omega) (by omega)
  have hmax' := le_iff_toInt_le.mp hmax
  have hexact : (st.supply.amount + quantity.amount).toInt =
      st.supply.amount.toInt + quantity.amount.toInt :=
    toInt_add_of_fits (by omega) (by omega)
  refine ⟨hexact, ?_, ?_, ?_⟩
  · intro name st' hst'
    rw [find?_set] at hst'
    split at hst'
    · rename_i heq
      cases hst'
      simp only [hexact]
      exact ⟨hname.trans heq.symm, by omega, by omega, hlimit⟩
    · exact h.stat name st' hst'
  · intro owner name a ha
    obtain ⟨hrow, st', hst', hsym⟩ := h.row owner name a ha
    refine ⟨hrow, ?_⟩
    rw [find?_set]
    split
    · rename_i heq
      subst heq
      rw [hm.stat] at hst'
      cases hst'
      exact ⟨_, rfl, hsym⟩
    · exact ⟨st', hst', hsym⟩
  intro name st' hst'
  rw [find?_set] at hst'
  split at hst'
  · rename_i heq
    subst heq
    cases hst'
    have hsum := h.sum _ _ hm.stat
    simp only [hexact, owing_self]
    change _ = t.circulating _ + _
    omega
  · rename_i hne
    rw [owing_of_ne _ _ hne]
    exact h.sum name st' hst'

lemma Movable.of_supply {amount : Int64} (hm : t.Movable quantity st) : { t with
      stats := t.stats.set (name quantity.symbol)
        { st with supply := ⟨amount, st.supply.symbol⟩ } }.Movable quantity
      { st with supply := ⟨amount, st.supply.symbol⟩ } := by
  refine ⟨?_, hm.valid, hm.pos, hm.symbol⟩
  rw [find?_set, if_pos rfl]

lemma Conserved.issue (h : t.Conserved) {receiver : AccountName} {memo : String}
    {inline : List Transfer} (hok : t.issue env receiver quantity memo = .ok (t', inline)) :
    t'.Conserved := by
  obtain ⟨st, hm, hmax, -, hadd⟩ := issue_ok hok
  exact ((h.supply hm hmax).2.addBalance hm.of_supply le_rfl hadd).2

lemma Conserved.apply (h : t.Conserved) {action : TokenAction}
    (hok : t.apply env action = .ok t') : t'.Conserved := by
  cases action with
  | create issuer maximumSupply => exact h.create hok
  | issue receiver quantity memo =>
    obtain ⟨⟨t₁, inline⟩, hissue, hinline⟩ := bind_ok_iff.mp hok
    exact ((h.issue hissue).runInline hinline).2
  | transfer args => exact (h.transfer hok).2

lemma Conserved.issue_le (h : t.Conserved) {receiver : AccountName} {memo : String}
    (hok : t.apply env (.issue receiver quantity memo) = .ok t') (owner : AccountName) (n : Nat) :
    t.balance owner n ≤ t'.balance owner n := by
  obtain ⟨⟨t₁, inline⟩, hissue, hinline⟩ := bind_ok_iff.mp hok
  obtain ⟨st, hm, hmax, -, hadd⟩ := issue_ok hissue
  have hissued := (h.supply hm hmax).2.balance_addBalance hm.of_supply le_rfl hadd owner n
  change _ = t.balance owner n + _ at hissued
  have hpos := hm.bounds.1
  have hsent : inline = [] ∨ inline = [⟨st.issuer, receiver, quantity, memo⟩] := by
    simp only [TokenState.issue, bind_ok_iff, getRow_ok_iff] at hissue
    obtain ⟨_, -, _, -, st', hst, _, -, _, -, _, -, _, -, _, -, _, -, _, -, hpair⟩ := hissue
    rw [hm.stat] at hst
    cases hst
    cases hpair
    split
    · exact .inr rfl
    · exact .inl rfl
  rcases hsent with rfl | rfl
  · cases hinline
    rw [hissued]
    split <;> omega
  obtain ⟨t₂, htransfer, hdone⟩ := bind_ok_iff.mp hinline
  cases hdone
  -- the issuer passes on what it has just received
  rw [((h.issue hissue).balance_transfer htransfer).2.2.2, hissued]
  dsimp only
  split <;> split <;> omega

lemma conserved_of_steps {es : List (TokenState × (Env × TokenAction) × TokenState)}
    (hrun : Steps Step {} es t) : t.Conserved :=
  hrun.invariant (fun h hstep => h.apply hstep) conserved_start

end Actions

section Overflow
variable {t : TokenState} {env : Env} {owed : Nat → Int} {st : CurrencyStats} {value : Asset}

open Asset

variable (h : t.Conserved)
include h

lemma Conserved.noOverflow_transfer (args : Transfer) : NoOverflow (t.transfer env args) := by
  refine .assert (by decide) fun _ => ?_
  refine .assert (by decide) fun _ => ?_
  refine .assert (by decide) fun _ => ?_
  refine .row (by decide) fun st hst => ?_
  refine .assert (by decide) fun hvalid => ?_
  refine .assert (by decide) fun hpos => ?_
  refine .assert (by decide) fun hsymbol => ?_
  refine .assert (by decide) fun _ => ?_
  have hm : t.Movable args.quantity st := ⟨hst, hvalid, hpos, hsymbol⟩
  refine .bind (Backed.noOverflow_subBalance h hm le_rfl args.sender) fun t₁ hsub => ?_
  obtain ⟨hstats, howing⟩ := Backed.subBalance h hm le_rfl hsub
  exact howing.noOverflow_addBalance (hm.of_stats hstats) le_rfl args.receiver

lemma Conserved.noOverflow_runInline (isAccount : AccountName → Bool)
    (inline : List Transfer) : NoOverflow (TokenState.runInline isAccount inline t) := by
  induction inline generalizing t with
  | nil => exact .of_ok t
  | cons args rest ih =>
    refine .bind (h.noOverflow_transfer args) fun t₁ htransfer => ?_
    exact ih (h.transfer htransfer).2

lemma Conserved.noOverflow_issue (receiver : AccountName) (quantity : Asset)
    (memo : String) : NoOverflow (t.issue env receiver quantity memo) := by
  refine .assert (by decide) fun _ => ?_
  refine .assert (by decide) fun _ => ?_
  refine .row (by decide) fun st hst => ?_
  refine .assert (by decide) fun _ => ?_
  refine .assert (by decide) fun hvalid => ?_
  refine .assert (by decide) fun hpos => ?_
  refine .assert (by decide) fun hsymbol => ?_
  refine .assert (by decide) fun hmax => ?_
  have hm : t.Movable quantity st := ⟨hst, hvalid, hpos, hsymbol⟩
  obtain ⟨hexact, howing⟩ := h.supply hm hmax
  have hadd : st.supply.add quantity = .ok ⟨st.supply.amount + quantity.amount, st.supply.symbol⟩ := by
    obtain ⟨-, hnonneg, hle, hlimit⟩ := howing.stat _ _ hm.of_supply.stat
    have hrange : AmountInRange (st.supply.amount + quantity.amount) := by
      rw [amountInRange_iff]
      exact ⟨le_trans (by decide) hnonneg, le_trans hle hlimit⟩
    exact add_ok_iff.mpr ⟨hm.symbol, hrange, rfl⟩
  rw [hadd]
  refine .bind (.of_ok _) ?_
  rintro _ ⟨⟩
  refine .bind (howing.noOverflow_addBalance hm.of_supply le_rfl st.issuer) fun t₁ _ => ?_
  exact .of_ok _

lemma Conserved.noOverflow_apply (action : TokenAction) : NoOverflow (t.apply env action) := by
  cases action with
  | create issuer maximumSupply =>
    refine .assert (by decide) fun _ => ?_
    refine .assert (by decide) fun _ => ?_
    refine .assert (by decide) fun _ => ?_
    refine .assert (by decide) fun _ => ?_
    refine .assert (by decide) fun _ => ?_
    exact .of_ok _
  | issue receiver quantity memo =>
    refine .bind (h.noOverflow_issue receiver quantity memo) fun issued hissue => ?_
    exact (h.issue hissue).noOverflow_runInline env.isAccount issued.2
  | transfer args => exact h.noOverflow_transfer args

end Overflow

variable {t : TokenState} {es : List (TokenState × (Env × TokenAction) × TokenState)}

/-- After every sequence of actions the supply of a currency is what all accounts own of it, it
is within the maximum, every balance is positive and in the symbol of the currency, and no
operator of a next action leaves the range of amounts. -/
theorem tokens_conserved (hrun : Steps Step {} es t) : (∀ name st, t.stats.find? name = some st →
        st.supply.amount.toInt = t.circulating name ∧ 0 ≤ st.supply.amount.toInt ∧
          st.supply.amount.toInt ≤ st.maxSupply.amount.toInt) ∧
      (∀ owner name a, t.accounts.find? (toLex (owner, name)) = some a →
        0 < a.amount.toInt ∧ ∃ st, t.stats.find? name = some st ∧ a.symbol = st.supply.symbol) ∧
      ∀ env action, Asset.NoOverflow (t.apply env action) := by
  have h := conserved_of_steps hrun
  refine ⟨?_, h.row, fun env action => h.noOverflow_apply action⟩
  intro name st hst
  obtain ⟨-, hnonneg, hle, -⟩ := h.stat name st hst
  exact ⟨(h.sum name st hst).trans (add_zero _), hnonneg, hle⟩

/-- The step is a transfer that the owner has authorized, of just what the balance loses. -/
def Spends (e : TokenState × (Env × TokenAction) × TokenState) (owner : AccountName)
    (n : Nat) : Prop :=
  ∃ args, e.2.1.2 = .transfer args ∧ args.sender = owner ∧ owner ∈ e.2.1.1.auths ∧
    name args.quantity.symbol = n ∧
    e.2.2.balance owner n = e.1.balance owner n - args.quantity.amount.toInt

theorem spent_by_owner (hrun : Steps Step {} es t) : ∀ e ∈ es, ∀ owner n,
      e.1.balance owner n ≤ e.2.2.balance owner n ∨ Spends e owner n := by
  intro e he owner n
  obtain ⟨h, hstep⟩ := hrun.forall_mem (fun h hstep => h.apply hstep) conserved_start e he
  obtain ⟨t, ⟨env, action⟩, t'⟩ := e
  dsimp only at h hstep ⊢
  cases action with
  | create issuer maximumSupply =>
    obtain ⟨-, -, -, rfl⟩ := create_ok hstep
    exact .inl le_rfl
  | issue receiver quantity memo => exact .inl (h.issue_le hstep owner n)
  | transfer args =>
    obtain ⟨hne, hpos, -, hbalance⟩ := h.balance_transfer hstep
    by_cases hsender : owner = args.sender ∧ n = name args.quantity.symbol
    · obtain ⟨rfl, rfl⟩ := hsender
      refine .inr ⟨args, rfl, rfl, (transfer_ok_iff.mp hstep).2.1, rfl, ?_⟩
      rw [hbalance, if_pos ⟨rfl, rfl⟩, if_neg fun hr => hne hr.1, add_zero]
    · left
      rw [hbalance, if_neg hsender]
      split <;> omega

def issuer : AccountName := Name.stringToName ['i', 's', 's', 'u', 'e', 'r']

def holder : AccountName := Name.stringToName ['h', 'o', 'l', 'd', 'e', 'r']

def buyer : AccountName := Name.stringToName ['b', 'u', 'y', 'e', 'r']

/-- A currency is created, issued to another account than the issuer's, and a part of it is
passed on. -/
def issuedSteps : List (Env × TokenAction) :=
  [(⟨[selfAccount], fun _ => true⟩, .create issuer ⟨1000, coreSymbol⟩),
    (⟨[issuer], fun _ => true⟩, .issue holder ⟨100, coreSymbol⟩ "issue"),
    (⟨[holder], fun _ => true⟩, .transfer ⟨holder, buyer, ⟨30, coreSymbol⟩, "pay"⟩)]

lemma issuedSteps_replay :
    (Steps.replay (fun t label => (apply t label.1 label.2).toOption) {} issuedSteps).map
      (fun t => (t.balance holder (name coreSymbol),
        t.balance buyer (name coreSymbol),
        (t.stats.find? (name coreSymbol)).map fun st => st.supply.amount)) =
    some (70, 30, some 100) := by
  decide +kernel

theorem tokens_conserved_issued : ∃ t st es, Steps Step {} es t ∧
    es.map (fun e => e.2.1) = issuedSteps ∧ t.balance buyer (name coreSymbol) = 30 ∧
      t.stats.find? (name coreSymbol) = some st ∧
      st.supply.amount.toInt = t.circulating (name coreSymbol) ∧
      ∀ env action, Asset.NoOverflow (t.apply env action) := by
  obtain ⟨t, hreplay, hlast⟩ := Option.map_eq_some_iff.mp issuedSteps_replay
  obtain ⟨-, hlast⟩ := Prod.mk.inj hlast
  obtain ⟨hbuyer, hsupply⟩ := Prod.mk.inj hlast
  obtain ⟨st, hst, -⟩ := Option.map_eq_some_iff.mp hsupply
  obtain ⟨es, hrun, hlabels⟩ := Steps.of_replay ok_of_toOption hreplay
  exact ⟨t, st, es, hrun, hlabels, hbuyer, hst, ((tokens_conserved hrun).1 _ st hst).1,
    (tokens_conserved hrun).2.2⟩

theorem spent_by_owner_issued : ∃ t es,
    Steps Step {} es t ∧ es.map (fun e => e.2.1) = issuedSteps ∧
    ∀ e ∈ es, ∀ owner n, e.1.balance owner n ≤ e.2.2.balance owner n ∨ Spends e owner n := by
  obtain ⟨t, hreplay, -⟩ := Option.map_eq_some_iff.mp issuedSteps_replay
  obtain ⟨es, hrun, hlabels⟩ := Steps.of_replay ok_of_toOption hreplay
  exact ⟨t, es, hrun, hlabels, spent_by_owner hrun⟩

end DimensionChain.Token.TokenState
