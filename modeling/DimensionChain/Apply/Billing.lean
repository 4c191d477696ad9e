import DimensionChain.Apply.Context
import DimensionChain.Base.FlatMapSum
import DimensionChain.Base.Steps

/-!
# Billed memory

An account is charged for every table, row and deferred transaction that it pays for. `excess`
is what it is billed beyond the objects that are there; every operation keeps it, except that
replacing a deferred transaction never gives back what the old one cost.
-/

namespace DimensionChain.Apply

open Auth FlatMap Objects Option ApplyContext ApplyState KeyValueObject

variable {Key : Type} {codec : TransactionCodec Key} {account : AccountName} {payer : AccountName}
  {delta : Int}

def share (a payer : AccountName) (size : Int) : Int := if payer = a then size else 0

lemma share_neg (a payer : AccountName) (size : Int) : share a payer (-size) = -share a payer size := by
  unfold share
  split <;> simp

lemma share_sub (a payer : AccountName) (x y : Int) :
    share a payer (x - y) = share a payer x - share a payer y := by
  unfold share
  split <;> simp

namespace KeyValueObject

def billedSize (o : KeyValueObject) : Int := o.value.length + Config.keyValueBillableSize

end KeyValueObject

namespace Objects

def ramUsageOf (s : Objects Key) (a : AccountName) : Nat := (s.ramUsage.find? a).getD 0

variable (codec : TransactionCodec Key)

def charged (s : Objects Key) (a : AccountName) : Int :=
  s.tables.total (fun _ t => share a t.payer Config.tableIdBillableSize) +
    s.keyValues.total (fun _ o => share a o.payer o.billedSize) +
    s.generatedTransactions.total (fun _ g => share a g.payer (g.billedSize codec))

def excess (s : Objects Key) (a : AccountName) : Int := s.ramUsageOf a - s.charged codec a

def Exact (s start : Objects Key) : Prop :=
  ∀ a, (s.ramUsageOf a : Int) = start.ramUsageOf a + s.charged codec a - start.charged codec a

def IdsMatch (s : Objects Key) : Prop :=
  ∀ k g, s.generatedTransactions.find? k = some g → g.trxId = codec.id g.packedTrx

variable {codec}

lemma exact_iff {start s : Objects Key} :
    s.Exact codec start ↔ ∀ a, s.excess codec a = start.excess codec a := by
  unfold Exact excess
  apply forall_congr'
  omega

end Objects

structure Billed (payer : AccountName) (delta : Int) (s s' : Objects Key) : Prop where
  tables : s'.tables = s.tables
  keyValues : s'.keyValues = s.keyValues
  generatedTransactions : s'.generatedTransactions = s.generatedTransactions
  ramUsage : ∀ a, (s'.ramUsageOf a : Int) = s.ramUsageOf a + share a payer delta

lemma Billed.excess {s s' : Objects Key} (h : Billed payer delta s s') (a : AccountName) :
    s'.excess codec a = s.excess codec a + share a payer delta := by
  unfold Objects.excess Objects.charged
  rw [h.ramUsage, h.tables, h.keyValues, h.generatedTransactions]
  omega

structure Balanced (codec : TransactionCodec Key) (s s' : Objects Key) : Prop where
  excess : ∀ a, s'.excess codec a = s.excess codec a
  idsMatch : s.IdsMatch codec → s'.IdsMatch codec

lemma Balanced.trans {s t r : Objects Key} (h : Balanced codec s t)
    (h' : Balanced codec t r) : Balanced codec s r :=
  ⟨fun a => (h'.excess a).trans (h.excess a), fun hids => h'.idsMatch (h.idsMatch hids)⟩

lemma addPendingRamUsage_ok {usage usage' : FlatMap AccountName Nat}
    (h : addPendingRamUsage usage account delta = .ok usage') (a : AccountName) :
    ((usage'.find? a).getD 0 : Int) = (usage.find? a).getD 0 + share a account delta := by
  unfold addPendingRamUsage at h
  split at h
  case isTrue hzero =>
    cases h
    simp [share, hzero]
  case isFalse =>
    split at h
    case h_1 => cases h
    case h_2 ram hram =>
      simp only [bind_ok_iff, eosAssert_ok_iff] at h
      obtain ⟨_, _, _, hunder, h⟩ := h
      cases h
      rw [FlatMap.find?_set]
      unfold share
      by_cases ha : a = account
      · subst ha
        rw [if_pos rfl, if_pos rfl, hram]
        simp only [getD_some]
        omega
      · rw [if_neg ha, if_neg (Ne.symm ha)]
        omega

namespace ApplyContext

section Rows
variable {c : ApplyContext Key} {s s' : ApplyState Key}

lemma addRamUsage_billed
    (h : s.addRamUsage account delta = .ok s') : Billed account delta s.toObjects s'.toObjects := by
  obtain ⟨usage, husage, h⟩ := bind_ok_iff.mp h
  cases h
  exact ⟨rfl, rfl, rfl, addPendingRamUsage_ok husage⟩

variable {code scope table id : Nat}

lemma updateDbUsage_billed
    (h : c.updateDbUsage payer delta s = .ok s') : Billed payer delta s.toObjects s'.toObjects := by
  obtain ⟨_, _, h⟩ := bind_ok_iff.mp h
  exact addRamUsage_billed h

variable {tab : TableIdObject} {buffer : List UInt8}

lemma findOrCreateTable_ok (codec : TransactionCodec Key)
    (h : c.findOrCreateTable code scope table payer s = .ok (tab, s')) :
    s'.tables.find? (ApplyState.tableKey code scope table) = some tab ∧
      s'.keyValues = s.keyValues ∧ s'.generatedTransactions = s.generatedTransactions ∧
      ∀ a, s'.excess codec a = s.excess codec a := by
  unfold findOrCreateTable at h
  split at h
  case h_1 hfind =>
    cases h
    exact ⟨hfind, rfl, rfl, fun _ => rfl⟩
  case h_2 hfind =>
    obtain ⟨m, hm, h⟩ := bind_ok_iff.mp h
    have hbilled := updateDbUsage_billed hm
    cases h
    refine ⟨?_, hbilled.keyValues, hbilled.generatedTransactions, ?_⟩
    · rw [FlatMap.find?_set, if_pos rfl]
    intro a
    have hexcess : m.excess codec a = _ := hbilled.excess a
    simp only [excess, charged, ramUsageOf, hbilled.tables] at hexcess ⊢
    rw [total_set_sub, hfind]
    simp only [map_none, getD_none]
    omega

lemma dbStoreI64_balanced {scope table id : Nat}
    (h : c.dbStoreI64 scope table payer id buffer s = .ok s') :
    Balanced codec s.toObjects s'.toObjects := by
  obtain ⟨⟨tab, m⟩, hm, h⟩ := bind_ok_iff.mp h
  simp only [bind_ok_iff, eosAssert_ok_iff, exists_const, isNone_iff_eq_none] at h
  obtain ⟨_, hnew, h⟩ := h
  obtain ⟨htab, _, hgenerated, hexcess⟩ := findOrCreateTable_ok codec hm
  have hbilled := updateDbUsage_billed h
  constructor
  · intro a
    rw [hbilled.excess, ← hexcess]
    simp only [excess, charged, ramUsageOf]
    rw [total_set_sub, total_set_sub, htab, hnew]
    simp only [map_some, map_none, getD_some, getD_none,
      billedSize]
    omega
  · intro hids k g hg
    rw [hbilled.generatedTransactions] at hg
    exact hids k g (hgenerated ▸ hg)

lemma getRow_ok {obj : KeyValueObject} (h : s.getRow code scope table id = .ok (tab, obj)) :
    s.tables.find? (ApplyState.tableKey code scope table) = some tab ∧
      s.keyValues.find? (toLex (tab.id, id)) = some obj := by
  unfold ApplyState.getRow at h
  split at h
  case h_1 => cases h
  case h_2 hfind =>
    split at h
    case h_1 => cases h
    case h_2 hrow =>
      cases h
      exact ⟨hfind, hrow⟩

lemma rebill_ok {oldPayer payer : AccountName} {oldSize newSize : Int}
    (h : c.rebill oldPayer payer oldSize newSize s = .ok s') :
    s'.tables = s.tables ∧ s'.keyValues = s.keyValues ∧
      s'.generatedTransactions = s.generatedTransactions ∧ ∀ a, (s'.ramUsageOf a : Int) =
        s.ramUsageOf a - share a oldPayer oldSize + share a payer newSize := by
  unfold rebill at h
  split at h
  case isTrue =>
    obtain ⟨m, hm, h⟩ := bind_ok_iff.mp h
    have hrefund := updateDbUsage_billed hm
    have hcharge := updateDbUsage_billed h
    refine ⟨hcharge.tables.trans hrefund.tables, hcharge.keyValues.trans hrefund.keyValues,
      hcharge.generatedTransactions.trans hrefund.generatedTransactions, ?_⟩
    intro a
    rw [hcharge.ramUsage, hrefund.ramUsage, share_neg]
    omega
  case isFalse hpayer =>
    obtain rfl : oldPayer = payer := not_not.mp hpayer
    split at h
    case isTrue =>
      have hcharge := updateDbUsage_billed h
      refine ⟨hcharge.tables, hcharge.keyValues, hcharge.generatedTransactions, ?_⟩
      intro a
      rw [hcharge.ramUsage, share_sub]
      omega
    case isFalse hsize =>
      obtain rfl : oldSize = newSize := not_not.mp hsize
      cases h
      refine ⟨rfl, rfl, rfl, ?_⟩
      intro a
      omega

lemma dbUpdateI64_balanced (h : c.dbUpdateI64 code scope table id payer buffer s = .ok s') :
    Balanced codec s.toObjects s'.toObjects := by
  obtain ⟨⟨tab, obj⟩, hrow, h⟩ := bind_ok_iff.mp h
  simp only [bind_ok_iff, eosAssert_ok_iff] at h
  obtain ⟨_, _, m, hm, h⟩ := h
  obtain ⟨_, hobj⟩ := getRow_ok hrow
  obtain ⟨htables, hkeyValues, hgenerated, hram⟩ := rebill_ok hm
  cases h
  constructor
  · intro a
    simp only [excess, charged, ramUsageOf] at hram ⊢
    rw [total_set_sub, htables, hkeyValues, hgenerated, hobj, hram]
    simp only [map_some, getD_some, billedSize]
    omega
  · intro hids k g hg
    exact hids k g (hgenerated ▸ hg)

lemma removeTable_ok (htab : s.tables.find? (ApplyState.tableKey code scope table) = some tab)
    (h : c.removeTable code scope table tab s = .ok s') :
    Balanced codec s.toObjects s'.toObjects := by
  obtain ⟨m, hm, h⟩ := bind_ok_iff.mp h
  have hbilled := updateDbUsage_billed hm
  cases h
  constructor
  · intro a
    have hexcess : m.excess codec a = _ := hbilled.excess a
    rw [share_neg] at hexcess
    simp only [excess, charged, ramUsageOf, hbilled.tables] at hexcess ⊢
    rw [total_erase_sub, htab]
    simp only [map_some, getD_some]
    omega
  · intro hids k g hg
    exact hids k g (hbilled.generatedTransactions ▸ hg)

lemma dbRemoveI64_balanced (h : c.dbRemoveI64 code scope table id s = .ok s') :
    Balanced codec s.toObjects s'.toObjects := by
  obtain ⟨⟨tab, obj⟩, hrow, h⟩ := bind_ok_iff.mp h
  simp only [bind_ok_iff, eosAssert_ok_iff] at h
  obtain ⟨_, _, m, hm, h⟩ := h
  obtain ⟨htab, hobj⟩ := getRow_ok hrow
  have hbilled := updateDbUsage_billed hm
  -- without its row the table is still paid for
  have hrest : Balanced codec s.toObjects { m.toObjects with
      tables := m.tables.set (tableKey code scope table)
        { tab with count := sub32 tab.count 1 }
      keyValues := m.keyValues.erase (toLex (tab.id, id)) } := by
    constructor
    · intro a
      have hexcess : m.excess codec a = _ := hbilled.excess a
      rw [share_neg] at hexcess
      simp only [excess, charged, ramUsageOf, hbilled.tables,
        hbilled.keyValues] at hexcess ⊢
      rw [total_set_sub, total_erase_sub, htab, hobj]
      simp only [map_some, getD_some, billedSize]
      omega
    · intro hids k g hg
      exact hids k g (hbilled.generatedTransactions ▸ hg)
  split at h
  case isTrue =>
    apply hrest.trans
    apply removeTable_ok _ h
    rw [FlatMap.find?_set, if_pos rfl]
  case isFalse =>
    cases h
    exact hrest

end Rows

variable {c : ApplyContext Key} {s s' : ApplyState Key}

lemma u32_packSize (trx : Transaction Key) : u32 (codec.packSize trx) = codec.packSize trx :=
  u32_eq (codec.packSize_lt trx)

variable {gto : GeneratedTransactionObject Key} {senderId : Nat} {trx : Transaction Key}
  {sender : AccountName}

lemma created_balanced {m : ApplyState Key} (hid : gto.trxId = codec.id gto.packedTrx)
    (hm : s.createGeneratedTransaction sender senderId gto = .ok m)
    (h : m.addRamUsage gto.payer (gto.billedSize codec) = .ok s') :
    Balanced codec s.toObjects s'.toObjects := by
  unfold createGeneratedTransaction at hm
  simp only [bind_ok_iff, eosAssert_ok_iff, exists_const] at hm
  obtain ⟨⟨hnew, _⟩, hm⟩ := hm
  have hbilled := addRamUsage_billed h
  cases hm
  constructor
  · intro a
    rw [hbilled.excess]
    simp only [excess, charged, ramUsageOf]
    rw [total_set_sub, isNone_iff_eq_none.mp hnew]
    simp only [map_none, getD_none]
    omega
  intro hids
  unfold Objects.IdsMatch
  rw [hbilled.generatedTransactions]
  exact forall_set hids hid

lemma removed_balanced {m : Objects Key} {key : AccountName ×ₗ Nat}
    (hgto : s.generatedTransactions.find? key = some gto)
    (h : Billed gto.payer (-gto.billedSize codec) s.toObjects m) : Balanced codec s.toObjects
      { m with generatedTransactions := m.generatedTransactions.erase key } := by
  constructor
  · intro a
    have hexcess : m.excess codec a = _ := h.excess a
    rw [share_neg] at hexcess
    simp only [excess, charged, ramUsageOf, h.generatedTransactions]
      at hexcess ⊢
    rw [total_erase_sub, hgto]
    simp only [map_some, getD_some]
    omega
  · intro hids
    rw [h.generatedTransactions]
    exact forall_erase hids

lemma cancelDeferredTransaction_balanced {b : Bool}
    (h : cancelDeferredTransaction codec senderId sender s = .ok (b, s')) :
    Balanced codec s.toObjects s'.toObjects := by
  unfold cancelDeferredTransaction at h
  split at h
  case h_1 =>
    cases h
    exact ⟨fun _ => rfl, id⟩
  case h_2 gto hgto =>
    obtain ⟨m, hm, h⟩ := bind_ok_iff.mp h
    cases h
    exact removed_balanced hgto (addRamUsage_billed hm)

lemma pushScheduledTransaction_balanced {trxId : Digest}
    (h : c.pushScheduledTransaction codec trxId s = .ok s') :
    Balanced codec s.toObjects s'.toObjects := by
  unfold pushScheduledTransaction at h
  split at h
  case h_1 => cases h
  case h_2 key gto hfind =>
    simp only [bind_ok_iff, eosAssert_ok_iff, removeScheduledTransaction] at h
    obtain ⟨m, ⟨usage, husage, hm⟩, _, _, h⟩ := h
    cases hm
    cases h
    have hgto := FlatMap.find?_eq_some.mpr (List.mem_of_find?_eq_some hfind)
    have hbilled : Billed gto.payer (-gto.billedSize codec) s.toObjects
        { s.toObjects with ramUsage := usage } :=
      ⟨rfl, rfl, rfl, addPendingRamUsage_ok husage⟩
    exact removed_balanced hgto hbilled

lemma addNetUsage_toObjects {u : Nat} (h : c.addNetUsage u s = .ok s') :
    s'.toObjects = s.toObjects := by
  obtain ⟨_, _, h⟩ := bind_ok_iff.mp h
  cases h
  rfl

lemma scheduleTransaction_balanced {delay : Int}
    (h : c.scheduleTransaction codec trx delay s = .ok s') :
    Balanced codec s.toObjects s'.toObjects := by
  obtain ⟨m, hm, h⟩ := bind_ok_iff.mp h
  obtain ⟨r, hr, h⟩ := bind_ok_iff.mp h
  have hobjects : m.toObjects = s.toObjects := by
    unfold chargeRetirement at hm
    split at hm
    case isTrue => exact addNetUsage_toObjects hm
    case isFalse =>
      cases hm
      rfl
  rw [u32_packSize] at h
  rw [← hobjects]
  exact created_balanced rfl hr h

/-- What an operation leaves behind that is not balanced: the charge for an object that is no
longer there. -/
def Leaks (codec : TransactionCodec Key) (s s' : Objects Key)
    (old : GeneratedTransactionObject Key) : Prop :=
  ∀ a, s'.excess codec a = s.excess codec a + share a old.payer (old.billedSize codec)

variable [DecidableEq Key]

lemma scheduleDeferredTransaction_ok {replaceExisting : Bool}
    (h : c.scheduleDeferredTransaction codec senderId payer trx replaceExisting s = .ok s') :
    match s.generatedTransactions.find? (toLex (c.receiver, senderId)) with
    | none => Balanced codec s.toObjects s'.toObjects
    | some old => Leaks codec s.toObjects s'.toObjects old := by
  unfold scheduleDeferredTransaction at h
  simp only [bind_ok_iff, eosAssert_ok_iff] at h
  obtain ⟨_, _, _, _, m, hm, _, _, r, hr, _, _, h⟩ := h
  rw [← addNetUsage_toObjects hm]
  rw [u32_packSize] at h
  unfold storeDeferred at hr
  split at hr
  case h_1 old hold =>
    simp only [bind_ok_iff, eosAssert_ok_iff] at hr
    obtain ⟨_, _, _, _, hr⟩ := hr
    have hbilled := addRamUsage_billed h
    cases hr
    rw [hold]
    intro a
    rw [hbilled.excess]
    simp only [excess, charged, ramUsageOf]
    rw [total_set_sub, hold]
    simp only [map_some, getD_some, published, GeneratedTransactionObject.billedSize]
    omega
  case h_2 hnone =>
    rw [hnone]
    exact created_balanced rfl hr h

end ApplyContext

lemma billedSize_pos (gto : GeneratedTransactionObject Key) : 0 < gto.billedSize codec := by
  have hsize : 0 < Config.generatedTransactionBillableSize := by decide
  unfold GeneratedTransactionObject.billedSize
  omega

def Replaces (s : Objects Key) (call : Call Key) : Prop :=
  match call.request with
  | .scheduleDeferredTransaction senderId _ _ _ =>
    (s.generatedTransactions.find? (toLex (call.context.receiver, senderId))).isSome
  | _ => False

section Runs
variable [DecidableEq Key] (codec : TransactionCodec Key)

def Step (s : Objects Key) (call : Call Key) (s' : Objects Key) : Prop :=
  call.context.control.isProducingBlock = false ∧ call.run codec s = .ok s'

def step? (s : Objects Key) (call : Call Key) : Option (Objects Key) :=
  if call.context.control.isProducingBlock = false then (call.run codec s).toOption else none

variable {codec} {start s s' t : Objects Key} {call : Call Key}

lemma step_of_step? (h : step? codec s call = some s') : Step codec s call s' := ok_of_guarded h

/-- One request: it is balanced, or it replaces a deferred transaction and leaks its charge. -/
lemma run_cases (h : call.run codec s = .ok s') : ¬ Replaces s call ∧ Balanced codec s s' ∨
      Replaces s call ∧ ∃ old, ApplyContext.Leaks codec s s' old := by
  obtain ⟨context, request, netUsage, validateRamUsage, inlineActions⟩ := call
  obtain ⟨m, hm, h⟩ := bind_ok_iff.mp h
  cases h
  cases request with
  | dbStoreI64 scope table payer primary buffer =>
    exact .inl ⟨id, dbStoreI64_balanced hm⟩
  | dbUpdateI64 code scope table primary payer buffer =>
    exact .inl ⟨id, dbUpdateI64_balanced hm⟩
  | dbRemoveI64 code scope table primary => exact .inl ⟨id, dbRemoveI64_balanced hm⟩
  | scheduleDeferredTransaction senderId payer trx replaceExisting =>
    have hcases := scheduleDeferredTransaction_ok hm
    unfold Replaces
    dsimp only at hcases ⊢
    cases hfind : s.generatedTransactions.find? (toLex (context.receiver, senderId)) with
    | none =>
      rw [hfind] at hcases
      exact .inl ⟨by simp, hcases⟩
    | some old =>
      rw [hfind] at hcases
      exact .inr ⟨rfl, old, hcases⟩
  | cancelDeferredTransaction senderId sender =>
    obtain ⟨⟨b, r⟩, hr, hm⟩ := bind_ok_iff.mp hm
    cases hm
    exact .inl ⟨id, cancelDeferredTransaction_balanced hr⟩
  | scheduleTransaction trx delay =>
    exact .inl ⟨id, scheduleTransaction_balanced hm⟩
  | pushScheduledTransaction trxId =>
    exact .inl ⟨id, pushScheduledTransaction_balanced hm⟩

lemma step_exact_iff (hstep : Step codec s call s') (hexact : s.Exact codec start)
    (hids : s.IdsMatch codec) : (s'.Exact codec start ∧ s'.IdsMatch codec) ↔ ¬ Replaces s call := by
  rcases run_cases hstep.2 with ⟨hkeeps, hbalanced⟩ | ⟨hreplaces, old, hleaks⟩
  · refine iff_of_true ⟨?_, hbalanced.idsMatch hids⟩ hkeeps
    apply exact_iff.mpr
    intro a
    rw [hbalanced.excess, exact_iff.mp hexact]
  refine iff_of_false ?_ (not_not.mpr hreplaces)
  rintro ⟨hexact', -⟩
  -- the payer of the old transaction is billed for it still
  have hbefore := exact_iff.mp hexact old.payer
  have hafter := exact_iff.mp hexact' old.payer
  have hpayer := hleaks old.payer
  have hpos : 0 < old.billedSize codec := billedSize_pos old
  unfold share at hpayer
  rw [if_pos rfl] at hpayer
  omega

/-- In every state of a run the bills are exact and the ids match, exactly when no step of the run
replaces a deferred transaction. The same holds of each step that is taken in such a state. -/
theorem ram_exact_iff {es : List (Objects Key × Call Key × Objects Key)}
    (hrun : Steps (Step codec) start es t) (hids : start.IdsMatch codec) :
    ((∀ e ∈ es, e.2.2.Exact codec start ∧ e.2.2.IdsMatch codec) ↔ ∀ e ∈ es, ¬ Replaces e.1 e.2.1) ∧
      ∀ call s', t.Exact codec start → t.IdsMatch codec → Step codec t call s' →
        (s'.Exact codec start ∧ s'.IdsMatch codec ↔ ¬ Replaces t call) := by
  refine ⟨?_, fun call s' hexact hmatch hstep => step_exact_iff hstep hexact hmatch⟩
  have hstart : start.Exact codec start := exact_iff.mpr fun _ => rfl
  exact hrun.throughout_iff (Q := fun _ => True)
    (P := fun s => s.Exact codec start ∧ s.IdsMatch codec)
    (C := fun s call => ¬ Replaces s call) (fun _ _ => trivial)
    (fun _ hP hstep => step_exact_iff hstep hP.1 hP.2) trivial ⟨hstart, hids⟩

end Runs

/-- The contract sends itself a transaction, always under the same id. -/
def send (delaySec : Nat) : Call Nat :=
  { context := contractContext .complete
    request := .scheduleDeferredTransaction 1 contract (toItself delaySec) true }

def unbilled : Objects Nat := { ramUsage := FlatMap.empty.set contract 0 }

lemma unbilled_idsMatch : unbilled.IdsMatch delayCodec := by
  intro k g hg
  cases hg

/-- What the contract is billed, what it pays for, and whether the stored ids match. -/
def accounts (s : Objects Nat) : Nat × Int × List Bool :=
  (s.ramUsageOf contract, s.charged delayCodec contract,
    s.generatedTransactions.entries.map fun e => e.2.trxId = delayCodec.id e.2.packedTrx)

lemma send_replay :
    (Steps.replay (step? delayCodec) unbilled [send 60]).map accounts = some (372, 372, [true]) ∧
      (Steps.replay (step? delayCodec) unbilled [send 60, send 90]).map accounts =
        some (744, 372, [false]) := by
  decide +kernel

/-- After a replacement the payer is billed for two transactions and has one, and that one has
the id of the other. -/
theorem replacement_leaks : ∃ s : Objects Nat, ∃ es,
    Steps (Step delayCodec) unbilled es s ∧ unbilled.IdsMatch delayCodec ∧
      ¬ s.Exact delayCodec unbilled ∧ ¬ s.IdsMatch delayCodec := by
  obtain ⟨s, hreplay, haccounts⟩ := map_eq_some_iff.mp send_replay.2
  obtain ⟨es, hrun, -⟩ := Steps.of_replay step_of_step? hreplay
  have hram : s.ramUsageOf contract = 744 := congrArg (fun x => x.1) haccounts
  have hcharged : s.charged delayCodec contract = 372 := congrArg (fun x => x.2.1) haccounts
  have hids : s.generatedTransactions.entries.map
      (fun e => decide (e.2.trxId = delayCodec.id e.2.packedTrx)) = [false] :=
    congrArg (fun x => x.2.2) haccounts
  refine ⟨s, es, hrun, unbilled_idsMatch, ?_, ?_⟩
  · intro hexact
    have hcontract := hexact contract
    have hstart : unbilled.ramUsageOf contract = 0 ∧ unbilled.charged delayCodec contract = 0 := by
      decide
    omega
  intro hmatch
  have hfalse : false ∈ s.generatedTransactions.entries.map
      (fun e => decide (e.2.trxId = delayCodec.id e.2.packedTrx)) := by
    rw [hids]
    exact List.mem_singleton_self _
  obtain ⟨e, he, hne⟩ := List.mem_map.mp hfalse
  exact of_decide_eq_false hne (hmatch e.1 e.2 (FlatMap.find?_eq_some.mpr he))

theorem ram_exact_first : ∃ s : Objects Nat,
    Steps (Step delayCodec) unbilled [(unbilled, send 60, s)] s ∧ s.Exact delayCodec unbilled ∧
    s.IdsMatch delayCodec ∧ s.ramUsageOf contract = 372 := by
  obtain ⟨s, hreplay, haccounts⟩ := map_eq_some_iff.mp send_replay.1
  obtain ⟨m, hstep, hlast⟩ := bind_eq_some_iff.mp hreplay
  cases hlast
  have hrun : Steps (Step delayCodec) unbilled [(unbilled, send 60, s)] s :=
    .snoc (.nil _) (step_of_step? hstep)
  have hexact := (ram_exact_iff hrun unbilled_idsMatch).1.mpr (by
    intro e he
    obtain rfl := List.mem_singleton.mp he
    exact Bool.false_ne_true)
  obtain ⟨hexact, hmatch⟩ := hexact _ (List.mem_singleton_self _)
  exact ⟨s, hrun, hexact, hmatch, congrArg (fun x => x.1) haccounts⟩

end DimensionChain.Apply
