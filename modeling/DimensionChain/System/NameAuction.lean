import DimensionChain.Base.Steps
import DimensionChain.Chain.BlockHeaderState
import DimensionChain.System.Governance

/-!
# Auctions of names

Bids on names, the accounts that are created under them, and the daily close in `onblock`. The
close looks at the first row of the index by the negated bid, read as an unsigned number. There
every auction that is not open stands before all open ones, so that one closed auction which
nobody claims keeps all others open. The counters of unpaid blocks and of rewards are left out.
-/

namespace DimensionChain.System

open Int64 FlatMap NameBid

def minProducerSize : Int := 7

def blocksPerDay : Nat := 2 * 24 * 3600

def usecondsPerDay : Nat := 24 * 3600 * 1000000

namespace NameBid

def byHighBid (b : NameBid) : Nat := (-b.highBid).toUInt64.toNat

def close (b : NameBid) : NameBid := { b with highBid := -b.highBid }

end NameBid

/-- The loop of `name_suffix`: the bits that remain after the last dot that a character follows,
and those after the last dot. -/
def suffixLoop (n : Nat) : List Nat → Nat × Nat → Nat × Nat
  | [], acc => acc
  | bits :: rest, (afterDot, tmp) =>
    if n / 2 ^ bits % 32 = 0 then suffixLoop n rest (afterDot, bits)
    else suffixLoop n rest (tmp, tmp)

def nameSuffix (n : Nat) : Nat :=
  let (afterDot, tmp) := suffixLoop n [59, 54, 49, 44, 39, 34, 29, 24, 19, 14, 9, 4] (0, 0)
  let thirteenth := n % 16
  let afterDot := if thirteenth ≠ 0 then tmp else afterDot
  if afterDot = 0 then n
  else (n &&& (2 ^ afterDot - 16)) * 2 ^ (64 - afterDot) % 2 ^ 64 +
    thirteenth * 2 ^ (64 - afterDot - 1)

def hasDot : Nat → Nat → Bool
  | 0, _ => false
  | n + 1, tmp => tmp % 32 = 0 || hasDot n (tmp / 32)

/-- What an action reads of the chain. -/
structure AuctionEnv (Key : Type) where
  env : Env
  currentTime : Nat
  isAccount : AccountName → Bool
  validKey : Key → Bool

/-- The assertions of `set_proposed_producers`. -/
def AuctionEnv.checkProducers {Key : Type} (around : AuctionEnv Key)
    (producers : List (AccountName × Key)) : Result Unit := do
  eosAssert (producers.length ≤ Config.maxProducers) .wasmExecution
    "Producer schedule exceeds the maximum producer count for this chain"
  producers.forM fun p => do
    eosAssert (around.isAccount p.1) .wasmExecution
      "producer schedule includes a nonexisting account"
    eosAssert (around.validKey p.2) .wasmExecution "producer schedule includes an invalid key"
  eosAssert (producers.map Prod.fst).Nodup .wasmExecution
    "duplicate producer name in producer schedule"

namespace SystemState
variable {Key : Type} {creator newact : AccountName}

section Actions
variable (s : SystemState Key)

def raiseBid (currentTime : Nat) (bidder newname : AccountName) (amount : Int64) : SystemState Key :=
  { s with namebids := s.namebids.set newname ⟨bidder, amount, currentTime⟩ }

def bidname (env : Env) (currentTime : Nat) (isAccount : AccountName → Bool)
    (bidder newname : AccountName) (bid : Asset) : Result (SystemState Key) := do
  requireAuth env bidder
  eosioAssert (nameSuffix newname = newname) "you can only bid on top-level suffix"
  eosioAssert (newname ≠ 0) "the empty name is not a valid account name to bid on"
  eosioAssert (newname &&& 0xF = 0) "13 character names are not valid account names to bid on"
  eosioAssert (newname &&& 0x1F0 = 0)
    "accounts with 12 character names and no dots can be created without bidding required"
  eosioAssert (isAccount newname = false) "account already exists"
  eosioAssert (bid.symbol = Config.coreSymbol) "asset must be system token"
  eosioAssert (0 < bid.amount) "insufficient bid"
  let s := s.sendAsset bidder Config.namesAccount bid
    ("bid name " ++ String.ofList (Name.toChars newname))
  match s.namebids.find? newname with
  | none => pure (s.raiseBid currentTime bidder newname bid.amount)
  | some current => do
    eosioAssert (0 < current.highBid) "this auction has already closed"
    eosioAssert (current.highBid / 10 < bid.amount - current.highBid) "must increase bid by 10%"
    eosioAssert (current.highBidder ≠ bidder) "account is already highest bidder"
    let refund ← Asset.make current.highBid Config.coreSymbol
    let s := s.sendAsset Config.namesAccount current.highBidder refund
      ("refund bid on name " ++ String.ofList (Name.toChars newname))
    pure (s.raiseBid currentTime bidder newname bid.amount)

def claimName (creator newact : AccountName) : Result (SystemState Key) :=
  if creator ≠ Config.systemAccountName ∧ hasDot 12 (newact / 16) = true then
    if nameSuffix newact = newact then do
      let current ← getRow s.namebids newact "no active bid for name"
      eosioAssert (current.highBidder = creator) "only highest bidder can claim"
      eosioAssert (current.highBid < 0) "auction for name is not closed yet"
      pure { s with namebids := s.namebids.erase newact }
    else do
      eosioAssert (creator = nameSuffix newact) "only suffix may create this account"
      pure s
  else pure s

def newaccount (creator newact : AccountName) : Result (SystemState Key) := do
  let s ← s.claimName creator newact
  eosAssert (s.userres.find? newact = none) .uniqueness uniquenessViolated
  let s := { s with userres := s.userres.set newact ⟨0, 0, 0⟩ }
  s.setResourceLimits newact 0 0 0

/-- `idx.begin()` of the index `highbid`; rows with one key are in the order of their names. -/
def highest : Option (AccountName × NameBid) :=
  s.namebids.entries.argmin fun row => toLex (row.2.byHighBid, row.1)

def closeAuction (currentTime timestamp : Nat) : SystemState Key :=
  match s.highest with
  | none => s
  | some (name, b) =>
    if 0 < b.highBid ∧ b.lastBidTime < sub64 currentTime usecondsPerDay ∧
        0 < s.gstate.threshActivatedStakeTime ∧
        14 * usecondsPerDay < sub64 currentTime s.gstate.threshActivatedStakeTime then
      { s with gstate.lastNameClose := timestamp, namebids := s.namebids.set name b.close }
    else s

/-- `update_elected_producers`, with the call of `set_proposed_producers` in it. -/
def proposeSchedule (around : AuctionEnv Key) (timestamp : Nat) : Result (SystemState Key) := do
  around.checkProducers s.updateElectedProducers
  pure { s with
    gstate.lastProducerScheduleUpdate := timestamp
    proposedSchedules := s.proposedSchedules ++ [s.updateElectedProducers] }

def onblock (around : AuctionEnv Key) (timestamp : Nat) : Result (SystemState Key) := do
  requireAuth around.env Config.systemAccountName
  if s.gstate.totalProposalStake < minProposalStake ∨ s.gstate.producerNum < minProducerSize then
    pure s
  else if 240 < sub32 timestamp s.gstate.lastProducerScheduleUpdate then do
    let s ← s.proposeSchedule around timestamp
    if blocksPerDay < sub32 timestamp s.gstate.lastNameClose then
      pure (s.closeAuction around.currentTime timestamp)
    else pure s
  else pure s

end Actions

lemma newaccount_frame {s s' : SystemState Key} (h : s.newaccount creator newact = .ok s') :
    s.userres.find? newact = none ∧ ∃ namebids, s' = { s with
      namebids := namebids
      userres := s.userres.set newact ⟨0, 0, 0⟩
      resourceLimits := s.resourceLimits.set newact ⟨0, 0, 0⟩ } := by
  obtain ⟨s₁, hclaim, h⟩ := bind_ok_iff.mp h
  obtain ⟨hfresh, hlimits⟩ := assert_ok h
  have hclaimed : ∃ namebids, s₁ = { s with namebids := namebids } := by
    unfold claimName at hclaim
    split at hclaim
    · split at hclaim
      · obtain ⟨current, hclaim⟩ := ok_after hclaim
        obtain ⟨_, hclaim⟩ := ok_after hclaim
        obtain ⟨_, hclaim⟩ := ok_after hclaim
        cases hclaim
        exact ⟨_, rfl⟩
      · obtain ⟨_, hclaim⟩ := ok_after hclaim
        cases hclaim
        exact ⟨_, rfl⟩
    · cases hclaim
      exact ⟨_, rfl⟩
  obtain ⟨namebids, rfl⟩ := hclaimed
  exact ⟨hfresh, namebids, setResourceLimits_ok hlimits⟩

section Index
variable {s : SystemState Key} {name : AccountName} {b : NameBid}

lemma byHighBid_of_open (h : 0 < b.highBid) : (b.byHighBid : Int) = 2 ^ 64 - b.highBid.toInt := by
  have hpos : 0 < b.highBid.toInt := lt_iff_toInt_lt.mp h
  unfold byHighBid
  rw [toNat_toUInt64_eq, toInt_neg_of_fits (by omega), if_neg (by omega)]
  omega

lemma byHighBid_of_not_open (h : ¬0 < b.highBid) : (b.byHighBid : Int) ≤ 2 ^ 63 := by
  have hle : b.highBid.toInt ≤ 0 := by
    rw [lt_iff_toInt_lt] at h
    exact not_lt.mp h
  have hlow := le_toInt b.highBid
  unfold byHighBid
  rw [toNat_toUInt64_eq]
  by_cases hmin : -2 ^ 63 < b.highBid.toInt
  · rw [toInt_neg_of_fits hmin, if_pos (by omega)]
    omega
  -- the least number is its own negation
  have heq : b.highBid = Int64.minValue := by
    rw [← toInt_inj]
    exact le_antisymm (not_lt.mp hmin) hlow
  rw [heq]
  decide

lemma byHighBid_lt_of_open {open' : NameBid} (h : ¬0 < b.highBid) (hopen : 0 < open'.highBid) :
    b.byHighBid < open'.byHighBid := by
  have hkey := byHighBid_of_not_open h
  have hkey' := byHighBid_of_open hopen
  have hlt := toInt_lt open'.highBid
  omega

variable (h : s.highest = some (name, b)) {q : AccountName} {c : NameBid}
include h

lemma highest_mem : s.namebids.find? name = some b :=
  find?_eq_some.mpr (List.argmin_mem h)

lemma highest_le (hq : s.namebids.find? q = some c) :
    b.byHighBid < c.byHighBid ∨ b.byHighBid = c.byHighBid ∧ name ≤ q := by
  have hle := List.le_of_mem_argmin (find?_eq_some.mp hq) h
  rw [Prod.Lex.toLex_le_toLex] at hle
  exact hle

lemma highest_not_open
    (hq : s.namebids.find? q = some c) (hclosed : ¬0 < c.highBid) : ¬0 < b.highBid := by
  intro hopen
  have hlt := byHighBid_lt_of_open hclosed hopen
  rcases highest_le h hq with hle | ⟨heq, -⟩
  · exact absurd (hlt.trans hle) (lt_irrefl _)
  · exact absurd heq.symm hlt.ne

omit h

lemma highest_eq (hrow : s.namebids.find? name = some b)
    (hfirst : ∀ q c, s.namebids.find? q = some c →
      b.byHighBid < c.byHighBid ∨ b.byHighBid = c.byHighBid ∧ name ≤ q) :
    s.highest = some (name, b) := by
  cases hhead : s.highest with
  | none =>
    have hnil : s.namebids.entries = [] := List.argmin_eq_none.mp hhead
    have hmem := find?_eq_some.mp hrow
    rw [hnil] at hmem
    cases hmem
  | some row =>
    obtain ⟨q, c⟩ := row
    have hq := highest_mem hhead
    have hname : name = q := by
      rcases hfirst q c hq with hlt | ⟨heq, hle⟩
      · rcases highest_le hhead hrow with hlt' | ⟨heq', -⟩
        · exact absurd (hlt.trans hlt') (lt_irrefl _)
        · exact absurd heq' hlt.ne'
      · rcases highest_le hhead hrow with hlt' | ⟨-, hle'⟩
        · exact absurd heq hlt'.ne'
        · exact le_antisymm hle hle'
    subst hname
    rw [hrow] at hq
    cases hq
    rfl

end Index

section Close
variable {s : SystemState Key} {around : AuctionEnv Key} {currentTime timestamp : Nat}
  {b : NameBid} {name : AccountName}

structure CloseDue (s : SystemState Key) (around : AuctionEnv Key) (timestamp : Nat) : Prop where
  auth : Config.systemAccountName ∈ around.env.auths
  stake : minProposalStake ≤ s.gstate.totalProposalStake
  producers : minProducerSize ≤ s.gstate.producerNum
  schedule : 240 < sub32 timestamp s.gstate.lastProducerScheduleUpdate
  day : blocksPerDay < sub32 timestamp s.gstate.lastNameClose
  activated : 0 < s.gstate.threshActivatedStakeTime
  since : 14 * usecondsPerDay < sub64 around.currentTime s.gstate.threshActivatedStakeTime

/-- The schedule that `set_proposed_producers` takes: at most 125 producers, all of them accounts
with valid keys. -/
structure Proposable (around : AuctionEnv Key) (producers : List (AccountName × Key)) : Prop where
  length : producers.length ≤ Config.maxProducers
  producer : ∀ p ∈ producers, around.isAccount p.1 = true ∧ around.validKey p.2 = true

/-- No open bid is larger, and none was made on the name for a day. -/
structure LargestIdle (s : SystemState Key) (currentTime : Nat) (name : AccountName) (b : NameBid) :
    Prop where
  row : s.namebids.find? name = some b
  isOpen : 0 < b.highBid
  largest : ∀ q c, s.namebids.find? q = some c → 0 < c.highBid → c.highBid ≤ b.highBid
  idle : b.lastBidTime < sub64 currentTime usecondsPerDay

lemma forM_ok_iff {α : Type} {f : α → Result Unit} {l : List α} :
    l.forM f = .ok () ↔ ∀ a ∈ l, f a = .ok () := by
  induction l with
  | nil => exact ⟨fun _ => nofun, fun _ => rfl⟩
  | cons a l ih =>
    rw [List.forall_mem_cons, ← ih]
    change (f a >>= fun _ => l.forM f) = .ok () ↔ _
    rw [bind_ok_iff]
    exact ⟨fun ⟨_, ha, hl⟩ => ⟨ha, hl⟩, fun ⟨ha, hl⟩ => ⟨(), ha, hl⟩⟩

lemma topProducers_sublist (limit : Int) (rows top : List (AccountName × ProducerInfo Key)) :
    ∃ chosen, topProducers limit rows top = top ++ chosen ∧ chosen.Sublist rows := by
  induction rows generalizing top with
  | nil => exact ⟨[], (List.append_nil top).symm, .slnil⟩
  | cons row rows ih =>
    rw [topProducers]
    split
    · obtain ⟨chosen, heq, hsub⟩ := ih (if row.2.isActive then top ++ [row] else top)
      rw [heq]
      split
      · exact ⟨row :: chosen, by simp, hsub.cons_cons row⟩
      · exact ⟨chosen, rfl, hsub.cons row⟩
    · exact ⟨[], (List.append_nil top).symm, List.nil_sublist _⟩

lemma nodup_updateElectedProducers (s : SystemState Key) :
    (s.updateElectedProducers.map Prod.fst).Nodup := by
  obtain ⟨chosen, heq, hsub⟩ := topProducers_sublist s.gstate.producerNum s.producers.entries []
  have hkeys : (s.producers.entries.map Prod.fst).Nodup := s.producers.sorted.imp fun h => ne_of_lt h
  unfold updateElectedProducers
  rw [heq, List.nil_append, List.map_map]
  exact ((List.perm_insertionSort _ chosen).map Prod.fst).nodup_iff.mpr (hkeys.sublist (hsub.map _))

lemma checkProducers_ok_iff : around.checkProducers s.updateElectedProducers = .ok () ↔
    Proposable around s.updateElectedProducers := by
  simp only [AuctionEnv.checkProducers, bind_ok_iff, eosAssert_ok_iff, exists_const]
  constructor
  · rintro ⟨hlength, _, hall, -⟩
    refine ⟨hlength, fun p hp => ?_⟩
    simpa only [bind_ok_iff, eosAssert_ok_iff, exists_const] using forM_ok_iff.mp hall p hp
  · rintro ⟨hlength, hall⟩
    refine ⟨hlength, (), forM_ok_iff.mpr fun p hp => ?_, nodup_updateElectedProducers s⟩
    simpa only [bind_ok_iff, eosAssert_ok_iff, exists_const] using hall p hp

lemma CloseDue.onblock_ok_iff {s' : SystemState Key} (h : s.CloseDue around timestamp) :
    s.onblock around timestamp = .ok s' ↔ Proposable around s.updateElectedProducers ∧
      { s with
        gstate.lastProducerScheduleUpdate := timestamp
        proposedSchedules := s.proposedSchedules ++ [s.updateElectedProducers] }.closeAuction
          around.currentTime timestamp = s' := by
  have hstake : ¬(s.gstate.totalProposalStake < minProposalStake ∨
      s.gstate.producerNum < minProducerSize) := by
    rintro (hlow | hlow)
    · exact absurd h.stake (by rw [le_iff_toInt_le]; exact not_le.mpr (lt_iff_toInt_lt.mp hlow))
    · exact absurd h.producers (not_le.mpr hlow)
  rw [← checkProducers_ok_iff]
  unfold SystemState.onblock proposeSchedule
  simp only [bind_ok_iff, requireAuth_ok_iff, if_neg hstake, if_pos h.schedule]
  constructor
  · rintro ⟨_, -, t, ⟨_, hcheck, ht⟩, hs'⟩
    cases ht
    rw [if_pos h.day] at hs'
    exact ⟨hcheck, Except.ok.inj hs'⟩
  · rintro ⟨hcheck, rfl⟩
    exact ⟨(), h.auth, _, ⟨(), hcheck, rfl⟩, if_pos h.day⟩

lemma closeAuction_highest (hhead : s.highest = some (name, b)) (hopen : 0 < b.highBid)
    (hidle : b.lastBidTime < sub64 currentTime usecondsPerDay)
    (hactive : 0 < s.gstate.threshActivatedStakeTime)
    (hsince : 14 * usecondsPerDay < sub64 currentTime s.gstate.threshActivatedStakeTime) :
    (s.closeAuction currentTime timestamp).namebids = s.namebids.set name b.close := by
  unfold closeAuction
  rw [hhead]
  dsimp only
  rw [if_pos ⟨hopen, hidle, hactive, hsince⟩]

lemma find?_closeAuction_of_ne (hb : s.namebids.find? name = some b)
    (hne : s.highest ≠ some (name, b)) :
    (s.closeAuction currentTime timestamp).namebids.find? name = some b := by
  unfold closeAuction
  cases hhead : s.highest with
  | none => exact hb
  | some row =>
    obtain ⟨q, c⟩ := row
    dsimp only
    split
    · rw [find?_set, if_neg, hb]
      rintro rfl
      rw [highest_mem hhead] at hb
      cases hb
      exact hne hhead
    · exact hb

lemma close_ne (h : 0 < b.highBid) : b.close ≠ b := by
  intro heq
  have hbid : -b.highBid = b.highBid := congrArg highBid heq
  have hpos : 0 < b.highBid.toInt := lt_iff_toInt_lt.mp h
  have hneg := toInt_neg_of_fits (a := b.highBid) (by omega)
  rw [hbid] at hneg
  omega

lemma closes_iff_highest (hdue : s.CloseDue around timestamp)
    (hlargest : s.LargestIdle around.currentTime name b) :
    (∃ s', s.onblock around timestamp = .ok s' ∧ s'.namebids = s.namebids.set name b.close) ↔
      Proposable around s.updateElectedProducers ∧ s.highest = some (name, b) := by
  simp only [hdue.onblock_ok_iff]
  constructor
  · rintro ⟨s', ⟨hproposed, rfl⟩, hbids⟩
    refine ⟨hproposed, ?_⟩
    -- otherwise the row of the name is kept, but it is the closed one
    by_contra hne
    have hclosed : (s.namebids.set name b.close).find? name = some b := by
      rw [← hbids]
      exact find?_closeAuction_of_ne hlargest.row hne
    rw [find?_set, if_pos rfl] at hclosed
    exact close_ne hlargest.isOpen (Option.some.inj hclosed)
  rintro ⟨hproposed, hhead⟩
  exact ⟨_, ⟨hproposed, rfl⟩,
    closeAuction_highest hhead hlargest.isOpen hlargest.idle hdue.activated hdue.since⟩

/-- The largest open bid is the first row of the index exactly when no auction waits to be claimed
and no bid of the same amount is on a smaller name. -/
lemma highest_largest_iff (hlargest : s.LargestIdle currentTime name b) :
    s.highest = some (name, b) ↔ (∀ q c, s.namebids.find? q = some c → 0 < c.highBid) ∧
        ∀ q c, s.namebids.find? q = some c → c.highBid = b.highBid → name ≤ q := by
  constructor
  · intro hhead
    refine ⟨fun q c hq => ?_, fun q c hq heq => ?_⟩
    · by_contra hclosed
      exact highest_not_open hhead hq hclosed hlargest.isOpen
    rcases highest_le hhead hq with hlt | ⟨-, hle⟩
    · unfold byHighBid at hlt
      rw [heq] at hlt
      exact absurd hlt (lt_irrefl _)
    · exact hle
  rintro ⟨hopen, htie⟩
  refine highest_eq hlargest.row fun q c hq => ?_
  have hle := hlargest.largest q c hq (hopen q c hq)
  have hkey := byHighBid_of_open hlargest.isOpen
  have hkey' := byHighBid_of_open (hopen q c hq)
  rw [le_iff_toInt_le] at hle
  by_cases heq : c.highBid = b.highBid
  · refine .inr ⟨?_, htie q c hq heq⟩
    unfold byHighBid
    rw [heq]
  · have hne : c.highBid.toInt ≠ b.highBid.toInt := fun h => heq (toInt_inj.mp h)
    exact .inl (by omega)

/-- The daily close is of the largest open bid exactly when the schedule can be proposed and no
auction is waiting to be claimed; among bids of one amount it is of the one on the smallest name. -/
theorem onblock_closes_largest_iff (hdue : s.CloseDue around timestamp) {name : AccountName}
    {b : NameBid} (hlargest : s.LargestIdle around.currentTime name b) :
    (∃ s', s.onblock around timestamp = .ok s' ∧ s'.namebids = s.namebids.set name b.close) ↔
      Proposable around s.updateElectedProducers ∧
        (∀ q c, s.namebids.find? q = some c → 0 < c.highBid) ∧
        ∀ q c, s.namebids.find? q = some c → c.highBid = b.highBid → name ≤ q :=
  (closes_iff_highest hdue hlargest).trans (and_congr_right' (highest_largest_iff hlargest))

end Close

def wonName : AccountName := Name.stringToName ['w', 'o', 'n']

def hotName : AccountName := Name.stringToName ['h', 'o', 't']

/-- An active chain with an open auction, and with another one before it if there is a bid. -/
def auctions (wonBid : Option Int64) : SystemState Nat :=
  { gstate := { totalProposalStake := 1000000, producerNum := 7, threshActivatedStakeTime := 1 }
    namebids :=
      match wonBid with
      | none => FlatMap.empty.set hotName ⟨1, 500, 0⟩
      | some bid => (FlatMap.empty.set hotName ⟨1, 500, 0⟩).set wonName ⟨2, bid, 0⟩ }

def dayOfClose : AuctionEnv Nat :=
  ⟨⟨1296000, [Config.systemAccountName], 0, 0⟩, 1296000000000, fun _ => false, fun _ => false⟩

lemma auctions_proposable (wonBid : Option Int64) :
    Proposable dayOfClose (auctions wonBid).updateElectedProducers :=
  ⟨Nat.zero_le _, fun _ h => nomatch h⟩

lemma auctions_closeDue (wonBid : Option Int64) :
    (auctions wonBid).CloseDue dayOfClose 172801 := by
  have hgstate : (auctions wonBid).gstate =
      { totalProposalStake := 1000000, producerNum := 7, threshActivatedStakeTime := 1 } := rfl
  refine ⟨List.mem_singleton_self _, ?_, ?_, ?_, ?_, ?_, ?_⟩ <;> rw [hgstate] <;> decide

lemma auctions_largest {wonBid : Option Int64} (hwon : ∀ bid ∈ wonBid, bid ≤ 500) :
    (auctions wonBid).LargestIdle 1296000000000 hotName ⟨1, 500, 0⟩ := by
  refine ⟨?_, by decide, ?_, by decide⟩
  · cases wonBid with
    | none => rfl
    | some bid => rfl
  intro q c hq _
  cases wonBid with
  | none =>
    unfold auctions at hq
    rw [find?_set] at hq
    split at hq
    · cases hq
      decide
    · cases hq
  | some bid =>
    unfold auctions at hq
    rw [find?_set, find?_set] at hq
    split at hq
    · cases hq
      exact hwon bid rfl
    split at hq
    · cases hq
      decide
    · cases hq

/-- A closed auction that nobody has claimed keeps the largest open one open. -/
theorem unclaimed_auction_blocks : ∃ (s : SystemState Nat) (around : AuctionEnv Nat)
    (timestamp : Nat) (name : AccountName) (b : NameBid), s.CloseDue around timestamp ∧
      s.LargestIdle around.currentTime name b ∧ ∃ s', s.onblock around timestamp = .ok s' ∧
        s'.namebids.find? name = some b := by
  refine ⟨auctions (some (-1000)), dayOfClose, _, hotName, ⟨1, 500, 0⟩, auctions_closeDue _,
    auctions_largest ?_, _, (auctions_closeDue _).onblock_ok_iff.mpr ⟨auctions_proposable _, rfl⟩, ?_⟩
  · intro bid hbid
    cases hbid
    decide
  · decide +kernel

theorem onblock_closes_largest_alone : ∃ s',
    (auctions none).onblock dayOfClose 172801 = .ok s' ∧
      s'.namebids = (auctions none).namebids.set hotName (NameBid.close ⟨1, 500, 0⟩) := by
  have hlargest : (auctions none).LargestIdle 1296000000000 hotName ⟨1, 500, 0⟩ :=
    auctions_largest fun bid hbid => by cases hbid
  refine (onblock_closes_largest_iff (auctions_closeDue none) hlargest).mpr
    ⟨auctions_proposable none, fun q c hq => ?_, fun q c hq _ => ?_⟩
  · unfold auctions at hq
    rw [find?_set] at hq
    split at hq
    · cases hq
      decide
    · cases hq
  unfold auctions at hq
  rw [find?_set] at hq
  split at hq
  · rename_i hname
    exact hname.ge
  · cases hq

inductive NameAction where
  | bidname (bidder newname : AccountName) (bid : Asset)
  | newaccount (creator newact : AccountName)
  | onblock (timestamp : Nat)

def auction (s : SystemState Key) (around : AuctionEnv Key) :
    NameAction → Result (SystemState Key)
  | .bidname bidder newname bid =>
    s.bidname around.env around.currentTime around.isAccount bidder newname bid
  | .newaccount creator newact => s.newaccount creator newact
  | .onblock timestamp => s.onblock around timestamp

def AuctionStep (s : SystemState Key) (label : AuctionEnv Key × NameAction) (s' : SystemState Key) : Prop :=
  s.auction label.1 label.2 = .ok s'

variable {s s' : SystemState Key} {label : AuctionEnv Key × NameAction} {name q : AccountName}
  {env : Env} {es : List (SystemState Key × (AuctionEnv Key × NameAction) × SystemState Key)}

inductive BidsChange (s s' : SystemState Key) : NameAction → Prop where
  | kept {action : NameAction} : s'.namebids = s.namebids → BidsChange s s' action
  | raised {bidder newname : AccountName} {bid : Asset} (row : NameBid) :
      s'.namebids = s.namebids.set newname row → row.highBid = bid.amount → 0 < bid.amount →
      (∀ current, s.namebids.find? newname = some current →
        0 < current.highBid ∧ current.highBid / 10 < bid.amount - current.highBid) →
      BidsChange s s' (.bidname bidder newname bid)
  | claimed {creator newact : AccountName} (current : NameBid) :
      s.namebids.find? newact = some current → current.highBid < 0 →
      s'.namebids = s.namebids.erase newact → BidsChange s s' (.newaccount creator newact)
  | closed {timestamp : Nat} (name : AccountName) (b : NameBid) : s.highest = some (name, b) →
      0 < b.highBid → s'.namebids = s.namebids.set name b.close → BidsChange s s' (.onblock timestamp)

lemma bidsChange_of_bidname {currentTime : Nat} {isAccount : AccountName → Bool}
    {bidder newname : AccountName} {bid : Asset}
    (h : s.bidname env currentTime isAccount bidder newname bid = .ok s') :
    BidsChange s s' (.bidname bidder newname bid) := by
  simp only [bidname, bind_ok_iff] at h
  obtain ⟨_, -, _, -, _, -, _, -, _, -, _, -, _, -, _, hpos, hrow⟩ := h
  have hpos := eosioAssert_ok_iff.mp hpos
  change (match s.namebids.find? newname with | none => _ | some current => _) = _ at hrow
  cases hfound : s.namebids.find? newname with
  | none =>
    rw [hfound] at hrow
    cases hrow
    exact .raised _ rfl rfl hpos (by intro current hcurrent; rw [hfound] at hcurrent; cases hcurrent)
  | some current =>
    rw [hfound] at hrow
    obtain ⟨_, hopen, hrow⟩ := bind_ok_iff.mp hrow
    obtain ⟨_, hraise, hrow⟩ := bind_ok_iff.mp hrow
    obtain ⟨_, hrow⟩ := ok_after hrow
    obtain ⟨refund, hrow⟩ := ok_after hrow
    cases hrow
    refine .raised _ rfl rfl hpos ?_
    intro row hrow
    rw [hfound] at hrow
    cases hrow
    exact ⟨eosioAssert_ok_iff.mp hopen, eosioAssert_ok_iff.mp hraise⟩

lemma bidsChange_of_newaccount
    (h : s.newaccount creator newact = .ok s') : BidsChange s s' (.newaccount creator newact) := by
  obtain ⟨s₁, hclaim, h⟩ := bind_ok_iff.mp h
  obtain ⟨_, h⟩ := ok_after h
  have hbids : s'.namebids = s₁.namebids := by
    rw [setResourceLimits_ok h]
  unfold claimName at hclaim
  split at hclaim
  · split at hclaim
    · obtain ⟨current, hrow, hclaim⟩ := bind_ok_iff.mp hclaim
      obtain ⟨_, hclaim⟩ := ok_after hclaim
      obtain ⟨_, hclosed, hclaim⟩ := bind_ok_iff.mp hclaim
      cases hclaim
      exact .claimed current (getRow_ok_iff.mp hrow) (eosioAssert_ok_iff.mp hclosed) hbids
    · obtain ⟨_, hclaim⟩ := ok_after hclaim
      cases hclaim
      exact .kept hbids
  · cases hclaim
    exact .kept hbids

lemma bidsChange_of_onblock {around : AuctionEnv Key} {timestamp : Nat}
    (h : s.onblock around timestamp = .ok s') : BidsChange s s' (.onblock timestamp) := by
  obtain ⟨_, h⟩ := ok_after h
  split at h
  · cases h
    exact .kept rfl
  split at h
  · obtain ⟨t, ht, h⟩ := bind_ok_iff.mp h
    obtain ⟨_, ht⟩ := ok_after ht
    cases ht
    split at h
    · cases h
      change BidsChange s (match s.highest with | none => _ | some (name, b) => _) _
      cases hhead : s.highest with
      | none => exact .kept rfl
      | some row =>
        obtain ⟨name, b⟩ := row
        dsimp only
        split
        · rename_i hripe
          exact .closed name b hhead hripe.1 rfl
        · exact .kept rfl
    · cases h
      exact .kept rfl
  · cases h
    exact .kept rfl

lemma bidsChange_of_step (h : AuctionStep s label s') : BidsChange s s' label.2 := by
  obtain ⟨around, action⟩ := label
  cases action with
  | bidname bidder newname bid => exact bidsChange_of_bidname h
  | newaccount creator newact => exact bidsChange_of_newaccount h
  | onblock timestamp => exact bidsChange_of_onblock h

def Unclaimed (s : SystemState Key) (name : AccountName) : Prop :=
  ∃ b, s.namebids.find? name = some b ∧ b.highBid < 0

def OpenAuction (s : SystemState Key) (name : AccountName) : Prop :=
  ∃ b, s.namebids.find? name = some b ∧ 0 < b.highBid

lemma not_open_of_closed {b : NameBid} (h : b.highBid < 0) : ¬0 < b.highBid := by
  rw [lt_iff_toInt_lt] at h ⊢
  exact not_lt.mpr h.le

/-- What becomes of a bid: it stays, is raised, is claimed by an account of the name, or is closed. -/
lemma bid_cases {b : NameBid} (hstep : AuctionStep s label s')
    (hb : s.namebids.find? name = some b) : s'.namebids.find? name = some b ∨
      (∃ row, s'.namebids.find? name = some row ∧ 0 < b.highBid ∧ 0 < row.highBid ∧
        b.highBid / 10 < row.highBid - b.highBid) ∨
      (b.highBid < 0 ∧ ∃ creator, label.2 = .newaccount creator name) ∨
      s.highest = some (name, b) ∧ 0 < b.highBid ∧ s'.namebids.find? name = some b.close := by
  obtain ⟨around, action⟩ := label
  cases bidsChange_of_step hstep with
  | kept hbids => exact .inl (by rw [hbids, hb])
  | @raised bidder newname bid row hbids hrow hbid hcurrent =>
    rw [hbids, find?_set]
    split
    · rename_i hname
      obtain ⟨hopen, hraise⟩ := hcurrent b (hname ▸ hb)
      exact .inr (.inl ⟨row, rfl, hopen, hrow ▸ hbid, hrow ▸ hraise⟩)
    · exact .inl hb
  | @claimed creator newact current hrow hclosed hbids =>
    rw [hbids, find?_erase]
    split
    · rename_i hname
      subst hname
      rw [hb] at hrow
      cases hrow
      exact .inr (.inr (.inl ⟨hclosed, creator, rfl⟩))
    · exact .inl hb
  | closed first b' hhead hopen hbids =>
    rw [hbids, find?_set]
    split
    · rename_i hname
      subst hname
      rw [highest_mem hhead] at hb
      cases hb
      exact .inr (.inr (.inr ⟨hhead, hopen, rfl⟩))
    · exact .inl hb

lemma unclaimed_step
    (hstep : AuctionStep s label s') (hnot : ∀ creator, label.2 ≠ .newaccount creator name)
    (hunclaimed : s.Unclaimed name) (hopen : s.OpenAuction q) :
    s'.Unclaimed name ∧ s'.OpenAuction q := by
  obtain ⟨b, hb, hclosed⟩ := hunclaimed
  obtain ⟨c, hc, hpos⟩ := hopen
  have hnotOpen := not_open_of_closed hclosed
  constructor
  · rcases bid_cases hstep hb with hkept | ⟨-, -, hopen, -⟩ | ⟨-, creator, hclaim⟩ | ⟨-, hopen, -⟩
    · exact ⟨b, hkept, hclosed⟩
    · exact absurd hopen hnotOpen
    · exact absurd hclaim (hnot creator)
    · exact absurd hopen hnotOpen
  · rcases bid_cases hstep hc with hkept | ⟨row, hrow, -, hraised, -⟩ | ⟨hwon, -⟩ | ⟨hhead, -⟩
    · exact ⟨c, hkept, hpos⟩
    · exact ⟨row, hrow, hraised⟩
    · exact absurd hpos (not_open_of_closed hwon)
    · exact absurd hpos (highest_not_open hhead hb hnotOpen)

/-- One closed auction that is never claimed keeps every open auction open for good. -/
theorem unclaimed_run (hrun : Steps (fun s label s' => AuctionStep s label s' ∧
      ∀ creator, label.2 ≠ .newaccount creator name) s es s')
    (hunclaimed : s.Unclaimed name) (hopen : s.OpenAuction q) : s'.OpenAuction q :=
  (hrun.invariant (Q := fun s => s.Unclaimed name ∧ s.OpenAuction q)
    (fun h hstep => unclaimed_step hstep.1 hstep.2 h.1 h.2) ⟨hunclaimed, hopen⟩).2

theorem unclaimed_run_onblock : ∃ label s', AuctionStep (auctions (some (-1000))) label s' ∧
    s'.OpenAuction hotName := by
  have hstep : AuctionStep _ (dayOfClose, .onblock _) _ :=
    (auctions_closeDue (some (-1000))).onblock_ok_iff.mpr ⟨auctions_proposable _, rfl⟩
  have hwon : (auctions (some (-1000))).Unclaimed wonName := ⟨_, rfl, by decide⟩
  refine ⟨_, _, hstep, ?_⟩
  exact unclaimed_run (.snoc (.nil _) ⟨hstep, fun _ h => nomatch h⟩) hwon ⟨_, rfl, by decide⟩

/-- The bid on a name is at least `amount`; that of a closed auction is negated. -/
def BidAtLeast (s : SystemState Key) (name : AccountName) (amount : Int) : Prop :=
  ∃ b, s.namebids.find? name = some b ∧ amount ≤ |b.highBid.toInt|

lemma toInt_le_of_raise {a b : Int64} (ha : 0 < a.toInt) (hb : 0 < b.toInt)
    (h : a / 10 < b - a) : a.toInt ≤ b.toInt := by
  have hlow := a.toInt_lt
  have hhigh := b.toInt_lt
  have htenth : 0 ≤ (a / 10).toInt := by
    rw [toInt_div_of_ne_right _ _ (by decide)]
    exact Int.tdiv_nonneg ha.le (by decide)
  rw [lt_iff_toInt_lt, toInt_sub_of_fits (by omega) (by omega)] at h
  omega

lemma bidAtLeast_step {amount : Int} (hstep : AuctionStep s label s')
    (hnot : ∀ creator, label.2 ≠ .newaccount creator name) (h : s.BidAtLeast name amount) :
    s'.BidAtLeast name amount := by
  obtain ⟨b, hb, hle⟩ := h
  rcases bid_cases hstep hb with
    hkept | ⟨row, hrow, hopen, hpos, hraise⟩ | ⟨-, creator, hclaim⟩ | ⟨-, hopen, hclose⟩
  · exact ⟨b, hkept, hle⟩
  · have hopen : 0 < b.highBid.toInt := lt_iff_toInt_lt.mp hopen
    have hpos : 0 < row.highBid.toInt := lt_iff_toInt_lt.mp hpos
    refine ⟨row, hrow, hle.trans ?_⟩
    rw [abs_of_pos hopen, abs_of_pos hpos]
    exact toInt_le_of_raise hopen hpos hraise
  · exact absurd hclaim (hnot creator)
  · have hopen : 0 < b.highBid.toInt := lt_iff_toInt_lt.mp hopen
    refine ⟨b.close, hclose, hle.trans ?_⟩
    rw [NameBid.close, toInt_neg_of_fits (by omega), abs_neg]

/-- Until an account of the name is created, the bid on it neither falls nor is lost. -/
theorem bid_stands {amount : Int}
    (hrun : Steps (fun s label s' => AuctionStep s label s' ∧
      ∀ creator, label.2 ≠ .newaccount creator name) s es s')
    (h : s.BidAtLeast name amount) : s'.BidAtLeast name amount :=
  hrun.invariant (Q := fun s => s.BidAtLeast name amount)
    (fun h hstep => bidAtLeast_step hstep.1 hstep.2 h) h

theorem bid_stands_onblock : ∃ label s', AuctionStep (auctions none) label s' ∧
    s'.BidAtLeast hotName 500 := by
  have hstep : AuctionStep _ (dayOfClose, .onblock _) _ :=
    (auctions_closeDue none).onblock_ok_iff.mpr ⟨auctions_proposable _, rfl⟩
  refine ⟨_, _, hstep, ?_⟩
  exact bid_stands (.snoc (.nil _) ⟨hstep, fun _ h => nomatch h⟩) ⟨_, rfl, by decide⟩

end SystemState

end DimensionChain.System
