import DimensionChain.Base.FlatMapSum
import DimensionChain.System.Exchange

/-!
# Tables of the system contract

Each multi-index table is a sorted map from its primary key, with the scope in front where a table
has several. Amounts and tallies are 64-bit integers that wrap; counters that move by one with an
action are integers. All staked assets have the core symbol, which the actions check first, so
their rows hold amounts. Inline transfers, calls of `set_consensus_type` and proposed schedules
are appended to logs; the limits last set for an account are kept in a map.
-/

namespace DimensionChain.System

abbrev Time := Nat

namespace Config

def systemAccountName : AccountName := DimensionChain.Config.systemAccountName

def stakeAccount : AccountName :=
  Name.stringToName ['e', 'o', 'n', 'i', 'o', '.', 's', 't', 'a', 'k', 'e']

def bpstkAccount : AccountName :=
  Name.stringToName ['e', 'o', 'n', 'i', 'o', '.', 'b', 'p', 's', 't', 'k']

def propAccount : AccountName := Name.stringToName ['e', 'o', 'n', 'i', 'o', '.', 'p', 'r', 'o', 'p']

def ramAccount : AccountName := Name.stringToName ['e', 'o', 'n', 'i', 'o', '.', 'r', 'a', 'm']

def ramfeeAccount : AccountName :=
  Name.stringToName ['e', 'o', 'n', 'i', 'o', '.', 'r', 'a', 'm', 'f', 'e', 'e']

def namesAccount : AccountName :=
  Name.stringToName ['e', 'o', 'n', 'i', 'o', '.', 'n', 'a', 'm', 'e', 's']

def b1Account : AccountName := Name.stringToName ['b', '1']

end Config

/-- What an action finds around it: the time of the block, the accounts that authorized it, the
amount that `validate_b1_vesting` computes in floating point, and what the stake of a voter
reads as through an iterator past the end of the table. -/
structure Env where
  now : Time
  auths : List AccountName
  claimable : Int64 := 0
  endStaked : Int64 := 0
  deriving DecidableEq, Repr

def requireAuth (env : Env) (account : AccountName) : Result Unit :=
  requireAuthOf env.auths account

variable {account : AccountName}

@[simp] lemma requireAuth_ok_iff {env : Env} {u : Unit} :
    requireAuth env account = .ok u ↔ account ∈ env.auths := requireAuthOf_ok_iff

structure VoterInfo where
  staked : Int64
  deriving DecidableEq, Repr

/-- A producer. The votes for producers are all zero, so the rows are in the order of their
owners in both indices. -/
structure ProducerInfo (Key : Type) where
  producerKey : Key
  isActive : Bool := true
  url : List UInt8
  location : Nat
  deriving DecidableEq, Repr

structure GoveranceNodeInfo (Key : Type) where
  payer : AccountName
  bpStaked : Int64
  stakeTime : Time
  isBp : Bool
  status : Int64
  producerKey : Key
  url : List UInt8
  location : Nat
  deriving DecidableEq, Repr

structure ProposalInfo where
  owner : AccountName
  account : AccountName
  startTime : Time
  voteEndTime : Time
  execEndTime : Time
  execTime : Time
  blockHeight : Nat
  type : Int64
  isSatisfy : Bool
  isExec : Bool
  consensusType : Int64
  totalYeas : Int64
  totalNays : Int64
  totalStaked : Int64
  deriving DecidableEq, Repr

structure ProposalVoteInfo where
  vote : Bool
  voteTime : Time
  deriving DecidableEq, Repr

structure DelegatedBandwidth where
  netWeight : Int64
  cpuWeight : Int64
  deriving DecidableEq, Repr

structure UserResources where
  netWeight : Int64
  cpuWeight : Int64
  ramBytes : Int64
  deriving DecidableEq, Repr

structure RefundRequest where
  requestTime : Time
  netAmount : Int64
  cpuAmount : Int64
  deriving DecidableEq, Repr

structure ResourceLimits where
  ramBytes : Int64
  netWeight : Int64
  cpuWeight : Int64
  deriving DecidableEq, Repr

/-- An auction for a name. A negative bid is that of a closed one. -/
structure NameBid where
  highBidder : AccountName
  highBid : Int64
  lastBidTime : Nat
  deriving DecidableEq, Repr

/-- The fields of the global state that the modelled actions read or write. Of the two times in
half seconds since 2000 the slot is kept. -/
structure GlobalState where
  maxRamSize : UInt64 := 68719476736
  totalRamBytesReserved : UInt64 := 0
  totalRamStake : Int64 := 0
  lastProducerScheduleUpdate : Nat := 0
  threshActivatedStakeTime : Nat := 0
  lastNameClose : Nat := 0
  stakeToGnodeFee : Int64 := 10000
  newProposalFee : Int64 := 15000
  proposalNum : Int := 0
  producerNum : Int := 0
  totalProposalStake : Int64 := 0
  deriving DecidableEq, Repr

structure SystemState (Key : Type) where
  voters : FlatMap AccountName VoterInfo := .empty
  producers : FlatMap AccountName (ProducerInfo Key) := .empty
  gnode : FlatMap AccountName (GoveranceNodeInfo Key) := .empty
  proposals : FlatMap Nat ProposalInfo := .empty
  propvote : FlatMap (Nat ×ₗ AccountName) ProposalVoteInfo := .empty
  delband : FlatMap (AccountName ×ₗ AccountName) DelegatedBandwidth := .empty
  userres : FlatMap AccountName UserResources := .empty
  refunds : FlatMap AccountName RefundRequest := .empty
  /-- The deferred transactions that call `refund`, with the time from which they run. -/
  deferredRefunds : FlatMap AccountName Time := .empty
  resourceLimits : FlatMap AccountName ResourceLimits := .empty
  rammarket : Option ExchangeState := none
  namebids : FlatMap AccountName NameBid := .empty
  gstate : GlobalState := {}
  transfers : List Transfer := []
  consensusTypes : List Int64 := []
  proposedSchedules : List (List (AccountName × Key)) := []

namespace SystemState
variable {Key : Type}

def sendAsset (s : SystemState Key) (sender receiver : AccountName) (quantity : Asset)
    (memo : String) : SystemState Key :=
  { s with transfers := s.transfers ++ [⟨sender, receiver, quantity, memo⟩] }

def send (s : SystemState Key) (sender receiver : AccountName) (amount : Int64) (memo : String) :
    SystemState Key :=
  s.sendAsset sender receiver ⟨amount, Config.coreSymbol⟩ memo

def setResourceLimits (s : SystemState Key) (account : AccountName)
    (ramBytes netWeight cpuWeight : Int64) : Result (SystemState Key) := do
  eosAssert (-1 ≤ ramBytes) .wasmExecution
    "invalid value for ram resource limit expected [-1,INT64_MAX]"
  eosAssert (-1 ≤ netWeight) .wasmExecution
    "invalid value for net resource weight expected [-1,INT64_MAX]"
  eosAssert (-1 ≤ cpuWeight) .wasmExecution
    "invalid value for cpu resource weight expected [-1,INT64_MAX]"
  pure { s with resourceLimits := s.resourceLimits.set account ⟨ramBytes, netWeight, cpuWeight⟩ }

lemma setResourceLimits_ok {s s' : SystemState Key} {ram net cpu : Int64}
    (h : s.setResourceLimits account ram net cpu = .ok s') :
    s' = { s with resourceLimits := s.resourceLimits.set account ⟨ram, net, cpu⟩ } := by
  simp only [setResourceLimits, bind_ok_iff] at h
  obtain ⟨_, -, _, -, _, -, h⟩ := h
  cases h
  rfl

def votesLoop : Nat → Int64 → Int64 → Int64
  | 0, _, ret => ret
  | fuel + 1, staked, ret => if staked = 0 then ret else votesLoop fuel (staked / 10) (ret + staked / 10)

/-- A stake in proposal votes. Twenty rounds are enough for every 64-bit number. -/
def stakeToProposalVotes (staked : Int64) : Int64 := votesLoop 20 (staked / 100000) 0

end SystemState

end DimensionChain.System
