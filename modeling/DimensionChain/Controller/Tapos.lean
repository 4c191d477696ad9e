import DimensionChain.Base.Steps
import DimensionChain.Base.UndoStack
import DimensionChain.Controller.Deduplication

/-!
# Block summaries

The database has a table of 65536 block ids, in which each block writes its own at the low 16 bits
of its number when it is finalized. Like the rest of the database the table is taken back when a
block is aborted or popped. A transaction names a block by these 16 bits and 32 bits of its id.
-/

namespace DimensionChain.Tapos

open List Nat

def createBlockSummary (summaries : Nat → BlockId) (id : BlockId) : Nat → BlockId :=
  let sid := numFromId id % 65536
  fun i => if i = sid then id else summaries i

/-- The pending block: none, one that has been started, or one that has got its id. -/
inductive Pending where
  | idle
  | started
  | finalized (id : BlockId)
  deriving DecidableEq

/-- The part of the controller that the summaries depend on. The ids of the current chain are
listed from the head down to the first block; the fork database has its blocks from `root` on. -/
structure Node where
  db : UndoStack (Nat → BlockId)
  chain : List BlockId
  root : Nat
  pending : Pending := .idle

inductive Event (Key : Type) where
  | startBlock
  | finalizeBlock (header : BlockHeader Key)
  | commitBlock
  | abortBlock
  | popBlock
  | onIrreversible (blockNum : Nat)
  | replayBlock (header : BlockHeader Key)

namespace Node
variable {Key Sig : Type} (C : Crypto Key Sig)

/-- `initialize_database` and `initialize_fork_db`: the first block is in the table. -/
def initial (genesis : BlockId) : Node where
  db := ⟨fun i => if i = 1 then genesis else default, [], 1⟩
  chain := [genesis]
  root := 1

def OnHead (s : Node) (header : BlockHeader Key) : Prop := s.chain.head? = some header.previous

instance (s : Node) (header : BlockHeader Key) : Decidable (s.OnHead header) :=
  inferInstanceAs (Decidable (_ = _))

def startBlock (s : Node) : Result Node := do
  eosAssert (s.pending = .idle) .blockValidate "pending block already exists"
  eosAssert (s.chain.head?.map numFromId = some s.db.revision) .database
    "db revision is not on par with head block"
  pure { s with db := s.db.startUndoSession, pending := .started }

def finalizeBlock (header : BlockHeader Key) (s : Node) : Result Node := do
  eosAssert (s.pending ≠ .idle) .blockValidate
    "it is not valid to finalize when there is no pending block"
  eosAssert (s.OnHead header) .undefined "the pending block has another parent"
  let id := header.id C
  pure { s with
    db := s.db.modify fun summaries => createBlockSummary summaries id
    pending := .finalized id }

def commitBlock (s : Node) : Result Node :=
  match s.pending with
  | .finalized id => .ok { s with chain := id :: s.chain, pending := .idle }
  | _ => .error ⟨.undefined, "the pending block has no id"⟩

def abortBlock (s : Node) : Node :=
  if s.pending = .idle then s else { s with db := s.db.undo, pending := .idle }

def popBlock (s : Node) : Result Node := do
  eosAssert (s.pending = .idle) .blockValidate
    "it is not valid to push a block when there is a pending block"
  eosAssert (s.root < s.chain.length) .blockValidate
    "attempt to pop beyond last irreversible block"
  pure { s with db := s.db.undo, chain := s.chain.tail }

def onIrreversible (blockNum : Nat) (s : Node) : Result Node := do
  eosAssert (blockNum ≤ s.chain.length) .unlinkableBlock "unlinkable block"
  pure { s with db := s.db.commit blockNum, root := max s.root blockNum }

/-- A block of the block log is applied as irreversible, without a session; the revision is set
afterwards. -/
def replayBlock (header : BlockHeader Key) (s : Node) : Result Node := do
  eosAssert (s.pending = .idle) .blockValidate
    "it is not valid to push a block when there is a pending block"
  eosAssert (s.db.saved.length = 0) .database "cannot set revision while there is an existing undo stack"
  eosAssert (s.OnHead header) .undefined "the block has another parent"
  let id := header.id C
  pure
    { s with
      db := ⟨createBlockSummary s.db.current id, [], s.chain.length + 1⟩
      chain := id :: s.chain
      root := s.chain.length + 1 }

def step (s : Node) : Event Key → Result Node
  | .startBlock => s.startBlock
  | .finalizeBlock header => s.finalizeBlock C header
  | .commitBlock => s.commitBlock
  | .abortBlock => .ok s.abortBlock
  | .popBlock => s.popBlock
  | .onIrreversible blockNum => s.onIrreversible blockNum
  | .replayBlock header => s.replayBlock C header

end Node

section Window

def summariesOf : List BlockId → Nat → BlockId
  | [] => fun _ => default
  | id :: past => createBlockSummary (summariesOf past) id

def recent (chain : List BlockId) (slot : Nat) : Option BlockId :=
  chain.find? fun id => numFromId id % 65536 = slot

def Numbered : List BlockId → Prop
  | [] => True
  | id :: past => numFromId id = u32 (past.length + 1) ∧ Numbered past

lemma summariesOf_eq (chain : List BlockId) (slot : Nat) :
    summariesOf chain slot = (recent chain slot).getD default := by
  induction chain with
  | nil => rfl
  | cons id past ih =>
    unfold recent summariesOf createBlockSummary
    by_cases hslot : slot = numFromId id % 65536
    · rw [if_pos hslot, find?_cons_of_pos (by simp [hslot]), Option.getD_some]
    · rw [if_neg hslot, find?_cons_of_neg (by simpa using Ne.symm hslot), ih]
      rfl

lemma u32_mod (n : Nat) : u32 n % 65536 = n % 65536 :=
  mod_mod_of_dvd n (by decide)

variable {chain : List BlockId} (h : Numbered chain) {id : BlockId}
include h

lemma slot_of_numbered {i : Nat}
    (hid : chain[i]? = some id) : numFromId id % 65536 = (chain.length - i) % 65536 := by
  induction chain generalizing i with
  | nil => cases hid
  | cons first past ih =>
    cases i with
    | zero =>
      cases hid
      rw [h.1, u32_mod]
      rfl
    | succ i =>
      rw [ih h.2 hid, length_cons, Nat.add_sub_add_right]

lemma recent_of_mem_take
    (hid : id ∈ chain.take 65536) : recent chain (numFromId id % 65536) = some id := by
  obtain ⟨i, hi, hget⟩ := mem_take_iff_getElem.mp hid
  have hlen : i < chain.length := by omega
  have hslot := slot_of_numbered h (getElem?_eq_getElem hlen)
  rw [hget] at hslot
  unfold recent
  rw [find?_eq_some_iff_getElem]
  refine ⟨by simp, i, hlen, hget, ?_⟩
  intro j hj
  have hslot' := slot_of_numbered h (getElem?_eq_getElem (hj.trans hlen))
  simp only [Bool.not_eq_eq_eq_not, Bool.not_true, decide_eq_false_iff_not]
  omega

lemma exists_recent (hlen : 65536 ≤ chain.length)
    {slot : Nat} (hslot : slot < 65536) : ∃ id, recent chain slot = some id := by
  have hi : (chain.length - slot) % 65536 < chain.length := by
    omega
  have hat := slot_of_numbered h (getElem?_eq_getElem hi)
  unfold recent
  rw [← Option.isSome_iff_exists, find?_isSome]
  refine ⟨_, getElem_mem hi, ?_⟩
  rw [decide_eq_true_eq, hat]
  omega

end Window

section Checks
open Deduplication Apply
variable {Key : Type}

def refBlockPrefix (id : BlockId) : Nat := id.hash1.toNat % 4294967296

lemma validateTapos_iff (chain : ChainState Key) (trx : Transaction Key) (id : BlockId) :
    validateTapos chain (trx.setReferenceBlock id) = .ok () ↔
      numFromId id % 65536 = numFromId (chain.blockSummaries (numFromId id % 65536)) % 65536 ∧
        refBlockPrefix id = refBlockPrefix (chain.blockSummaries (numFromId id % 65536)) := by
  have hslot : (trx.setReferenceBlock id).refBlockNum % 65536 = numFromId id % 65536 :=
    mod_mod _ _
  unfold validateTapos
  rw [eosAssert_ok_iff, hslot]
  unfold verifyReferenceBlock
  rw [decide_eq_true_eq]
  rfl

lemma validateTapos_cases {summaries : List BlockId} {cs : ChainState Key}
    (hcs : cs.blockSummaries = summariesOf summaries) {trx : Transaction Key} {id : BlockId} :
    validateTapos cs (trx.setReferenceBlock id) = .ok () ↔
      (∃ own, recent summaries (numFromId id % 65536) = some own ∧
        refBlockPrefix own = refBlockPrefix id) ∨
      (recent summaries (numFromId id % 65536) = none ∧ numFromId id % 65536 = 0 ∧
        refBlockPrefix id = 0) := by
  rw [validateTapos_iff, hcs, summariesOf_eq]
  cases hrecent : recent summaries (numFromId id % 65536) with
  | none =>
    have hnum : numFromId (default : BlockId) % 65536 = 0 := by decide
    have hhash : refBlockPrefix default = 0 := by decide
    simp [hnum, hhash]
  | some own =>
    have hown : numFromId own % 65536 = numFromId id % 65536 := by
      have hfound := find?_some hrecent
      rwa [decide_eq_true_eq] at hfound
    simp [hown, eq_comm]

end Checks

section Invariant
open UndoStack
variable {Key Sig : Type} {C : Crypto Key Sig} {s s' : Node}

def Holds (db : UndoStack (Nat → BlockId)) (chain : List BlockId) : Pending → Prop
  | .idle => Tracks summariesOf db chain
  | .started => Opens summariesOf db chain ∧ db.current = summariesOf chain
  | .finalized id => Opens summariesOf db chain ∧ db.current = summariesOf (id :: chain) ∧
    numFromId id = u32 (chain.length + 1)

structure Sound (s : Node) : Prop where
  numbered : Numbered s.chain
  root_pos : 0 < s.root
  root_le : s.root ≤ s.chain.length
  depth : s.db.revision ≤ s.db.saved.length + s.root
  holds : Holds s.db s.chain s.pending

variable {header : BlockHeader Key} (hs : Sound s)
include hs

lemma numFromId_onHead (h : s.OnHead header) :
    numFromId (header.id C) = u32 (s.chain.length + 1) := by
  rw [numFromId_id, BlockHeader.blockNum]
  have hnumbered := hs.numbered
  unfold Node.OnHead at h
  cases hchain : s.chain with
  | nil =>
    rw [hchain] at h
    cases h
  | cons id past =>
    rw [hchain] at h hnumbered
    cases h
    rw [hnumbered.1, length_cons]
    unfold u32
    omega

lemma Sound.startBlock (h : s.startBlock = .ok s') : Sound s' := by
  obtain ⟨hidle, h⟩ := assert_ok h
  obtain ⟨_, h⟩ := ok_after h
  cases h
  have hholds := hs.holds
  rw [hidle] at hholds
  have hdepth := hs.depth
  refine ⟨hs.numbered, hs.root_pos, hs.root_le, ?_, Tracks.startUndoSession hholds, ?_⟩
  · change s.db.revision + 1 ≤ (s.db.current :: s.db.saved).length + s.root
    rw [length_cons]
    omega
  · exact hholds.current

omit hs in
lemma createBlockSummary_again (summaries : Nat → BlockId) {a b : BlockId}
    (h : numFromId a = numFromId b) :
    createBlockSummary (createBlockSummary summaries a) b = createBlockSummary summaries b := by
  funext i
  unfold createBlockSummary
  rw [h]
  split <;> rfl

lemma Sound.finalizeBlock (h : s.finalizeBlock C header = .ok s') : Sound s' := by
  obtain ⟨hpending, h⟩ := assert_ok h
  obtain ⟨hhead, h⟩ := assert_ok h
  cases h
  have hnum := numFromId_onHead (C := C) hs hhead
  have hholds := hs.holds
  refine ⟨hs.numbered, hs.root_pos, hs.root_le, hs.depth, ?_⟩
  cases hstage : s.pending with
  | idle => exact absurd hstage hpending
  | started =>
    rw [hstage] at hholds
    refine ⟨Opens.modify hholds.1 fun summaries => createBlockSummary summaries (header.id C), ?_,
      hnum⟩
    change createBlockSummary s.db.current _ = createBlockSummary (summariesOf s.chain) _
    rw [hholds.2]
  | finalized id =>
    rw [hstage] at hholds
    refine ⟨Opens.modify hholds.1 fun summaries => createBlockSummary summaries (header.id C), ?_,
      hnum⟩
    change createBlockSummary s.db.current _ = createBlockSummary (summariesOf s.chain) _
    rw [hholds.2.1]
    exact createBlockSummary_again _ (hholds.2.2.trans hnum.symm)

lemma Sound.commitBlock (h : s.commitBlock = .ok s') : Sound s' := by
  have hholds := hs.holds
  unfold Node.commitBlock at h
  cases hstage : s.pending with
  | idle | started =>
    rw [hstage] at h
    cases h
  | finalized id =>
    rw [hstage] at h hholds
    cases h
    obtain ⟨hopens, hcurrent, hnum⟩ := hholds
    exact ⟨⟨hnum, hs.numbered⟩, hs.root_pos, le_succ_of_le hs.root_le, hs.depth,
      hopens.push hcurrent⟩

omit hs in
lemma depth_undo {db : UndoStack (Nat → BlockId)} {root : Nat} (hne : db.saved ≠ [])
    (h : db.revision ≤ db.saved.length + root) :
    db.undo.revision ≤ db.undo.saved.length + root := by
  unfold UndoStack.undo
  cases hsaved : db.saved with
  | nil => exact absurd hsaved hne
  | cons a saved =>
    rw [hsaved, length_cons] at h
    change db.revision - 1 ≤ saved.length + root
    omega

lemma Sound.abortBlock : Sound s.abortBlock := by
  have hholds := hs.holds
  unfold Node.abortBlock
  by_cases hidle : s.pending = .idle
  · rw [if_pos hidle]
    exact hs
  rw [if_neg hidle]
  have hopens : Opens summariesOf s.db s.chain := by
    cases hstage : s.pending with
    | idle => exact absurd hstage hidle
    | started | finalized id =>
      rw [hstage] at hholds
      exact hholds.1
  exact ⟨hs.numbered, hs.root_pos, hs.root_le, depth_undo hopens.nonempty hs.depth, hopens.undo⟩

lemma Sound.popBlock (h : s.popBlock = .ok s') : Sound s' := by
  obtain ⟨hidle, h⟩ := assert_ok h
  obtain ⟨hroot, h⟩ := assert_ok h
  cases h
  have hholds := hs.holds
  rw [hidle] at hholds
  have hlt : s.root < s.chain.length := hroot
  have htracks : Tracks summariesOf s.db s.chain := hholds
  have hne : s.db.saved ≠ [] := by
    apply ne_nil_of_length_pos
    have hdepth := hs.depth
    rw [htracks.revision] at hdepth
    omega
  have hnumbered := hs.numbered
  cases hchain : s.chain with
  | nil =>
    rw [hchain] at hlt
    cases hlt
  | cons id past =>
    rw [hchain] at htracks hnumbered hlt
    refine ⟨?_, hs.root_pos, ?_, depth_undo hne hs.depth, ?_⟩
    · simpa [hchain] using hnumbered.2
    · simpa [hchain] using le_of_lt_succ hlt
    · simp only [hidle, tail_cons]
      exact (htracks.opens hne).undo

lemma Sound.onIrreversible {blockNum : Nat}
    (h : s.onIrreversible blockNum = .ok s') : Sound s' := by
  obtain ⟨_, hle, h⟩ := bind_ok_iff.mp h
  cases h
  have hle : blockNum ≤ s.chain.length := eosAssert_ok_iff.mp hle
  have hholds := hs.holds
  have hdepth := hs.depth
  refine ⟨hs.numbered, hs.root_pos.trans_le (le_max_left _ _), max_le hs.root_le hle, ?_, ?_⟩
  · change s.db.revision ≤ (s.db.saved.take (s.db.revision - blockNum)).length + max s.root blockNum
    rw [length_take]
    omega
  cases hstage : s.pending with
  | idle =>
    rw [hstage] at hholds
    exact Tracks.commit hholds blockNum
  | started | finalized id =>
    rw [hstage] at hholds
    exact ⟨hholds.1.commit hle, hholds.2⟩

lemma Sound.replayBlock (h : s.replayBlock C header = .ok s') : Sound s' := by
  obtain ⟨hidle, h⟩ := assert_ok h
  obtain ⟨_, h⟩ := ok_after h
  obtain ⟨hhead, h⟩ := assert_ok h
  cases h
  have hholds := hs.holds
  rw [hidle] at hholds
  have hnum := numFromId_onHead (C := C) hs hhead
  refine ⟨⟨hnum, hs.numbered⟩, succ_pos _, le_refl _, le_add_left _ _, ?_⟩
  simp only [hidle]
  refine ⟨?_, rfl, nil_prefix⟩
  change createBlockSummary s.db.current _ = createBlockSummary (summariesOf s.chain) _
  rw [hholds.current]

lemma Sound.step {e : Event Key} (h : s.step C e = .ok s') : Sound s' := by
  cases e with
  | startBlock => exact hs.startBlock h
  | finalizeBlock header => exact hs.finalizeBlock h
  | commitBlock => exact hs.commitBlock h
  | abortBlock =>
    cases h
    exact hs.abortBlock
  | popBlock => exact hs.popBlock h
  | onIrreversible blockNum => exact hs.onIrreversible h
  | replayBlock header => exact hs.replayBlock h

omit hs

lemma sound_initial {genesis : BlockId} (h : numFromId genesis = 1) :
    Sound (Node.initial genesis) := by
  refine ⟨⟨h, trivial⟩, one_pos, le_refl _, le_refl _, ?_, rfl, nil_prefix⟩
  funext i
  change (if i = 1 then genesis else default) = createBlockSummary (fun _ => default) genesis i
  unfold createBlockSummary
  rw [h]

end Invariant

section Window
open Deduplication Apply
variable {Key Sig : Type} {C : Crypto Key Sig}

/-- While a block is pending, each slot of the table has the most recent block of the chain, a
transaction on one of the last 65536 blocks is accepted, and one on another block only if the
chain's block in its slot has the same prefix, or if there is none and both numbers are 0. -/
theorem summaries_are_recent {header : BlockHeader Key} (hgenesis : header.previous = default)
    {es : List (Node × Event Key × Node)} {s : Node}
    (hrun : Steps (fun s e s' => s.step C e = .ok s') (Node.initial (header.id C)) es s)
    (hpending : s.pending = .started) :
    (∀ slot id, recent s.chain slot = some id → s.db.current slot = id) ∧
    ∀ cs : ChainState Key, cs.blockSummaries = s.db.current → ∀ trx : Transaction Key,
      (∀ id ∈ s.chain.take 65536, validateTapos cs (trx.setReferenceBlock id) = .ok ()) ∧
      (∀ id, validateTapos cs (trx.setReferenceBlock id) = .ok () →
        (∃ own, recent s.chain (numFromId id % 65536) = some own ∧
          refBlockPrefix own = refBlockPrefix id) ∨
        (s.chain.length < 65536 ∧ numFromId id % 65536 = 0 ∧ refBlockPrefix id = 0)) := by
  have hone : numFromId (header.id C) = 1 := by
    rw [numFromId_id, BlockHeader.blockNum, hgenesis]
    decide
  have hs : Sound s := hrun.invariant (Q := Sound) (fun hs h => hs.step h) (sound_initial hone)
  have hholds := hs.holds
  rw [hpending] at hholds
  obtain ⟨-, hcurrent⟩ := hholds
  refine ⟨?_, ?_⟩
  · intro slot id hid
    rw [hcurrent, summariesOf_eq, hid]
    rfl
  intro cs hcs trx
  rw [hcurrent] at hcs
  refine ⟨?_, ?_⟩
  · intro id hid
    rw [validateTapos_cases hcs]
    exact .inl ⟨id, recent_of_mem_take hs.numbered hid, rfl⟩
  intro id hok
  rcases (validateTapos_cases hcs).mp hok with hown | ⟨hnone, hslot, hhash⟩
  · exact .inl hown
  refine .inr ⟨?_, hslot, hhash⟩
  by_contra hlen
  obtain ⟨own, hown⟩ := exists_recent hs.numbered (not_lt.mp hlen)
    (mod_lt (numFromId id) (by decide))
  rw [hnone] at hown
  cases hown

end Window

open Deduplication Apply

def timeCrypto : Crypto Nat Nat :=
  { headerDigest := fun h => ⟨0, 0, UInt64.ofNat h.timestamp, 0⟩
    scheduleDigest := fun _ => default
    pairDigest := fun _ _ => default
    recoverKey := fun _ _ => none }

def forkHeader : Nat → BlockHeader Nat
  | 0 => {}
  | n + 1 => { timestamp := 1, previous := (forkHeader n).id timeCrypto }

lemma numFromId_forkHeader (n : Nat) : numFromId ((forkHeader n).id timeCrypto) = u32 (n + 1) := by
  rw [numFromId_id, BlockHeader.blockNum]
  induction n with
  | zero => rfl
  | succ n ih =>
    have hprevious : (forkHeader (n + 1)).previous = (forkHeader n).id timeCrypto := rfl
    rw [hprevious, numFromId_id, BlockHeader.blockNum, ih]
    unfold u32
    omega

def ownBlock : List (Event Nat) :=
  [.startBlock, .finalizeBlock { timestamp := 7, previous := (forkHeader 0).id timeCrypto },
    .commitBlock, .startBlock]

def afterOwnBlock : Option Node :=
  Steps.replay (fun s e => (s.step timeCrypto e).toOption)
    (Node.initial ((forkHeader 0).id timeCrypto)) ownBlock

lemma afterOwnBlock_eq :
    (afterOwnBlock.map fun s => (s.pending, s.chain.map fun id => (numFromId id, id.hash2))) =
      some (.started, [(2, 7), (1, 0)]) := by
  decide +kernel

/-- The table of a chain of two blocks accepts block 65536 of another fork, whose prefix is 0. -/
theorem empty_summary_accepted : ∃ es s, Steps (fun s e s' => s.step timeCrypto e = .ok s')
      (Node.initial ((forkHeader 0).id timeCrypto)) es s ∧ s.pending = .started ∧
    (∀ n, (forkHeader (n + 1)).previous = (forkHeader n).id timeCrypto) ∧
    (∀ own ∈ s.chain, numFromId own % 65536 ≠
      numFromId ((forkHeader 65535).id timeCrypto) % 65536) ∧
    ∀ cs : ChainState Nat, cs.blockSummaries = s.db.current → ∀ trx : Transaction Nat,
      validateTapos cs (trx.setReferenceBlock ((forkHeader 65535).id timeCrypto)) = .ok () := by
  obtain ⟨s, hs, heq⟩ := Option.map_eq_some_iff.mp afterOwnBlock_eq
  obtain ⟨hpending, hchain⟩ := Prod.mk.inj heq
  obtain ⟨es, hrun, -⟩ := Steps.of_replay ok_of_toOption hs
  have hslot : numFromId ((forkHeader 65535).id timeCrypto) % 65536 = 0 := by
    rw [numFromId_forkHeader]
    decide
  have hhash : refBlockPrefix ((forkHeader 65535).id timeCrypto) = 0 := rfl
  have hown : ∀ own ∈ s.chain, numFromId own % 65536 ≠ 0 := by
    intro own hmem
    have hpair := mem_map_of_mem (f := fun id => (numFromId id, id.hash2)) hmem
    rw [hchain] at hpair
    simp only [mem_cons, Prod.mk.injEq, not_mem_nil, or_false] at hpair
    omega
  refine ⟨es, s, hrun, hpending, fun _ => rfl, ?_, ?_⟩
  · rw [hslot]
    exact hown
  intro cs hcs trx
  have hnone : recent s.chain 0 = none := by
    unfold recent
    rw [find?_eq_none]
    intro own hmem
    simpa using hown own hmem
  have hsound : Sound s := hrun.invariant (Q := Sound) (fun hs h => hs.step h)
    (sound_initial (numFromId_forkHeader 0))
  have hholds := hsound.holds
  rw [hpending] at hholds
  rw [hholds.2] at hcs
  rw [validateTapos_cases hcs, hslot]
  exact .inr ⟨hnone, rfl, hhash⟩

theorem summaries_are_recent_own : ∃ s, afterOwnBlock = some s ∧ s.pending = .started ∧
    ∀ cs : ChainState Nat, cs.blockSummaries = s.db.current → ∀ trx : Transaction Nat,
      ∀ id ∈ s.chain.take 65536, validateTapos cs (trx.setReferenceBlock id) = .ok () := by
  obtain ⟨s, hs, heq⟩ := Option.map_eq_some_iff.mp afterOwnBlock_eq
  obtain ⟨hpending, -⟩ := Prod.mk.inj heq
  obtain ⟨es, hrun, -⟩ := Steps.of_replay ok_of_toOption hs
  refine ⟨s, hs, hpending, ?_⟩
  intro cs hcs trx
  exact ((summaries_are_recent rfl hrun hpending).2 cs hcs trx).1

end DimensionChain.Tapos
