import DimensionChain.Net.SyncManager

/-!
# Blocks from peers

A `signed_block` message goes through the net plugin and the producer plugin to the controller, and
the sync manager is told of the block if neither plugin has seen it fail. The producer plugin catches
what the controller throws when it applies a block, and returns.
-/

namespace DimensionChain.Net

open SyncManager

/-- The exceptions that a handler tells apart. -/
inductive Thrown where
  | unlinkableBlock | blockValidate | assertion | guard | otherFc | badAlloc | other
  deriving DecidableEq

inductive GoAwayReason where
  | noReason | unlinkable | validation | fatalOther
  deriving DecidableEq

/-- A block from the connection `c`, and what the calls of the controller for it throw, if the
controller keeps the block when `push_block` throws, and its numbers after that. -/
structure Delivery where
  c : Nat
  id : BlockId
  num : Nat
  recalls : Option Thrown := none
  fromTheFuture : Bool := false
  fetch : Option Thrown := none
  create : Option Thrown := none
  push : Option Thrown := none
  keeps : Bool := false
  forkDbHeadBlockNum : Nat := 0
  lastIrreversibleBlockNum : Nat := 0

structure Node where
  sync : SyncManager
  known : BlockId → Bool

def reason : Option Thrown → GoAwayReason
  | none | some .guard | some .otherFc => .noReason
  | some .unlinkableBlock => .unlinkable
  | some .blockValidate => .validation
  | _ => .fatalOther

namespace Node
variable (n : Node) (d : Delivery)

/-- The node with what is thrown out of the call, or nothing if the process exits. -/
def onIncomingBlock : Option (Node × Option Thrown) :=
  if d.fromTheFuture then some (n, some .blockValidate)
  else if d.fetch.isSome then some (n, d.fetch)
  else if n.known d.id then some (n, none)
  else if d.create.isSome then some (n, d.create)
  else
    let n := { n with
      sync.forkDbHeadBlockNum := d.forkDbHeadBlockNum
      sync.lastIrreversibleBlockNum := d.lastIrreversibleBlockNum
      known := Function.update n.known d.id (d.push.isNone || d.keeps) }
    match d.push with
    | some .badAlloc => none
    | some .other => some (n, some .other)
    | _ => some (n, none)

def handleMessage : Option Node :=
  if d.recalls.isNone ∧ n.known d.id then some { n with sync := n.sync.recvBlock d.c d.id d.num }
  else do
    let (n, thrown) ← n.onIncomingBlock d
    if reason thrown = .noReason then pure { n with sync := n.sync.recvBlock d.c d.id d.num }
    else pure { n with sync := n.sync.rejectedBlock d.c }

end Node

/-- Whatever is thrown reaches the sync manager. -/
structure Delivery.Reported (d : Delivery) : Prop where
  fetch : d.fetch.isSome → reason d.fetch ≠ .noReason
  create : d.create.isSome → reason d.create ≠ .noReason
  push : ∀ thrown, d.push = some thrown → thrown = .badAlloc ∨ thrown = .other

section NextExpected
variable {s : SyncManager} {c : Nat}

lemma next_requestNextChunk : s.requestNextChunk.syncNextExpectedNum = s.syncNextExpectedNum := by
  unfold requestNextChunk
  dsimp only
  split_ifs <;> rfl

lemma next_close : (s.close c).syncNextExpectedNum = s.syncNextExpectedNum := by
  unfold close resetLibNum
  dsimp only
  split_ifs <;> first | rfl | exact next_requestNextChunk

lemma next_rejectedBlock : (s.rejectedBlock c).syncNextExpectedNum = s.syncNextExpectedNum := by
  unfold rejectedBlock
  split_ifs
  · exact next_close
  · rfl

lemma recvBlock_next_or {id : BlockId} {num : Nat} (hlib : s.state = .libCatchup) :
    (s.recvBlock c id num).syncNextExpectedNum = s.syncNextExpectedNum ∨
      num = s.syncNextExpectedNum := by
  by_cases hnum : num = s.syncNextExpectedNum
  · exact .inr hnum
  · unfold recvBlock
    rw [hlib]
    exact .inl ((congrArg syncNextExpectedNum (if_pos hnum)).trans next_close)

end NextExpected

lemma Node.onIncomingBlock_known {n n' : Node} {d : Delivery} {thrown : Option Thrown}
    (h : n.onIncomingBlock d = some (n', thrown)) (hd : d.Reported) :
    n'.sync.state = n.sync.state ∧ n'.sync.syncNextExpectedNum = n.sync.syncNextExpectedNum ∧
      (reason thrown = .noReason → n'.known d.id = true) := by
  unfold onIncomingBlock at h
  split_ifs at h with hfuture hfetch hknown hcreate
  · cases h
    exact ⟨rfl, rfl, fun hr => by cases hr⟩
  · cases h
    exact ⟨rfl, rfl, fun hr => absurd hr (hd.fetch hfetch)⟩
  · cases h
    exact ⟨rfl, rfl, fun _ => hknown⟩
  · cases h
    exact ⟨rfl, rfl, fun hr => absurd hr (hd.create hcreate)⟩
  split at h
  · cases h
  · cases h
    exact ⟨rfl, rfl, fun hr => by cases hr⟩
  cases h
  cases hpush : d.push with
  | none => simp
  | some thrown => rcases hd.push thrown hpush with rfl | rfl <;> contradiction

/-- While the last irreversible block of a peer is caught up with, no block is skipped. -/
theorem catchup_skips_no_rejected_block {n n' : Node} {es : List (Node × Delivery × Node)}
    (hrun : Steps (fun n d n' => d.Reported ∧ n.handleMessage d = some n') n es n') :
    ∀ e ∈ es, e.1.sync.state = .libCatchup →
      (e.2.2.sync.syncNextExpectedNum ≠ e.1.sync.syncNextExpectedNum →
        e.2.1.num = e.1.sync.syncNextExpectedNum ∧ e.2.2.known e.2.1.id = true) ∧
      (e.2.2.known e.2.1.id = false → e.2.2.sync.state ≠ .libCatchup ∨
        e.2.2.sync.syncNextExpectedNum = e.1.sync.syncNextExpectedNum) := by
  rintro ⟨n, d, n'⟩ he hlib
  obtain ⟨-, hd, hn'⟩ := hrun.forall_mem (Q := fun _ => True) (fun _ _ => trivial) trivial _ he
  dsimp only at hd hn' hlib ⊢
  suffices h : n'.sync.syncNextExpectedNum = n.sync.syncNextExpectedNum ∨
      d.num = n.sync.syncNextExpectedNum ∧ n'.known d.id = true by
    rcases h with h | h
    · exact ⟨absurd h, fun _ => .inr h⟩
    · exact ⟨fun _ => h, fun hnot => absurd (h.2.symm.trans hnot) (by decide)⟩
  unfold Node.handleMessage at hn'
  split_ifs at hn' with hrecall
  · cases hn'
    exact (recvBlock_next_or hlib).imp_right fun hnum => ⟨hnum, hrecall.2⟩
  obtain ⟨⟨m, thrown⟩, hm, hn'⟩ := Option.bind_eq_some_iff.mp hn'
  obtain ⟨hstate, hnext, hknown⟩ := Node.onIncomingBlock_known hm hd
  rw [← hnext]
  dsimp only at hn'
  split_ifs at hn' with hreason
  · cases hn'
    exact (recvBlock_next_or (hstate.trans hlib)).imp_right fun hnum => ⟨hnum, hknown hreason⟩
  · cases hn'
    exact .inl next_rejectedBlock

/-- Block 5 of peer 0, which throws `thrown` when it is applied. -/
def applied (thrown : Option Thrown) : Delivery where
  c := 0
  id := ⟨5, 0, 0, 0⟩
  num := 5
  push := thrown

/-- A node that expects block 5. -/
def expecting : Node where
  sync := { state := .libCatchup, syncKnownLibNum := 9, syncNextExpectedNum := 5,
            connections := [0], peers := fun _ => {} }
  known _ := false

theorem unapplied_block_is_passed : (expecting.handleMessage (applied (some .blockValidate))).map
    (fun n => (n.sync.state, n.sync.syncNextExpectedNum, n.known ⟨5, 0, 0, 0⟩)) =
      some (.libCatchup, 6, false) := by
  decide

theorem catchup_skips_no_rejected_block_applied :
    ∃ n', expecting.handleMessage (applied none) = some n' ∧
      n'.sync.syncNextExpectedNum = 6 ∧ n'.known ⟨5, 0, 0, 0⟩ = true := by
  refine ⟨_, rfl, rfl, ?_⟩
  have hrun : Steps (fun n d n' => d.Reported ∧ n.handleMessage d = some n') expecting _ _ :=
    .snoc (i := applied none) (.nil _) ⟨⟨nofun, nofun, nofun⟩, rfl⟩
  exact ((catchup_skips_no_rejected_block hrun _ (List.mem_singleton_self _) rfl).1 (by decide)).2

end DimensionChain.Net
