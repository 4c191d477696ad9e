import DimensionChain.Base.Steps
import DimensionChain.Chain.Types

/-!
# Catching up with peers

The sync manager asks a peer for the blocks up to its last irreversible one, one after the other,
and then for the fork heads that peers report, which are marked on their connections. Messages to
peers and timers are left out, and of the controller what it is asked for.
-/

namespace DimensionChain.Net

inductive Stages where
  | libCatchup | headCatchup | inSync
  deriving DecidableEq

structure Connection where
  forkHead : BlockId := default
  forkHeadNum : Nat := 0
  connected : Bool := true
  syncing : Bool := false
  lastIrreversibleBlockNum : Nat := 0

namespace Connection

def current (c : Connection) : Bool := c.connected && !c.syncing

def unmark (c : Connection) : Connection := { c with forkHead := default, forkHeadNum := 0 }

/-- A fork head that a block is, or is above of. -/
def Passed (c : Connection) (id : BlockId) (num : Nat) : Prop :=
  c.forkHead ≠ default ∧ (c.forkHead = id ∨ c.forkHeadNum < num)

instance (c : Connection) (id : BlockId) (num : Nat) : Decidable (c.Passed id num) :=
  inferInstanceAs (Decidable (_ ∧ _))

end Connection

/-- The manager with the connections in the order of their set, and the numbers that the controller
gives. -/
structure SyncManager where
  state : Stages := .inSync
  syncKnownLibNum : Nat := 0
  syncLastRequestedNum : Nat := 0
  syncNextExpectedNum : Nat := 1
  syncReqSpan : Nat := 100
  source : Option Nat := none
  connections : List Nat
  peers : Nat → Connection
  forkDbHeadBlockNum : Nat := 0
  lastIrreversibleBlockNum : Nat := 0

namespace SyncManager
variable (s : SyncManager) (c : Nat)

def setPeer (peer : Connection) : SyncManager := { s with peers := Function.update s.peers c peer }

/-- The source for the next chunk: the one after the last, around the set, that is current. -/
def nextSource : Option Nat :=
  if s.connections.length = 1 then s.source.or s.connections.head?
  else
    let source := s.source.filter (· ∈ s.connections)
    let ring := (source.map fun k => s.connections.rotate (s.connections.idxOf k + 1)).getD s.connections
    (ring.find? fun k => (s.peers k).current).or source

def requestNextChunk : SyncManager :=
  if s.forkDbHeadBlockNum < s.syncLastRequestedNum ∧ s.source.any fun k => (s.peers k).current then s
  else
    let s := { s with source := s.nextSource }
    if s.source.any fun k => (s.peers k).current then
      let last := min (u32 (s.syncNextExpectedNum + s.syncReqSpan - 1)) s.syncKnownLibNum
      if s.syncLastRequestedNum ≠ s.syncKnownLibNum ∧ last > 0 ∧ last ≥ s.syncNextExpectedNum then
        { s with syncLastRequestedNum := last }
      else s
    else
      { s with
        syncKnownLibNum := s.lastIrreversibleBlockNum, syncLastRequestedNum := 0, state := .inSync }

def resetLibNum : SyncManager :=
  let s := if s.state = .inSync then { s with source := none } else s
  if (s.peers c).current then
    { s with syncKnownLibNum := max s.syncKnownLibNum (s.peers c).lastIrreversibleBlockNum }
  else if s.source = some c then requestNextChunk { s with syncLastRequestedNum := 0 }
  else s

def close : SyncManager :=
  (s.setPeer c { s.peers c with
    connected := false, syncing := false, lastIrreversibleBlockNum := 0 }).resetLibNum c

def verifyCatchup (num : Nat) (id : BlockId) : SyncManager :=
  if s.connections.any fun k => (s.peers k).forkHead = id ∨ (s.peers k).forkHeadNum > num then
    s.setPeer c (s.peers c).unmark
  else
    { s.setPeer c { s.peers c with forkHead := id, forkHeadNum := num } with
      state := if s.state = .libCatchup then .libCatchup else .headCatchup }

def rejectedBlock : SyncManager :=
  if s.state ≠ .inSync then
    { close { s with syncLastRequestedNum := 0, source := none } c with state := .inSync }
  else s

/-- One connection `cp` of the set in the loop of `recv_block`, which unmarks the connection `c` that
the block came from. -/
def passHead (id : BlockId) (num : Nat) (s : SyncManager) (cp : Nat) : SyncManager :=
  if (s.peers cp).forkHead = default then s
  else if (s.peers cp).forkHead = id ∨ (s.peers cp).forkHeadNum < num then
    s.setPeer c (s.peers c).unmark
  else { s with state := .headCatchup }

def recvBlock (id : BlockId) (num : Nat) : SyncManager :=
  match s.state with
  | .libCatchup =>
    if num ≠ s.syncNextExpectedNum then s.close c
    else
      let s := { s with syncNextExpectedNum := u32 (num + 1) }
      if num = s.syncKnownLibNum then { s with state := .inSync }
      else if num = s.syncLastRequestedNum then s.requestNextChunk
      else s
  | .headCatchup => s.connections.foldl (passHead c id num) { s with state := .inSync, source := none }
  | .inSync => s

inductive Call where
  | recvBlock (c : Nat) (id : BlockId) (num : Nat)
  | verifyCatchup (c : Nat) (num : Nat) (id : BlockId)

def apply : Call → SyncManager
  | .recvBlock c id num => s.recvBlock c id num
  | .verifyCatchup c num id => s.verifyCatchup c num id

/-- What a block does to the marks if it is to clear those that it passes and no others. -/
structure RecvExact (id : BlockId) (num : Nat) : Prop where
  cleared : ∀ k ∈ s.connections, (s.peers k).Passed id num →
    (s.recvBlock c id num).peers k = (s.peers k).unmark
  kept : ∀ k ∈ s.connections, ¬ (s.peers k).Passed id num →
    (s.recvBlock c id num).peers k = s.peers k
  state : (s.recvBlock c id num).state =
    if ∃ k ∈ s.connections, ((s.recvBlock c id num).peers k).forkHead ≠ default then .headCatchup
    else .inSync

/-- The block passes no mark but that of the connection which it comes from. -/
def OnlySender (id : BlockId) (num : Nat) : Prop :=
  ∀ k ∈ s.connections, (s.peers k).Passed id num → k = c

variable {s c} {id : BlockId} {num : Nat}

lemma foldl_frame (l : List Nat) (s : SyncManager) :
    (l.foldl (passHead c id num) s).connections = s.connections ∧
      ∀ k, k ≠ c → (l.foldl (passHead c id num) s).peers k = s.peers k := by
  induction l generalizing s with
  | nil => exact ⟨rfl, fun _ _ => rfl⟩
  | cons cp l ih =>
    rw [List.foldl_cons, (ih _).1]
    simp only [passHead]
    split_ifs
    · exact ⟨rfl, fun k hk => (ih _).2 k hk⟩
    · exact ⟨rfl, fun k hk => ((ih _).2 k hk).trans (Function.update_of_ne hk _ _)⟩
    · exact ⟨rfl, fun k hk => (ih _).2 k hk⟩

lemma foldl_of_onlySender {l : List Nat} (hl : ∀ k ∈ l, (s.peers k).Passed id num → k = c) :
    (∀ k, (l.foldl (passHead c id num) s).peers k =
      if k ∈ l ∧ (s.peers k).Passed id num then (s.peers k).unmark else s.peers k) ∧
    (l.foldl (passHead c id num) s).state =
      if ∃ k ∈ l, (s.peers k).forkHead ≠ default ∧ ¬ (s.peers k).Passed id num then .headCatchup
      else s.state := by
  induction l using List.reverseRecOn with
  | nil => simp
  | append_singleton l cp ih =>
    obtain ⟨hpeers, hstate⟩ := ih fun k hk => hl k (List.mem_append_left _ hk)
    rw [List.foldl_concat]
    generalize l.foldl (passHead c id num) s = t at *
    by_cases hpass : (s.peers cp).Passed id num
    · obtain rfl := hl cp (List.mem_append_right _ (List.mem_cons_self ..)) hpass
      -- the sender's mark is cleared here, or was when it came before
      have hstep : (passHead cp id num t cp).state = t.state ∧
          ∀ k, (passHead cp id num t cp).peers k =
            if k = cp then (s.peers cp).unmark else t.peers k := by
        have hcp := hpeers cp
        unfold passHead
        by_cases hmem : cp ∈ l
        · rw [if_pos ⟨hmem, hpass⟩] at hcp
          rw [if_pos (hcp ▸ rfl)]
          refine ⟨rfl, fun k => ?_⟩
          split_ifs with hk
          · rw [hk, hcp]
          · rfl
        · rw [if_neg fun h => hmem h.1] at hcp
          rw [hcp, if_neg hpass.1, if_pos hpass.2]
          exact ⟨rfl, fun k => Function.update_apply ..⟩
      refine ⟨fun k => ?_, ?_⟩
      · rw [hstep.2, hpeers]
        by_cases hk : k = cp <;> simp [hk, hpass]
      · simp [hstep.1, hstate, or_and_right, exists_or, hpass]
    have hcp : t.peers cp = s.peers cp := (hpeers cp).trans (if_neg fun h => hpass h.2)
    have hrest : ∀ k, t.peers k =
        if k ∈ l ++ [cp] ∧ (s.peers k).Passed id num then (s.peers k).unmark else s.peers k := by
      intro k
      rw [hpeers]
      by_cases hk : k = cp <;> simp [hk, hpass]
    unfold passHead
    rw [hcp]
    by_cases hmark : (s.peers cp).forkHead = default
    · rw [if_pos hmark]
      exact ⟨hrest, by simp [hstate, or_and_right, exists_or, hmark]⟩
    · rw [if_neg hmark, if_neg fun h => hpass ⟨hmark, h⟩]
      exact ⟨hrest, by simp [or_and_right, exists_or, hmark, hpass]⟩

lemma recvBlock_headCatchup (hstate : s.state = .headCatchup) : s.recvBlock c id num =
    s.connections.foldl (passHead c id num) { s with state := .inSync, source := none } := by
  unfold recvBlock
  rw [hstate]

lemma recvExact_of_onlySender (hstate : s.state = .headCatchup) (h : s.OnlySender c id num) :
    s.RecvExact c id num := by
  obtain ⟨hpeers, hend⟩ := foldl_of_onlySender (s := { s with state := .inSync, source := none }) h
  rw [← recvBlock_headCatchup hstate] at hpeers hend
  refine ⟨fun k hk hp => (hpeers k).trans (if_pos ⟨hk, hp⟩),
    fun k _ hp => (hpeers k).trans (if_neg fun h => hp h.2), hend.trans (if_congr ?_ rfl rfl)⟩
  refine exists_congr fun k => and_congr_right fun hk => ?_
  rw [hpeers]
  split_ifs with hp
  · simp [hp.2, Connection.unmark]
  · exact and_iff_left fun h => hp ⟨hk, h⟩

lemma onlySender_of_recvExact (hstate : s.state = .headCatchup) (h : s.RecvExact c id num) :
    s.OnlySender c id num := by
  intro k hk hp
  by_contra hne
  have hcleared := h.cleared k hk hp
  rw [recvBlock_headCatchup hstate, (foldl_frame ..).2 k hne] at hcleared
  exact hp.1 (congrArg Connection.forkHead hcleared)

/-- Marks are only there while the manager is catching up with them. -/
@[mk_iff]
structure Tracking (s : SyncManager) : Prop where
  state : s.state ≠ .libCatchup
  unmarked : s.state = .inSync → ∀ k ∈ s.connections, (s.peers k).forkHead = default

/-- A call of a run in which every block passes the mark of its sender alone. -/
def Call.Single (s : SyncManager) : Call → Prop
  | .recvBlock c id num => s.state = .headCatchup → s.OnlySender c id num
  | .verifyCatchup .. => True

/-- A call that does not announce a head which the block `id` is, or is above of. -/
def Call.Ahead (id : BlockId) (num : Nat) : Call → Prop
  | .recvBlock .. => True
  | .verifyCatchup _ num' id' => ¬ (id' = id ∨ num' < num)

lemma Tracking.recvBlock (h : s.Tracking) (hsingle : Call.Single s (.recvBlock c id num)) :
    (s.recvBlock c id num).Tracking ∧
      (∀ k ∈ (s.recvBlock c id num).connections, ¬ ((s.recvBlock c id num).peers k).Passed id num ∧
        k ∈ s.connections ∧ ((s.recvBlock c id num).peers k = s.peers k ∨
          (s.recvBlock c id num).peers k = (s.peers k).unmark)) := by
  cases hs : s.state with
  | libCatchup => exact absurd hs h.state
  | inSync =>
    have hsame : s.recvBlock c id num = s := by
      unfold SyncManager.recvBlock
      rw [hs]
    rw [hsame]
    exact ⟨h, fun k hk => ⟨fun hp => hp.1 (h.unmarked hs k hk), hk, .inl rfl⟩⟩
  | headCatchup =>
    obtain ⟨hcleared, hkept, hstate⟩ := recvExact_of_onlySender hs (hsingle hs)
    have hconnections : (s.recvBlock c id num).connections = s.connections := by
      rw [recvBlock_headCatchup hs]
      exact (foldl_frame ..).1
    rw [hconnections]
    refine ⟨⟨?_, ?_⟩, ?_⟩
    · rw [hstate]
      split_ifs <;> exact Stages.noConfusion
    · intro hin k hk
      rw [hconnections] at hk
      rw [hstate] at hin
      split_ifs at hin with hany
      by_contra hmarked
      exact hany ⟨k, hk, hmarked⟩
    intro k hk
    by_cases hp : (s.peers k).Passed id num
    · rw [hcleared k hk hp]
      exact ⟨fun h => h.1 rfl, hk, .inr rfl⟩
    · rw [hkept k hk hp]
      exact ⟨hp, hk, .inl rfl⟩

lemma verifyCatchup_spec : (s.verifyCatchup c num id).connections = s.connections ∧
    (∀ k, k ≠ c → (s.verifyCatchup c num id).peers k = s.peers k) ∧
    ((s.verifyCatchup c num id).peers c = (s.peers c).unmark ∧
        (s.verifyCatchup c num id).state = s.state ∨
      (s.verifyCatchup c num id).peers c = { s.peers c with forkHead := id, forkHeadNum := num } ∧
        (s.state ≠ .libCatchup → (s.verifyCatchup c num id).state = .headCatchup)) := by
  unfold verifyCatchup
  split
  · exact ⟨rfl, fun k hk => Function.update_of_ne hk _ _, .inl ⟨Function.update_self .., rfl⟩⟩
  · exact ⟨rfl, fun k hk => Function.update_of_ne hk _ _, .inr ⟨Function.update_self .., fun h => if_neg h⟩⟩

lemma Tracking.verifyCatchup (h : s.Tracking) : (s.verifyCatchup c num id).Tracking := by
  obtain ⟨hconnections, hother, ⟨hc, hstate⟩ | ⟨-, hstate⟩⟩ := s.verifyCatchup_spec (c := c)
  · refine ⟨hstate ▸ h.state, fun hin k hk => ?_⟩
    by_cases hkc : k = c
    · rw [hkc, hc, Connection.unmark]
    · rw [hother k hkc]
      exact h.unmarked (hstate ▸ hin) k (hconnections ▸ hk)
  · rw [tracking_iff, hstate h.state]
    exact ⟨Stages.noConfusion, Stages.noConfusion⟩

lemma Tracking.step {call : Call} (h : s.Tracking) (hsingle : call.Single s) :
    (s.apply call).Tracking := by
  cases call with
  | recvBlock c id num => exact (h.recvBlock hsingle).1
  | verifyCatchup c num id => exact h.verifyCatchup

/-- No connection of the set has a mark that the block passes. -/
def AllAhead (s : SyncManager) (id : BlockId) (num : Nat) : Prop :=
  ∀ k ∈ s.connections, ¬ (s.peers k).Passed id num

lemma AllAhead.step {call : Call} (h : s.AllAhead id num) (htrack : s.Tracking)
    (hsingle : call.Single s) (hahead : call.Ahead id num) : (s.apply call).AllAhead id num := by
  intro k hk hp
  cases call with
  | recvBlock c id' num' =>
    obtain ⟨-, hk', hsame | hcleared⟩ := (htrack.recvBlock hsingle).2 k hk
    · exact h k hk' (hsame ▸ hp)
    · exact hp.1 (congrArg Connection.forkHead hcleared)
  | verifyCatchup c num' id' =>
    obtain ⟨hconnections, hother, hc⟩ := s.verifyCatchup_spec (c := c)
    by_cases hkc : k = c
    · subst hkc
      rcases hc with ⟨hc, -⟩ | ⟨hc, -⟩
      · exact hp.1 (congrArg Connection.forkHead hc)
      · rw [apply, hc] at hp
        exact hahead hp.2
    · exact h k (hconnections ▸ hk) (hother k hkc ▸ hp)

theorem head_marks_exact_iff (s : SyncManager) (hstate : s.state = .headCatchup) :
    (∀ c id num, s.RecvExact c id num ↔ s.OnlySender c id num) ∧
    ∀ es u c id num es' t, Steps (fun s call t => call.Single s ∧ t = s.apply call) s es u →
      Call.Single u (.recvBlock c id num) →
      Steps (fun s call t => (call.Single s ∧ call.Ahead id num) ∧ t = s.apply call)
        (u.recvBlock c id num) es' t → t.AllAhead id num := by
  refine ⟨fun c id num => ⟨onlySender_of_recvExact hstate, recvExact_of_onlySender hstate⟩, ?_⟩
  intro es u c id num es' t hrun hsingle hlater
  have hstart : s.Tracking := by constructor <;> simp [hstate]
  have hu := (hrun.invariant (fun h hstep => hstep.2 ▸ h.step hstep.1) hstart).recvBlock hsingle
  refine (hlater.invariant (Q := fun s => s.Tracking ∧ s.AllAhead id num) ?_
    ⟨hu.1, fun k hk => (hu.2 k hk).1⟩).2
  rintro s call t ⟨htrack, hahead⟩ ⟨⟨hs, ha⟩, rfl⟩
  exact ⟨htrack.step hs, hahead.step htrack hs ha⟩

/-- Peer 0 has reported block 5 and peer 1 block `num`. -/
def reported (num : UInt64) : SyncManager where
  state := .headCatchup
  connections := [0, 1]
  peers k := if k = 0 then { forkHead := ⟨5, 0, 0, 0⟩, forkHeadNum := 5 }
    else { forkHead := ⟨num, 0, 0, 0⟩, forkHeadNum := num.toNat }

theorem passed_mark_of_other_peer_stays : (reported 5).state = .headCatchup ∧
    ((reported 5).recvBlock 0 ⟨5, 0, 0, 0⟩ 5).state = .inSync ∧
    (((reported 5).recvBlock 0 ⟨5, 0, 0, 0⟩ 5).peers 1).Passed ⟨5, 0, 0, 0⟩ 5 := by
  decide

theorem head_marks_exact_iff_reported : (reported 7).RecvExact 0 ⟨5, 0, 0, 0⟩ 5 ∧
    (((reported 7).recvBlock 0 ⟨5, 0, 0, 0⟩ 5).verifyCatchup 0 8 ⟨8, 0, 0, 0⟩).AllAhead
      ⟨5, 0, 0, 0⟩ 5 := by
  have hsender : (reported 7).OnlySender 0 ⟨5, 0, 0, 0⟩ 5 := by
    unfold OnlySender
    decide
  refine ⟨((head_marks_exact_iff _ rfl).1 _ _ _).mpr hsender, ?_⟩
  exact (head_marks_exact_iff _ rfl).2 _ _ 0 _ _ _ _ (.nil _) (fun _ => hsender)
    (.snoc (i := Call.verifyCatchup 0 8 ⟨8, 0, 0, 0⟩) (.nil _)
      ⟨⟨trivial, by unfold Call.Ahead; decide⟩, rfl⟩)

end SyncManager

end DimensionChain.Net
