import DimensionChain.Chain.PendingBlock

/-!
# The two writers of the proposed schedule

`set_proposed_producers` and `set_consensus_type` build a whole schedule from the pending one, or
the active one when none is pending, and overwrite the same global row. A call replaces its own
half and takes the other half from the base schedule, never from the row that an earlier call of
the block has left.
-/

namespace DimensionChain.ProposedSchedule

open List

variable {Key : Type}

/-- What the two host functions read of the controller: the number of the block being built
and the two schedules of its pending state. -/
structure Context (Key : Type) where
  curBlockNum : Nat
  pendingSchedule : ProducerSchedule Key
  activeSchedule : ProducerSchedule Key

def context {Sig : Type} (headBlockNum : Nat) (p : BlockHeaderState Key Sig) : Context Key :=
  ⟨u32 (headBlockNum + 1), p.pendingSchedule, p.activeSchedule⟩

def Context.base (x : Context Key) : ProducerSchedule Key :=
  if x.pendingSchedule.producers.length = 0 then x.activeSchedule else x.pendingSchedule

inductive Call (Key : Type) where
  | consensusType (ct : Int)
  | proposedProducers (producers : List (ProducerKey Key))

def lastConsensusType (calls : List (Call Key)) : Option Int :=
  (calls.filterMap fun
    | .consensusType ct => some ct
    | .proposedProducers _ => none).getLast?

def lastProducers (calls : List (Call Key)) : Option (List (ProducerKey Key)) :=
  (calls.filterMap fun
    | .consensusType _ => none
    | .proposedProducers ps => some ps).getLast?

lemma lastProducers_eq_none_iff (calls : List (Call Key)) :
    lastProducers calls = none ↔ ∀ ps, Call.proposedProducers ps ∉ calls := by
  unfold lastProducers
  rw [List.getLast?_eq_none_iff, filterMap_eq_nil_iff]
  constructor
  · intro h ps hm
    simpa using h _ hm
  intro h c hc
  cases c with
  | consensusType ct => rfl
  | proposedProducers ps => exact absurd hc (h ps)

variable [DecidableEq Key] {final : GlobalProperty Key}

def proposedEarlier (x : Context Key) (gpo : GlobalProperty Key) : Bool :=
  match gpo.proposedScheduleBlockNum with
  | none => false
  | some n => n ≠ x.curBlockNum

def setConsensusType (x : Context Key) (gpo : GlobalProperty Key) (consensusType : Int) :
    Int × GlobalProperty Key :=
  if proposedEarlier x gpo then (-1, gpo)
  else
    let sch : ProducerSchedule Key :=
      { version := u32 (x.base.version + 1)
        consensusType := consensusType
        producers := x.base.producers }
    (consensusType, ⟨some x.curBlockNum, sch⟩)

def setProposedProducers (x : Context Key) (gpo : GlobalProperty Key)
    (producers : List (ProducerKey Key)) : Int × GlobalProperty Key :=
  if proposedEarlier x gpo then (-1, gpo)
  else if gpo.proposedScheduleBlockNum ≠ none ∧ producers = gpo.proposedSchedule.producers then
    (-1, gpo)
  else if producers = x.base.producers then (-1, gpo)
  else
    let sch : ProducerSchedule Key :=
      { version := u32 (x.base.version + 1)
        consensusType := x.base.consensusType
        producers := producers }
    (sch.version, ⟨some x.curBlockNum, sch⟩)

def Call.run (x : Context Key) (gpo : GlobalProperty Key) : Call Key → Int × GlobalProperty Key
  | .consensusType ct => setConsensusType x gpo ct
  | .proposedProducers ps => setProposedProducers x gpo ps

def Call.schedule (x : Context Key) : Call Key → ProducerSchedule Key
  | .consensusType ct => { x.base with version := u32 (x.base.version + 1), consensusType := ct }
  | .proposedProducers ps => { x.base with version := u32 (x.base.version + 1), producers := ps }

/-- The row after a sequence of calls, or `none` when one of them returns -1. -/
def runAll (x : Context Key) (gpo : GlobalProperty Key) (calls : List (Call Key)) :
    Option (GlobalProperty Key) :=
  calls.foldlM (fun g c => if (c.run x g).1 = -1 then none else some (c.run x g).2) gpo

/-- Both halves of the row are the last ones set, or the base schedule's. -/
def KeepsBothHalves (x : Context Key) (calls : List (Call Key)) (gpo : GlobalProperty Key) : Prop :=
  gpo.proposedSchedule.producers = (lastProducers calls).getD x.base.producers ∧
    gpo.proposedSchedule.consensusType = (lastConsensusType calls).getD x.base.consensusType

lemma run_cases (x : Context Key) (gpo : GlobalProperty Key) (c : Call Key)
    (h : (c.run x gpo).1 ≠ -1) : (c.run x gpo).2 = ⟨some x.curBlockNum, c.schedule x⟩ ∧
      ∀ ps, c = .proposedProducers ps → ps ≠ x.base.producers := by
  cases c with
  | consensusType ct =>
    simp only [Call.run, setConsensusType] at h ⊢
    split at h
    · exact absurd rfl h
    · rename_i he
      rw [if_neg he]
      exact ⟨rfl, fun ps hc => nomatch hc⟩
  | proposedProducers ps =>
    simp only [Call.run, setProposedProducers] at h ⊢
    split at h
    · exact absurd rfl h
    split at h
    · exact absurd rfl h
    split at h
    · exact absurd rfl h
    rename_i he hsame hbase
    rw [if_neg he, if_neg hsame, if_neg hbase]
    refine ⟨rfl, ?_⟩
    intro qs hq
    cases hq
    exact hbase

lemma runAll_snoc (x : Context Key) (gpo : GlobalProperty Key) (calls : List (Call Key))
    (c : Call Key) (h : runAll x gpo (calls ++ [c]) = some final) :
    ∃ g, runAll x gpo calls = some g ∧ (c.run x g).1 ≠ -1 ∧ final = (c.run x g).2 := by
  unfold runAll at h ⊢
  rw [foldlM_append] at h
  obtain ⟨g, hg, h⟩ := Option.bind_eq_some_iff.mp h
  refine ⟨g, hg, ?_⟩
  by_cases hr : (c.run x g).1 = -1
  · simp [List.foldlM, hr] at h
  · have hfinal : (c.run x g).2 = final := by simpa [List.foldlM, hr] using h
    exact ⟨hr, hfinal.symm⟩

lemma producers_ne_base (x : Context Key) (gpo : GlobalProperty Key) (calls : List (Call Key))
    (h : runAll x gpo calls = some final)
    {ps : List (ProducerKey Key)} (hps : Call.proposedProducers ps ∈ calls) :
    ps ≠ x.base.producers := by
  induction calls using List.reverseRecOn generalizing final with
  | nil => simp at hps
  | append_singleton calls c ih =>
    obtain ⟨g, hg, hr, -⟩ := runAll_snoc x gpo calls c h
    rcases mem_append.mp hps with hm | hm
    · exact ih hg hm
    · have hc : Call.proposedProducers ps = c := by simpa using hm
      exact (run_cases x g c hr).2 ps hc.symm

/-- The calls of one block keep both halves exactly when every call sets the consensus type,
or the last call sets producers and the last consensus type set, if any, is the one the
base schedule already has. -/
theorem keepsBothHalves_iff (x : Context Key) (gpo final : GlobalProperty Key)
    (calls : List (Call Key)) (hne : calls ≠ []) (hrun : runAll x gpo calls = some final) :
    KeepsBothHalves x calls final ↔ ((∀ ps, Call.proposedProducers ps ∉ calls) ∨
        ((∃ ps, calls.getLast? = some (.proposedProducers ps)) ∧
          (lastConsensusType calls).getD x.base.consensusType = x.base.consensusType)) := by
  obtain ⟨init, c, rfl⟩ : ∃ init c, calls = init ++ [c] :=
    ⟨calls.dropLast, calls.getLast hne, (dropLast_append_getLast hne).symm⟩
  obtain ⟨g, hg, hr, rfl⟩ := runAll_snoc x gpo init c hrun
  rw [(run_cases x g c hr).1]
  unfold KeepsBothHalves
  cases c with
  | consensusType ct =>
    have hct : lastConsensusType (init ++ [(Call.consensusType ct : Call Key)]) = some ct := by
      simp [lastConsensusType]
    have hlast : ¬ ∃ ps, (init ++ [(Call.consensusType ct : Call Key)]).getLast? =
        some (.proposedProducers ps) := by simp
    simp only [hct, Call.schedule, Option.getD_some, and_true, hlast, false_and, or_false]
    rw [← lastProducers_eq_none_iff]
    cases hl : lastProducers (init ++ [(Call.consensusType ct : Call Key)]) with
    | none => simp
    | some ps =>
      have hm : Call.proposedProducers ps ∈ init ++ [(Call.consensusType ct : Call Key)] := by
        have := mem_of_getLast? hl
        obtain ⟨d, hd, hdp⟩ := mem_filterMap.mp this
        cases d with
        | consensusType _ => simp at hdp
        | proposedProducers qs =>
          have hqs : qs = ps := by simpa using hdp
          exact hqs ▸ hd
      have hps := producers_ne_base x gpo _ hrun hm
      simp [Ne.symm hps]
  | proposedProducers ps =>
    have hlp : lastProducers (init ++ [Call.proposedProducers ps]) = some ps := by
      simp [lastProducers]
    have hmem : ¬ ∀ qs, Call.proposedProducers qs ∉ init ++ [Call.proposedProducers ps] := by
      intro h
      exact h ps (by simp)
    have hlast : ∃ qs, (init ++ [Call.proposedProducers ps]).getLast? =
        some (.proposedProducers qs) := ⟨ps, by simp⟩
    simp only [hlp, Call.schedule, Option.getD_some, true_and, hmem, false_or, hlast]
    exact eq_comm

def plainContext : Context Nat := ⟨2, {}, initialSchedule 7⟩

theorem setConsensusType_drops_producers :
    ∃ final, runAll plainContext {} [.proposedProducers [⟨5, 9⟩], .consensusType 1] = some final ∧
      ¬ KeepsBothHalves plainContext [.proposedProducers [⟨5, 9⟩], .consensusType 1] final := by
  refine ⟨_, rfl, ?_⟩
  intro h
  exact absurd h.1 (by decide)

theorem keepsBothHalves_iff_producers :
    KeepsBothHalves plainContext [.consensusType 0, .proposedProducers [⟨5, 9⟩]]
        ⟨some 2, { version := 1, producers := [⟨5, 9⟩] }⟩ ↔
      ((∀ ps, Call.proposedProducers ps ∉ [Call.consensusType 0, .proposedProducers [⟨5, (9 : Nat)⟩]]) ∨
        ((∃ ps, [Call.consensusType 0, .proposedProducers [⟨5, (9 : Nat)⟩]].getLast? =
            some (.proposedProducers ps)) ∧
          (lastConsensusType [Call.consensusType 0, .proposedProducers [⟨5, (9 : Nat)⟩]]).getD
            plainContext.base.consensusType = plainContext.base.consensusType)) :=
  keepsBothHalves_iff plainContext {} _ _ (by simp) rfl

end DimensionChain.ProposedSchedule
