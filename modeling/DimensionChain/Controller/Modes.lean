import DimensionChain.Chain.Types

/-!
# Modes of a node

What the controller of a node decides from its configuration and from the status of the pending
block: whether it produces, which checks it skips, and whom it filters. A block is pending
whenever these are asked. A `flat_set` is the list of its elements in ascending order.
-/

namespace DimensionChain

open List

inductive ValidationMode where
  | full | light
  deriving DecidableEq, Repr

structure Control where
  blockStatus : BlockStatus
  inTrxRequiringChecks : Bool := false
  forceAllChecks : Bool := false
  disableReplayOpts : Bool := false
  blockValidationMode : ValidationMode := .full
  trustedProducerLightValidation : Bool := false
  allowRamBillingInNotify : Bool := false
  actorWhitelist : List AccountName := []
  actorBlacklist : List AccountName := []
  senderBypassWhiteblacklist : List AccountName := []
  deriving DecidableEq, Repr

namespace Control
variable (control : Control)

def isProducingBlock : Bool := control.blockStatus = .incomplete

def lightValidationAllowed (replayOptsDisabledByPolicy : Bool) : Bool :=
  if control.inTrxRequiringChecks then false
  else
    let considerSkippingOnReplay :=
      (control.blockStatus = .irreversible ∨ control.blockStatus = .validated) ∧
        ¬ replayOptsDisabledByPolicy
    let considerSkippingOnValidate :=
      control.blockStatus = .complete ∧
        (control.blockValidationMode = .light ∨ control.trustedProducerLightValidation)
    considerSkippingOnReplay ∨ considerSkippingOnValidate

def skipAuthCheck : Bool := control.lightValidationAllowed control.forceAllChecks

def skipTrxChecks : Bool := control.lightValidationAllowed control.disableReplayOpts

def isRamBillingInNotifyAllowed : Bool :=
  ¬ control.isProducingBlock ∨ control.allowRamBillingInNotify

def senderAvoidsWhitelistBlacklistEnforcement (sender : AccountName) : Bool :=
  sender ∈ control.senderBypassWhiteblacklist

section Checks
variable {control}

lemma lightValidationAllowed_of_producing (h : control.isProducingBlock = true) (policy : Bool) :
    control.lightValidationAllowed policy = false := by
  have hstatus : control.blockStatus = .incomplete := by simpa [isProducingBlock] using h
  simp [lightValidationAllowed, hstatus]

lemma isRamBillingInNotifyAllowed_of_validating (h : control.isProducingBlock = false) :
    control.isRamBillingInNotifyAllowed = true := by
  simp [isRamBillingInNotifyAllowed, h]

end Checks

def isSubset : List AccountName → List AccountName → Bool
  | [], _ => true
  | actor :: actors, whitelist =>
    match whitelist.dropWhile (· < actor) with
    | [] => false
    | found :: later => if found ≠ actor then false else isSubset actors later

def intersects : List AccountName → List AccountName → Bool
  | [], _ => false
  | actor :: actors, blacklist =>
    match blacklist.dropWhile (· < actor) with
    | [] => false
    | found :: later => if found = actor then true else intersects actors (found :: later)

def checkActorList (actors : List AccountName) : Result Unit :=
  match actors.head?, actors.getLast? with
  | some first, some last =>
    match control.actorWhitelist.head?, control.actorWhitelist.getLast? with
    | some wfirst, some wlast =>
      eosAssert (wfirst ≤ first ∧ last ≤ wlast ∧ isSubset actors control.actorWhitelist)
        .actorWhitelist
        "authorizing actor(s) in transaction are not on the actor whitelist: $\x7bactors\x7d"
    | _, _ =>
      match control.actorBlacklist.head?, control.actorBlacklist.getLast? with
      | some bfirst, some blast =>
        eosAssert (¬ (first ≤ blast ∧ bfirst ≤ last ∧ intersects actors control.actorBlacklist))
          .actorBlacklist
          "authorizing actor(s) in transaction are on the actor blacklist: $\x7bactors\x7d"
      | _, _ => .ok ()
  | _, _ => .ok ()

variable {actors rest later : List AccountName} {actor b found : AccountName}

lemma mem_dropWhile_iff {l : List AccountName} (hle : actor ≤ b) :
    b ∈ l.dropWhile (· < actor) ↔ b ∈ l := by
  induction l with
  | nil => rfl
  | cons a l ih =>
    rw [dropWhile_cons]
    split
    · rename_i ha
      have hne : b ≠ a := fun heq => absurd (of_decide_eq_true ha) (Nat.not_lt.mpr (heq ▸ hle))
      rw [ih, mem_cons, or_iff_right hne]
    · rfl

lemma eosAssert_error_iff {c : Prop} [Decidable c] {kind : ExceptionKind} {message : String} :
    (∃ e, eosAssert c kind message = .error e) ↔ ¬c := by
  unfold eosAssert
  split <;> simp_all

variable (ha : actors.Pairwise (· < ·)) (hr : rest.Pairwise (· < ·))
include hr

lemma dropWhile_found (hdrop : rest.dropWhile (· < actor) = found :: later) :
    (found :: later).Pairwise (· < ·) ∧ (actor ∈ rest ↔ found = actor) := by
  have hsorted : (found :: later).Pairwise (· < ·) := hdrop ▸ hr.sublist (dropWhile_sublist _)
  have hle := head_dropWhile_not (fun a => decide (a < actor)) (l := rest) (by simp [hdrop])
  simp only [hdrop, head_cons, decide_eq_false_iff_not, Nat.not_lt] at hle
  refine ⟨hsorted, ?_⟩
  rw [← mem_dropWhile_iff (Nat.le_refl actor), hdrop, mem_cons, eq_comm]
  refine or_iff_left fun hlater => ?_
  exact absurd (rel_of_pairwise_cons hsorted hlater) (Nat.not_lt.mpr hle)

lemma exists_extents (hne : rest ≠ []) : ∃ first last, rest.head? = some first ∧
    rest.getLast? = some last ∧ first ∈ rest ∧ last ∈ rest ∧ ∀ b ∈ rest, first ≤ b ∧ b ≤ last := by
  have hle : rest.Pairwise (· ≤ ·) := hr.imp Nat.le_of_lt
  exact ⟨rest.head hne, rest.getLast hne, head?_eq_some_head hne,
    getLast?_eq_some_getLast hne, head_mem hne, getLast_mem hne,
    fun b hb => ⟨hle.rel_head hb, hle.rel_getLast hb⟩⟩

include ha

-- both loops: what is skipped before an actor is before all later actors as well
lemma isSubset_iff : isSubset actors rest = true ↔ actors ⊆ rest := by
  induction actors generalizing rest with
  | nil => simp [isSubset]
  | cons actor actors ih =>
    obtain ⟨hnext, ha⟩ := pairwise_cons.mp ha
    have hkept := fun b hb => mem_dropWhile_iff (l := rest) (Nat.le_of_lt (hnext b hb))
    have hmem := mem_dropWhile_iff (l := rest) (Nat.le_refl actor)
    rw [cons_subset, isSubset]
    cases hdrop : rest.dropWhile (· < actor) with
    | nil =>
      rw [hdrop] at hmem
      simp [← hmem]
    | cons found later =>
      obtain ⟨hsorted, hfound⟩ := dropWhile_found hr hdrop
      rw [hdrop] at hkept
      by_cases heq : found = actor
      · have hlater : ∀ b ∈ actors, b ∈ later ↔ b ∈ rest := by
          intro b hb
          have hne : b ≠ found := heq ▸ Nat.ne_of_gt (hnext b hb)
          rw [← hkept b hb, mem_cons, or_iff_right hne]
        simp only [heq, hfound, ne_eq, not_true_eq_false, if_false, true_and, ih ha hsorted.of_cons]
        exact forall₂_congr hlater
      · simp [hfound, heq]

lemma intersects_iff : intersects actors rest = true ↔ ∃ actor ∈ actors, actor ∈ rest := by
  induction actors generalizing rest with
  | nil => simp [intersects]
  | cons actor actors ih =>
    obtain ⟨hnext, ha⟩ := pairwise_cons.mp ha
    have hkept := fun b hb => mem_dropWhile_iff (l := rest) (Nat.le_of_lt (hnext b hb))
    have hmem := mem_dropWhile_iff (l := rest) (Nat.le_refl actor)
    rw [exists_mem_cons_iff, intersects]
    cases hdrop : rest.dropWhile (· < actor) with
    | nil =>
      simp_all
    | cons found later =>
      obtain ⟨hsorted, hfound⟩ := dropWhile_found hr hdrop
      rw [hdrop] at hkept
      by_cases heq : found = actor
      · simp [heq, hfound]
      · simp only [heq, hfound, if_false, false_or, ih ha hsorted]
        exact exists_congr fun b => and_congr_right (hkept b)

omit ha hr

/-- The filter is a test on sets: it throws unless every actor is on the whitelist or, if that is
empty, when some actor is on the blacklist. -/
theorem checkActorList_throws_iff (control : Control) {actors : List AccountName}
    (ha : actors.Pairwise (· < ·)) (hw : control.actorWhitelist.Pairwise (· < ·))
    (hb : control.actorBlacklist.Pairwise (· < ·)) :
    (∃ e, control.checkActorList actors = .error e) ↔
      actors ≠ [] ∧ ((control.actorWhitelist ≠ [] ∧ ¬ actors ⊆ control.actorWhitelist) ∨
        (control.actorWhitelist = [] ∧ ∃ actor ∈ actors, actor ∈ control.actorBlacklist)) := by
  unfold checkActorList
  by_cases hactors : actors = []
  · simp [hactors]
  obtain ⟨first, last, hfirst, hlast, hmin, hmax, hacting⟩ := exists_extents ha hactors
  by_cases hwhite : control.actorWhitelist = []
  · by_cases hblack : control.actorBlacklist = []
    · simp [hwhite, hblack, hfirst, hlast]
    obtain ⟨bfirst, blast, hbfirst, hblast, -, -, hlisted⟩ := exists_extents hb hblack
    -- a common actor lies between the ends of both lists
    have hextents : (∃ actor ∈ actors, actor ∈ control.actorBlacklist) →
        first ≤ blast ∧ bfirst ≤ last := by
      rintro ⟨actor, hactor, hon⟩
      exact ⟨Nat.le_trans (hacting actor hactor).1 (hlisted actor hon).2,
        Nat.le_trans (hlisted actor hon).1 (hacting actor hactor).2⟩
    simp only [hwhite, hfirst, hlast, hbfirst, hblast, head?_nil, eosAssert_error_iff,
      intersects_iff ha hb, not_not, hactors, ne_eq, not_true_eq_false, not_false_eq_true,
      false_and, false_or, true_and]
    exact ⟨fun h => h.2.2, fun h => ⟨(hextents h).1, (hextents h).2, h⟩⟩
  obtain ⟨wfirst, wlast, hwfirst, hwlast, -, -, hlisted⟩ := exists_extents hw hwhite
  have hextents : actors ⊆ control.actorWhitelist → wfirst ≤ first ∧ last ≤ wlast :=
    fun hsub => ⟨(hlisted first (hsub hmin)).1, (hlisted last (hsub hmax)).2⟩
  simp only [hfirst, hlast, hwfirst, hwlast, eosAssert_error_iff, isSubset_iff ha hw]
  tauto

theorem checkActorList_throws_iff_blacklisted :
    ∃ e, ({ blockStatus := .complete, actorBlacklist := [2, 5] } : Control).checkActorList [1, 5] =
      .error e :=
  (checkActorList_throws_iff _ (by decide) (by decide) (by decide)).mpr (by decide)

end Control

end DimensionChain
