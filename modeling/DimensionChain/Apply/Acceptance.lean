import DimensionChain.Apply.Context

/-!
# What a producer accepts

A producing node takes other paths through `execute_inline`, `schedule_deferred_transaction` and
`update_db_usage` than a validating one: it filters actors, inherits authorizations and has
subjective failures. Whatever it accepts, every validator accepts with the same result, whichever
checks that validator skips.
-/

namespace DimensionChain.Apply

open Auth Accepts Control

variable {Key : Type}

lemma accepts_eosAssert {p q : Prop} [Decidable p] [Decidable q] {kind : ExceptionKind}
    {message : String} (h : p → q) :
    Accepts (eosAssert q kind message) (eosAssert p kind message) := by
  intro u hp
  rw [eosAssert_ok_iff] at hp ⊢
  exact h hp

namespace ApplyContext

def onNode (c : ApplyContext Key) (control : Control) : ApplyContext Key :=
  { c with control := control }

variable {c : ApplyContext Key} {control : Control}

lemma updateDbUsage_accepts (hvalidating : control.isProducingBlock = false) (payer : AccountName)
    (delta : Int) (s : ApplyState Key) :
    Accepts ((c.onNode control).updateDbUsage payer delta s) (c.updateDbUsage payer delta s) := by
  apply Accepts.bind
  · apply Accepts.ifThen id
    intro _
    apply Accepts.bind
    · apply accepts_eosAssert
      intro _
      exact .inl (isRamBillingInNotifyAllowed_of_validating hvalidating)
    · intro _ _
      exact refl _
  · intro _ _
    exact refl _

lemma validateReferencedAccounts_accepts (trx : Transaction Key) {enforce enforce' : Bool}
    (henforce : enforce' = false) :
    Accepts ((c.onNode control).validateReferencedAccounts trx enforce')
      (c.validateReferencedAccounts trx enforce) := by
  subst henforce
  apply bind (refl _)
  intro _ _
  apply bind (refl _)
  intro _ _
  apply Accepts.bind (Accepts.refl _)
  intro _ _
  apply Accepts.ifThen
  · intro h
    cases h
  · intro h
    cases h

lemma addNetUsage_accepts (hproducing : c.control.isProducingBlock = true) (u : Nat)
    (s : ApplyState Key) : Accepts ((c.onNode control).addNetUsage u s) (c.addNetUsage u s) := by
  apply Accepts.bind
  · -- a producer skips no check, so the limit is not exceeded
    intro _ hchecked
    have hskip : c.control.skipTrxChecks = false :=
      lightValidationAllowed_of_producing hproducing _
    unfold checkNetUsage at hchecked ⊢
    by_cases hlimit : c.trxContext.eagerNetLimit < (s.netUsage + u) % 2 ^ 64
    · rw [if_pos ⟨by simp [hskip], hlimit⟩] at hchecked
      split at hchecked
      · cases hchecked
      · split at hchecked <;> cases hchecked
    · exact if_neg fun h => hlimit h.2
  · intro _ _
    exact refl _

lemma bypassSelf_accepts (hvalidating : control.isProducingBlock = false) {sendToSelf : Bool}
    {message unexpected : String} {x y : Result Unit}
    (hxy : sendToSelf = false → y = x) :
    Accepts ((c.onNode control).bypassSelf sendToSelf message unexpected y)
      (c.bypassSelf sendToSelf message unexpected x) := by
  cases sendToSelf with
  | true =>
    apply of_ok
    unfold bypassSelf
    cases y with
    | ok => rfl
    | error e => simp [onNode, hvalidating]
  | false =>
    rw [hxy rfl]
    cases x with
    | ok => exact refl _
    | error e => exact refl _

lemma skipAuthCheck_of_producing (hproducing : c.control.isProducingBlock = true)
    (h : ¬ control.skipAuthCheck ∧ ¬ c.privileged) : ¬ c.control.skipAuthCheck ∧ ¬ c.privileged := by
  refine ⟨?_, h.2⟩
  have hskip : c.control.skipAuthCheck = false :=
    lightValidationAllowed_of_producing hproducing _
  rw [hskip]
  exact Bool.false_ne_true

variable [DecidableEq Key]

omit [DecidableEq Key] in
lemma inheritedAuthorizations_of_other {a : SentAction Key} (h : a.data.account ≠ c.receiver) :
    c.inheritedAuthorizations a = ∅ := if_neg fun hself => h hself.1

variable (hproducing : c.control.isProducingBlock = true)
  (hvalidating : control.isProducingBlock = false) {codec : TransactionCodec Key}
include hproducing hvalidating

lemma checkInlineAuthorization_accepts (a : SentAction Key) (s : ApplyState Key) :
    Accepts ((c.onNode control).checkInlineAuthorization a s) (c.checkInlineAuthorization a s) := by
  apply Accepts.ifThen (skipAuthCheck_of_producing hproducing)
  intro _
  apply bypassSelf_accepts hvalidating
  intro hother
  have hne : a.data.account ≠ c.receiver := of_decide_eq_false hother
  rw [inheritedAuthorizations_of_other hne,
    inheritedAuthorizations_of_other (c := c.onNode control) hne]
  rfl

lemma executeInline_accepts (a : SentAction Key) (s : ApplyState Key) :
    Accepts ((c.onNode control).executeInline a s) (c.executeInline a s) := by
  apply bind (refl _)
  intro _ _
  apply Accepts.bind (Accepts.refl _)
  intro _ _
  apply Accepts.bind
  · apply Accepts.of_ok
    apply if_neg
    rintro ⟨_, h⟩
    exact Bool.false_ne_true (hvalidating.symm.trans h)
  intro _ _
  apply Accepts.bind (checkInlineAuthorization_accepts hproducing hvalidating a s)
  intro _ _
  exact refl _

lemma checkDeferredAuthorization_accepts (payer : AccountName) (trx : Transaction Key)
    (s : ApplyState Key) : Accepts ((c.onNode control).checkDeferredAuthorization payer trx s)
      (c.checkDeferredAuthorization payer trx s) := by
  apply Accepts.ifThen (skipAuthCheck_of_producing hproducing)
  intro _
  apply Accepts.bind (Accepts.refl _)
  intro _ _
  apply bypassSelf_accepts hvalidating
  intro _
  rfl

omit hvalidating

omit [DecidableEq Key] in
lemma storeDeferred_accepts (senderId : Nat) (payer : AccountName)
    (trx : Transaction Key) (replaceExisting : Bool) (s : ApplyState Key) :
    Accepts ((c.onNode control).storeDeferred codec senderId payer trx replaceExisting s)
      (c.storeDeferred codec senderId payer trx replaceExisting s) := by
  intro s' h
  unfold storeDeferred at h ⊢
  cases hfind : s.generatedTransactions.find? (toLex (c.receiver, senderId)) with
  | none =>
    exact hfind ▸ h
  | some gtx =>
    rw [hfind] at h
    simp only [bind_ok_iff, eosAssert_ok_iff] at h
    obtain ⟨_, _, _, hvalidating, _⟩ := h
    rw [hproducing] at hvalidating
    cases hvalidating

lemma scheduleDeferredTransaction_accepts (hvalidating : control.isProducingBlock = false)
    (senderId : Nat) (payer : AccountName) (trx : Transaction Key) (replaceExisting : Bool)
    (s : ApplyState Key) :
    Accepts ((c.onNode control).scheduleDeferredTransaction codec senderId payer trx replaceExisting s)
      (c.scheduleDeferredTransaction codec senderId payer trx replaceExisting s) := by
  apply Accepts.bind (Accepts.refl _)
  intro _ _
  apply Accepts.bind
  · apply validateReferencedAccounts_accepts
    apply decide_eq_false
    rintro ⟨_, h, _⟩
    exact Bool.false_ne_true (hvalidating.symm.trans h)
  intro _ _
  apply Accepts.bind (addNetUsage_accepts hproducing _ s)
  intro s _
  apply bind (checkDeferredAuthorization_accepts hproducing hvalidating payer _ s)
  intro _ _
  apply Accepts.bind (storeDeferred_accepts hproducing senderId payer _ replaceExisting s)
  intro s _
  apply Accepts.bind
  · apply accepts_eosAssert
    intro _
    exact .inl (isRamBillingInNotifyAllowed_of_validating hvalidating)
  · intro _ _
    exact Accepts.refl _

omit hproducing

/-- Inline actions, deferred transactions and charges that are accepted by a producing node are
accepted by every validating one, and leave the same state behind. -/
theorem validators_accept_what_producers_accept (codec : TransactionCodec Key)
    (c : ApplyContext Key) (control : Control) (s s' : ApplyState Key)
    (hproducing : c.control.isProducingBlock = true)
    (hvalidating : control.isProducingBlock = false) :
    (∀ a, c.executeInline a s = .ok s' →
        ({ c with control := control } : ApplyContext Key).executeInline a s = .ok s') ∧
      (∀ senderId payer trx replaceExisting,
        c.scheduleDeferredTransaction codec senderId payer trx replaceExisting s = .ok s' →
          ({ c with control := control } : ApplyContext Key).scheduleDeferredTransaction codec
            senderId payer trx replaceExisting s = .ok s') ∧
      ∀ payer delta, c.updateDbUsage payer delta s = .ok s' →
        ({ c with control := control } : ApplyContext Key).updateDbUsage payer delta s = .ok s' := by
  refine ⟨?_, ?_, ?_⟩
  · intro a h
    exact executeInline_accepts hproducing hvalidating a s s' h
  · intro senderId payer trx replaceExisting h
    exact scheduleDeferredTransaction_accepts hproducing hvalidating senderId payer trx
      replaceExisting s s' h
  · intro payer delta h
    exact updateDbUsage_accepts hvalidating payer delta s s' h

/-- A contract sends itself an action with the authorization that it was given: the producer lets
it inherit that, a validator does not look. -/
def again : SentAction Nat :=
  { authorization := [⟨contract, Config.activeName⟩], data := .other contract 2 }

lemma contract_accepted_by_producer :
    okAnd ((contractContext .incomplete).executeInline again {}) (fun s => s.inlineActions = [again]) ∧
      okAnd ((contractContext .incomplete).updateDbUsage contract 112
        { ramUsage := FlatMap.empty.set contract 0 })
        (fun s => s.ramUsage.find? contract = some 112) := by
  decide +kernel

theorem validators_accept_contract : ∃ s s' r r' : ApplyState Nat,
    (contractContext .complete).executeInline again s = .ok s' ∧ s'.inlineActions = [again] ∧
      (contractContext .validated).updateDbUsage contract 112 r = .ok r' ∧
      r'.ramUsage.find? contract = some 112 := by
  obtain ⟨s', hinline, hqueue⟩ := exists_ok_of_okAnd contract_accepted_by_producer.1
  obtain ⟨r', hcharge, husage⟩ := exists_ok_of_okAnd contract_accepted_by_producer.2
  have hcomplete := validators_accept_what_producers_accept delayCodec (contractContext .incomplete)
    { blockStatus := .complete } {} s' rfl rfl
  have hvalidated := validators_accept_what_producers_accept delayCodec (contractContext .incomplete)
    { blockStatus := .validated } { ramUsage := FlatMap.empty.set contract 0 } r' rfl rfl
  exact ⟨{}, s', _, r', hcomplete.1 again hinline, of_decide_eq_true hqueue,
    hvalidated.2.2 contract 112 hcharge, of_decide_eq_true husage⟩

end ApplyContext

end DimensionChain.Apply
