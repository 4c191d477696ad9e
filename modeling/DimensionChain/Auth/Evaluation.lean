import DimensionChain.Auth.AuthorityChecker

/-!
# The result of a visit

The result of a visit to an account factor is inverted once, in `AccountVisit`.
-/

namespace DimensionChain.Auth

namespace Checker
variable {Key : Type} [DecidableEq Key] {c : Checker Key} {sub : Option (Evaluator Key)}
  {st st' : CheckState Key} {m : MetaPermission Key} {total total' : Nat}

inductive AccountVisit (c : Checker Key) (sub : Option (Evaluator Key))
    (p : PermissionLevelWeight) (total : Nat) (st : CheckState Key) :
    Result (Nat × CheckState Key) → Prop
  | counted (hstatus : st.permissionStatusInCache p.permission = some .permissionSatisfied) :
      AccountVisit c sub p total st (.ok (u32 (total + p.weight), st))
  | refused (hstatus : st.permissionStatusInCache p.permission = some .permissionUnsatisfied) :
      AccountVisit c sub p total st (.ok (total, st))
  | opened (hstatus : st.permissionStatusInCache p.permission = some .beingEvaluated) :
      AccountVisit c sub p total st (.ok (total, st))
  | tooDeep (hstatus : st.permissionStatusInCache p.permission = none) (hsub : sub = none) :
      AccountVisit c sub p total st (.ok (total, st))
  | missing (e : ChainException) (hstatus : st.permissionStatusInCache p.permission = none)
      (hauth : c.permissionToAuthority p.permission = .error e) (he : e.kind = .permissionQuery) :
      AccountVisit c sub p total st (.ok (total, st))
  | invalid (e : ChainException) (hstatus : st.permissionStatusInCache p.permission = none)
      (hauth : c.permissionToAuthority p.permission = .error e) (he : e.kind ≠ .permissionQuery) :
      AccountVisit c sub p total st (.error e)
  | granted (satisfied : Evaluator Key) (auth : Authority Key) (st' : CheckState Key)
      (hstatus : st.permissionStatusInCache p.permission = none) (hsub : sub = some satisfied)
      (hauth : c.permissionToAuthority p.permission = .ok auth)
      (hrun : satisfied auth (st.mark p.permission .beingEvaluated) = .ok (true, st')) :
      AccountVisit c sub p total st
        (.ok (u32 (total + p.weight), st'.mark p.permission .permissionSatisfied))
  | denied (satisfied : Evaluator Key) (auth : Authority Key) (st' : CheckState Key)
      (hstatus : st.permissionStatusInCache p.permission = none) (hsub : sub = some satisfied)
      (hauth : c.permissionToAuthority p.permission = .ok auth)
      (hrun : satisfied auth (st.mark p.permission .beingEvaluated) = .ok (false, st')) :
      AccountVisit c sub p total st
        (.ok (total, st'.mark p.permission .permissionUnsatisfied))
  | failed (satisfied : Evaluator Key) (auth : Authority Key) (e : ChainException)
      (hstatus : st.permissionStatusInCache p.permission = none) (hsub : sub = some satisfied)
      (hauth : c.permissionToAuthority p.permission = .ok auth)
      (hrun : satisfied auth (st.mark p.permission .beingEvaluated) = .error e) :
      AccountVisit c sub p total st (.error e)

lemma visit_account (c : Checker Key) (sub : Option (Evaluator Key))
    (p : PermissionLevelWeight) (total : Nat) (st : CheckState Key) :
    AccountVisit c sub p total st (c.visit sub (.permissionLevel p) total st) := by
  unfold visit
  dsimp only
  cases hstatus : st.permissionStatusInCache p.permission with
  | none =>
    cases sub with
    | none => exact .tooDeep hstatus rfl
    | some satisfied =>
      cases hauth : c.permissionToAuthority p.permission with
      | error e =>
        dsimp only
        split
        · rename_i he
          exact .missing e hstatus hauth he
        · rename_i he
          exact .invalid e hstatus hauth he
      | ok auth =>
        dsimp only
        cases hrun : satisfied auth (st.mark p.permission .beingEvaluated) with
        | error e => exact .failed satisfied auth e hstatus rfl hauth hrun
        | ok res =>
          rcases res with ⟨r, st'⟩
          cases r with
          | true => exact .granted satisfied auth st' hstatus rfl hauth hrun
          | false => exact .denied satisfied auth st' hstatus rfl hauth hrun
  | some s =>
    cases s with
    | beingEvaluated => exact .opened hstatus
    | permissionUnsatisfied => exact .refused hstatus
    | permissionSatisfied => exact .counted hstatus

lemma visit_wait (c : Checker Key) (sub : Option (Evaluator Key)) (w : WaitWeight) (total : Nat)
    (st : CheckState Key) : c.visit sub (.wait w) total st =
      if seconds w.waitSec ≤ c.providedDelay then .ok (u32 (total + w.weight), st)
      else .ok (total, st) := rfl

lemma visit_key (c : Checker Key) (sub : Option (Evaluator Key)) (k : KeyWeight Key) (total : Nat)
    (st : CheckState Key) : c.visit sub (.key k) total st =
      if k.key ∈ c.providedKeys then
        .ok (u32 (total + k.weight), { st with usedKeys := insert k.key st.usedKeys })
      else .ok (total, st) := rfl

lemma visitAll_cons (h : c.visit sub m total st = .ok (total', st')) (threshold : Nat)
    (ms : List (MetaPermission Key)) : c.visitAll sub threshold (m :: ms) total st =
      if threshold ≤ total' then .ok (true, st') else c.visitAll sub threshold ms total' st' := by
  rw [visitAll, h]

/-- What one level of the recursion passes on to the level above holds at every depth. -/
lemma evaluator_induction (c : Checker Key) {R : Evaluator Key → Prop}
    (hstep : ∀ sub, (∀ f, sub = some f → R f) → R (c.satisfiedAuthority sub)) (n : Nat) :
    ∀ f, c.evaluator n = some f → R f := by
  induction n with
  | zero =>
    intro f hf
    cases hf
  | succ n ih =>
    intro f hf
    cases hf
    exact hstep _ ih

end Checker

end DimensionChain.Auth
