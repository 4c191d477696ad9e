import DimensionChain.Base.Steps
import DimensionChain.Chain.BlockHeaderState

/-!
# Recovery of the signing keys

`get_signature_keys` keeps the recovered keys of a thread by signature and transaction id. The key
also depends on the chain id and on the context-free data: a call is answered as by an empty cache
as long as no earlier call has recovered another key from the same signature for a transaction of
the same id.
-/

namespace DimensionChain

open List

variable {Trx Key Sig : Type}

/-- The hashes of a transaction: its id, and the digest that is signed, which covers the chain
id and the context-free data as well. -/
structure TransactionHashes (Trx : Type) where
  id : Trx → Digest
  sigDigest : Digest → Trx → List (List UInt8) → Digest

structure CachedPubKey (Key Sig : Type) where
  trxId : Digest
  pubKey : Key
  sig : Sig
  deriving DecidableEq, Repr

structure SignatureCall (Trx Sig : Type) where
  trx : Trx
  signatures : List Sig
  chainId : Digest
  cfd : List (List UInt8) := []
  allowDuplicateKeys : Bool := false
  useCache : Bool := true

/-- The entries in the order of their insertion, no two of one signature. -/
abbrev RecoveryCache (Key Sig : Type) := List (CachedPubKey Key Sig)

def recoveryCacheSize : Nat := 1000

namespace RecoveryCache
variable [DecidableEq Sig]

def findSig (cache : RecoveryCache Key Sig) (sig : Sig) : Option (CachedPubKey Key Sig) :=
  cache.find? fun e => e.sig = sig

/-- An entry for a signature that has one already is not inserted. -/
def emplaceBack (cache : RecoveryCache Key Sig) (entry : CachedPubKey Key Sig) :
    RecoveryCache Key Sig :=
  match cache.findSig entry.sig with
  | some _ => cache
  | none => cache ++ [entry]

end RecoveryCache

namespace SignatureCall
variable (H : TransactionHashes Trx) (C : Crypto Key Sig)

def digest (call : SignatureCall Trx Sig) : Digest := H.sigDigest call.chainId call.trx call.cfd

def recover (call : SignatureCall Trx Sig) (sig : Sig) : Result Key :=
  match C.recoverKey sig (call.digest H) with
  | none => .error ⟨.crypto, "unable to recover public key from signature"⟩
  | some key => .ok key

variable [DecidableEq Sig]

/-- The key of one signature. What is stored stays stored when the call fails later. -/
def recoverCached (call : SignatureCall Trx Sig) (sig : Sig) (cache : RecoveryCache Key Sig) :
    Result Key × RecoveryCache Key Sig :=
  match (cache.findSig sig).filter fun e => e.trxId = H.id call.trx with
  | some entry => (.ok entry.pubKey, cache)
  | none =>
    match call.recover H C sig with
    | .error e => (.error e, cache)
    | .ok key => (.ok key, cache.emplaceBack ⟨H.id call.trx, key, sig⟩)

def recoverOne (call : SignatureCall Trx Sig) (sig : Sig) (cache : RecoveryCache Key Sig) :
    Result Key × RecoveryCache Key Sig :=
  if call.useCache then call.recoverCached H C sig cache else (call.recover H C sig, cache)

variable [DecidableEq Key]

def recoverAll (call : SignatureCall Trx Sig) : List Sig → Finset Key → RecoveryCache Key Sig →
    Result (Finset Key) × RecoveryCache Key Sig
  | [], keys, cache => (.ok keys, cache)
  | sig :: rest, keys, cache =>
    match call.recoverOne H C sig cache with
    | (.error e, cache) => (.error e, cache)
    | (.ok key, cache) =>
      if call.allowDuplicateKeys = true ∨ key ∉ keys then recoverAll call rest (insert key keys) cache
      else (.error ⟨.txDuplicateSig, "transaction includes more than one signature signed using the same key associated with public key: $\x7bkey\x7d"⟩, cache)

def getSignatureKeys (call : SignatureCall Trx Sig) (cache : RecoveryCache Key Sig) :
    Result (Finset Key) × RecoveryCache Key Sig :=
  match call.recoverAll H C call.signatures ∅ cache with
  | (.error e, cache) => (.error e, cache)
  | (.ok keys, cache) =>
    (.ok keys, if call.useCache then cache.drop (cache.length - recoveryCacheSize) else cache)

def Stored (call : SignatureCall Trx Sig) (e : CachedPubKey Key Sig) : Prop :=
  call.useCache = true ∧ e.sig ∈ call.signatures ∧ e.trxId = H.id call.trx ∧
    C.recoverKey e.sig (call.digest H) = some e.pubKey

/-- The later of two calls that use the cache recovers what the earlier one has recovered from
a signature that both have for a transaction of one id. -/
def Agree (earlier later : SignatureCall Trx Sig) : Prop :=
  earlier.useCache = true → later.useCache = true → H.id earlier.trx = H.id later.trx →
    ∀ sig ∈ earlier.signatures, sig ∈ later.signatures → ∀ key,
      C.recoverKey sig (earlier.digest H) = some key → C.recoverKey sig (later.digest H) = some key

def Trusts (call : SignatureCall Trx Sig) (cache : RecoveryCache Key Sig) : Prop :=
  call.useCache = true → ∀ e ∈ cache, e.sig ∈ call.signatures → e.trxId = H.id call.trx →
    C.recoverKey e.sig (call.digest H) = some e.pubKey

section Step
variable {H C} {call : SignatureCall Trx Sig} {cache cache' : RecoveryCache Key Sig}
  {e : CachedPubKey Key Sig} {sig : Sig}

omit [DecidableEq Key] in
lemma findSig_some (h : cache.findSig sig = some e) : e ∈ cache ∧ e.sig = sig := by
  refine ⟨mem_of_find?_eq_some h, ?_⟩
  simpa using List.find?_some h

omit [DecidableEq Key] in
lemma mem_emplaceBack {entry e : CachedPubKey Key Sig} (h : e ∈ cache.emplaceBack entry) :
    e ∈ cache ∨ e = entry := by
  unfold RecoveryCache.emplaceBack at h
  split at h
  · exact .inl h
  · rcases mem_append.mp h with h | h
    · exact .inl h
    · exact .inr (mem_singleton.mp h)

omit [DecidableEq Key] in
lemma mem_recoverOne (hsig : sig ∈ call.signatures)
    (h : e ∈ (call.recoverOne H C sig cache).2) : e ∈ cache ∨ call.Stored H C e := by
  unfold recoverOne at h
  split at h
  case isFalse => exact .inl h
  case isTrue huse =>
    unfold recoverCached at h
    split at h
    case h_1 => exact .inl h
    case h_2 =>
      unfold recover at h
      cases hkey : C.recoverKey sig (call.digest H) with
      | none =>
        rw [hkey] at h
        exact .inl h
      | some key =>
        rw [hkey] at h
        rcases mem_emplaceBack h with h | rfl
        · exact .inl h
        · exact .inr ⟨huse, hsig, rfl, hkey⟩

omit [DecidableEq Key] in
lemma recoverOne_eq (hsig : sig ∈ call.signatures) (h : call.Trusts H C cache) :
    (call.recoverOne H C sig cache).1 = call.recover H C sig := by
  unfold recoverOne
  split
  case isFalse => rfl
  case isTrue huse =>
    unfold recoverCached
    split
    case h_1 entry hentry =>
      obtain ⟨hfind, hid⟩ := Option.filter_eq_some_iff.mp hentry
      obtain ⟨hmem, hsame⟩ := findSig_some hfind
      have hkey := h huse entry hmem (hsame ▸ hsig) (of_decide_eq_true hid)
      rw [hsame] at hkey
      unfold recover
      rw [hkey]
    case h_2 => cases call.recover H C sig <;> rfl

omit [DecidableEq Sig] [DecidableEq Key] in
lemma trusts_of_mem (h : call.Trusts H C cache)
    (hnew : ∀ e ∈ cache', e ∈ cache ∨ call.Stored H C e) : call.Trusts H C cache' := by
  intro huse e he hsig hid
  rcases hnew e he with hold | hstored
  · exact h huse e hold hsig hid
  · exact hstored.2.2.2

lemma recoverAll_spec {sigs : List Sig} (hsigs : ∀ s ∈ sigs, s ∈ call.signatures)
    (keys : Finset Key) (cache : RecoveryCache Key Sig) :
    (∀ e ∈ (call.recoverAll H C sigs keys cache).2, e ∈ cache ∨ call.Stored H C e) ∧
      (call.Trusts H C cache → ∀ other, call.Trusts H C other →
        (call.recoverAll H C sigs keys cache).1 = (call.recoverAll H C sigs keys other).1) := by
  induction sigs generalizing keys cache with
  | nil => exact ⟨fun e he => .inl he, fun _ _ _ => rfl⟩
  | cons sig rest ih =>
    have hsig := hsigs sig mem_cons_self
    have hrest := fun s hs => hsigs s (mem_cons_of_mem sig hs)
    have hone : ∀ e ∈ (call.recoverOne H C sig cache).2, e ∈ cache ∨ call.Stored H C e :=
      fun e => mem_recoverOne hsig
    refine ⟨?_, ?_⟩
    · intro e he
      unfold recoverAll at he
      cases hrun : call.recoverOne H C sig cache with
      | mk r after =>
        rw [hrun] at he hone
        cases r with
        | error err => exact hone e he
        | ok key =>
          dsimp only at he
          split at he
          · rcases (ih hrest _ after).1 e he with hold | hstored
            · exact hone e hold
            · exact .inr hstored
          · exact hone e he
    intro htrust other hother
    have hsame : (call.recoverOne H C sig cache).1 = (call.recoverOne H C sig other).1 := by
      rw [recoverOne_eq hsig htrust, recoverOne_eq hsig hother]
    have hone' : ∀ e ∈ (call.recoverOne H C sig other).2, e ∈ other ∨ call.Stored H C e :=
      fun e => mem_recoverOne hsig
    unfold recoverAll
    cases hrun : call.recoverOne H C sig cache with
    | mk r after =>
      cases hrun' : call.recoverOne H C sig other with
      | mk r' after' =>
        rw [hrun, hrun'] at hsame
        rw [hrun] at hone
        rw [hrun'] at hone'
        have hr : r = r' := hsame
        subst hr
        cases r with
        | error err => rfl
        | ok key =>
          dsimp only
          split
          · exact (ih hrest _ after).2 (trusts_of_mem htrust hone) after'
              (trusts_of_mem hother hone')
          · rfl

lemma mem_getSignatureKeys
    (h : e ∈ (call.getSignatureKeys H C cache).2) : e ∈ cache ∨ call.Stored H C e := by
  have hall : ∀ e ∈ (call.recoverAll H C call.signatures ∅ cache).2,
      e ∈ cache ∨ call.Stored H C e := (recoverAll_spec (fun s hs => hs) ∅ cache).1
  unfold getSignatureKeys at h
  cases hrun : call.recoverAll H C call.signatures ∅ cache with
  | mk r after =>
    rw [hrun] at h hall
    cases r with
    | error err => exact hall e h
    | ok keys =>
      dsimp only at h
      split at h
      · exact hall e (mem_of_mem_drop h)
      · exact hall e h

lemma getSignatureKeys_eq (h : call.Trusts H C cache) :
    (call.getSignatureKeys H C cache).1 = (call.getSignatureKeys H C []).1 := by
  have hfst : ∀ c : RecoveryCache Key Sig, (call.getSignatureKeys H C c).1 =
      (call.recoverAll H C call.signatures ∅ c).1 := by
    intro c
    unfold getSignatureKeys
    cases hrun : call.recoverAll H C call.signatures ∅ c with
    | mk r after => cases r <;> rfl
  have hempty : call.Trusts H C [] := by
    intro _ e he
    cases he
  rw [hfst, hfst]
  exact (recoverAll_spec (fun s hs => hs) ∅ cache).2 h [] hempty

end Step

def Recovers (cache : RecoveryCache Key Sig) (call : SignatureCall Trx Sig)
    (cache' : RecoveryCache Key Sig) : Prop := cache' = (call.getSignatureKeys H C cache).2

variable {H C} {cache : RecoveryCache Key Sig}
  {es : List (RecoveryCache Key Sig × SignatureCall Trx Sig × RecoveryCache Key Sig)}

lemma stored_of_run (h : Steps (Recovers H C) [] es cache) :
    ∀ e ∈ cache, ∃ s ∈ es, s.2.1.Stored H C e := by
  induction h with
  | nil =>
    intro e he
    cases he
  | snoc _ hstep ih =>
    intro e he
    have hstep' : _ = _ := hstep
    rw [hstep'] at he
    rcases mem_getSignatureKeys he with hold | hstored
    · obtain ⟨s, hs, hst⟩ := ih e hold
      exact ⟨s, mem_append_left _ hs, hst⟩
    · exact ⟨_, mem_append_right _ (mem_singleton_self _), hstored⟩

/-- In a run whose calls agree with the earlier ones, each call has the result that it has with
an empty cache. -/
theorem keys_independent_of_history (h : Steps (Recovers H C) [] es cache)
    (hagree : es.Pairwise fun s t => s.2.1.Agree H C t.2.1) :
    ∀ s ∈ es, (s.2.1.getSignatureKeys H C s.1).1 = (s.2.1.getSignatureKeys H C []).1 := by
  induction h with
  | nil =>
    intro s hs
    cases hs
  | @snoc before after call es hrun _ ih =>
    obtain ⟨hold, -, hlast⟩ := pairwise_append.mp hagree
    intro s hs
    rcases mem_append.mp hs with hs | hs
    · exact ih hold s hs
    obtain rfl := mem_singleton.mp hs
    apply getSignatureKeys_eq
    intro huse e he hsig hid
    obtain ⟨t, ht, huse', hsig', hid', hkey⟩ := stored_of_run hrun e he
    exact hlast t ht _ (mem_singleton_self _) huse' huse (hid'.symm.trans hid) e.sig hsig'
      hsig e.pubKey hkey

def dataHashes : TransactionHashes Nat where
  id trx := ⟨0, UInt64.ofNat trx, 0, 0⟩
  sigDigest chainId trx cfd := ⟨chainId.hash0, UInt64.ofNat trx, UInt64.ofNat cfd.length, 0⟩

def dataCrypto : Crypto Nat Nat :=
  { plainCrypto with recoverKey := fun _ digest => some digest.hash2.toNat }

/-- A signature that was checked without context-free data is accepted with any. -/
theorem other_data_old_key :
    (getSignatureKeys dataHashes dataCrypto ⟨1, [5], default, [[7]], false, true⟩
        (getSignatureKeys dataHashes dataCrypto ⟨1, [5], default, [], false, true⟩ []).2).1 =
        .ok {0} ∧
      (getSignatureKeys dataHashes dataCrypto ⟨1, [5], default, [[7]], false, true⟩ []).1 =
        .ok {1} := by
  exact ⟨rfl, rfl⟩

theorem keys_independent_of_history_twice :
    ((⟨1, [5], default, [[7]], false, true⟩ : SignatureCall Nat Nat).getSignatureKeys dataHashes
      dataCrypto (getSignatureKeys dataHashes dataCrypto ⟨1, [5], default, [[7]], false, true⟩ []).2).1 =
      ((⟨1, [5], default, [[7]], false, true⟩ : SignatureCall Nat Nat).getSignatureKeys dataHashes
        dataCrypto []).1 :=
  keys_independent_of_history (.snoc (.snoc (.nil []) rfl) rfl)
    (pairwise_pair.mpr fun _ _ _ _ _ _ _ hkey => hkey) _
    (mem_append_right _ (mem_singleton_self _))

end SignatureCall

end DimensionChain
