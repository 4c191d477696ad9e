import DimensionChain.Base.Outcome

/-!
# Headers, schedules and the cryptographic interface

Unsigned machine integers are natural numbers with an explicit reduction where the
source can wrap; a block timestamp is its slot. Hashing and key recovery come from a
library outside the repository, so they are the fields of `Crypto`: nothing is
assumed about them.
-/

namespace DimensionChain

/-- The exception types of the `EOS_ASSERT`s in the modelled functions. `undefined`
stands for undefined behaviour of the source, such as a division by zero, and
`streamFailure` for the exception of a file stream. -/
inductive ExceptionKind where
  | blockValidate | unlinkableBlock | wrongProducer | producerSchedule | producerDoubleConfirm
  | producerNotInSchedule | wrongSigningKey | crypto | forkDatabase | forkDbBlockNotFound
  | database | blockLog | blockLogAppendFail | reversibleBlocks | unknownBlock | uniqueness
  | irrelevantAuth | unsatisfiedAuthorization | txIrrelevantSig | missingAuth | invalidPermission
  | unlinkableMinPermissionAction | permissionQuery | accountQuery | actionValidate
  | accountNameExists | transaction | txNotFound | outOfRange
  | eosioAssertMessage | wasmExecution
  | subjectiveBlockProduction | actorWhitelist | actorBlacklist | txNoAuths | expiredTx | txExpTooFar
  | txDuplicate | txDuplicateSig | unknownTransaction | invalidRefBlock | deferredTxDuplicate | cfaInsideGeneratedTx
  | blockNetUsageExceeded | greylistNetUsageExceeded | txNetUsageExceeded
  | invalidTablePayer | tableAccessViolation | tableOperationNotPermitted
  | blockLogUnsupportedVersion | streamFailure | plugin | snapshot | snapshotValidation
  | abi | abiRecursionDepth | abiCircularDef | invalidTypeInsideAbi | unsupportedAbiVersion
  | duplicateAbiTypeDef | duplicateAbiStructDef | duplicateAbiActionDef | duplicateAbiTableDef
  | duplicateAbiErrMsgDef | duplicateAbiVariantDef | pack | unpack
  | rateLimitingStateInconsistent | resourceLimit | blockCpuUsageExceeded | greylistCpuUsageExceeded
  | txCpuUsageExceeded | blockResourceExhausted | txDecompression
  | undefined
  deriving DecidableEq, Repr

inductive DbReadMode where
  | speculative | head | readOnly | irreversible
  deriving DecidableEq, Repr

inductive BlockStatus where
  | irreversible | validated | complete | incomplete
  deriving DecidableEq, Repr

structure ChainException where
  kind : ExceptionKind
  message : String
  deriving DecidableEq, Repr

/-- What a call returns that may throw. -/
abbrev Result : Type → Type := Except ChainException

/-- What a call returns that may throw and leave what it has changed. -/
abbrev Attempt : Type → Type := Outcome ChainException

/-- What the insertion of an object throws whose key is there already. -/
def uniquenessViolated : String :=
  "could not insert object, most likely a uniqueness constraint was violated"

def eosAssert (c : Prop) [Decidable c] (kind : ExceptionKind) (message : String) : Result Unit :=
  if c then .ok () else .error ⟨kind, message⟩

@[simp] lemma eosAssert_ok_iff {c : Prop} [Decidable c] {kind : ExceptionKind} {message : String}
    {u : Unit} : eosAssert c kind message = .ok u ↔ c := by
  unfold eosAssert
  split <;> simp_all

lemma bind_ok_iff {ε α β : Type} {x : Except ε α} {f : α → Except ε β} {b : β} :
    (x >>= f) = .ok b ↔ ∃ a, x = .ok a ∧ f a = .ok b := by
  cases x <;> simp [bind, Except.bind]

lemma ok_after {ε α β : Type} {x : Except ε α} {f : α → Except ε β} {b : β}
    (h : (x >>= f) = .ok b) : ∃ a, f a = .ok b := by
  obtain ⟨a, -, h⟩ := bind_ok_iff.mp h
  exact ⟨a, h⟩

lemma assert_ok {β : Type} {c : Prop} [Decidable c] {kind : ExceptionKind} {message : String}
    {f : Unit → Result β} {b : β} (h : (eosAssert c kind message >>= f) = .ok b) :
    c ∧ f () = .ok b := by
  obtain ⟨_, hc, h⟩ := bind_ok_iff.mp h
  exact ⟨eosAssert_ok_iff.mp hc, h⟩

variable {ε α : Type} {x : Except ε α} {a : α}

lemma except_forM_ok_iff {as : List α} {f : α → Except ε Unit} :
    as.forM f = .ok () ↔ ∀ a ∈ as, f a = .ok () := by
  induction as with
  | nil => exact ⟨fun _ a ha => absurd ha List.not_mem_nil, fun _ => rfl⟩
  | cons a as ih =>
    change (f a >>= fun _ => as.forM f) = .ok () ↔ _
    rw [bind_ok_iff, List.forall_mem_cons]
    constructor
    · rintro ⟨_, ha, has⟩
      exact ⟨ha, ih.mp has⟩
    · rintro ⟨ha, has⟩
      exact ⟨(), ha, ih.mpr has⟩

def okAnd {ε α : Type} (x : Except ε α) (p : α → Bool) : Bool :=
  match x with
  | .ok a => p a
  | .error _ => false

lemma ok_of_toOption (h : x.toOption = some a) : x = .ok a := by
  cases x with
  | error e => cases h
  | ok b =>
    cases h
    rfl

lemma ok_of_guarded {c : Prop} [Decidable c]
    (h : (if c then x.toOption else none) = some a) : c ∧ x = .ok a := by
  by_cases hc : c
  · rw [if_pos hc] at h
    exact ⟨hc, ok_of_toOption h⟩
  · rw [if_neg hc] at h
    cases h

lemma exists_ok_of_okAnd {p : α → Bool} (h : okAnd x p = true) : ∃ a, x = .ok a ∧ p a = true := by
  cases x with
  | ok a => exact ⟨a, rfl, h⟩
  | error e => simp [okAnd] at h

def thrown {ε α : Type} (x : Except ε α) : Option ε :=
  match x with
  | .ok _ => none
  | .error e => some e

lemma error_of_thrown {e : ε} (h : thrown x = some e) : x = .error e := by
  cases x with
  | ok a => cases h
  | error e' =>
    cases h
    rfl

def u32 (n : Nat) : Nat := n % 4294967296

lemma u32_lt (n : Nat) : u32 n < 4294967296 := Nat.mod_lt _ (by decide)

lemma u32_eq {n : Nat} (h : n < 4294967296) : u32 n = n := Nat.mod_eq_of_lt h

def sub32 (a b : Nat) : Nat := u32 (a + (4294967296 - u32 b))

def sub64 (a b : Nat) : Nat := (a + (2 ^ 64 - b % 2 ^ 64)) % 2 ^ 64

lemma sub32_eq {a b : Nat} (hab : b ≤ a) (ha : a < 4294967296) : sub32 a b = a - b := by
  unfold sub32 u32
  omega

structure Digest where
  hash0 : UInt64
  hash1 : UInt64
  hash2 : UInt64
  hash3 : UInt64
  deriving DecidableEq, Repr, Inhabited

abbrev BlockId := Digest

abbrev AccountName := Nat

def endianReverseU32 (x : UInt32) : UInt32 :=
  ((x >>> 24) &&& (0xFF : UInt32)) ||| ((x >>> 8) &&& (0xFF00 : UInt32)) |||
    ((x <<< 8) &&& (0xFF0000 : UInt32)) ||| ((x <<< 24) &&& (0xFF000000 : UInt32))

structure ProducerKey (Key : Type) where
  producerName : AccountName
  blockSigningKey : Key
  deriving DecidableEq, Repr, Inhabited

structure ProducerSchedule (Key : Type) where
  version : Nat := 0
  consensusType : Int := 0
  producers : List (ProducerKey Key) := []
  deriving DecidableEq, Repr, Inhabited

def ProducerSchedule.names {Key : Type} (s : ProducerSchedule Key) : List AccountName :=
  s.producers.map ProducerKey.producerName

structure BlockHeader (Key : Type) where
  timestamp : Nat := 0
  producer : AccountName := 0
  confirmed : Nat := 1
  previous : BlockId := default
  transactionMroot : Digest := default
  actionMroot : Digest := default
  scheduleVersion : Nat := 0
  consensusType : Int := 0
  newProducers : Option (ProducerSchedule Key) := none
  headerExtensions : List (Nat × List UInt8) := []
  deriving DecidableEq, Repr

instance {Key : Type} : Inhabited (BlockHeader Key) := ⟨{}⟩

structure SignedBlockHeader (Key Sig : Type) extends BlockHeader Key where
  producerSignature : Sig
  deriving DecidableEq, Repr

instance {Key Sig : Type} [Inhabited Sig] : Inhabited (SignedBlockHeader Key Sig) :=
  ⟨{ producerSignature := default }⟩

structure HeaderConfirmation (Sig : Type) where
  blockId : BlockId
  producer : AccountName
  producerSignature : Sig
  deriving DecidableEq, Repr

/-- Hashing of the packed values and recovery of the signing key. A recovery fails
(`none`) when the signature is not canonical or yields no key. -/
structure Crypto (Key Sig : Type) where
  headerDigest : BlockHeader Key → Digest
  scheduleDigest : ProducerSchedule Key → Digest
  pairDigest : Digest → Digest → Digest
  recoverKey : Sig → Digest → Option Key

def numFromId (id : BlockId) : Nat := (endianReverseU32 id.hash0.toUInt32).toNat

namespace BlockHeader
variable {Key Sig : Type}

def blockNum (h : BlockHeader Key) : Nat := u32 (numFromId h.previous + 1)

def id (C : Crypto Key Sig) (h : BlockHeader Key) : BlockId :=
  let result := C.headerDigest h
  -- the block number is stored in the low half of the first word
  { result with hash0 := (result.hash0 &&& 0xffffffff00000000) +
      (endianReverseU32 (UInt32.ofNat h.blockNum)).toUInt64 }

end BlockHeader

lemma getLsbD_endianReverseU32 (x : UInt32) {i : Nat} (hi : i < 8) :
    (endianReverseU32 x).toBitVec.getLsbD i = x.toBitVec.getLsbD (24 + i) ∧
    (endianReverseU32 x).toBitVec.getLsbD (8 + i) = x.toBitVec.getLsbD (16 + i) ∧
    (endianReverseU32 x).toBitVec.getLsbD (16 + i) = x.toBitVec.getLsbD (8 + i) ∧
    (endianReverseU32 x).toBitVec.getLsbD (24 + i) = x.toBitVec.getLsbD i := by
  have hbit : i = 0 ∨ i = 1 ∨ i = 2 ∨ i = 3 ∨ i = 4 ∨ i = 5 ∨ i = 6 ∨ i = 7 := by omega
  unfold endianReverseU32
  rcases hbit with rfl | rfl | rfl | rfl | rfl | rfl | rfl | rfl <;> simp

lemma endianReverseU32_involutive (x : UInt32) : endianReverseU32 (endianReverseU32 x) = x := by
  apply UInt32.toBitVec_inj.mp
  apply BitVec.eq_of_getLsbD_eq
  intro i hi
  have hbyte : i < 8 ∨ (∃ j < 8, i = 8 + j) ∨ (∃ j < 8, i = 16 + j) ∨ ∃ j < 8, i = 24 + j := by
    by_cases h₁ : i < 8
    · exact .inl h₁
    by_cases h₂ : i < 16
    · exact .inr (.inl ⟨i - 8, by omega, by omega⟩)
    · by_cases h₃ : i < 24
      · exact .inr (.inr (.inl ⟨i - 16, by omega, by omega⟩))
      · exact .inr (.inr (.inr ⟨i - 24, by omega, by omega⟩))
  rcases hbyte with h | ⟨j, h, rfl⟩ | ⟨j, h, rfl⟩ | ⟨j, h, rfl⟩
  · rw [(getLsbD_endianReverseU32 _ h).1, (getLsbD_endianReverseU32 x h).2.2.2]
  · rw [(getLsbD_endianReverseU32 _ h).2.1, (getLsbD_endianReverseU32 x h).2.2.1]
  · rw [(getLsbD_endianReverseU32 _ h).2.2.1, (getLsbD_endianReverseU32 x h).2.1]
  · rw [(getLsbD_endianReverseU32 _ h).2.2.2, (getLsbD_endianReverseU32 x h).1]

lemma numFromId_id {Key Sig : Type} (C : Crypto Key Sig) (h : BlockHeader Key) :
    numFromId (h.id C) = h.blockNum := by
  have hhigh : ((C.headerDigest h).hash0 &&& 0xffffffff00000000).toUInt32 = 0 := by
    rw [UInt64.toUInt32_and]
    have hzero : (0xffffffff00000000 : UInt64).toUInt32 = 0 := rfl
    rw [hzero, UInt32.and_zero]
  unfold numFromId BlockHeader.id
  dsimp only
  rw [UInt64.toUInt32_add, hhigh, UInt32.zero_add, UInt32.toUInt32_toUInt64,
    endianReverseU32_involutive]
  exact UInt32.toNat_ofNat_of_lt (u32_lt _)

end DimensionChain
