import DimensionChain.Abi.HistoryAbi

/-!
# Packed transactions

A packed transaction has the bytes of a transaction and, once it has been read, the transaction
itself. The readers fill that cache if it is empty; `set_transaction` replaces the bytes only, so
an object that was read before goes on returning the old transaction. Packing and compression come
from libraries.
-/

namespace DimensionChain

open HistoryAbi

structure PackingLibrary (Trx : Type) where
  packTrx : Trx → Bytes
  unpackTrx : Bytes → Option Trx
  trxId : Trx → Digest
  packCfd : List Bytes → Bytes
  unpackCfd : Bytes → Option (List Bytes)
  compress : Bytes → Bytes
  decompress : Bytes → Option Bytes

def maxDecompressedSize : Nat := 1 * 1024 * 1024

namespace PackingLibrary
variable {Trx : Type} (lib : PackingLibrary Trx)

def unpackTransaction (data : Bytes) : Result Trx :=
  match lib.unpackTrx data with
  | some t => .ok t
  | none => .error ⟨.unpack, "stream error"⟩

def unpackContextFreeData (data : Bytes) : Result (List Bytes) :=
  if data = [] then .ok []
  else
    match lib.unpackCfd data with
    | some cfd => .ok cfd
    | none => .error ⟨.unpack, "stream error"⟩

def zlibDecompress (data : Bytes) : Result Bytes :=
  match lib.decompress data with
  | some out => do
    eosAssert (out.length ≤ maxDecompressedSize) .txDecompression
      "Exceeded maximum decompressed transaction size"
    pure out
  | none => .error ⟨.undefined, "internal decompression error"⟩

def packContextFreeData (cfd : List Bytes) : Bytes := if cfd = [] then [] else lib.packCfd cfd

def zlibCompressContextFreeData (cfd : List Bytes) : Bytes :=
  if cfd = [] then [] else lib.compress (lib.packContextFreeData cfd)

def zlibDecompressContextFreeData (data : Bytes) : Result (List Bytes) :=
  if data = [] then .ok []
  else do
    let out ← lib.zlibDecompress data
    lib.unpackContextFreeData out

end PackingLibrary

structure SignedTransaction (Trx Sig : Type) where
  trx : Trx
  signatures : List Sig
  contextFreeData : List Bytes
  deriving DecidableEq

structure CachedTransaction (Trx Sig : Type) extends PackedTransaction Sig where
  unpackedTrx : Option Trx := none

namespace CachedTransaction
variable {Trx Sig : Type} (lib : PackingLibrary Trx) (p : CachedTransaction Trx Sig)

def getContextFreeData : Result (List Bytes) :=
  match p.compression with
  | .none => lib.unpackContextFreeData p.packedContextFreeData
  | .zlib => lib.zlibDecompressContextFreeData p.packedContextFreeData

def getTransaction : Result Trx :=
  match p.unpackedTrx with
  | some t => .ok t
  | none =>
    match p.compression with
    | .none => lib.unpackTransaction p.packedTrx
    | .zlib => do
      let out ← lib.zlibDecompress p.packedTrx
      lib.unpackTransaction out

def localUnpack : Result (CachedTransaction Trx Sig) := do
  let t ← p.getTransaction lib
  pure { p with unpackedTrx := some t }

def id : Result Digest := do
  let t ← p.getTransaction lib
  pure (lib.trxId t)

def getSignedTransaction : Result (SignedTransaction Trx Sig) := do
  let t ← p.getTransaction lib
  let cfd ← p.getContextFreeData lib
  pure ⟨t, p.signatures, cfd⟩

def setTransaction (t : Trx) (cfd : List Bytes) (compression : CompressionType) :
    CachedTransaction Trx Sig :=
  match compression with
  | .none => { p with
      packedTrx := lib.packTrx t
      packedContextFreeData := lib.packContextFreeData cfd
      compression := .none }
  | .zlib => { p with
      packedTrx := lib.compress (lib.packTrx t)
      packedContextFreeData := lib.zlibCompressContextFreeData cfd
      compression := .zlib }

end CachedTransaction

section Reading
variable {Trx Sig : Type} {lib : PackingLibrary Trx} {p : CachedTransaction Trx Sig} {t : Trx}
  {cfd : List Bytes}

structure RoundTrips (lib : PackingLibrary Trx) (t : Trx) (cfd : List Bytes) : Prop where
  trx : lib.unpackTrx (lib.packTrx t) = some t
  contextFree : cfd ≠ [] → lib.unpackCfd (lib.packCfd cfd) = some cfd ∧ lib.packCfd cfd ≠ []
  zlib : ∀ b ∈ [lib.packTrx t, lib.packCfd cfd],
    lib.decompress (lib.compress b) = some b ∧ lib.compress b ≠ [] ∧ b.length ≤ maxDecompressedSize

variable (h : RoundTrips lib t cfd)
include h

lemma RoundTrips.zlibDecompress {b : Bytes}
    (hb : b ∈ [lib.packTrx t, lib.packCfd cfd]) : lib.zlibDecompress (lib.compress b) = .ok b := by
  obtain ⟨hround, -, hsize⟩ := h.zlib b hb
  unfold PackingLibrary.zlibDecompress
  rw [hround]
  dsimp only
  rw [eosAssert, if_pos hsize]
  rfl

lemma RoundTrips.unpackTransaction : lib.unpackTransaction (lib.packTrx t) = .ok t := by
  unfold PackingLibrary.unpackTransaction
  rw [h.trx]

lemma RoundTrips.unpackContextFreeData :
    lib.unpackContextFreeData (lib.packContextFreeData cfd) = .ok cfd := by
  unfold PackingLibrary.unpackContextFreeData PackingLibrary.packContextFreeData
  by_cases hcfd : cfd = []
  · rw [if_pos hcfd, if_pos rfl, hcfd]
  · obtain ⟨hround, hne⟩ := h.contextFree hcfd
    rw [if_neg hcfd, if_neg hne, hround]

omit h

structure Reflects (lib : PackingLibrary Trx) (t : Trx) (cfd : List Bytes)
    (p : CachedTransaction Trx Sig) : Prop where
  transaction : p.getTransaction lib = .ok t
  contextFreeData : p.getContextFreeData lib = .ok cfd

lemma reflects_setTransaction (h : RoundTrips lib t cfd)
    (hcache : p.unpackedTrx = none ∨ p.unpackedTrx = some t) (compression : CompressionType) :
    Reflects lib t cfd (p.setTransaction lib t cfd compression) := by
  constructor
  · unfold CachedTransaction.getTransaction
    have hkept : (p.setTransaction lib t cfd compression).unpackedTrx = p.unpackedTrx := by
      cases compression <;> rfl
    rw [hkept]
    rcases hcache with hnone | hsome
    · rw [hnone]
      cases compression with
      | none => exact h.unpackTransaction
      | zlib =>
        change (lib.zlibDecompress (lib.compress (lib.packTrx t)) >>= _) = _
        rw [h.zlibDecompress List.mem_cons_self]
        exact h.unpackTransaction
    · rw [hsome]
  cases compression with
  | none => exact h.unpackContextFreeData
  | zlib =>
    change lib.zlibDecompressContextFreeData (lib.zlibCompressContextFreeData cfd) = _
    unfold PackingLibrary.zlibDecompressContextFreeData
      PackingLibrary.zlibCompressContextFreeData
    by_cases hcfd : cfd = []
    · rw [if_pos hcfd, if_pos rfl, hcfd]
    have hpacked : lib.packContextFreeData cfd = lib.packCfd cfd := if_neg hcfd
    have hmem : lib.packCfd cfd ∈ [lib.packTrx t, lib.packCfd cfd] := by simp
    rw [if_neg hcfd, hpacked, if_neg (h.zlib _ hmem).2.1, h.zlibDecompress hmem, ← hpacked]
    exact h.unpackContextFreeData

lemma Reflects.localUnpack {q : CachedTransaction Trx Sig} (h : Reflects lib t cfd p)
    (hq : p.localUnpack lib = .ok q) : Reflects lib t cfd q ∧ q.signatures = p.signatures := by
  obtain ⟨t', ht', hq⟩ := bind_ok_iff.mp hq
  rw [h.transaction] at ht'
  cases ht'
  cases hq
  exact ⟨⟨rfl, h.contextFreeData⟩, rfl⟩

/-- A transaction that has been read stays in the object. -/
lemma unpackedTrx_of_reads {compression : CompressionType} {q : CachedTransaction Trx Sig}
    (hreads : Relation.ReflTransGen (fun p q => p.localUnpack lib = .ok q)
      (p.setTransaction lib t cfd compression) q) {t' : Trx} (hcache : p.unpackedTrx = some t') :
    q.unpackedTrx = some t' := by
  induction hreads with
  | refl =>
    rw [← hcache]
    cases compression <;> rfl
  | tail _ hstep ih =>
    obtain ⟨u, hu, hq⟩ := bind_ok_iff.mp hstep
    unfold CachedTransaction.getTransaction at hu
    rw [ih] at hu
    cases hu
    cases hq
    rfl

/-- An object returns what was set, however often it is read, if and only if it has not been read
before, or was read as the same transaction. -/
theorem readers_return_last_set (h : RoundTrips lib t cfd) (compression : CompressionType)
    {q : CachedTransaction Trx Sig}
    (hreads : Relation.ReflTransGen (fun p q => p.localUnpack lib = .ok q)
      (p.setTransaction lib t cfd compression) q) :
    (q.getTransaction lib = .ok t ∧ q.id lib = .ok (lib.trxId t) ∧
      q.getContextFreeData lib = .ok cfd ∧
      q.getSignedTransaction lib = .ok ⟨t, p.signatures, cfd⟩) ↔
    (p.unpackedTrx = none ∨ p.unpackedTrx = some t) := by
  constructor
  · rintro ⟨hread, -⟩
    cases hcache : p.unpackedTrx with
    | none => exact .inl rfl
    | some t' =>
      unfold CachedTransaction.getTransaction at hread
      rw [unpackedTrx_of_reads hreads hcache] at hread
      cases hread
      exact .inr rfl
  intro hcache
  have hq : Reflects lib t cfd q ∧ q.signatures = p.signatures := by
    induction hreads with
    | refl =>
      refine ⟨reflects_setTransaction h hcache compression, ?_⟩
      cases compression <;> rfl
    | tail _ hstep ih =>
      obtain ⟨hreflects, hsignatures⟩ := ih.1.localUnpack hstep
      exact ⟨hreflects, hsignatures.trans ih.2⟩
  obtain ⟨hreflects, hsignatures⟩ := hq
  refine ⟨hreflects.transaction, ?_, hreflects.contextFreeData, ?_⟩
  · unfold CachedTransaction.id
    rw [hreflects.transaction]
    rfl
  · unfold CachedTransaction.getSignedTransaction
    rw [hreflects.transaction, hreflects.contextFreeData, hsignatures]
    rfl

end Reading

def byteLibrary : PackingLibrary UInt8 where
  packTrx t := [t]
  unpackTrx b := b.head?
  trxId t := ⟨t.toUInt64, 0, 0, 0⟩
  packCfd cfd := cfd.flatten
  unpackCfd b := some [b]
  compress b := 0 :: b
  decompress b := some b.tail

lemma byteLibrary_roundTrips : RoundTrips byteLibrary 2 [[9]] where
  trx := rfl
  contextFree _ := by decide
  zlib := by decide

/-- The object is read, set anew and read again. -/
theorem stale_after_set :
    (∃ p : CachedTransaction UInt8 Nat, ∃ q,
      p.localUnpack byteLibrary = .ok q ∧ p.packedTrx = [1] ∧
        (q.setTransaction byteLibrary 2 [[9]] .zlib).getTransaction byteLibrary = .ok 1) ∧
      RoundTrips byteLibrary 2 [[9]] :=
  ⟨⟨{ packedTrx := [1] }, _, rfl, rfl, rfl⟩, byteLibrary_roundTrips⟩

theorem readers_return_last_set_two : ∃ q, Relation.ReflTransGen
      (fun p q => p.localUnpack byteLibrary = .ok q) (({ signatures := [5] } :
        CachedTransaction UInt8 Nat).setTransaction byteLibrary 2 [[9]] .zlib) q ∧
      q.unpackedTrx = some 2 ∧ q.getSignedTransaction byteLibrary = .ok ⟨2, [5], [[9]]⟩ := by
  have hread : Relation.ReflTransGen (fun p q => p.localUnpack byteLibrary = .ok q)
      (({ signatures := [5] } : CachedTransaction UInt8 Nat).setTransaction byteLibrary 2 [[9]] .zlib)
      _ := .single rfl
  exact ⟨_, hread, rfl,
    ((readers_return_last_set byteLibrary_roundTrips .zlib hread).mpr (.inl rfl)).2.2.2⟩

end DimensionChain
