import DimensionChain.Abi.AbiSerializer

/-!
# The raw types of the chain and the packed form of a header

The types that headers and blocks are made of, each with its packed form and its form as a
variant, the table of built-in types of the serializer, and the packing of headers by reflection:
a struct is the concatenation of its fields in their reflected order.
-/

namespace DimensionChain

open Bytes

/-- `maxArrayElements` is the bound of the library on the size of a vector that it packs or
unpacks. A timestamp is packed as its one field, the slot. -/
structure RawTypes (Key Sig : Type) extends RawLibrary where
  uint8 : RawType UInt8
  uint16 : RawType UInt16
  uint32 : RawType UInt32
  uint64 : RawType UInt64
  int64 : RawType Int64
  unsignedInt : RawType UInt32
  blockTimestamp : RawType UInt32
  name : RawType UInt64
  bytes : RawType Bytes
  checksum256 : RawType Digest
  publicKey : RawType Key
  signature : RawType Sig
  /-- The built-in types that no header and no block has. -/
  other : TypeName → BuiltIn
  maxArrayElements : Nat
  maxArrayElements_lt : maxArrayElements < 4294967296
  blockTimestamp_pack : ∀ slot, blockTimestamp.pack slot = uint32.pack slot

namespace RawTypes
variable {Key Sig : Type} (T : RawTypes Key Sig)

def builtIn {α : Type} (raw : RawType α) : BuiltIn :=
  raw.packUnpack T.toPacking T.maxArrayElements T.maxArrayElements_lt

def builtInTypes : List (TypeName × BuiltIn) :=
  [("bool", T.builtIn T.uint8), ("int8", T.other "int8"), ("uint8", T.builtIn T.uint8),
    ("int16", T.other "int16"), ("uint16", T.builtIn T.uint16), ("int32", T.other "int32"),
    ("uint32", T.builtIn T.uint32), ("int64", T.builtIn T.int64), ("uint64", T.builtIn T.uint64),
    ("int128", T.other "int128"), ("uint128", T.other "uint128"),
    ("varint32", T.other "varint32"), ("varuint32", T.builtIn T.unsignedInt),
    ("float32", T.other "float32"), ("float64", T.other "float64"),
    ("float128", T.other "uint128"), ("time_point", T.other "time_point"),
    ("time_point_sec", T.other "time_point_sec"),
    ("block_timestamp_type", T.builtIn T.blockTimestamp), ("name", T.builtIn T.name),
    ("bytes", T.builtIn T.bytes), ("string", T.other "string"),
    ("checksum160", T.other "checksum160"), ("checksum256", T.builtIn T.checksum256),
    ("checksum512", T.other "checksum512"), ("public_key", T.builtIn T.publicKey),
    ("signature", T.builtIn T.signature), ("symbol", T.other "symbol"),
    ("symbol_code", T.other "symbol_code"), ("asset", T.other "asset"),
    ("extended_asset", T.other "extended_asset")]

def configureBuiltInTypes : BuiltIns where
  toRawLibrary := T.toRawLibrary
  types name := T.builtInTypes.lookup name

def packProducerKey (p : ProducerKey Key) : Bytes :=
  T.name.pack (UInt64.ofNat p.producerName) ++ T.publicKey.pack p.blockSigningKey

def packSchedule (s : ProducerSchedule Key) : Bytes :=
  T.uint32.pack (UInt32.ofNat s.version) ++
    (T.int64.pack (Int64.ofInt s.consensusType) ++ T.packList T.packProducerKey s.producers)

def packExtension (e : Nat × Bytes) : Bytes :=
  T.uint16.pack (UInt16.ofNat e.1) ++ T.bytes.pack e.2

def packBlockHeader (h : BlockHeader Key) : Bytes :=
  List.flatten
    [T.blockTimestamp.pack (UInt32.ofNat h.timestamp), T.name.pack (UInt64.ofNat h.producer),
      T.uint16.pack (UInt16.ofNat h.confirmed), T.checksum256.pack h.previous,
      T.checksum256.pack h.transactionMroot, T.checksum256.pack h.actionMroot,
      T.uint32.pack (UInt32.ofNat h.scheduleVersion), T.int64.pack (Int64.ofInt h.consensusType),
      T.packOptional T.packSchedule h.newProducers,
      T.packList T.packExtension h.headerExtensions]

def headerFits (h : BlockHeader Key) : Bool :=
  h.headerExtensions.length ≤ T.maxArrayElements &&
    h.newProducers.all fun s => s.producers.length ≤ T.maxArrayElements

/-- `fc::raw::pack`, which fails on a vector that is too long. -/
def rawPackHeader (h : BlockHeader Key) : Option Bytes :=
  if T.headerFits h then some (T.packBlockHeader h) else none

def producerKeyVariant (p : ProducerKey Key) : Variant :=
  .object [("producer_name", T.name.toVariant (UInt64.ofNat p.producerName)),
    ("block_signing_key", T.publicKey.toVariant p.blockSigningKey)]

def scheduleVariant (s : ProducerSchedule Key) : Variant :=
  .object [("version", T.uint32.toVariant (UInt32.ofNat s.version)),
    ("consensus_type", T.int64.toVariant (Int64.ofInt s.consensusType)),
    ("producers", .array (s.producers.map T.producerKeyVariant))]

def extensionVariant (e : Nat × Bytes) : Variant :=
  .object [("type", T.uint16.toVariant (UInt16.ofNat e.1)), ("data", T.bytes.toVariant e.2)]

def headerFields (time : RawType UInt32) (h : BlockHeader Key) : VariantObject :=
  [("timestamp", time.toVariant (UInt32.ofNat h.timestamp)),
    ("producer", T.name.toVariant (UInt64.ofNat h.producer)),
    ("confirmed", T.uint16.toVariant (UInt16.ofNat h.confirmed)),
    ("previous", T.checksum256.toVariant h.previous),
    ("transaction_mroot", T.checksum256.toVariant h.transactionMroot),
    ("action_mroot", T.checksum256.toVariant h.actionMroot),
    ("schedule_version", T.uint32.toVariant (UInt32.ofNat h.scheduleVersion)),
    ("consensus_type", T.int64.toVariant (Int64.ofInt h.consensusType)),
    ("new_producers", (h.newProducers.map T.scheduleVariant).getD .null),
    ("header_extensions", .array (h.headerExtensions.map T.extensionVariant))]

end RawTypes

def wordType {α : Type} (width : Nat) (toNat : α → Nat) (ofNat : Nat → α)
    (hback : ∀ a, ofNat (toNat a) = a) (hfits : ∀ a, toNat a < 256 ^ width) (hwidth : 0 < width) :
    RawType α where
  pack a := ofWord width (toNat a)
  unpack bs := (bs.readWord 0 width).map fun n => (ofNat n, bs.drop width)
  unpack_pack a rest := by
    rw [readWord_front (hfits a), Option.map_some, hback]
    congr 2
    exact List.drop_left' (length_ofWord width (toNat a))
  unpack_nil := by
    have hshort : readWord [] 0 width = none := by
      unfold readWord readAt
      rw [if_neg (by simp; omega)]
      rfl
    rw [hshort]
    rfl
  toVariant a := .uint64 (toNat a)
  ofVariant
    | .uint64 n => some (ofNat n)
    | _ => none
  ofVariant_toVariant a := congrArg some (hback a)
  toVariant_ne_null a h := by cases h

def markedBytes : Bytes → Bytes
  | [] => [0]
  | b :: bs => 1 :: b :: markedBytes bs

def ofMarkedBytes : Bytes → Option (Bytes × Bytes)
  | 1 :: b :: bs => (ofMarkedBytes bs).map fun r => (b :: r.1, r.2)
  | 0 :: bs => some ([], bs)
  | _ => none

def markedType : RawType Bytes where
  pack := markedBytes
  unpack := ofMarkedBytes
  unpack_pack bs rest := by
    induction bs with
    | nil => rfl
    | cons b bs ih =>
      change (ofMarkedBytes (markedBytes bs ++ rest)).map _ = _
      rw [ih]
      rfl
  unpack_nil := rfl
  toVariant := .blob
  ofVariant
    | .blob data => some data
    | _ => none
  ofVariant_toVariant _ := rfl
  toVariant_ne_null bs h := by cases h

def digestNat (d : Digest) : Nat :=
  d.hash0.toNat + 2 ^ 64 * (d.hash1.toNat + 2 ^ 64 * (d.hash2.toNat + 2 ^ 64 * d.hash3.toNat))

def digestOfNat (n : Nat) : Digest :=
  ⟨UInt64.ofNat n, UInt64.ofNat (n / 2 ^ 64), UInt64.ofNat (n / 2 ^ 128),
    UInt64.ofNat (n / 2 ^ 192)⟩

lemma digestOfNat_digestNat (d : Digest) : digestOfNat (digestNat d) = d := by
  obtain ⟨a, b, c, e⟩ := d
  have ha := a.toNat_lt
  have hb := b.toNat_lt
  have hc := c.toNat_lt
  have he := e.toNat_lt
  simp only [digestOfNat, digestNat, Digest.mk.injEq]
  refine ⟨?_, ?_, ?_, ?_⟩ <;> apply UInt64.toNat_inj.mp <;> rw [UInt64.toNat_ofNat'] <;> omega

lemma digestNat_lt (d : Digest) : digestNat d < 256 ^ 32 := by
  have h₀ := d.hash0.toNat_lt
  have h₁ := d.hash1.toNat_lt
  have h₂ := d.hash2.toNat_lt
  have h₃ := d.hash3.toNat_lt
  unfold digestNat
  omega

def plainTypes : RawTypes UInt8 UInt8 :=
  let byte := wordType 1 UInt8.toNat UInt8.ofNat (by simp) (fun a => a.toNat_lt) (by decide)
  let word := wordType 4 UInt32.toNat UInt32.ofNat (by simp) (fun a => a.toNat_lt) (by decide)
  let long := wordType 8 UInt64.toNat UInt64.ofNat (by simp) (fun a => a.toNat_lt) (by decide)
  { plainLibrary with
    uint8 := byte
    uint16 := wordType 2 UInt16.toNat UInt16.ofNat (by simp) (fun a => a.toNat_lt) (by decide)
    uint32 := word
    uint64 := long
    int64 := wordType 8 (fun i => i.toUInt64.toNat) (fun n => (UInt64.ofNat n).toInt64) (by simp)
      (fun i => i.toUInt64.toNat_lt) (by decide)
    unsignedInt := word
    blockTimestamp := word
    name := long
    bytes := markedType
    checksum256 := wordType 32 digestNat digestOfNat digestOfNat_digestNat digestNat_lt (by decide)
    publicKey := byte
    signature := byte
    other := fun _ => byte.packUnpack bytePacking 1024 (by decide)
    maxArrayElements := 1024
    maxArrayElements_lt := by decide
    blockTimestamp_pack := fun _ => rfl }

end DimensionChain
