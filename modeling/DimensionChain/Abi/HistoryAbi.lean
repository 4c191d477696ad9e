import DimensionChain.Chain.PendingBlock
import DimensionChain.ForkDb.ForkMultiIndex
import DimensionChain.Abi.HeaderStructs

/-!
# The ABI of the state history

The plugin writes a global property by hand and a block by reflection, and its clients decode both
with the ABI that it sends them. Here are the structs of the ABI that these two types lead to.
-/

namespace DimensionChain.HistoryAbi
open AbiSerializer

inductive CompressionType where
  | none | zlib
  deriving DecidableEq, Repr

inductive TransactionStatus where
  | executed | softFail | hardFail | delayed | expired
  deriving DecidableEq, Repr

def CompressionType.toUInt8 : CompressionType → UInt8
  | none => 0
  | zlib => 1

def TransactionStatus.toUInt8 : TransactionStatus → UInt8
  | executed => 0
  | softFail => 1
  | hardFail => 2
  | delayed => 3
  | expired => 4

structure PackedTransaction (Sig : Type) where
  signatures : List Sig := []
  compression : CompressionType := .none
  packedContextFreeData : Bytes := []
  packedTrx : Bytes := []

inductive ReceiptTransaction (Sig : Type) where
  | id (trx : Digest)
  | packed (trx : PackedTransaction Sig)

structure TransactionReceipt (Sig : Type) where
  status : TransactionStatus
  cpuUsageUs : UInt32
  netUsageWords : UInt32
  trx : ReceiptTransaction Sig

structure Block (Key Sig : Type) extends SignedBlock Key Sig where
  transactions : List (TransactionReceipt Sig) := []

structure ChainConfig where
  maxBlockNetUsage : UInt64 := 0
  targetBlockNetUsagePct : UInt32 := 0
  maxTransactionNetUsage : UInt32 := 0
  basePerTransactionNetUsage : UInt32 := 0
  netUsageLeeway : UInt32 := 0
  contextFreeDiscountNetUsageNum : UInt32 := 0
  contextFreeDiscountNetUsageDen : UInt32 := 0
  maxBlockCpuUsage : UInt32 := 0
  targetBlockCpuUsagePct : UInt32 := 0
  maxTransactionCpuUsage : UInt32 := 0
  minTransactionCpuUsage : UInt32 := 0
  maxTransactionLifetime : UInt32 := 0
  deferredTrxExpirationWindow : UInt32 := 0
  maxTransactionDelay : UInt32 := 0
  maxInlineActionSize : UInt32 := 0
  maxInlineActionDepth : UInt16 := 0
  maxAuthorityDepth : UInt16 := 0

structure GlobalPropertyObject (Key : Type) extends GlobalProperty Key where
  configuration : ChainConfig := {}

def packedTransactionStruct : StructDef :=
  ⟨"packed_transaction", "", [⟨"signatures", "signature[]"⟩, ⟨"compression", "uint8"⟩,
    ⟨"packed_context_free_data", "bytes"⟩, ⟨"packed_trx", "bytes"⟩]⟩

def receiptHeaderStruct : StructDef :=
  ⟨"transaction_receipt_header", "", [⟨"status", "uint8"⟩, ⟨"cpu_usage_us", "uint32"⟩,
    ⟨"net_usage_words", "varuint32"⟩]⟩

def receiptStruct : StructDef :=
  ⟨"transaction_receipt", "transaction_receipt_header", [⟨"trx", "transaction_variant"⟩]⟩

def blockHeaderStruct : StructDef := headerStruct "block_timestamp_type" "name" "checksum256"

def signedBlockHeaderStruct : StructDef :=
  ⟨"signed_block_header", "block_header", [⟨"producer_signature", "signature"⟩]⟩

def signedBlockStruct : StructDef :=
  ⟨"signed_block", "signed_block_header", [⟨"transactions", "transaction_receipt[]"⟩,
    ⟨"block_extensions", "extension[]"⟩]⟩

def producerKeyStruct : StructDef :=
  ⟨"producer_key", "", [⟨"producer_name", "name"⟩, ⟨"block_signing_key", "public_key"⟩]⟩

def chainConfigStruct : StructDef :=
  ⟨"chain_config_v0", "", [⟨"max_block_net_usage", "uint64"⟩,
    ⟨"target_block_net_usage_pct", "uint32"⟩, ⟨"max_transaction_net_usage", "uint32"⟩,
    ⟨"base_per_transaction_net_usage", "uint32"⟩, ⟨"net_usage_leeway", "uint32"⟩,
    ⟨"context_free_discount_net_usage_num", "uint32"⟩,
    ⟨"context_free_discount_net_usage_den", "uint32"⟩, ⟨"max_block_cpu_usage", "uint32"⟩,
    ⟨"target_block_cpu_usage_pct", "uint32"⟩, ⟨"max_transaction_cpu_usage", "uint32"⟩,
    ⟨"min_transaction_cpu_usage", "uint32"⟩, ⟨"max_transaction_lifetime", "uint32"⟩,
    ⟨"deferred_trx_expiration_window", "uint32"⟩, ⟨"max_transaction_delay", "uint32"⟩,
    ⟨"max_inline_action_size", "uint32"⟩, ⟨"max_inline_action_depth", "uint16"⟩,
    ⟨"max_authority_depth", "uint16"⟩]⟩

def globalPropertyStruct : StructDef :=
  ⟨"global_property_v0", "", [⟨"proposed_schedule_block_num", "uint32?"⟩,
    ⟨"proposed_schedule", "producer_schedule"⟩, ⟨"configuration", "chain_config"⟩]⟩

def transactionVariant : VariantDef :=
  ⟨"transaction_variant", ["transaction_id", "packed_transaction"]⟩

@[simp] def stateHistoryAbi : AbiDef where
  version := "eosio::abi/1.1"
  types := [⟨"transaction_id", "checksum256"⟩]
  structs := [packedTransactionStruct, receiptHeaderStruct, receiptStruct, extensionStruct,
    blockHeaderStruct, signedBlockHeaderStruct, signedBlockStruct, producerKeyStruct,
    producerScheduleStruct, chainConfigStruct, globalPropertyStruct]
  variants := [transactionVariant, ⟨"chain_config", ["chain_config_v0"]⟩,
    ⟨"global_property", ["global_property_v0"]⟩]

section Serialization
variable {Key Sig : Type} (T : RawTypes Key Sig)

def serializeSchedule (s : ProducerSchedule Key) : Bytes :=
  T.uint32.pack (UInt32.ofNat s.version) ++
    (T.uint32.pack (Int64.ofInt s.consensusType).toUInt64.toUInt32 ++
      T.packList (fun p => T.uint64.pack (UInt64.ofNat p.producerName) ++
        T.publicKey.pack p.blockSigningKey) s.producers)

def serializeConfig (c : ChainConfig) : Bytes :=
  T.packSize 0 ++ List.flatten
    [T.uint64.pack c.maxBlockNetUsage, T.uint32.pack c.targetBlockNetUsagePct,
      T.uint32.pack c.maxTransactionNetUsage, T.uint32.pack c.basePerTransactionNetUsage,
      T.uint32.pack c.netUsageLeeway, T.uint32.pack c.contextFreeDiscountNetUsageNum,
      T.uint32.pack c.contextFreeDiscountNetUsageDen, T.uint32.pack c.maxBlockCpuUsage,
      T.uint32.pack c.targetBlockCpuUsagePct, T.uint32.pack c.maxTransactionCpuUsage,
      T.uint32.pack c.minTransactionCpuUsage, T.uint32.pack c.maxTransactionLifetime,
      T.uint32.pack c.deferredTrxExpirationWindow, T.uint32.pack c.maxTransactionDelay,
      T.uint32.pack c.maxInlineActionSize, T.uint16.pack c.maxInlineActionDepth,
      T.uint16.pack c.maxAuthorityDepth]

def serializeGlobalProperty (gpo : GlobalPropertyObject Key) : Bytes :=
  T.packSize 0 ++
    (T.packOptional (fun n => T.uint32.pack (UInt32.ofNat n)) gpo.proposedScheduleBlockNum ++
      (serializeSchedule T gpo.proposedSchedule ++ serializeConfig T gpo.configuration))

def packPackedTransaction (t : PackedTransaction Sig) : Bytes :=
  List.flatten [T.packList T.signature.pack t.signatures, T.uint8.pack t.compression.toUInt8,
    T.bytes.pack t.packedContextFreeData, T.bytes.pack t.packedTrx]

def packReceiptTransaction : ReceiptTransaction Sig → Bytes
  | .id trx => T.packSize 0 ++ T.checksum256.pack trx
  | .packed trx => T.packSize 1 ++ packPackedTransaction T trx

def packReceipt (r : TransactionReceipt Sig) : Bytes :=
  List.flatten [T.uint8.pack r.status.toUInt8, T.uint32.pack r.cpuUsageUs,
    T.unsignedInt.pack r.netUsageWords] ++ packReceiptTransaction T r.trx

def packBlock (b : Block Key Sig) : Bytes :=
  (T.packBlockHeader b.toBlockHeader ++ T.signature.pack b.producerSignature) ++
    (T.packList (packReceipt T) b.transactions ++
      T.packList T.packExtension b.blockExtensions)

def receiptFits (r : TransactionReceipt Sig) : Bool :=
  match r.trx with
  | .id _ => true
  | .packed trx => trx.signatures.length ≤ T.maxArrayElements

def blockFits (b : Block Key Sig) : Bool :=
  T.headerFits b.toBlockHeader && b.blockExtensions.length ≤ T.maxArrayElements &&
    b.transactions.length ≤ T.maxArrayElements && b.transactions.all (receiptFits T)

end Serialization

inductive HistoryValue (Key Sig : Type) where
  | globalProperty (gpo : GlobalPropertyObject Key)
  | signedBlock (b : Block Key Sig)

namespace HistoryValue
variable {Key Sig : Type} (T : RawTypes Key Sig)

def type : HistoryValue Key Sig → TypeName
  | globalProperty _ => "global_property"
  | signedBlock _ => "signed_block"

/-- The bytes that are sent. The block is packed by the library, which fails on a vector that is
too long. -/
def serialize : HistoryValue Key Sig → Option Bytes
  | globalProperty gpo => some (serializeGlobalProperty T gpo)
  | signedBlock b => if blockFits T b then some (packBlock T b) else none

def configVariant (c : ChainConfig) : Variant :=
  .array [.string "chain_config_v0", .object
    [("max_block_net_usage", T.uint64.toVariant c.maxBlockNetUsage),
      ("target_block_net_usage_pct", T.uint32.toVariant c.targetBlockNetUsagePct),
      ("max_transaction_net_usage", T.uint32.toVariant c.maxTransactionNetUsage),
      ("base_per_transaction_net_usage", T.uint32.toVariant c.basePerTransactionNetUsage),
      ("net_usage_leeway", T.uint32.toVariant c.netUsageLeeway),
      ("context_free_discount_net_usage_num",
        T.uint32.toVariant c.contextFreeDiscountNetUsageNum),
      ("context_free_discount_net_usage_den",
        T.uint32.toVariant c.contextFreeDiscountNetUsageDen),
      ("max_block_cpu_usage", T.uint32.toVariant c.maxBlockCpuUsage),
      ("target_block_cpu_usage_pct", T.uint32.toVariant c.targetBlockCpuUsagePct),
      ("max_transaction_cpu_usage", T.uint32.toVariant c.maxTransactionCpuUsage),
      ("min_transaction_cpu_usage", T.uint32.toVariant c.minTransactionCpuUsage),
      ("max_transaction_lifetime", T.uint32.toVariant c.maxTransactionLifetime),
      ("deferred_trx_expiration_window", T.uint32.toVariant c.deferredTrxExpirationWindow),
      ("max_transaction_delay", T.uint32.toVariant c.maxTransactionDelay),
      ("max_inline_action_size", T.uint32.toVariant c.maxInlineActionSize),
      ("max_inline_action_depth", T.uint16.toVariant c.maxInlineActionDepth),
      ("max_authority_depth", T.uint16.toVariant c.maxAuthorityDepth)]]

def globalPropertyVariant (gpo : GlobalPropertyObject Key) : Variant :=
  .array [.string "global_property_v0", .object
    [("proposed_schedule_block_num", (gpo.proposedScheduleBlockNum.map fun n =>
        T.uint32.toVariant (UInt32.ofNat n)).getD .null),
      ("proposed_schedule", T.scheduleVariant gpo.proposedSchedule),
      ("configuration", configVariant T gpo.configuration)]]

def packedTransactionVariant (t : PackedTransaction Sig) : Variant :=
  .object [("signatures", .array (t.signatures.map T.signature.toVariant)),
    ("compression", T.uint8.toVariant t.compression.toUInt8),
    ("packed_context_free_data", T.bytes.toVariant t.packedContextFreeData),
    ("packed_trx", T.bytes.toVariant t.packedTrx)]

def receiptTransactionVariant : ReceiptTransaction Sig → Variant
  | .id trx => .array [.string "transaction_id", T.checksum256.toVariant trx]
  | .packed trx => .array [.string "packed_transaction", packedTransactionVariant T trx]

def receiptVariant (r : TransactionReceipt Sig) : Variant :=
  .object [("status", T.uint8.toVariant r.status.toUInt8),
    ("cpu_usage_us", T.uint32.toVariant r.cpuUsageUs),
    ("net_usage_words", T.unsignedInt.toVariant r.netUsageWords),
    ("trx", receiptTransactionVariant T r.trx)]

def blockFields (b : Block Key Sig) : VariantObject :=
  (T.headerFields T.blockTimestamp b.toBlockHeader ++
    [("producer_signature", T.signature.toVariant b.producerSignature)]) ++
    [("transactions", .array (b.transactions.map (receiptVariant T))),
      ("block_extensions", .array (b.blockExtensions.map T.extensionVariant))]

def value : HistoryValue Key Sig → Variant
  | globalProperty gpo => globalPropertyVariant T gpo
  | signedBlock b => .object (blockFields T b)

end HistoryValue

end DimensionChain.HistoryAbi
