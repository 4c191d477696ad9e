import DimensionChain.Abi.HistoryAbi

/-!
# What a client of the state history decodes

A block without new producers is decoded to its own values. A block with new producers is not, and
neither is any global property, since both carry a schedule.
-/

namespace DimensionChain.HistoryAbi
open AbiSerializer HistoryValue List

variable {Key Sig : Type} {T : RawTypes Key Sig} {A : AbiSerializer}

section Tables
variable (hA : Accepted T.configureBuiltInTypes stateHistoryAbi A)
include hA

lemma find?_history (name : TypeName) (st : StructDef) (hname : st.name = name)
    (hst : st ∈ stateHistoryAbi.structs) : A.structs.find? name = some st :=
  hname ▸ hA.struct st hst

lemma variant_none (name : TypeName) (h : ∀ v ∈ stateHistoryAbi.variants, v.name ≠ name) :
    A.variants.find? name = none := by
  rw [hA.variants_eq, FlatMap.find?_setAll_eq_none]
  refine ⟨rfl, ?_⟩
  intro e he
  obtain ⟨v, hv, rfl⟩ := mem_map.mp he
  exact h v hv

lemma find?_transactionVariant :
    A.variants.find? "transaction_variant" = some transactionVariant := by
  rw [hA.variants_eq]
  rfl

end Tables

section Receipts
variable (hA : Accepted T.configureBuiltInTypes stateHistoryAbi A) {scopes : Nat}

def packedTransactionFields (T : RawTypes Key Sig) (t : PackedTransaction Sig) : List PackedField :=
  [⟨⟨"signatures", "signature[]"⟩, T.packList T.signature.pack t.signatures,
      .array (t.signatures.map T.signature.toVariant)⟩,
    ⟨⟨"compression", "uint8"⟩, T.uint8.pack t.compression.toUInt8,
      T.uint8.toVariant t.compression.toUInt8⟩,
    ⟨⟨"packed_context_free_data", "bytes"⟩, T.bytes.pack t.packedContextFreeData,
      T.bytes.toVariant t.packedContextFreeData⟩,
    ⟨⟨"packed_trx", "bytes"⟩, T.bytes.pack t.packedTrx, T.bytes.toVariant t.packedTrx⟩]

include hA

lemma readsAs_packedTransaction {t : PackedTransaction Sig}
    (hfits : t.signatures.length ≤ T.maxArrayElements) :
    A.ReadsAs (scopes + 3) "packed_transaction" (packPackedTransaction T t)
      (packedTransactionVariant T t) := by
  have hst := find?_history hA "packed_transaction" packedTransactionStruct rfl (by simp)
  have hbyte : ∀ n, A.ReadsAs (scopes + 1) "uint8" (T.uint8.pack n) (T.uint8.toVariant n) :=
    readsAs_builtIn hA rfl rfl rfl
  have hbytes : ∀ bs, A.ReadsAs (scopes + 1) "bytes" (T.bytes.pack bs) (T.bytes.toVariant bs) :=
    readsAs_builtIn hA rfl rfl rfl
  have hbuilt : A.builtIns.types (fundamentalType "signature[]") = some (T.builtIn T.signature) := by
    rw [hA.builtIns_eq]
    rfl
  have hsignatures : A.ReadsAs (scopes + 1) "signature[]" (T.packList T.signature.pack
      t.signatures) (.array (t.signatures.map T.signature.toVariant)) :=
    readsAs_rawVector (hA.resolve_builtIn hbuilt) hbuilt rfl hfits
  have hpacks : A.PacksStruct (scopes + 1) packedTransactionStruct
      (packedTransactionFields T t) := by
    refine ⟨rfl, by decide, ?_⟩
    unfold packedTransactionFields
    simp only [forall_mem_cons, not_mem_nil, false_imp_iff, implies_true, and_true]
    exact ⟨hsignatures, hbyte _, hbytes _, hbytes _⟩
  have hname := decodedStruct hA hst rfl rfl rfl (variant_none hA _ (by decide))
  exact hname.readsAs (hpacks.appends hA.valid hst rfl (by decide)) (cons_ne_nil _ _)

lemma readsAs_receiptTransaction {t : ReceiptTransaction Sig}
    (hfits : ∀ trx, t = .packed trx → trx.signatures.length ≤ T.maxArrayElements) :
    A.ReadsAs (scopes + 4) "transaction_variant" (packReceiptTransaction T t)
      (receiptTransactionVariant T t) := by
  have hresolve := hA.resolve_new "transaction_variant" (by decide)
  have hbuilt : A.builtIn? "transaction_variant" = none := builtIn?_none hA rfl
  have hvariant := find?_transactionVariant hA
  cases t with
  | id trx =>
    have hid : A.ReadsAs (scopes + 3) "transaction_id" (T.checksum256.pack trx)
        (T.checksum256.toVariant trx) :=
      readsAs_typedef hA ⟨"transaction_id", "checksum256"⟩ (mem_singleton_self _) rfl rfl rfl trx
    rw [packReceiptTransaction, toPacking_eq hA]
    exact readsAs_choice hresolve hbuilt rfl rfl hvariant rfl (by decide) hid
  | packed trx =>
    rw [packReceiptTransaction, toPacking_eq hA]
    exact readsAs_choice hresolve hbuilt rfl rfl hvariant rfl (by decide)
      (readsAs_packedTransaction hA (hfits trx rfl))

def receiptHeaderFields (T : RawTypes Key Sig) (r : TransactionReceipt Sig) : List PackedField :=
  [⟨⟨"status", "uint8"⟩, T.uint8.pack r.status.toUInt8, T.uint8.toVariant r.status.toUInt8⟩,
    ⟨⟨"cpu_usage_us", "uint32"⟩, T.uint32.pack r.cpuUsageUs, T.uint32.toVariant r.cpuUsageUs⟩,
    ⟨⟨"net_usage_words", "varuint32"⟩, T.unsignedInt.pack r.netUsageWords,
      T.unsignedInt.toVariant r.netUsageWords⟩]

def receiptFields (T : RawTypes Key Sig) (r : TransactionReceipt Sig) : List PackedField :=
  [⟨⟨"trx", "transaction_variant"⟩, packReceiptTransaction T r.trx,
    receiptTransactionVariant T r.trx⟩]

lemma appendsFields_receiptHeader (scopes : Nat) (r : TransactionReceipt Sig) :
    A.AppendsFields (scopes + 2) "transaction_receipt_header"
      ((receiptHeaderFields T r).map PackedField.out).flatten []
      ((receiptHeaderFields T r).map fun p => (p.field.name, p.value)) := by
  have hst := find?_history hA "transaction_receipt_header" receiptHeaderStruct rfl (by simp)
  have hbyte : ∀ n, A.ReadsAs (scopes + 1) "uint8" (T.uint8.pack n) (T.uint8.toVariant n) :=
    readsAs_builtIn hA rfl rfl rfl
  have hword : ∀ n, A.ReadsAs (scopes + 1) "uint32" (T.uint32.pack n) (T.uint32.toVariant n) :=
    readsAs_builtIn hA rfl rfl rfl
  have hsize : ∀ n, A.ReadsAs (scopes + 1) "varuint32" (T.unsignedInt.pack n)
      (T.unsignedInt.toVariant n) :=
    readsAs_builtIn hA rfl rfl rfl
  have hpacks : A.PacksStruct (scopes + 1) receiptHeaderStruct (receiptHeaderFields T r) := by
    refine ⟨rfl, by decide, ?_⟩
    unfold receiptHeaderFields
    simp only [forall_mem_cons, not_mem_nil, false_imp_iff, implies_true, and_true]
    exact ⟨hbyte _, hword _, hsize _⟩
  exact hpacks.appends hA.valid hst rfl (by decide)

lemma readsAs_receipt {r : TransactionReceipt Sig} (hfits : receiptFits T r = true) :
    A.ReadsAs (scopes + 6) "transaction_receipt" (packReceipt T r) (receiptVariant T r) := by
  have hst := find?_history hA "transaction_receipt" receiptStruct rfl (by simp)
  have hstBase := find?_history hA "transaction_receipt_header" receiptHeaderStruct rfl (by simp)
  have hbase := hA.resolve_struct "transaction_receipt_header" hstBase (by decide)
  have hsignatures : ∀ trx, r.trx = .packed trx → trx.signatures.length ≤ T.maxArrayElements := by
    intro trx htrx
    simpa [receiptFits, htrx] using hfits
  have hpacks : A.PacksStruct (scopes + 4) receiptStruct (receiptFields T r) := by
    refine ⟨rfl, by decide, ?_⟩
    unfold receiptFields
    rw [forall_mem_singleton]
    exact readsAs_receiptTransaction hA hsignatures
  have hheader := appendsFields_receiptHeader hA (scopes + 2) r
  rw [← hbase] at hheader
  have hnames : (["status", "cpu_usage_us", "net_usage_words", "trx"] : List String).Nodup := by
    decide
  have happends := hpacks.appends_derived hA.valid hst (by decide) hheader hnames
  have hname := decodedStruct hA hst rfl rfl rfl (variant_none hA _ (by decide))
  have hread := hname.readsAs happends (cons_ne_nil _ _)
  simpa [receiptFields, receiptHeaderFields, packReceipt, receiptVariant] using hread

end Receipts

section Blocks
variable (hA : Accepted T.configureBuiltInTypes stateHistoryAbi A) {b : Block Key Sig}

def signedHeaderFields (T : RawTypes Key Sig) (b : Block Key Sig) : List PackedField :=
  [⟨⟨"producer_signature", "signature"⟩, T.signature.pack b.producerSignature,
    T.signature.toVariant b.producerSignature⟩]

def signedBlockFields (T : RawTypes Key Sig) (b : Block Key Sig) : List PackedField :=
  [⟨⟨"transactions", "transaction_receipt[]"⟩, T.packList (packReceipt T) b.transactions,
      .array (b.transactions.map (receiptVariant T))⟩,
    ⟨⟨"block_extensions", "extension[]"⟩, T.packList T.packExtension b.blockExtensions,
      .array (b.blockExtensions.map T.extensionVariant)⟩]

include hA

lemma appendsFields_header (scopes : Nat) {h : BlockHeader Key} (hnone : h.newProducers = none)
    (hfits : h.headerExtensions.length ≤ T.maxArrayElements) :
    A.AppendsFields (scopes + 5) "block_header" (T.packBlockHeader h) []
      (T.headerFields T.blockTimestamp h) := by
  have hst := find?_history hA "block_header" blockHeaderStruct rfl (by simp)
  have htimes : ∀ slot, A.ReadsAs (scopes + 4) "block_timestamp_type" (T.blockTimestamp.pack slot)
      (T.blockTimestamp.toVariant slot) :=
    readsAs_builtIn hA rfl rfl rfl
  have hnames : ∀ n, A.ReadsAs (scopes + 4) "name" (T.name.pack n) (T.name.toVariant n) :=
    readsAs_builtIn hA rfl rfl rfl
  have hids : ∀ d, A.ReadsAs (scopes + 4) "checksum256" (T.checksum256.pack d)
      (T.checksum256.toVariant d) :=
    readsAs_builtIn hA rfl rfl rfl
  have hpacks := packsStruct_header hA (find?_history hA "extension" extensionStruct rfl (by simp))
    (find?_history hA "producer_schedule" producerScheduleStruct rfl (by simp)) htimes hnames hids
    (by decide) hfits (.inr (variant_none hA "extension" (by decide)))
  have happends := hpacks.appends hA.valid hst rfl (by decide)
  rwa [packedHeader_out hnone, packedHeader_fields hnone] at happends

lemma appendsFields_signedHeader (scopes : Nat)
    (hnone : b.newProducers = none) (hfits : b.headerExtensions.length ≤ T.maxArrayElements) :
    A.AppendsFields (scopes + 6) "signed_block_header"
      (T.packBlockHeader b.toBlockHeader ++ T.signature.pack b.producerSignature) []
      (T.headerFields T.blockTimestamp b.toBlockHeader ++
        [("producer_signature", T.signature.toVariant b.producerSignature)]) := by
  have hst := find?_history hA "signed_block_header" signedBlockHeaderStruct rfl (by simp)
  have hstBase := find?_history hA "block_header" blockHeaderStruct rfl (by simp)
  have hbase := hA.resolve_struct "block_header" hstBase (by decide)
  have hheader := appendsFields_header hA scopes hnone hfits
  have hsignature : ∀ sig, A.ReadsAs (scopes + 5) "signature" (T.signature.pack sig)
      (T.signature.toVariant sig) :=
    readsAs_builtIn hA rfl rfl rfl
  have hpacks : A.PacksStruct (scopes + 5) signedBlockHeaderStruct (signedHeaderFields T b) := by
    refine ⟨rfl, by decide, ?_⟩
    unfold signedHeaderFields
    rw [forall_mem_singleton]
    exact hsignature b.producerSignature
  rw [← hbase] at hheader
  have hnames : ((T.headerFields T.blockTimestamp b.toBlockHeader).map Prod.fst ++
      ["producer_signature"]).Nodup := by
    change (["timestamp", "producer", "confirmed", "previous", "transaction_mroot", "action_mroot",
      "schedule_version", "consensus_type", "new_producers", "header_extensions",
      "producer_signature"] : List String).Nodup
    decide
  have happends := hpacks.appends_derived hA.valid hst (by decide) hheader hnames
  simpa [signedHeaderFields] using happends

lemma readsAs_block (scopes : Nat) (hnone : b.newProducers = none) (hfits : blockFits T b = true) :
    A.ReadsAs (scopes + 9) "signed_block" (packBlock T b) (.object (blockFields T b)) := by
  simp only [blockFits, RawTypes.headerFits, Bool.and_eq_true, decide_eq_true_eq,
    all_eq_true] at hfits
  obtain ⟨⟨⟨hheaderFits, hextensionsFit⟩, htransactionsFit⟩, hreceiptsFit⟩ := hfits
  have hst := find?_history hA "signed_block" signedBlockStruct rfl (by simp)
  have hstBase := find?_history hA "signed_block_header" signedBlockHeaderStruct rfl (by simp)
  have hstReceipt := find?_history hA "transaction_receipt" receiptStruct rfl (by simp)
  have hbase := hA.resolve_struct "signed_block_header" hstBase (by decide)
  have hheader := appendsFields_signedHeader hA (scopes + 1) hnone hheaderFits.1
  have htransactions : A.ReadsAs (scopes + 7) "transaction_receipt[]"
      (T.packList (packReceipt T) b.transactions)
      (.array (b.transactions.map (receiptVariant T))) := by
    rw [toPacking_eq hA]
    refine readsAs_array (hA.resolve_struct "transaction_receipt[]" hstReceipt (by decide))
      (builtIn?_none hA rfl) rfl (Nat.lt_of_le_of_lt htransactionsFit T.maxArrayElements_lt) ?_
      fun _ _ => rfl
    intro r hr
    exact readsAs_receipt hA (hreceiptsFit r hr)
  have hextensions : A.ReadsAs (scopes + 7) "extension[]"
      (T.packList T.packExtension b.blockExtensions)
      (.array (b.blockExtensions.map T.extensionVariant)) :=
    readsAs_extensions hA (find?_history hA "extension" extensionStruct rfl (by simp))
      hextensionsFit (.inr (variant_none hA "extension" (by decide)))
  have hpacks : A.PacksStruct (scopes + 7) signedBlockStruct (signedBlockFields T b) := by
    refine ⟨rfl, by decide, ?_⟩
    unfold signedBlockFields
    rw [forall_mem_cons, forall_mem_singleton]
    exact ⟨htransactions, hextensions⟩
  rw [← hbase] at hheader
  have hnames : ((T.headerFields T.blockTimestamp b.toBlockHeader ++
      [("producer_signature", T.signature.toVariant b.producerSignature)]).map Prod.fst ++
      ["transactions", "block_extensions"]).Nodup := by
    change (["timestamp", "producer", "confirmed", "previous", "transaction_mroot", "action_mroot",
      "schedule_version", "consensus_type", "new_producers", "header_extensions",
      "producer_signature", "transactions", "block_extensions"] : List String).Nodup
    decide
  have happends := hpacks.appends_derived hA.valid hst (by decide) hheader hnames
  have hname := decodedStruct hA hst rfl rfl rfl (variant_none hA _ (by decide))
  have hread := hname.readsAs happends (cons_ne_nil _ _)
  simpa [signedBlockFields, packBlock, blockFields] using hread

lemma newProducers_of_block {scopes : Nat} {stream rest : Bytes}
    (hread : (A.decoders (scopes + 4)).value "signed_block" stream =
      .ok (.object (blockFields T b), rest)) : b.newProducers = none := by
  have hst₁ := find?_history hA "signed_block" signedBlockStruct rfl (by simp)
  have hst₂ := find?_history hA "signed_block_header" signedBlockHeaderStruct rfl (by simp)
  have hst₃ := find?_history hA "block_header" blockHeaderStruct rfl (by simp)
  have hschedule := find?_history hA "producer_schedule" producerScheduleStruct rfl (by simp)
  have hbase₂ := hA.resolve_struct "signed_block_header" hst₂ (by decide)
  have hbase₃ := hA.resolve_struct "block_header" hst₃ (by decide)
  have hchain₃ : A.chainFields (scopes + 1) "block_header" = blockHeaderStruct.fields := by
    rw [chainFields_struct hst₃]
    rfl
  have hchain₂ : A.chainFields (scopes + 2) "signed_block_header" =
      blockHeaderStruct.fields ++ signedBlockHeaderStruct.fields := by
    rw [chainFields_struct hst₂]
    change A.chainFields (scopes + 1) (A.resolveType "block_header") ++ _ = _
    rw [hbase₃, hchain₃]
  have hchain : A.chainFields (scopes + 3) "signed_block" =
      (blockHeaderStruct.fields ++ signedBlockHeaderStruct.fields) ++ signedBlockStruct.fields := by
    rw [chainFields_struct hst₁]
    change A.chainFields (scopes + 2) (A.resolveType "signed_block_header") ++ _ = _
    rw [hbase₂, hchain₂]
  have hvalue := binaryToValue_iff.mp hread
  rw [hA.resolve_struct "signed_block" hst₁ (by decide)] at hvalue
  obtain ⟨-, hobject⟩ := value_struct hvalue (builtIn?_none hA rfl) rfl
  have hnames : (([] : VariantObject).map Prod.fst ++
      A.chainNames (scopes + 3) "signed_block").Nodup := by
    rw [chainNames, hchain]
    decide
  have hmem : (⟨"new_producers", "producer_schedule?"⟩ : FieldDef) ∈
      A.chainFields (scopes + 3) "signed_block" := by
    rw [hchain]
    simp [blockHeaderStruct, headerStruct]
  have hproducers := object_origin hobject hnames hmem rfl
  have htype : A.resolveType (removeBinExtension "producer_schedule?") = "producer_schedule?" :=
    hA.resolve_struct "producer_schedule?" hschedule (by decide)
  rw [htype] at hproducers
  exact newProducers_none hA hschedule hproducers

end Blocks

section GlobalProperties
variable (hA : Accepted T.configureBuiltInTypes stateHistoryAbi A)
include hA

lemma not_readAt_globalProperty (gpo : GlobalPropertyObject Key) :
    ¬ A.ReadAt "global_property" (globalPropertyVariant T gpo) := by
  intro hread
  have hst := find?_history hA "global_property_v0" globalPropertyStruct rfl (by simp)
  have hschedule := find?_history hA "producer_schedule" producerScheduleStruct rfl (by simp)
  have hversion := hread.choice (hA.resolve_new "global_property" (by decide))
    (builtIn?_none hA rfl) rfl rfl
  obtain ⟨-, scopes, stream, rest, hobject⟩ := hversion.struct
    (hA.resolve_struct "global_property_v0" hst (by decide)) (builtIn?_none hA rfl) rfl
  cases scopes with
  | zero => cases hobject
  | succ scopes =>
    have hchain : A.chainFields (scopes + 1) "global_property_v0" = globalPropertyStruct.fields := by
      rw [chainFields_struct hst]
      rfl
    have hnames : (([] : VariantObject).map Prod.fst ++
        A.chainNames (scopes + 1) "global_property_v0").Nodup := by
      rw [chainNames, hchain]
      decide
    have hmem : (⟨"proposed_schedule", "producer_schedule"⟩ : FieldDef) ∈
        A.chainFields (scopes + 1) "global_property_v0" := by
      rw [hchain]
      simp [globalPropertyStruct]
    have horigin := object_origin hobject hnames hmem rfl
    have htype : A.resolveType (removeBinExtension "producer_schedule") = "producer_schedule" :=
      hA.resolve_struct "producer_schedule" hschedule (by decide)
    rw [htype] at horigin
    exact not_readAt_schedule hA hschedule gpo.proposedSchedule horigin

end GlobalProperties

/-- What the plugin sends decodes completely to its own values exactly when it is a block without
new producers. -/
theorem describes_history_iff (h : setAbi T.configureBuiltInTypes stateHistoryAbi = .ok A)
    {x : HistoryValue Key Sig} {bytes : Bytes} (hsent : x.serialize T = some bytes) :
    A.binaryToVariant x.type bytes = .ok (x.value T, []) ↔
      ∃ b, x = .signedBlock b ∧ b.newProducers = none := by
  have hA := setAbi_ok h
  cases x with
  | globalProperty gpo =>
    constructor
    · intro hdecode
      exact absurd ⟨_, _, _, hdecode⟩ (not_readAt_globalProperty hA gpo)
    · rintro ⟨b, hb, -⟩
      cases hb
  | signedBlock b =>
    change (if blockFits T b then some (packBlock T b) else none) = _ at hsent
    split at hsent
    · rename_i hfits
      cases hsent
      constructor
      · intro hdecode
        exact ⟨b, rfl, newProducers_of_block hA hdecode⟩
      rintro ⟨b', hb', hnone⟩
      cases hb'
      have hread := readsAs_block hA 21 hnone hfits
      have hall := hread [] fun _ => rfl
      rw [append_nil] at hall
      exact hall
    · cases hsent

def proposing : GlobalPropertyObject UInt8 where
  proposedSchedule := { version := 1, producers := [⟨5, 7⟩] }

def announcingBlock : Block UInt8 UInt8 where
  newProducers := some { version := 1, producers := [⟨5, 7⟩] }
  producerSignature := 0

lemma schedules_leave_bytes :
    okAnd (setAbi plainTypes.configureBuiltInTypes stateHistoryAbi) (fun A =>
      okAnd (A.binaryToVariant "global_property" (serializeGlobalProperty plainTypes proposing))
          (fun r => r.2.length = 13) &&
        okAnd (A.binaryToVariant "signed_block" (packBlock plainTypes announcingBlock))
          fun r => r.2.length = 17) = true := by
  decide +kernel

def fullBlock : Block UInt8 UInt8 where
  timestamp := 1200000028
  producer := 5
  confirmed := 12
  previous := ⟨1, 2, 3, 4⟩
  scheduleVersion := 7
  headerExtensions := [(3, [171, 205])]
  producerSignature := 9
  transactions := [⟨.executed, 250, 16, .packed ⟨[9, 8], .zlib, [1], [2, 3, 4]⟩⟩,
    ⟨.expired, 0, 0, .id ⟨5, 6, 7, 8⟩⟩]
  blockExtensions := [(1, [255])]

theorem full_block_described :
    ∃ A, setAbi plainTypes.configureBuiltInTypes stateHistoryAbi = .ok A ∧
      A.binaryToVariant "signed_block" (packBlock plainTypes fullBlock) =
        .ok (.object (blockFields plainTypes fullBlock), []) := by
  obtain ⟨A, hA, -⟩ := exists_ok_of_okAnd schedules_leave_bytes
  have hsent : (signedBlock fullBlock).serialize plainTypes =
      some (packBlock plainTypes fullBlock) := rfl
  exact ⟨A, hA, (describes_history_iff hA hsent).mpr ⟨_, rfl, rfl⟩⟩

/-- A proposed schedule leaves thirteen bytes, one that is announced leaves seventeen: the bytes of
the consensus type are read as the sizes of what follows. -/
theorem schedules_not_described :
    ∃ A, setAbi plainTypes.configureBuiltInTypes stateHistoryAbi = .ok A ∧
      (∃ bytes v rest, (HistoryValue.globalProperty proposing : HistoryValue UInt8 UInt8).serialize plainTypes = some bytes ∧
        A.binaryToVariant "global_property" bytes = .ok (v, rest) ∧ rest.length = 13) ∧
      ∃ bytes v rest, (signedBlock announcingBlock).serialize plainTypes = some bytes ∧
        A.binaryToVariant "signed_block" bytes = .ok (v, rest) ∧ rest.length = 17 := by
  obtain ⟨A, hA, h⟩ := exists_ok_of_okAnd schedules_leave_bytes
  obtain ⟨hproposing, hannouncing⟩ := Bool.and_eq_true_iff.mp h
  obtain ⟨⟨v, rest⟩, hv, hrest⟩ := exists_ok_of_okAnd hproposing
  obtain ⟨⟨w, rest'⟩, hw, hrest'⟩ := exists_ok_of_okAnd hannouncing
  exact ⟨A, hA, ⟨_, v, rest, rfl, hv, of_decide_eq_true hrest⟩,
    _, w, rest', rfl, hw, of_decide_eq_true hrest'⟩

end DimensionChain.HistoryAbi
