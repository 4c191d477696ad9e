import DimensionChain.Chain.Names
import DimensionChain.Abi.HeaderStructs

/-!
# The native ABI and the block header

`eosioContractAbi` adds the types of the native actions to an ABI. Its struct for a producer
schedule has two fields, the schedule of a header has three.
-/

namespace DimensionChain.SystemAbi
open AbiSerializer

def commonTypeDefs : List TypeDef :=
  [⟨"account_name", "name"⟩, ⟨"permission_name", "name"⟩, ⟨"action_name", "name"⟩,
    ⟨"table_name", "name"⟩, ⟨"transaction_id_type", "checksum256"⟩,
    ⟨"block_id_type", "checksum256"⟩, ⟨"weight_type", "uint16"⟩]

def blockHeaderStruct : StructDef := headerStruct "uint32" "account_name" "block_id_type"

def nativeStructs : List StructDef :=
  [⟨"permission_level", "", [⟨"actor", "account_name"⟩, ⟨"permission", "permission_name"⟩]⟩,
    ⟨"action", "", [⟨"account", "account_name"⟩, ⟨"name", "action_name"⟩,
      ⟨"authorization", "permission_level[]"⟩, ⟨"data", "bytes"⟩]⟩,
    extensionStruct,
    ⟨"transaction_header", "", [⟨"expiration", "time_point_sec"⟩, ⟨"ref_block_num", "uint16"⟩,
      ⟨"ref_block_prefix", "uint32"⟩, ⟨"max_net_usage_words", "varuint32"⟩,
      ⟨"max_cpu_usage_ms", "uint8"⟩, ⟨"delay_sec", "varuint32"⟩]⟩,
    ⟨"transaction", "transaction_header", [⟨"context_free_actions", "action[]"⟩,
      ⟨"actions", "action[]"⟩, ⟨"transaction_extensions", "extension[]"⟩]⟩,
    ⟨"producer_key", "", [⟨"producer_name", "account_name"⟩, ⟨"block_signing_key", "public_key"⟩]⟩,
    producerScheduleStruct, blockHeaderStruct,
    ⟨"key_weight", "", [⟨"key", "public_key"⟩, ⟨"weight", "weight_type"⟩]⟩,
    ⟨"permission_level_weight", "", [⟨"permission", "permission_level"⟩,
      ⟨"weight", "weight_type"⟩]⟩,
    ⟨"wait_weight", "", [⟨"wait_sec", "uint32"⟩, ⟨"weight", "weight_type"⟩]⟩,
    ⟨"authority", "", [⟨"threshold", "uint32"⟩, ⟨"keys", "key_weight[]"⟩,
      ⟨"accounts", "permission_level_weight[]"⟩, ⟨"waits", "wait_weight[]"⟩]⟩,
    ⟨"newaccount", "", [⟨"creator", "account_name"⟩, ⟨"name", "account_name"⟩,
      ⟨"owner", "authority"⟩, ⟨"active", "authority"⟩]⟩,
    ⟨"setcode", "", [⟨"account", "account_name"⟩, ⟨"vmtype", "uint8"⟩, ⟨"vmversion", "uint8"⟩,
      ⟨"code", "bytes"⟩]⟩,
    ⟨"setabi", "", [⟨"account", "account_name"⟩, ⟨"abi", "bytes"⟩]⟩,
    ⟨"updateauth", "", [⟨"account", "account_name"⟩, ⟨"permission", "permission_name"⟩,
      ⟨"parent", "permission_name"⟩, ⟨"auth", "authority"⟩]⟩,
    ⟨"deleteauth", "", [⟨"account", "account_name"⟩, ⟨"permission", "permission_name"⟩]⟩,
    ⟨"linkauth", "", [⟨"account", "account_name"⟩, ⟨"code", "account_name"⟩,
      ⟨"type", "action_name"⟩, ⟨"requirement", "permission_name"⟩]⟩,
    ⟨"unlinkauth", "", [⟨"account", "account_name"⟩, ⟨"code", "account_name"⟩,
      ⟨"type", "action_name"⟩]⟩,
    ⟨"canceldelay", "", [⟨"canceling_auth", "permission_level"⟩,
      ⟨"trx_id", "transaction_id_type"⟩]⟩,
    ⟨"onerror", "", [⟨"sender_id", "uint128"⟩, ⟨"sent_trx", "bytes"⟩]⟩,
    ⟨"onblock", "", [⟨"header", "block_header"⟩]⟩]

def nativeActions : List ActionDef :=
  ["newaccount", "setcode", "setabi", "updateauth", "deleteauth", "linkauth", "unlinkauth",
    "canceldelay", "onerror", "onblock"].map fun name => ⟨Name.stringToName name.toList, name⟩

def eosioContractAbi (eosioSystemAbi : AbiDef) : AbiDef :=
  { eosioSystemAbi with
    version := if eosioSystemAbi.version = "" then "eosio::abi/1.0" else eosioSystemAbi.version
    types := eosioSystemAbi.types ++ commonTypeDefs
    structs := eosioSystemAbi.structs ++ nativeStructs
    actions := eosioSystemAbi.actions ++ nativeActions }

variable {Key Sig : Type} {T : RawTypes Key Sig} {sys : AbiDef} {A : AbiSerializer}

section Header
variable (hA : Accepted T.configureBuiltInTypes (eosioContractAbi sys) A) {scopes : Nat}
  {h : BlockHeader Key}

include hA

lemma find?_native (st : StructDef) (hst : st ∈ nativeStructs) :
    A.structs.find? st.name = some st :=
  hA.struct st (List.mem_append_right _ hst)

lemma readsAs_header (scopes : Nat) (hnone : h.newProducers = none)
    (hfits : h.headerExtensions.length ≤ T.maxArrayElements)
    (hheader : A.variants.find? "block_header" = none)
    (hextension : h.headerExtensions = [] ∨ A.variants.find? "extension" = none) :
    A.ReadsAs (scopes + 6) "block_header" (T.packBlockHeader h)
      (.object (T.headerFields T.uint32 h)) := by
  have hst : A.structs.find? "block_header" = some blockHeaderStruct :=
    find?_native hA blockHeaderStruct (by simp [nativeStructs])
  have hname : A.DecodedStruct "block_header" := decodedStruct hA hst rfl rfl rfl hheader
  have htimes : ∀ slot, A.ReadsAs (scopes + 4) "uint32" (T.blockTimestamp.pack slot)
      (T.uint32.toVariant slot) := by
    intro slot
    rw [T.blockTimestamp_pack]
    exact readsAs_builtIn hA rfl rfl rfl slot
  have hnames : ∀ n, A.ReadsAs (scopes + 4) "account_name" (T.name.pack n) (T.name.toVariant n) :=
    readsAs_typedef hA ⟨"account_name", "name"⟩
      (List.mem_append_right _ (by simp [commonTypeDefs])) rfl rfl rfl
  have hids : ∀ d, A.ReadsAs (scopes + 4) "block_id_type" (T.checksum256.pack d)
      (T.checksum256.toVariant d) :=
    readsAs_typedef hA ⟨"block_id_type", "checksum256"⟩
      (List.mem_append_right _ (by simp [commonTypeDefs])) rfl rfl rfl
  have hpacks := packsStruct_header hA (find?_native hA extensionStruct (by simp [nativeStructs]))
    (find?_native hA producerScheduleStruct (by simp [nativeStructs])) htimes hnames hids
    (by decide) hfits hextension
  have hread := hname.readsAs (hpacks.appends hA.valid hst rfl (by decide)) (List.cons_ne_nil _ _)
  rwa [packedHeader_out hnone, packedHeader_fields hnone] at hread

lemma header_of_readAt (hread : A.ReadAt "block_header" (.object (T.headerFields T.uint32 h))) :
    h.newProducers = none ∧ A.variants.find? "block_header" = none ∧
      (h.headerExtensions = [] ∨ A.variants.find? "extension" = none) := by
  have hst : A.structs.find? "block_header" = some blockHeaderStruct :=
    find?_native hA blockHeaderStruct (by simp [nativeStructs])
  have hextension : A.structs.find? "extension" = some extensionStruct :=
    find?_native hA extensionStruct (by simp [nativeStructs])
  have hschedule : A.structs.find? "producer_schedule" = some producerScheduleStruct :=
    find?_native hA producerScheduleStruct (by simp [nativeStructs])
  obtain ⟨hvariant, scopes, stream, rest, hobject⟩ := hread.struct
    (hA.resolve_struct "block_header" hst (by decide)) (builtIn?_none hA rfl) rfl
  cases scopes with
  | zero => cases hobject
  | succ scopes =>
    have hchain : A.chainFields (scopes + 1) "block_header" = blockHeaderStruct.fields := by
      rw [chainFields_struct hst]
      rfl
    have hnames : (([] : VariantObject).map Prod.fst ++
        A.chainNames (scopes + 1) "block_header").Nodup := by
      rw [chainNames, hchain]
      decide
    have horigin : ∀ field ∈ blockHeaderStruct.fields, ∀ v,
        (T.headerFields T.uint32 h).lookup field.name = some v →
        A.ReadAt (A.resolveType (removeBinExtension field.type)) v := by
      intro field hfield v hv
      exact object_origin hobject hnames (hchain ▸ hfield) hv
    have hproducers := horigin ⟨"new_producers", "producer_schedule?"⟩
      (by simp [blockHeaderStruct, headerStruct]) _ rfl
    have hextensions := horigin ⟨"header_extensions", "extension[]"⟩
      (by simp [blockHeaderStruct, headerStruct]) _ rfl
    have htype₁ : A.resolveType (removeBinExtension "producer_schedule?") = "producer_schedule?" :=
      hA.resolve_struct "producer_schedule?" hschedule (by decide)
    have htype₂ : A.resolveType (removeBinExtension "extension[]") = "extension[]" :=
      hA.resolve_struct "extension[]" hextension (by decide)
    rw [htype₁] at hproducers
    rw [htype₂] at hextensions
    exact ⟨newProducers_none hA hschedule hproducers, hvariant,
      extension_variant hA hextension hextensions⟩

end Header

lemma variant_none_iff (hA : Accepted T.configureBuiltInTypes (eosioContractAbi sys) A)
    (name : TypeName) : A.variants.find? name = none ↔ ∀ v ∈ sys.variants, v.name ≠ name := by
  have hmem : (∀ e ∈ sys.variants.map fun v => (v.name, v), e.1 ≠ name) ↔
      ∀ v ∈ sys.variants, v.name ≠ name := by
    simp
  rw [hA.variants_eq, FlatMap.find?_setAll_eq_none]
  exact ⟨fun h => hmem.mp h.2, fun h => ⟨rfl, hmem.mpr h⟩⟩

/-- The packed header decodes completely to its own values exactly when it has no new producers
and no variant of the system ABI takes the place of one of its structs. -/
theorem describes_header_iff (h : setAbi T.configureBuiltInTypes (eosioContractAbi sys) = .ok A)
    {header : BlockHeader Key} {bytes : Bytes} (hpack : T.rawPackHeader header = some bytes) :
    A.binaryToVariant "block_header" bytes = .ok (.object (T.headerFields T.uint32 header), []) ↔
      header.newProducers = none ∧ (∀ v ∈ sys.variants, v.name ≠ "block_header") ∧
        (header.headerExtensions = [] ∨ ∀ v ∈ sys.variants, v.name ≠ "extension") := by
  have hA := setAbi_ok h
  rw [← variant_none_iff hA, ← variant_none_iff hA]
  unfold RawTypes.rawPackHeader at hpack
  split at hpack
  · rename_i hfits
    cases hpack
    simp only [RawTypes.headerFits, Bool.and_eq_true, decide_eq_true_eq] at hfits
    constructor
    · intro hdecode
      exact header_of_readAt hA ⟨_, _, _, hdecode⟩
    rintro ⟨hnone, hheader, hextension⟩
    have hread := readsAs_header hA 24 hnone hfits.1 hheader hextension
    have hall := hread [] fun _ => rfl
    rw [List.append_nil] at hall
    exact hall
  · cases hpack

def announcing : BlockHeader UInt8 where
  newProducers := some { version := 1, producers := [⟨5, 7⟩] }

lemma announcing_leaves_bytes :
    okAnd (setAbi plainTypes.configureBuiltInTypes (eosioContractAbi {})) (fun A =>
      okAnd (A.binaryToVariant "block_header" (plainTypes.packBlockHeader announcing))
        fun r => r.2.length = 17) = true := by
  decide +kernel

def fullHeader : BlockHeader UInt8 where
  timestamp := 1200000028
  producer := 5
  confirmed := 12
  previous := ⟨1, 2, 3, 4⟩
  transactionMroot := ⟨5, 6, 7, 8⟩
  actionMroot := ⟨9, 10, 11, 12⟩
  scheduleVersion := 7
  headerExtensions := [(3, [171, 205])]

theorem full_header_described :
    ∃ A, setAbi plainTypes.configureBuiltInTypes (eosioContractAbi {}) = .ok A ∧
      A.binaryToVariant "block_header" (plainTypes.packBlockHeader fullHeader) =
        .ok (.object (plainTypes.headerFields plainTypes.uint32 fullHeader), []) := by
  obtain ⟨A, hA, -⟩ := exists_ok_of_okAnd announcing_leaves_bytes
  have hpack : plainTypes.rawPackHeader fullHeader =
      some (plainTypes.packBlockHeader fullHeader) := rfl
  exact ⟨A, hA, (describes_header_iff hA hpack).mpr ⟨rfl, by simp, .inr (by simp)⟩⟩

/-- The first byte of the consensus type is read as the number of producers, the second as the
number of extensions, and seventeen bytes are left over. -/
theorem announcing_header_not_described :
    ∃ A, setAbi plainTypes.configureBuiltInTypes (eosioContractAbi {}) = .ok A ∧
      plainTypes.rawPackHeader announcing = some (plainTypes.packBlockHeader announcing) ∧
      ∃ v rest, A.binaryToVariant "block_header" (plainTypes.packBlockHeader announcing) =
        .ok (v, rest) ∧ rest.length = 17 := by
  obtain ⟨A, hA, h⟩ := exists_ok_of_okAnd announcing_leaves_bytes
  obtain ⟨⟨v, rest⟩, hdecode, hrest⟩ := exists_ok_of_okAnd h
  exact ⟨A, hA, rfl, v, rest, hdecode, of_decide_eq_true hrest⟩

end DimensionChain.SystemAbi
