import DimensionChain.Abi.RawTypes
import DimensionChain.Abi.Reading

/-!
# The structs of a header that two ABIs share

The native ABI and the one of the state history describe an extension and a producer schedule by
the same structs. The struct of the schedule has two fields, the schedule of a header has three,
so no schedule is ever read at it.
-/

namespace DimensionChain.AbiSerializer

open List RawTypes

def extensionStruct : StructDef := ⟨"extension", "", [⟨"type", "uint16"⟩, ⟨"data", "bytes"⟩]⟩

def producerScheduleStruct : StructDef :=
  ⟨"producer_schedule", "", [⟨"version", "uint32"⟩, ⟨"producers", "producer_key[]"⟩]⟩

/-- The struct of a header, which the ABIs write with different names for three of the types. -/
def headerStruct (timeType nameType idType : TypeName) : StructDef :=
  ⟨"block_header", "", [⟨"timestamp", timeType⟩, ⟨"producer", nameType⟩, ⟨"confirmed", "uint16"⟩,
    ⟨"previous", idType⟩, ⟨"transaction_mroot", "checksum256"⟩, ⟨"action_mroot", "checksum256"⟩,
    ⟨"schedule_version", "uint32"⟩, ⟨"consensus_type", "int64"⟩,
    ⟨"new_producers", "producer_schedule?"⟩, ⟨"header_extensions", "extension[]"⟩]⟩

variable {Key Sig : Type} {T : RawTypes Key Sig} {abi : AbiDef} {A : AbiSerializer}
  (hA : Accepted T.configureBuiltInTypes abi A) {scopes : Nat} {type : TypeName} {α : Type}
include hA

lemma toPacking_eq : T.toPacking = A.builtIns.toPacking := by
  rw [hA.builtIns_eq]
  rfl

lemma readsAs_builtIn {raw : RawType α} {name : TypeName}
    (hname : T.configureBuiltInTypes.types name = some (T.builtIn raw))
    (harray : isArray name = false) (hoptional : isOptional name = false) (a : α) :
    A.ReadsAs (scopes + 1) name (raw.pack a) (raw.toVariant a) := by
  rw [← hA.builtIns_eq] at hname
  refine readsAs_raw (hA.resolve_builtIn (b := T.builtIn raw) ?_) hname harray hoptional a
  rw [builtIn?, fundamentalType_plain harray hoptional, hname]

lemma readsAs_typedef {raw : RawType α} (td : TypeDef) (htd : td ∈ abi.types)
    (hname : T.configureBuiltInTypes.types td.type = some (T.builtIn raw))
    (harray : isArray td.type = false) (hoptional : isOptional td.type = false) (a : α) :
    A.ReadsAs (scopes + 1) td.newTypeName (raw.pack a) (raw.toVariant a) := by
  rw [← hA.builtIns_eq] at hname
  have hnone : A.typedefs.find? td.type = none := by
    by_contra hne
    obtain ⟨t, ht⟩ := Option.ne_none_iff_exists'.mp hne
    have hbuilt := (hA.newNames td.type t ht).1
    rw [builtIn?, fundamentalType_plain harray hoptional, hname] at hbuilt
    cases hbuilt
  exact readsAs_raw (resolveType_of_some (hA.typedef td htd) hnone) hname harray hoptional a

lemma builtIn?_none
    (h : T.configureBuiltInTypes.types (fundamentalType type) = none) : A.builtIn? type = none := by
  rw [builtIn?, hA.builtIns_eq, h]

lemma decodedStruct {st : StructDef} (hst : A.structs.find? type = some st)
    (hbuilt : T.configureBuiltInTypes.types (fundamentalType type) = none)
    (harray : isArray type = false) (hoptional : isOptional type = false)
    (hvariant : A.variants.find? type = none) : A.DecodedStruct type where
  resolve := by
    have hplain := fundamentalType_plain harray hoptional
    rw [← hplain] at hst
    exact hA.resolve_struct type hst (by rw [hplain, hplain])
  builtIn := builtIn?_none hA hbuilt
  array := harray
  optional := hoptional
  variant := hvariant

def packedExtension (T : RawTypes Key Sig) (e : Nat × Bytes) : List PackedField :=
  [⟨⟨"type", "uint16"⟩, T.uint16.pack (UInt16.ofNat e.1), T.uint16.toVariant (UInt16.ofNat e.1)⟩,
    ⟨⟨"data", "bytes"⟩, T.bytes.pack e.2, T.bytes.toVariant e.2⟩]

variable (hst : A.structs.find? "extension" = some extensionStruct) {es : List (Nat × Bytes)}
include hst

lemma readsAs_extension (hvariant : A.variants.find? "extension" = none) (e : Nat × Bytes) :
    A.ReadsAs (scopes + 3) "extension" (T.packExtension e) (T.extensionVariant e) := by
  have htype : ∀ n, A.ReadsAs (scopes + 1) "uint16" (T.uint16.pack n) (T.uint16.toVariant n) :=
    readsAs_builtIn hA rfl rfl rfl
  have hdata : ∀ bs, A.ReadsAs (scopes + 1) "bytes" (T.bytes.pack bs) (T.bytes.toVariant bs) :=
    readsAs_builtIn hA rfl rfl rfl
  have hpacks : A.PacksStruct (scopes + 1) extensionStruct (packedExtension T e) := by
    refine ⟨rfl, by decide, ?_⟩
    unfold packedExtension
    rw [forall_mem_cons, forall_mem_singleton]
    exact ⟨htype _, hdata _⟩
  have hname := decodedStruct hA hst rfl rfl rfl hvariant
  have hread := hname.readsAs (hpacks.appends hA.valid hst rfl (by decide)) (cons_ne_nil _ _)
  simpa [packedExtension, packExtension, extensionVariant] using hread

lemma readsAs_extensions (hfits : es.length ≤ T.maxArrayElements)
    (hvariant : es = [] ∨ A.variants.find? "extension" = none) :
    A.ReadsAs (scopes + 4) "extension[]" (T.packList T.packExtension es)
      (.array (es.map T.extensionVariant)) := by
  rw [toPacking_eq hA]
  refine readsAs_array (hA.resolve_struct "extension[]" hst (by decide))
    (builtIn?_none hA rfl) rfl (Nat.lt_of_le_of_lt hfits T.maxArrayElements_lt) ?_ fun _ _ => rfl
  intro e he
  rcases hvariant with rfl | hvariant
  · cases he
  · exact readsAs_extension hA hst hvariant e

omit hst in
lemma not_readAt_schedule (hst : A.structs.find? "producer_schedule" = some producerScheduleStruct)
    (s : ProducerSchedule Key) : ¬ A.ReadAt "producer_schedule" (T.scheduleVariant s) := by
  intro h
  obtain ⟨-, scopes, stream, rest, hobject⟩ := h.struct
    (hA.resolve_struct "producer_schedule" hst (by decide)) (builtIn?_none hA rfl) rfl
  cases scopes with
  | zero => cases hobject
  | succ scopes =>
    have hchain : A.chainNames (scopes + 1) "producer_schedule" = ["version", "producers"] := by
      rw [chainNames_struct hst]
      rfl
    obtain ⟨new, hnew, hsub⟩ := objects_append _ hobject (by rw [hchain]; decide)
    have hlength := hsub.length_le
    rw [hchain, ← nil_append new, ← hnew] at hlength
    simp at hlength

omit hst in
lemma newProducers_none (hst : A.structs.find? "producer_schedule" = some producerScheduleStruct)
    {s : Option (ProducerSchedule Key)}
    (h : A.ReadAt "producer_schedule?" ((s.map T.scheduleVariant).getD .null)) : s = none := by
  cases s with
  | none => rfl
  | some s =>
    have hone := h.optional (hA.resolve_struct "producer_schedule?" hst (by decide))
      (builtIn?_none hA rfl) rfl
    exact absurd hone (not_readAt_schedule hA hst s)

lemma extension_variant (h : A.ReadAt "extension[]" (.array (es.map T.extensionVariant))) :
    es = [] ∨ A.variants.find? "extension" = none := by
  cases es with
  | nil => exact .inl rfl
  | cons e es =>
    have hone := h.element (hA.resolve_struct "extension[]" hst (by decide))
      (builtIn?_none hA rfl) rfl (mem_cons_self ..)
    exact .inr (hone.struct (hA.resolve_struct "extension" hst (by decide))
      (builtIn?_none hA rfl) rfl).1

omit hst

def packedHeader (T : RawTypes Key Sig) (time : RawType UInt32)
    (timeType nameType idType : TypeName) (h : BlockHeader Key) : List PackedField :=
  [⟨⟨"timestamp", timeType⟩, T.blockTimestamp.pack (UInt32.ofNat h.timestamp),
      time.toVariant (UInt32.ofNat h.timestamp)⟩,
    ⟨⟨"producer", nameType⟩, T.name.pack (UInt64.ofNat h.producer),
      T.name.toVariant (UInt64.ofNat h.producer)⟩,
    ⟨⟨"confirmed", "uint16"⟩, T.uint16.pack (UInt16.ofNat h.confirmed),
      T.uint16.toVariant (UInt16.ofNat h.confirmed)⟩,
    ⟨⟨"previous", idType⟩, T.checksum256.pack h.previous, T.checksum256.toVariant h.previous⟩,
    ⟨⟨"transaction_mroot", "checksum256"⟩, T.checksum256.pack h.transactionMroot,
      T.checksum256.toVariant h.transactionMroot⟩,
    ⟨⟨"action_mroot", "checksum256"⟩, T.checksum256.pack h.actionMroot,
      T.checksum256.toVariant h.actionMroot⟩,
    ⟨⟨"schedule_version", "uint32"⟩, T.uint32.pack (UInt32.ofNat h.scheduleVersion),
      T.uint32.toVariant (UInt32.ofNat h.scheduleVersion)⟩,
    ⟨⟨"consensus_type", "int64"⟩, T.int64.pack (Int64.ofInt h.consensusType),
      T.int64.toVariant (Int64.ofInt h.consensusType)⟩,
    ⟨⟨"new_producers", "producer_schedule?"⟩, [0], .null⟩,
    ⟨⟨"header_extensions", "extension[]"⟩, T.packList T.packExtension h.headerExtensions,
      .array (h.headerExtensions.map T.extensionVariant)⟩]

variable {timeType nameType idType : TypeName} {time : RawType UInt32} {h : BlockHeader Key}

lemma packsStruct_header (hextension : A.structs.find? "extension" = some extensionStruct)
    (hschedule : A.structs.find? "producer_schedule" = some producerScheduleStruct)
    (htime : ∀ slot, A.ReadsAs (scopes + 4) timeType (T.blockTimestamp.pack slot)
      (time.toVariant slot))
    (hname : ∀ n, A.ReadsAs (scopes + 4) nameType (T.name.pack n) (T.name.toVariant n))
    (hid : ∀ d, A.ReadsAs (scopes + 4) idType (T.checksum256.pack d) (T.checksum256.toVariant d))
    (hplain : ∀ field ∈ (headerStruct timeType nameType idType).fields,
      isExtension field.type = false) (hfits : h.headerExtensions.length ≤ T.maxArrayElements)
    (hvariant : h.headerExtensions = [] ∨ A.variants.find? "extension" = none) :
    A.PacksStruct (scopes + 4) (headerStruct timeType nameType idType)
      (packedHeader T time timeType nameType idType h) := by
  have huint32 : ∀ n, A.ReadsAs (scopes + 4) "uint32" (T.uint32.pack n) (T.uint32.toVariant n) :=
    readsAs_builtIn hA rfl rfl rfl
  have huint16 : ∀ n, A.ReadsAs (scopes + 4) "uint16" (T.uint16.pack n) (T.uint16.toVariant n) :=
    readsAs_builtIn hA rfl rfl rfl
  have hint64 : ∀ n, A.ReadsAs (scopes + 4) "int64" (T.int64.pack n) (T.int64.toVariant n) :=
    readsAs_builtIn hA rfl rfl rfl
  have hdigest : ∀ d, A.ReadsAs (scopes + 4) "checksum256" (T.checksum256.pack d)
      (T.checksum256.toVariant d) :=
    readsAs_builtIn hA rfl rfl rfl
  have habsent : A.ReadsAs (scopes + 4) "producer_schedule?" [0] .null :=
    readsAs_absent (hA.resolve_struct "producer_schedule?" hschedule (by decide))
      (builtIn?_none hA rfl) rfl rfl
  refine ⟨rfl, hplain, ?_⟩
  unfold packedHeader
  simp only [forall_mem_cons, not_mem_nil, false_imp_iff, implies_true, and_true]
  exact ⟨htime _, hname _, huint16 _, hid _, hdigest _, hdigest _, huint32 _, hint64 _, habsent,
    readsAs_extensions hA hextension hfits hvariant⟩

omit hA in
lemma packedHeader_out (hnone : h.newProducers = none) :
    ((packedHeader T time timeType nameType idType h).map PackedField.out).flatten =
      T.packBlockHeader h := by
  simp [packedHeader, packBlockHeader, hnone, Packing.packOptional, T.flag_false]

omit hA in
lemma packedHeader_fields (hnone : h.newProducers = none) :
    ((packedHeader T time timeType nameType idType h).map fun p => (p.field.name, p.value)) =
      T.headerFields time h := by
  simp [packedHeader, headerFields, hnone]

end DimensionChain.AbiSerializer
