import DimensionChain.Abi.Parts

/-!
# Reading packed values

Rules for what the decoder reads from bytes that were packed without it: one for each form of
type, to be put together along an ABI. In the other direction, every value of a decoded object was
read at the type of its field.
-/

namespace DimensionChain.AbiSerializer
open List Bytes Variant

variable {A : AbiSerializer} {scopes : Nat} {type rtype : TypeName} {content : Variant}
  {ftype : TypeName} {t : TypeName}

section Rules
variable {α : Type} {T : RawType α} {P : Packing} {bound : Nat}

/-- The bytes are read back as the value, whatever follows them. -/
abbrev ReadsAs (A : AbiSerializer) (scopes : Nat) (type : TypeName) (out : Bytes) (v : Variant) :
    Prop :=
  A.Reads scopes type false out v

lemma readsAs_raw {hbound : bound < 4294967296} (hresolve : A.resolveType type = rtype)
    (hbuilt : A.builtIns.types rtype = some (T.packUnpack P bound hbound))
    (harray : isArray rtype = false) (hoptional : isOptional rtype = false) (a : α) :
    A.ReadsAs (scopes + 1) type (T.pack a) (T.toVariant a) := by
  subst hresolve
  intro rest _
  apply binaryToValue_iff.mpr
  apply ReadsValue.builtIn (b := T.packUnpack P bound hbound)
  · rw [builtIn?, fundamentalType_plain harray hoptional, hbuilt]
  rw [harray, hoptional]
  change T.variantFromStream _ = _
  unfold RawType.variantFromStream
  rw [T.unpack_pack]
  rfl

variable (hresolve : A.resolveType type = type) {as : List α} {toVariant : α → Variant}
  {pack : α → Bytes} {out : Bytes} {v : Variant}
include hresolve

lemma readsAs_of_readsValue
    (h : ∀ rest, ReadsValue A (A.decoders scopes) type (out ++ rest) v rest) :
    A.ReadsAs (scopes + 1) type out v := by
  intro rest _
  apply binaryToValue_iff.mpr
  rw [hresolve]
  exact h rest

lemma readsAs_rawVector {hbound : bound < 4294967296}
    (hbuilt : A.builtIns.types (fundamentalType type) = some (T.packUnpack P bound hbound))
    (harray : isArray type = true) (hfits : as.length ≤ bound) :
    A.ReadsAs (scopes + 1) type (P.packList T.pack as) (.array (as.map T.toVariant)) := by
  have hpack : P.packVector T.toCodec bound as = some (P.packList T.pack as) := if_pos hfits
  refine readsAs_of_readsValue hresolve fun rest => .builtIn hbuilt ?_
  rw [harray]
  change T.variantFromVector P bound _ = _
  unfold RawType.variantFromVector
  rw [P.unpackVector_packVector T.toCodec hbound hpack]
  rfl

omit hresolve in
lemma readsMany_of_readsAs (h : ∀ a ∈ as, A.ReadsAs scopes ftype (pack a) (toVariant a))
    (hnull : ∀ a ∈ as, (toVariant a).isNull = false) (rest : Bytes) :
    ReadsMany (A.decoders scopes) ftype ((as.map pack).flatten ++ rest) (as.map toVariant) rest := by
  induction as with
  | nil => exact .nil rest
  | cons a as ih =>
    rw [forall_mem_cons] at h hnull
    rw [map_cons, map_cons, flatten_cons, append_assoc]
    exact .cons (h.1 _ fun hf => absurd hf Bool.false_ne_true) hnull.1 (ih h.2 hnull.2)

variable (hbuilt : A.builtIn? type = none)
include hbuilt

lemma readsAs_array (harray : isArray type = true) (hsize : as.length < 4294967296)
    (h : ∀ a ∈ as, A.ReadsAs scopes (fundamentalType type) (pack a) (toVariant a))
    (hnull : ∀ a ∈ as, (toVariant a).isNull = false) :
    A.ReadsAs (scopes + 1) type (A.builtIns.packList pack as)
      (.array (as.map toVariant)) := by
  refine readsAs_of_readsValue hresolve fun rest => ?_
  rw [Packing.packList, append_assoc]
  have htag : A.builtIns.unpackSize (A.builtIns.packSize as.length ++
      ((as.map pack).flatten ++ rest)) = some ((as.map toVariant).length, (as.map pack).flatten ++ rest) := by
    rw [length_map]
    exact Packing.unpackSize_packSize _ hsize _
  exact .array hbuilt harray htag (readsMany_of_readsAs h hnull rest)

lemma readsAs_absent (harray : isArray type = false) (hoptional : isOptional type = true) :
    A.ReadsAs (scopes + 1) type [0] .null :=
  readsAs_of_readsValue hresolve fun _ => .absent hbuilt harray hoptional

lemma readsAs_choice
    (harray : isArray type = false) (hoptional : isOptional type = false) {def' : VariantDef}
    (hvariant : A.variants.find? type = some def') {select : Nat}
    (ht : def'.types[select]? = some t) (hselect : select < 4294967296)
    (h : A.ReadsAs scopes t out content) :
    A.ReadsAs (scopes + 1) type (A.builtIns.packSize select ++ out)
      (.array [.string t, content]) := by
  refine readsAs_of_readsValue hresolve fun rest => ?_
  rw [append_assoc]
  exact .choice hbuilt harray hoptional hvariant (Packing.unpackSize_packSize _ hselect _) ht
    (h rest fun hf => absurd hf Bool.false_ne_true)

end Rules

section Structs

def AppendsFields (A : AbiSerializer) (scopes : Nat) (type : TypeName) (out : Bytes)
    (obj obj' : VariantObject) : Prop :=
  ∀ rest, (A.decoders scopes).object type (out ++ rest) obj = .ok (obj', rest)

structure PackedField where
  field : FieldDef
  out : Bytes
  value : Variant

structure PacksStruct (A : AbiSerializer) (scopes : Nat) (st : StructDef)
    (fields : List PackedField) : Prop where
  fields_eq : fields.map PackedField.field = st.fields
  plain : ∀ field ∈ st.fields, isExtension field.type = false
  reads : ∀ p ∈ fields, A.ReadsAs scopes p.field.type p.out p.value

variable {fields : List PackedField}

lemma readsFields_of_packed (hA : A.validate = .ok ())
    (hplain : ∀ p ∈ fields, isExtension p.field.type = false)
    (h : ∀ p ∈ fields, A.ReadsAs scopes p.field.type p.out p.value) (obj : VariantObject)
    (hnames : (obj.map Prod.fst ++ fields.map fun p => p.field.name).Nodup) (rest : Bytes) :
    ReadsFields A (A.decoders scopes) (fields.map PackedField.field)
      ((fields.map PackedField.out).flatten ++ rest) obj
      (obj ++ fields.map fun p => (p.field.name, p.value)) rest := by
  induction fields generalizing obj with
  | nil =>
    rw [map_nil, map_nil, map_nil, append_nil]
    exact .nil rest obj
  | cons p fields ih =>
    rw [forall_mem_cons] at h hplain
    have hnew : p.field.name ∉ obj.map Prod.fst := by
      intro hmem
      exact (nodup_append.mp hnames).2.2 _ hmem _ (mem_cons_self ..) rfl
    have hread := h.1 ((fields.map PackedField.out).flatten ++ rest)
      fun hf => absurd hf Bool.false_ne_true
    have hih := ih hplain.2 h.2 (obj ++ [(p.field.name, p.value)]) (by simpa using hnames)
    have hremove : removeBinExtension p.field.type = p.field.type := by
      simp [removeBinExtension, hplain.1]
    rw [append_assoc] at hih
    rw [map_cons, map_cons, flatten_cons, append_assoc]
    refine .present (value_nil hread) ((value_resolveType hA _).trans (hremove ▸ hread)) ?_
    rw [A.builtIns.setField_new _ hnew]
    exact hih

variable {st : StructDef} (h : A.PacksStruct scopes st fields) (hA : A.validate = .ok ())
  {obj : VariantObject} {out : Bytes}
include h hA

lemma PacksStruct.readsFields (obj : VariantObject)
    (hnames : (obj.map Prod.fst ++ st.fields.map FieldDef.name).Nodup) (rest : Bytes) :
    ReadsFields A (A.decoders scopes) st.fields ((fields.map PackedField.out).flatten ++ rest) obj
      (obj ++ fields.map fun p => (p.field.name, p.value)) rest := by
  rw [← h.fields_eq] at hnames ⊢
  rw [map_map] at hnames
  refine readsFields_of_packed hA (fun p hp => ?_) h.reads obj hnames rest
  apply h.plain
  rw [← h.fields_eq]
  exact mem_map_of_mem hp

lemma PacksStruct.appends (hst : A.structs.find? type = some st) (hbase : st.base = "")
    (hnames : (st.fields.map FieldDef.name).Nodup) :
    A.AppendsFields (scopes + 1) type (fields.map PackedField.out).flatten []
      (fields.map fun p => (p.field.name, p.value)) := by
  intro rest
  refine binaryToObject_iff.mpr ⟨st, hst, [], (fields.map PackedField.out).flatten ++ rest, ?_, ?_⟩
  · rw [if_pos hbase]
    exact ⟨rfl, rfl⟩
  · exact h.readsFields hA [] hnames rest

lemma PacksStruct.appends_derived (hst : A.structs.find? type = some st) (hbase : st.base ≠ "")
    (hread : A.AppendsFields scopes (A.resolveType st.base) out [] obj)
    (hnames : (obj.map Prod.fst ++ st.fields.map FieldDef.name).Nodup) :
    A.AppendsFields (scopes + 1) type (out ++ (fields.map PackedField.out).flatten) []
      (obj ++ fields.map fun p => (p.field.name, p.value)) := by
  intro rest
  rw [append_assoc]
  refine binaryToObject_iff.mpr
    ⟨st, hst, obj, (fields.map PackedField.out).flatten ++ rest, ?_, ?_⟩
  · rw [if_neg hbase]
    exact hread _
  · exact h.readsFields hA obj hnames rest

omit hA h

structure DecodedStruct (A : AbiSerializer) (type : TypeName) : Prop where
  resolve : A.resolveType type = type
  builtIn : A.builtIn? type = none
  array : isArray type = false
  optional : isOptional type = false
  variant : A.variants.find? type = none

lemma DecodedStruct.readsAs (hname : A.DecodedStruct type)
    (h : A.AppendsFields scopes type out [] obj) (hne : obj ≠ []) :
    A.ReadsAs (scopes + 1) type out (.object obj) := by
  obtain ⟨hresolve, hbuilt, harray, hoptional, hvariant⟩ := hname
  exact readsAs_of_readsValue hresolve fun rest =>
    .struct hbuilt harray hoptional hvariant (h rest) hne

end Structs

def ReadAt (A : AbiSerializer) (type : TypeName) (v : Variant) : Prop :=
  ∃ scopes stream rest, (A.decoders scopes).value type stream = .ok (v, rest)

variable {stream rest : Bytes} {obj : VariantObject} {v : Variant} {obj' : VariantObject}
  {vars : List Variant} {field : FieldDef}

lemma ReadsFields.origin {fields : List FieldDef}
    (h : ReadsFields A (A.decoders scopes) fields stream obj obj' rest)
    (hnames : (obj.map Prod.fst ++ fields.map FieldDef.name).Nodup)
    (hmem : field ∈ fields) (hv : obj'.lookup field.name = some v) :
    A.ReadAt (A.resolveType (removeBinExtension field.type)) v := by
  induction h with
  | nil => cases hmem
  | @present f fs stream stream' rest obj obj' x hne hx h ih =>
    have hnew : f.name ∉ obj.map Prod.fst := by
      intro hf
      exact (nodup_append.mp hnames).2.2 _ hf _ (mem_cons_self ..) rfl
    have hnames' : ((A.builtIns.setField obj f.name x).map Prod.fst ++
        fs.map FieldDef.name).Nodup := by
      rw [A.builtIns.setField_new x hnew]
      simpa using hnames
    rcases mem_cons.mp hmem with rfl | hmem
    · obtain ⟨new, rfl, -⟩ := h.appends hnames'
      rw [A.builtIns.setField_new x hnew, append_assoc, lookup_append_right hnew] at hv
      have hvx : x = v := by simpa using hv
      exact ⟨scopes, stream, stream', hvx ▸ hx⟩
    · exact ih hnames' hmem hv
  | @omitted f fs rest obj obj' hext h ih =>
    obtain ⟨rfl, -⟩ := h.nil_stream rfl
    have hnone : obj'.lookup field.name = none := by
      apply lookup_of_notMem
      intro hf
      exact (nodup_append.mp hnames).2.2 _ hf _ (mem_map_of_mem hmem) rfl
    rw [hnone] at hv
    cases hv

lemma object_origin (h : (A.decoders scopes).object type stream obj = .ok (obj', rest))
    (hnames : (obj.map Prod.fst ++ A.chainNames scopes type).Nodup)
    (hmem : field ∈ A.chainFields scopes type) (hv : obj'.lookup field.name = some v) :
    A.ReadAt (A.resolveType (removeBinExtension field.type)) v := by
  induction scopes generalizing type stream obj obj' rest with
  | zero => cases h
  | succ scopes ih =>
    obtain ⟨st, hst, obj₁, stream₁, hbase, hfields⟩ := binaryToObject_iff.mp h
    rw [chainNames_struct hst] at hnames
    rw [chainFields_struct hst] at hmem
    have hbase : A.ReadsBase (A.decoders scopes) st stream obj obj₁ stream₁ := hbase
    have hfieldNames := hbase.nodup (objects_append scopes) hnames
    rcases mem_append.mp hmem with hmem | hmem
    · obtain ⟨new, rfl, hsub⟩ := hfields.appends hfieldNames
      have hdisjoint := (nodup_append.mp (nodup_append.mp hnames).2.1).2.2
      have hnot : field.name ∉ new.map Prod.fst := fun hf =>
        hdisjoint _ (mem_map_of_mem hmem) _ (hsub.subset hf) rfl
      rw [lookup_append_left hnot] at hv
      unfold ReadsBase at hbase
      unfold baseNames baseFields at hnames
      unfold baseFields at hmem
      by_cases hempty : st.base = ""
      · rw [if_pos hempty] at hmem
        cases hmem
      · rw [if_neg hempty] at hbase hmem hnames
        rw [← append_assoc] at hnames
        exact ih hbase (nodup_append.mp hnames).1 hmem hv
    · exact hfields.origin hfieldNames hmem hv

lemma ReadsMany.element (h : ReadsMany (A.decoders scopes) ftype stream vars rest) (hv : v ∈ vars) :
    A.ReadAt ftype v := by
  induction h with
  | nil => cases hv
  | cons hread _ _ ih =>
    rcases mem_cons.mp hv with rfl | hv
    · exact ⟨scopes, _, _, hread⟩
    · exact ih hv

lemma value_struct {next : Decoders} (h : ReadsValue A next type stream (.object obj) rest)
    (hbuilt : A.builtIn? type = none) (hoptional : isOptional type = false) :
    A.variants.find? type = none ∧ next.object type stream [] = .ok (obj, rest) := by
  cases h with
  | builtIn hb => rw [hbuilt] at hb; cases hb
  | present _ _ ho => rw [hoptional] at ho; cases ho
  | struct _ _ _ hvariant hobject _ => exact ⟨hvariant, hobject⟩

section ReadAt
variable (hresolve : A.resolveType type = type) (hbuilt : A.builtIn? type = none)
include hresolve

lemma ReadAt.value (h : A.ReadAt type v) :
    ∃ scopes stream rest, ReadsValue A (A.decoders scopes) type stream v rest := by
  obtain ⟨scopes, stream, rest, h⟩ := h
  cases scopes with
  | zero => cases h
  | succ scopes => exact ⟨scopes, stream, rest, hresolve ▸ binaryToValue_iff.mp h⟩

include hbuilt

lemma ReadAt.struct (h : A.ReadAt type (.object obj)) (hoptional : isOptional type = false) :
    A.variants.find? type = none ∧
      ∃ scopes stream rest, (A.decoders scopes).object type stream [] = .ok (obj, rest) := by
  obtain ⟨scopes, stream, rest, h⟩ := h.value hresolve
  obtain ⟨hvariant, hobject⟩ := value_struct h hbuilt hoptional
  exact ⟨hvariant, scopes, stream, rest, hobject⟩

lemma ReadAt.choice (h : A.ReadAt type (.array [.string t, content]))
    (harray : isArray type = false) (hoptional : isOptional type = false) : A.ReadAt t content := by
  obtain ⟨scopes, stream, rest, h⟩ := h.value hresolve
  cases h with
  | builtIn hb => rw [hbuilt] at hb; cases hb
  | array _ ha => rw [harray] at ha; cases ha
  | present _ _ ho => rw [hoptional] at ho; cases ho
  | choice _ _ _ _ _ _ hcontent => exact ⟨scopes, _, rest, hcontent⟩

lemma ReadAt.optional (h : A.ReadAt type (.object obj)) (hoptional : isOptional type = true) :
    A.ReadAt (fundamentalType type) (.object obj) := by
  obtain ⟨scopes, stream, rest, h⟩ := h.value hresolve
  cases h with
  | builtIn hb => rw [hbuilt] at hb; cases hb
  | present _ _ _ _ hvalue => exact ⟨scopes, _, rest, hvalue⟩
  | struct _ _ ho => rw [hoptional] at ho; cases ho

lemma ReadAt.element (h : A.ReadAt type (.array vars)) (harray : isArray type = true)
    (hv : v ∈ vars) : A.ReadAt (fundamentalType type) v := by
  obtain ⟨scopes, stream, rest, h⟩ := h.value hresolve
  cases h with
  | builtIn hb => rw [hbuilt] at hb; cases hb
  | array _ _ _ hmany => exact hmany.element hv
  | present _ ha => rw [harray] at ha; cases ha
  | choice _ ha => rw [harray] at ha; cases ha

end ReadAt

end DimensionChain.AbiSerializer
