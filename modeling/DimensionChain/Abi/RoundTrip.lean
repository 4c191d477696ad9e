import DimensionChain.Abi.Parts

/-!
# Decoding, encoding and decoding again

A value that the encoder accepts has only handled parts, so it is converted back exactly when they
are handled.
-/

namespace DimensionChain.AbiSerializer
open List

variable {A : AbiSerializer}

section Necessity
variable {next : Encoder} {vo : VariantObject} {fields : List FieldDef} {allowed disallow : Bool}
  {out : Bytes} {x : Variant}

/-- No struct has the name of another type, no name of a struct or variant is an optional, and no
name of a field has a NUL character. -/
structure PlainNames (A : AbiSerializer) : Prop where
  struct : ∀ name st, A.structs.find? name = some st →
    A.StructName name ∧ isOptional name = false ∧
      ∀ field ∈ st.fields, cString field.name = field.name
  variant : ∀ name def', A.variants.find? name = some def' → isOptional name = false

lemma variantsToBinary_mem {ftype : TypeName} {vars : List Variant}
    (h : variantsToBinary next ftype vars = .ok out) (hx : x ∈ vars) :
    ∃ o, next ftype x false = .ok o := by
  induction vars generalizing out with
  | nil => cases hx
  | cons v vars ih =>
    obtain ⟨o, hv, h⟩ := bind_ok_iff.mp h
    obtain ⟨rest, hvars, -⟩ := bind_ok_iff.mp h
    rcases mem_cons.mp hx with rfl | hx
    · exact ⟨o, hv⟩
    · exact ih hvars hx

variable (h : PacksFields next allowed vo fields disallow out) {packing : Nat} {n : Node}
include h

lemma PacksFields.field
    {before after : List FieldDef} {field : FieldDef} (hsplit : fields = before ++ field :: after)
    (hx : vo.lookup (cString field.name) = some x) :
    ∃ o, next (removeBinExtension field.type) x (allowed && after.isEmpty) = .ok o := by
  induction h generalizing before with
  | nil => simp at hsplit
  | @present f fs v o rest hv hnext h ih =>
    cases before with
    | nil =>
      obtain ⟨rfl, rfl⟩ := List.cons.inj hsplit
      rw [hv] at hx
      cases hx
      exact ⟨o, hnext⟩
    | cons b before => exact ih (List.cons.inj hsplit).2
  | @omitted f fs disallow rest hnone hext hallowed h ih =>
    cases before with
    | nil =>
      obtain ⟨rfl, rfl⟩ := List.cons.inj hsplit
      rw [hnone] at hx
      cases hx
    | cons b before => exact ih (List.cons.inj hsplit).2

lemma PacksFields.allowed_of_missing
    {field : FieldDef} (hmem : field ∈ fields) (hmissing : vo.lookup (cString field.name) = none) :
    allowed = true := by
  induction h with
  | nil => cases hmem
  | @present f fs v o rest hv hnext h ih =>
    rcases mem_cons.mp hmem with rfl | hmem
    · rw [hmissing] at hv
      cases hv
    · exact ih hmem
  | omitted _ _ hallowed => exact hallowed

omit h

lemma part_packed {n m : Node} (hpart : A.Part n m)
    (h : A.encoders packing n.type n.value n.allowed = .ok out) :
    ∃ packing' o, A.encoders packing' m.type m.value m.allowed = .ok o := by
  cases packing with
  | zero => cases h
  | succ packing =>
    refine ⟨packing, ?_⟩
    have h := valueToBinary_iff.mp h
    cases hpart with
    | element hbuilt harray hx =>
      dsimp only at h ⊢
      cases h with
      | builtIn hb => rw [hbuilt] at hb; cases hb
      | array _ _ hvars => exact variantsToBinary_mem hvars hx
      | choice _ ha => rw [harray] at ha; cases ha
      | fieldArray _ ha => rw [harray] at ha; cases ha
    | content hbuilt harray hvariant =>
      cases h with
      | builtIn hb => rw [hbuilt] at hb; cases hb
      | array _ ha => rw [harray] at ha; cases ha
      | choice _ _ _ _ hnext => exact ⟨_, hnext⟩
      | fieldArray _ _ hv => rw [hvariant] at hv; cases hv
    | base hbuilt harray hvariant hst hbase =>
      cases h with
      | builtIn hb => rw [hbuilt] at hb; cases hb
      | object _ _ _ hst' hb =>
        rw [hst] at hst'
        cases hst'
        unfold baseToBinary at hb
        rw [if_neg hbase] at hb
        exact ⟨_, hb⟩
    | field hbuilt harray hvariant hst hsplit hx =>
      cases h with
      | builtIn hb => rw [hbuilt] at hb; cases hb
      | object _ _ _ hst' _ hfields =>
        rw [hst] at hst'
        cases hst'
        exact hfields.field hsplit hx

lemma handled_of_packed (hA : A.validate = .ok ()) (hplain : A.PlainNames)
    (h : A.encoders packing n.type n.value n.allowed = .ok out) : A.Handled n := by
  obtain ⟨type, value, allowed⟩ := n
  intro hbuilt harray
  cases packing with
  | zero => cases h
  | succ packing =>
    have h := valueToBinary_iff.mp h
    refine ⟨?_, fun st vo hvariant hst hvalue => ?_⟩
    · cases h with
      | builtIn hb => rw [hbuilt] at hb; cases hb
      | array _ ha => rw [harray] at ha; cases ha
      | choice _ _ hv => exact hplain.variant _ _ hv
      | object _ _ _ hst | fieldArray _ _ _ hst => exact (hplain.struct _ _ hst).2.1
    rw [hvalue] at h
    cases h with
    | builtIn hb => rw [hbuilt] at hb; cases hb
    | object _ _ _ hst' _ hfields =>
      rw [hst] at hst'
      cases hst'
      refine ⟨?_, ?_⟩
      · intro field hmem
        have hname := (hplain.struct _ _ hst).2.2 field hmem
        refine ⟨by rw [hname], fun hmissing => hfields.allowed_of_missing hmem ?_⟩
        rw [hname, hmissing]
      intro hbase
      obtain ⟨base, hfind⟩ := find?_base hA hst hbase
      exact (hplain.struct _ _ hfind).1

lemma packable_of_packed (hA : A.validate = .ok ()) (hplain : A.PlainNames)
    (h : A.encoders packing n.type n.value n.allowed = .ok out) : A.Packable n := by
  intro m hm
  induction hm using Relation.ReflTransGen.head_induction_on generalizing packing out with
  | refl => exact handled_of_packed hA hplain h
  | head hpart _ ih =>
    obtain ⟨packing', o, h'⟩ := part_packed hpart h
    exact ih h'

end Necessity

variable {type : TypeName} {v : Variant} {b : Bytes}

lemma isType_succ {scopes : Nat} {known : Bool} (h : A.isType scopes type = .ok known) :
    A.isType (scopes + 1) type = .ok known := by
  induction scopes generalizing type with
  | zero => cases h
  | succ scopes ih =>
    unfold isType at h ⊢
    dsimp only at h ⊢
    split at h
    · rename_i hbuilt
      rw [if_pos hbuilt]
      exact h
    rename_i hbuilt
    rw [if_neg hbuilt]
    cases hfind : A.typedefs.find? (fundamentalType type) with
    | some target =>
      rw [hfind] at h
      exact ih h
    | none =>
      rw [hfind] at h
      exact h

/-- The value is packed, and the bytes are decoded completely to it. -/
def RoundTrips (A : AbiSerializer) (type : TypeName) (v : Variant) : Prop :=
  ∃ out, A.variantToBinary type v = .ok out ∧ A.binaryToVariant type out = .ok (v, [])

def FitsBuffer (A : AbiSerializer) (type : TypeName) (v : Variant) : Prop :=
  ∀ out, A.encoders (outerScopes - 1) type v true = .ok out → out.length ≤ bufferSize

/-- The name is recognised within the scopes of the encoder, and every part is handled. -/
def Convertible (A : AbiSerializer) (type : TypeName) (v : Variant) : Prop :=
  A.isType (outerScopes - 1) type = .ok true ∧ A.Packable ⟨type, v, true⟩

lemma roundTrips_of_convertible (hA : A.validate = .ok ()) (hrepeat : A.NoRepeatedNames)
    (hdecode : A.binaryToVariant type b = .ok (v, [])) (hfits : A.FitsBuffer type v)
    (h : A.Convertible type v) : A.RoundTrips type v := by
  obtain ⟨out, henc, hread⟩ := (values_return hA hrepeat _).1 hdecode h.2 (Nat.le_refl _)
  refine ⟨out, ?_, ?_⟩
  · refine bind_ok_iff.mpr ⟨true, h.1, ?_⟩
    refine bind_ok_iff.mpr ⟨out, henc, ?_⟩
    exact bind_ok_iff.mpr ⟨(), eosAssert_ok_iff.mpr (hfits out henc), rfl⟩
  · have hback := hread [] fun _ => rfl
    rw [append_nil] at hback
    exact hback

lemma convertible_of_roundTrips (hA : A.validate = .ok ()) (hplain : A.PlainNames)
    (htype : A.isType outerScopes type = .ok true) (h : A.RoundTrips type v) :
    A.Convertible type v := by
  obtain ⟨out, henc, -⟩ := h
  obtain ⟨known, hknown, henc⟩ := bind_ok_iff.mp henc
  -- with one more scope the name is recognised, so it is not refused here
  have hsame : known = true := by
    have hmore := isType_succ hknown
    exact Except.ok.inj (hmore.symm.trans htype)
  subst hsame
  obtain ⟨out', henc', -⟩ := bind_ok_iff.mp henc
  exact ⟨hknown, packable_of_packed (n := ⟨type, v, true⟩) hA hplain henc'⟩

theorem round_trip_iff {builtIns : BuiltIns} {abi : AbiDef} (habi : setAbi builtIns abi = .ok A)
    (hrepeat : A.NoRepeatedNames) (htype : A.isType outerScopes type = .ok true)
    (hdecode : A.binaryToVariant type b = .ok (v, [])) (hfits : A.FitsBuffer type v) :
    (A.Convertible type v → A.RoundTrips type v) ∧
      (A.PlainNames → (A.RoundTrips type v ↔ A.Convertible type v)) := by
  have hA := (setAbi_ok habi).valid
  have hsufficient := roundTrips_of_convertible hA hrepeat hdecode hfits
  exact ⟨hsufficient, fun hplain =>
    ⟨convertible_of_roundTrips hA hplain htype, hsufficient⟩⟩

def byteType : RawType UInt8 where
  pack b := [b]
  unpack
    | [] => none
    | b :: rest => some (b, rest)
  unpack_pack _ _ := rfl
  unpack_nil := rfl
  toVariant b := .uint64 b.toNat
  ofVariant
    | .uint64 n => some (UInt8.ofNat n)
    | _ => none
  ofVariant_toVariant b := by simp
  toVariant_ne_null b h := by cases h

lemma byteLimit_lt : 1024 < 2 ^ 32 := by decide

def byteBuiltIns : BuiltIns where
  toRawLibrary := plainLibrary
  types name :=
    if name = "uint8" then some (byteType.packUnpack bytePacking 1024 byteLimit_lt) else none

/-- A struct with a base, an array of structs and an extension, which the bytes below leave out. -/
def derivedAbi : AbiDef where
  version := "eosio::abi/1.1"
  structs := [⟨"item", "", [⟨"a", "uint8"⟩]⟩, ⟨"row", "", [⟨"id", "uint8"⟩]⟩,
    ⟨"table", "row", [⟨"items", "item[]"⟩, ⟨"note", "uint8$"⟩]⟩]

def derivedSerializer : AbiSerializer where
  builtIns := byteBuiltIns
  structs := FlatMap.empty.setAll (derivedAbi.structs.map fun st => (st.name, st))

def derivedValue : Variant :=
  .object [("id", .uint64 5),
    ("items", .array [.object [("a", .uint64 7)], .object [("a", .uint64 8)]])]

lemma derived_structs {name : TypeName} {st : StructDef}
    (h : derivedSerializer.structs.find? name = some st) :
    name = "item" ∧ st = ⟨"item", "", [⟨"a", "uint8"⟩]⟩ ∨
    name = "row" ∧ st = ⟨"row", "", [⟨"id", "uint8"⟩]⟩ ∨
    name = "table" ∧ st = ⟨"table", "row", [⟨"items", "item[]"⟩, ⟨"note", "uint8$"⟩]⟩ := by
  have hmem : (name, st) ∈ derivedAbi.structs.map fun st => (st.name, st) :=
    FlatMap.find?_eq_some.mp h
  simpa [derivedAbi] using hmem

lemma derived_plainNames : derivedSerializer.PlainNames where
  struct := by
    intro name st h
    rcases derived_structs h with ⟨rfl, rfl⟩ | ⟨rfl, rfl⟩ | ⟨rfl, rfl⟩ <;>
      exact ⟨⟨rfl, rfl, rfl⟩, rfl, by decide⟩
  variant := by
    intro name def' h
    cases h

lemma derived_noRepeatedNames : derivedSerializer.NoRepeatedNames := by
  intro depth type
  cases depth with
  | zero => exact nodup_nil
  | succ depth =>
    cases h : derivedSerializer.structs.find? type with
    | none => simp [chainNames, chainFields, h]
    | some st =>
      rw [chainNames_struct h]
      rcases derived_structs h with ⟨-, rfl⟩ | ⟨-, rfl⟩ | ⟨-, rfl⟩
      · exact nodup_singleton _
      · exact nodup_singleton _
      cases depth with
      | zero => decide
      | succ depth =>
        change (["id", "items", "note"] : List String).Nodup
        decide

theorem derived_convertible : setAbi byteBuiltIns derivedAbi = .ok derivedSerializer ∧
      derivedSerializer.binaryToVariant "table" [5, 2, 7, 8] = .ok (derivedValue, []) ∧
      derivedSerializer.Convertible "table" derivedValue := by
  have habi : setAbi byteBuiltIns derivedAbi = .ok derivedSerializer := rfl
  have hdecode : derivedSerializer.binaryToVariant "table" [5, 2, 7, 8] = .ok (derivedValue, []) :=
    rfl
  have hfits : derivedSerializer.FitsBuffer "table" derivedValue := by
    intro out hout
    cases hout
    decide
  have hback : derivedSerializer.RoundTrips "table" derivedValue := ⟨[5, 2, 7, 8], rfl, rfl⟩
  have hiff := (round_trip_iff habi derived_noRepeatedNames rfl hdecode hfits).2 derived_plainNames
  exact ⟨habi, hdecode, hiff.mp hback⟩

/-- The decoder reads an optional struct, the encoder does not know the type. -/
theorem optional_struct_not_packed :
    setAbi byteBuiltIns derivedAbi = .ok derivedSerializer ∧ derivedSerializer.NoRepeatedNames ∧
      derivedSerializer.isType outerScopes "item?" = .ok true ∧
      derivedSerializer.binaryToVariant "item?" [1, 7] = .ok (.object [("a", .uint64 7)], []) ∧
      derivedSerializer.variantToBinary "item?" (.object [("a", .uint64 7)]) =
        .error ⟨.invalidTypeInsideAbi, "Unknown type $\x7btype\x7d"⟩ :=
  ⟨rfl, derived_noRepeatedNames, rfl, rfl, rfl⟩

end DimensionChain.AbiSerializer
