import DimensionChain.Abi.Conversion

/-!
# What a successful conversion has done

One predicate for each function of the serializer, with a case for each way to succeed, and the
lemma that the function succeeds exactly as the predicate says.
-/

namespace DimensionChain.AbiSerializer

open Bool

variable {fields : List FieldDef}

section Reads
variable {A : AbiSerializer} {next : Decoders} {ftype type : TypeName} {stream rest : Bytes} {v : Variant}
  {obj obj' : VariantObject}

inductive ReadsMany (next : Decoders) (ftype : TypeName) : Bytes → List Variant → Bytes → Prop
  | nil (stream : Bytes) : ReadsMany next ftype stream [] stream
  | cons {stream stream' rest : Bytes} {v : Variant} {vars : List Variant} :
      next.value ftype stream = .ok (v, stream') → v.isNull = false →
      ReadsMany next ftype stream' vars rest → ReadsMany next ftype stream (v :: vars) rest

/-- The fields of a struct. At the end of the stream only extensions may follow. -/
inductive ReadsFields (A : AbiSerializer) (next : Decoders) :
    List FieldDef → Bytes → VariantObject → VariantObject → Bytes → Prop
  | nil (stream : Bytes) (obj : VariantObject) : ReadsFields A next [] stream obj obj stream
  | present {field : FieldDef} {fields : List FieldDef} {stream stream' rest : Bytes}
      {obj obj' : VariantObject} {v : Variant} :
      stream ≠ [] →
      next.value (A.resolveType (removeBinExtension field.type)) stream = .ok (v, stream') →
      ReadsFields A next fields stream' (A.builtIns.setField obj field.name v) obj' rest →
      ReadsFields A next (field :: fields) stream obj obj' rest
  | omitted {field : FieldDef} {fields : List FieldDef} {rest : Bytes} {obj obj' : VariantObject} :
      isExtension field.type = true → ReadsFields A next fields [] obj obj' rest →
      ReadsFields A next (field :: fields) [] obj obj' rest

inductive ReadsValue (A : AbiSerializer) (next : Decoders) (rtype : TypeName) :
    Bytes → Variant → Bytes → Prop
  | builtIn {b : BuiltIn} {stream rest : Bytes} {v : Variant} :
      A.builtIn? rtype = some b →
      b.unpack stream (isArray rtype) (isOptional rtype) = some (v, rest) →
      ReadsValue A next rtype stream v rest
  | array {stream stream' rest : Bytes} {vars : List Variant} :
      A.builtIn? rtype = none → isArray rtype = true →
      A.builtIns.unpackSize stream = some (vars.length, stream') →
      ReadsMany next (fundamentalType rtype) stream' vars rest →
      ReadsValue A next rtype stream (.array vars) rest
  | absent {stream : Bytes} :
      A.builtIn? rtype = none → isArray rtype = false → isOptional rtype = true →
      ReadsValue A next rtype (0 :: stream) .null stream
  | present {flag : UInt8} {stream rest : Bytes} {v : Variant} :
      A.builtIn? rtype = none → isArray rtype = false → isOptional rtype = true → flag ≠ 0 →
      next.value (fundamentalType rtype) stream = .ok (v, rest) →
      ReadsValue A next rtype (flag :: stream) v rest
  | choice {def' : VariantDef} {select : Nat} {t : TypeName} {stream stream' rest : Bytes}
      {content : Variant} :
      A.builtIn? rtype = none → isArray rtype = false → isOptional rtype = false →
      A.variants.find? rtype = some def' →
      A.builtIns.unpackSize stream = some (select, stream') → def'.types[select]? = some t →
      next.value t stream' = .ok (content, rest) →
      ReadsValue A next rtype stream (.array [.string t, content]) rest
  | struct {stream rest : Bytes} {mvo : VariantObject} :
      A.builtIn? rtype = none → isArray rtype = false → isOptional rtype = false →
      A.variants.find? rtype = none →
      next.object rtype stream [] = .ok (mvo, rest) → mvo ≠ [] →
      ReadsValue A next rtype stream (.object mvo) rest

@[simp] lemma unpackOr_ok_iff {α : Type} {x : Option α} {message : String} {a : α} :
    unpackOr x message = .ok a ↔ x = some a := by
  cases x <;> simp [unpackOr]

lemma binaryToArray_iff {n : Nat} {vars : List Variant} :
    binaryToArray next ftype n stream = .ok (vars, rest) ↔
      vars.length = n ∧ ReadsMany next ftype stream vars rest := by
  induction n generalizing stream vars with
  | zero =>
    constructor
    · intro h
      cases h
      exact ⟨rfl, .nil _⟩
    rintro ⟨hlen, h⟩
    cases h with
    | nil => rfl
    | cons => cases hlen
  | succ n ih =>
    constructor
    · intro h
      obtain ⟨⟨v, stream'⟩, hv, h⟩ := bind_ok_iff.mp h
      obtain ⟨_, hnull, h⟩ := bind_ok_iff.mp h
      obtain ⟨⟨vars', rest'⟩, hvars, h⟩ := bind_ok_iff.mp h
      cases h
      obtain ⟨hlen, hreads⟩ := ih.mp hvars
      exact ⟨by rw [List.length_cons, hlen], .cons hv (eosAssert_ok_iff.mp hnull) hreads⟩
    rintro ⟨hlen, h⟩
    cases h with
    | nil => cases hlen
    | cons hv hnull hreads =>
      rw [List.length_cons, Nat.add_right_cancel_iff] at hlen
      refine bind_ok_iff.mpr ⟨_, hv, ?_⟩
      refine bind_ok_iff.mpr ⟨(), eosAssert_ok_iff.mpr hnull, ?_⟩
      exact bind_ok_iff.mpr ⟨_, ih.mpr ⟨hlen, hreads⟩, rfl⟩

lemma binaryToFields_iff {encountered : Bool} :
    A.binaryToFields next fields encountered stream obj = .ok (obj', rest) ↔
      ReadsFields A next fields stream obj obj' rest := by
  induction fields generalizing encountered stream obj with
  | nil =>
    constructor
    · intro h
      cases h
      exact .nil _ _
    · intro h
      cases h
      rfl
  | cons field fields ih =>
    unfold binaryToFields
    by_cases hend : stream = []
    · subst hend
      rw [if_pos rfl]
      by_cases hext : isExtension field.type = true
      · rw [if_pos hext]
        constructor
        · intro h
          exact .omitted hext (ih.mp h)
        intro h
        cases h with
        | present hne => exact absurd rfl hne
        | omitted _ h => exact ih.mpr h
      rw [if_neg hext]
      constructor
      · intro h
        split at h <;> cases h
      intro h
      cases h with
      | present hne => exact absurd rfl hne
      | omitted hext' => exact absurd hext' hext
    rw [if_neg hend]
    constructor
    · intro h
      obtain ⟨⟨v, stream'⟩, hv, h⟩ := bind_ok_iff.mp h
      exact .present hend hv (ih.mp h)
    intro h
    cases h with
    | present _ hv h => exact bind_ok_iff.mpr ⟨_, hv, ih.mpr h⟩
    | omitted => exact absurd rfl hend

lemma binaryToObject_iff : A.binaryToObject next type stream obj = .ok (obj', rest) ↔
      ∃ st, A.structs.find? type = some st ∧ ∃ obj₁ stream₁,
        (if st.base = "" then obj₁ = obj ∧ stream₁ = stream
          else next.object (A.resolveType st.base) stream obj = .ok (obj₁, stream₁)) ∧
        ReadsFields A next st.fields stream₁ obj₁ obj' rest := by
  unfold binaryToObject
  cases A.structs.find? type with
  | none => simp
  | some st =>
    simp only [Option.some.injEq, exists_eq_left']
    by_cases hbase : st.base = ""
    · simp only [if_pos hbase, binaryToFields_iff]
      constructor
      · intro h
        exact ⟨obj, stream, ⟨rfl, rfl⟩, h⟩
      · rintro ⟨_, _, ⟨rfl, rfl⟩, h⟩
        exact h
    simp only [if_neg hbase]
    rw [bind_ok_iff]
    constructor
    · rintro ⟨⟨obj₁, stream₁⟩, hobj, h⟩
      exact ⟨obj₁, stream₁, hobj, binaryToFields_iff.mp h⟩
    · rintro ⟨obj₁, stream₁, hobj, h⟩
      exact ⟨(obj₁, stream₁), hobj, binaryToFields_iff.mpr h⟩

lemma readsValue_of_binaryToValue (h : A.binaryToValue next type stream = .ok (v, rest)) :
    ReadsValue A next (A.resolveType type) stream v rest := by
  unfold binaryToValue at h
  dsimp only at h
  generalize A.resolveType type = rtype at h ⊢
  cases hbuilt : A.builtIn? rtype with
  | some b =>
    rw [hbuilt] at h
    exact .builtIn hbuilt (unpackOr_ok_iff.mp h)
  | none =>
    rw [hbuilt] at h
    by_cases harray : isArray rtype = true
    · rw [if_pos harray] at h
      obtain ⟨⟨size, stream'⟩, hsize, h⟩ := bind_ok_iff.mp h
      obtain ⟨⟨vars, rest'⟩, hvars, h⟩ := bind_ok_iff.mp h
      cases h
      obtain ⟨rfl, hreads⟩ := binaryToArray_iff.mp hvars
      exact .array hbuilt harray (unpackOr_ok_iff.mp hsize) hreads
    rw [if_neg harray] at h
    rw [not_eq_true] at harray
    by_cases hoptional : isOptional rtype = true
    · rw [if_pos hoptional] at h
      cases stream with
      | nil => cases h
      | cons flag stream =>
        dsimp only at h
        split at h
        · rename_i hflag
          exact .present hbuilt harray hoptional hflag h
        rename_i hflag
        cases h
        rw [not_not.mp hflag]
        exact .absent hbuilt harray hoptional
    rw [if_neg hoptional] at h
    rw [not_eq_true] at hoptional
    cases hvariant : A.variants.find? rtype with
    | some def' =>
      rw [hvariant] at h
      obtain ⟨⟨select, stream'⟩, hselect, h⟩ := bind_ok_iff.mp h
      cases ht : def'.types[select]? with
      | none =>
        rw [ht] at h
        cases h
      | some t =>
        rw [ht] at h
        obtain ⟨⟨content, rest'⟩, hcontent, h⟩ := bind_ok_iff.mp h
        cases h
        exact .choice hbuilt harray hoptional hvariant (unpackOr_ok_iff.mp hselect) ht hcontent
    | none =>
      rw [hvariant] at h
      obtain ⟨⟨mvo, rest'⟩, hobject, h⟩ := bind_ok_iff.mp h
      obtain ⟨hne, h⟩ := assert_ok h
      cases h
      exact .struct hbuilt harray hoptional hvariant hobject hne

lemma binaryToValue_of_readsValue (h : ReadsValue A next (A.resolveType type) stream v rest) :
    A.binaryToValue next type stream = .ok (v, rest) := by
  unfold binaryToValue
  dsimp only
  generalize A.resolveType type = rtype at h ⊢
  cases h with
  | builtIn hbuilt hunpack => simp [hbuilt, hunpack]
  | array hbuilt harray hsize hreads =>
    have hvars := binaryToArray_iff.mpr ⟨rfl, hreads⟩
    simp only [hbuilt, harray, if_true]
    refine bind_ok_iff.mpr ⟨_, unpackOr_ok_iff.mpr hsize, ?_⟩
    exact bind_ok_iff.mpr ⟨_, hvars, rfl⟩
  | absent hbuilt harray hoptional => simp [hbuilt, harray, hoptional]
  | present hbuilt harray hoptional hflag hvalue =>
    simp [hbuilt, harray, hoptional, hflag, hvalue]
  | choice hbuilt harray hoptional hvariant hselect ht hcontent =>
    simp only [hbuilt, harray, hoptional, hvariant, false_eq_true, if_false]
    refine bind_ok_iff.mpr ⟨_, unpackOr_ok_iff.mpr hselect, ?_⟩
    simp only [ht]
    exact bind_ok_iff.mpr ⟨_, hcontent, rfl⟩
  | struct hbuilt harray hoptional hvariant hobject hne =>
    simp only [hbuilt, harray, hoptional, hvariant, false_eq_true, if_false]
    refine bind_ok_iff.mpr ⟨_, hobject, ?_⟩
    exact bind_ok_iff.mpr ⟨(), eosAssert_ok_iff.mpr hne, rfl⟩

lemma binaryToValue_iff :
    A.binaryToValue next type stream = .ok (v, rest) ↔
      ReadsValue A next (A.resolveType type) stream v rest :=
  ⟨readsValue_of_binaryToValue, binaryToValue_of_readsValue⟩

end Reads

variable {A : AbiSerializer} {next : Encoder} {type rtype : TypeName} {allowed : Bool} {v : Variant} {out : Bytes}

inductive PacksFields (next : Encoder) (allowed : Bool) (vo : VariantObject) :
    List FieldDef → Bool → Bytes → Prop
  | nil (disallow : Bool) : PacksFields next allowed vo [] disallow []
  | present {field : FieldDef} {fields : List FieldDef} {v : Variant} {out rest : Bytes} :
      vo.lookup (cString field.name) = some v →
      next (removeBinExtension field.type) v (allowed && fields.isEmpty) = .ok out →
      PacksFields next allowed vo fields false rest →
      PacksFields next allowed vo (field :: fields) false (out ++ rest)
  | omitted {field : FieldDef} {fields : List FieldDef} {disallow : Bool} {rest : Bytes} :
      vo.lookup (cString field.name) = none → isExtension field.type = true → allowed = true →
      PacksFields next allowed vo fields true rest →
      PacksFields next allowed vo (field :: fields) disallow rest

inductive PacksValue (A : AbiSerializer) (next : Encoder) (rtype : TypeName) (allowed : Bool) :
    Variant → Bytes → Prop
  | builtIn {b : BuiltIn} {v : Variant} {out : Bytes} :
      A.builtIn? rtype = some b → b.pack v (isArray rtype) (isOptional rtype) = some out →
      PacksValue A next rtype allowed v out
  | array {vars : List Variant} {out : Bytes} :
      A.builtIn? rtype = none → isArray rtype = true →
      variantsToBinary next (fundamentalType rtype) vars = .ok out →
      PacksValue A next rtype allowed (.array vars) (A.builtIns.packSize vars.length ++ out)
  | choice {def' : VariantDef} {t : TypeName} {content : Variant} {out : Bytes} :
      A.builtIn? rtype = none → isArray rtype = false →
      A.variants.find? rtype = some def' → t ∈ def'.types → next t content allowed = .ok out →
      PacksValue A next rtype allowed (.array [.string t, content])
        (A.builtIns.packSize (def'.types.idxOf t) ++ out)
  | object {st : StructDef} {vo : VariantObject} {base fields : Bytes} :
      A.builtIn? rtype = none → isArray rtype = false → A.variants.find? rtype = none →
      A.structs.find? rtype = some st → A.baseToBinary next st (.object vo) = .ok base →
      PacksFields next allowed vo st.fields false fields →
      PacksValue A next rtype allowed (.object vo) (base ++ fields)
  | fieldArray {st : StructDef} {va : List Variant} {out : Bytes} :
      A.builtIn? rtype = none → isArray rtype = false → A.variants.find? rtype = none →
      A.structs.find? rtype = some st → st.base = "" →
      arrayToFields next allowed st.fields va = .ok out →
      PacksValue A next rtype allowed (.array va) out

lemma objectToFields_iff {vo : VariantObject} {disallow : Bool} :
    objectToFields next allowed vo fields disallow = .ok out ↔
      PacksFields next allowed vo fields disallow out := by
  induction fields generalizing disallow out with
  | nil =>
    constructor
    · intro h
      cases h
      exact .nil _
    · intro h
      cases h
      rfl
  | cons field fields ih =>
    unfold objectToFields
    cases hlookup : vo.lookup (cString field.name) with
    | some v =>
      cases disallow with
      | true =>
        constructor
        · intro h
          cases h
        · intro h
          cases h with
          | omitted hnone => rw [hnone] at hlookup; cases hlookup
      | false =>
        constructor
        · intro h
          obtain ⟨o, hnext, h⟩ := bind_ok_iff.mp h
          obtain ⟨rest, hrest, h⟩ := bind_ok_iff.mp h
          cases h
          exact .present hlookup hnext (ih.mp hrest)
        intro h
        cases h with
        | present hsome hnext hrest =>
          rw [hsome] at hlookup
          cases hlookup
          exact bind_ok_iff.mpr
            ⟨_, hnext, bind_ok_iff.mpr ⟨_, ih.mpr hrest, rfl⟩⟩
        | omitted hnone => rw [hnone] at hlookup; cases hlookup
    | none =>
      dsimp only
      by_cases hext : (isExtension field.type && allowed) = true
      · rw [if_pos hext]
        rw [and_eq_true] at hext
        constructor
        · intro h
          exact .omitted hlookup hext.1 hext.2 (ih.mp h)
        intro h
        cases h with
        | present hsome => rw [hsome] at hlookup; cases hlookup
        | omitted _ _ _ h => exact ih.mpr h
      rw [if_neg hext]
      constructor
      · intro h
        split at h <;> cases h
      intro h
      cases h with
      | present hsome => rw [hsome] at hlookup; cases hlookup
      | omitted _ h₁ h₂ => exact absurd (by rw [h₁, h₂]; rfl) hext

lemma packsValue_of_choice {def' : VariantDef} (hbuilt : A.builtIn? rtype = none)
    (harray : isArray rtype = false)
    (hvariant : A.variants.find? rtype = some def')
    (h : A.choiceToBinary next def' v allowed = .ok out) : PacksValue A next rtype allowed v out := by
  unfold choiceToBinary at h
  split at h
  · rename_i name content
    cases name with
    | string t =>
      dsimp only at h
      split at h
      · rename_i hmem
        obtain ⟨o, hnext, h⟩ := bind_ok_iff.mp h
        cases h
        exact .choice hbuilt harray hvariant hmem hnext
      · cases h
    | null | int64 | uint64 | double | bool | array | object | blob => cases h
  · cases h

lemma packsValue_of_struct {st : StructDef} (hbuilt : A.builtIn? rtype = none)
    (harray : isArray rtype = false)
    (hvariant : A.variants.find? rtype = none)
    (hstruct : A.structs.find? rtype = some st)
    (h : A.structToBinary next st v allowed = .ok out) : PacksValue A next rtype allowed v out := by
  cases v with
  | object vo =>
    obtain ⟨base, hbase, h⟩ := bind_ok_iff.mp h
    obtain ⟨fields, hfields, h⟩ := bind_ok_iff.mp h
    cases h
    exact .object hbuilt harray hvariant hstruct hbase (objectToFields_iff.mp hfields)
  | array va =>
    obtain ⟨hbase, h⟩ := assert_ok h
    exact .fieldArray hbuilt harray hvariant hstruct hbase h
  | null | int64 | uint64 | double | bool | string | blob => cases h

lemma packsValue_of_valueToBinary (h : A.valueToBinary next type v allowed = .ok out) :
    PacksValue A next (A.resolveType type) allowed v out := by
  unfold valueToBinary at h
  dsimp only at h
  generalize A.resolveType type = rtype at h ⊢
  cases hbuilt : A.builtIn? rtype with
  | some b =>
    rw [hbuilt] at h
    dsimp only at h
    split at h
    · rename_i out' hpack
      cases h
      exact .builtIn hbuilt hpack
    · cases h
  | none =>
    rw [hbuilt] at h
    by_cases harray : isArray rtype = true
    · rw [if_pos harray] at h
      cases v with
      | array vars =>
        obtain ⟨o, hvars, h⟩ := bind_ok_iff.mp h
        cases h
        exact .array hbuilt harray hvars
      | null | int64 | uint64 | double | bool | string | object | blob => cases h
    rw [if_neg harray] at h
    rw [not_eq_true] at harray
    cases hvariant : A.variants.find? rtype with
    | some def' =>
      rw [hvariant] at h
      exact packsValue_of_choice hbuilt harray hvariant h
    | none =>
      rw [hvariant] at h
      cases hstruct : A.structs.find? rtype with
      | some st =>
        rw [hstruct] at h
        exact packsValue_of_struct hbuilt harray hvariant hstruct h
      | none =>
        rw [hstruct] at h
        cases h

lemma valueToBinary_of_packsValue (h : PacksValue A next (A.resolveType type) allowed v out) :
    A.valueToBinary next type v allowed = .ok out := by
  unfold valueToBinary
  dsimp only
  generalize A.resolveType type = rtype at h ⊢
  cases h with
  | builtIn hbuilt hpack => simp [hbuilt, hpack]
  | array hbuilt harray hvars =>
    simp only [hbuilt, harray, if_true]
    exact bind_ok_iff.mpr ⟨_, hvars, rfl⟩
  | choice hbuilt harray hvariant hmem hnext =>
    simp only [hbuilt, harray, hvariant, false_eq_true, if_false, choiceToBinary, if_pos hmem]
    exact bind_ok_iff.mpr ⟨_, hnext, rfl⟩
  | object hbuilt harray hvariant hstruct hbase hfields =>
    simp only [hbuilt, harray, hvariant, hstruct, false_eq_true, if_false, structToBinary]
    refine bind_ok_iff.mpr ⟨_, hbase, ?_⟩
    exact bind_ok_iff.mpr ⟨_, objectToFields_iff.mpr hfields, rfl⟩
  | fieldArray hbuilt harray hvariant hstruct hbase hva =>
    simp only [hbuilt, harray, hvariant, hstruct, false_eq_true, if_false, structToBinary]
    exact bind_ok_iff.mpr ⟨(), eosAssert_ok_iff.mpr hbase, hva⟩

lemma valueToBinary_iff :
    A.valueToBinary next type v allowed = .ok out ↔
      PacksValue A next (A.resolveType type) allowed v out :=
  ⟨packsValue_of_valueToBinary, valueToBinary_of_packsValue⟩

end DimensionChain.AbiSerializer
