import DimensionChain.Abi.Inversion
import DimensionChain.Abi.Resolution

/-!
# The parts of a value

The encoder has no case for an optional of a type that is not built in, it packs a base through
the cases of a value, and it lets a binary extension be left out only where nothing can follow.
`Handled` says of one part of a value that none of this is in the way. A decoded value all of
whose parts are handled is packed again, and the bytes are read back as the value.
-/

namespace DimensionChain.AbiSerializer
open List Bytes Variant Prod

variable {A : AbiSerializer}

/-- A value where the encoder meets it: with its type, and whether extensions are allowed. -/
structure Node where
  type : TypeName
  value : Variant
  allowed : Bool

inductive Part (A : AbiSerializer) : Node → Node → Prop
  | element {type : TypeName} {vars : List Variant} {allowed : Bool} {x : Variant} :
      A.builtIn? (A.resolveType type) = none → isArray (A.resolveType type) = true → x ∈ vars →
      Part A ⟨type, .array vars, allowed⟩ ⟨fundamentalType (A.resolveType type), x, false⟩
  | content {type : TypeName} {def' : VariantDef} {t : TypeName} {x : Variant} {allowed : Bool} :
      A.builtIn? (A.resolveType type) = none → isArray (A.resolveType type) = false →
      A.variants.find? (A.resolveType type) = some def' →
      Part A ⟨type, .array [.string t, x], allowed⟩ ⟨t, x, allowed⟩
  | base {type : TypeName} {st : StructDef} {vo : VariantObject} {allowed : Bool} :
      A.builtIn? (A.resolveType type) = none → isArray (A.resolveType type) = false →
      A.variants.find? (A.resolveType type) = none →
      A.structs.find? (A.resolveType type) = some st → st.base ≠ "" →
      Part A ⟨type, .object vo, allowed⟩ ⟨A.resolveType st.base, .object vo, false⟩
  | field {type : TypeName} {st : StructDef} {vo : VariantObject} {allowed : Bool}
      {before after : List FieldDef} {field : FieldDef} {x : Variant} :
      A.builtIn? (A.resolveType type) = none → isArray (A.resolveType type) = false →
      A.variants.find? (A.resolveType type) = none →
      A.structs.find? (A.resolveType type) = some st →
      st.fields = before ++ field :: after → vo.lookup (cString field.name) = some x →
      Part A ⟨type, .object vo, allowed⟩
        ⟨removeBinExtension field.type, x, allowed && after.isEmpty⟩

structure StructName (A : AbiSerializer) (rtype : TypeName) : Prop where
  builtIn : A.builtIn? rtype = none
  array : isArray rtype = false
  variant : A.variants.find? rtype = none

/-- The type is not an optional that is not built in; in a struct, a field is searched for where it
stands and missing only where extensions are allowed, and the base is taken for a struct. -/
def Handled (A : AbiSerializer) (n : Node) : Prop :=
  A.builtIn? (A.resolveType n.type) = none → isArray (A.resolveType n.type) = false →
    isOptional (A.resolveType n.type) = false ∧
    ∀ st vo, A.variants.find? (A.resolveType n.type) = none →
      A.structs.find? (A.resolveType n.type) = some st → n.value = .object vo →
      (∀ field ∈ st.fields, vo.lookup (cString field.name) = vo.lookup field.name ∧
        (vo.lookup field.name = none → n.allowed = true)) ∧
      (st.base ≠ "" → A.StructName (A.resolveType st.base))

def Packable (A : AbiSerializer) (n : Node) : Prop :=
  ∀ m, Relation.ReflTransGen A.Part n m → A.Handled m

lemma Packable.handled {n : Node} (h : A.Packable n) : A.Handled n := h n .refl

lemma Packable.part {n m : Node} (h : A.Packable n) (hpart : A.Part n m) : A.Packable m :=
  fun k hk => h k (.head hpart hk)

section Objects
variable {next : Decoders} {fields : List FieldDef} {stream rest : Bytes} {obj obj' : VariantObject}
  {name : String} {a b : VariantObject}

def chainFields (A : AbiSerializer) : Nat → TypeName → List FieldDef
  | 0, _ => []
  | depth + 1, type =>
    match A.structs.find? type with
    | none => []
    | some st =>
      (if st.base = "" then [] else chainFields A depth (A.resolveType st.base)) ++ st.fields

def chainNames (A : AbiSerializer) (depth : Nat) (type : TypeName) : List String :=
  (A.chainFields depth type).map FieldDef.name

def NoRepeatedNames (A : AbiSerializer) : Prop := ∀ depth type, (A.chainNames depth type).Nodup

lemma lookup_of_notMem {a : VariantObject} (h : name ∉ a.map fst) : a.lookup name = none := by
  rw [lookup_eq_none_iff]
  intro e he
  rw [bne_iff_ne]
  rintro rfl
  exact h (mem_map_of_mem he)

lemma lookup_append_left (h : name ∉ b.map fst) : (a ++ b).lookup name = a.lookup name := by
  rw [lookup_append, lookup_of_notMem h, Option.or_none]

lemma lookup_append_right (h : name ∉ a.map fst) : (a ++ b).lookup name = b.lookup name := by
  rw [lookup_append, lookup_of_notMem h, Option.none_or]

variable (h : ReadsFields A next fields stream obj obj' rest)
include h

lemma ReadsFields.nil_stream (hend : stream = []) : obj' = obj ∧ rest = [] := by
  induction h with
  | nil stream obj => exact ⟨rfl, hend⟩
  | present hne => exact absurd hend hne
  | omitted _ _ ih => exact ih rfl

lemma ReadsFields.appends (hnames : (obj.map fst ++ fields.map FieldDef.name).Nodup) :
    ∃ new, obj' = obj ++ new ∧ (new.map fst).Sublist (fields.map FieldDef.name) := by
  induction h with
  | nil stream obj => exact ⟨[], (append_nil _).symm, List.Sublist.refl _⟩
  | @present field fields stream stream' rest obj obj' v hne hv h ih =>
    have hnew : field.name ∉ obj.map fst := by
      intro hmem
      exact (nodup_append.mp hnames).2.2 _ hmem _ (mem_cons_self ..) rfl
    rw [A.builtIns.setField_new v hnew] at ih
    obtain ⟨new, rfl, hsub⟩ := ih (by simpa using hnames)
    refine ⟨(field.name, v) :: new, by simp, ?_⟩
    exact hsub.cons_cons _
  | @omitted field fields rest obj obj' hext h ih =>
    obtain ⟨rfl, -⟩ := h.nil_stream rfl
    exact ⟨[], (append_nil _).symm, nil_sublist _⟩

omit h

def ReadsBase (A : AbiSerializer) (next : Decoders) (st : StructDef) (stream : Bytes)
    (obj obj₁ : VariantObject) (stream₁ : Bytes) : Prop :=
  if st.base = "" then obj₁ = obj ∧ stream₁ = stream
  else next.object (A.resolveType st.base) stream obj = .ok (obj₁, stream₁)

def baseFields (A : AbiSerializer) (depth : Nat) (st : StructDef) : List FieldDef :=
  if st.base = "" then [] else A.chainFields depth (A.resolveType st.base)

def baseNames (A : AbiSerializer) (depth : Nat) (st : StructDef) : List String :=
  (A.baseFields depth st).map FieldDef.name

variable {st : StructDef} {obj₁ : VariantObject} {stream₁ : Bytes} {type : TypeName} {scopes : Nat}
  {depth : Nat}

lemma chainFields_struct (hst : A.structs.find? type = some st) :
    A.chainFields (depth + 1) type = A.baseFields depth st ++ st.fields := by
  rw [chainFields, hst]
  rfl

lemma chainNames_struct (hst : A.structs.find? type = some st) :
    A.chainNames (depth + 1) type = A.baseNames depth st ++ st.fields.map FieldDef.name := by
  rw [chainNames, chainFields_struct hst, map_append]
  rfl

def ObjectsAppend (A : AbiSerializer) (scopes : Nat) : Prop :=
  ∀ {type : TypeName} {stream rest : Bytes} {obj obj' : VariantObject},
    (A.decoders scopes).object type stream obj = .ok (obj', rest) →
    (obj.map fst ++ A.chainNames scopes type).Nodup →
    ∃ new, obj' = obj ++ new ∧ (new.map fst).Sublist (A.chainNames scopes type)

lemma ReadsBase.appends (hobjects : A.ObjectsAppend scopes)
    (h : A.ReadsBase (A.decoders scopes) st stream obj obj₁ stream₁)
    (hnames : (obj.map fst ++ A.baseNames scopes st).Nodup) :
    ∃ new, obj₁ = obj ++ new ∧ (new.map fst).Sublist (A.baseNames scopes st) := by
  unfold ReadsBase at h
  unfold baseNames baseFields at hnames ⊢
  by_cases hempty : st.base = ""
  · rw [if_pos hempty] at h ⊢
    exact ⟨[], by rw [h.1, append_nil], List.Sublist.refl _⟩
  · rw [if_neg hempty] at h hnames ⊢
    exact hobjects h hnames

lemma ReadsBase.nodup (hobjects : A.ObjectsAppend scopes)
    (h : A.ReadsBase (A.decoders scopes) st stream obj obj₁ stream₁)
    (hnames : (obj.map fst ++ (A.baseNames scopes st ++ st.fields.map FieldDef.name)).Nodup) :
    (obj₁.map fst ++ st.fields.map FieldDef.name).Nodup := by
  rw [← append_assoc] at hnames
  obtain ⟨new, rfl, hsub⟩ := h.appends hobjects (nodup_append.mp hnames).1
  rw [map_append]
  exact hnames.sublist ((hsub.append_left _).append_right _)

lemma objects_append (scopes : Nat) : A.ObjectsAppend scopes := by
  induction scopes with
  | zero =>
    intro type stream rest obj obj' h
    cases h
  | succ scopes ih =>
    intro type stream rest obj obj' h hnames
    obtain ⟨st, hst, obj₁, stream₁, hbase, hfields⟩ := binaryToObject_iff.mp h
    rw [chainNames_struct hst] at hnames ⊢
    have hbase : A.ReadsBase (A.decoders scopes) st stream obj obj₁ stream₁ := hbase
    obtain ⟨new, rfl, hsub⟩ := hfields.appends (hbase.nodup ih hnames)
    rw [← append_assoc] at hnames
    obtain ⟨newBase, rfl, hsubBase⟩ := hbase.appends ih (nodup_append.mp hnames).1
    refine ⟨newBase ++ new, append_assoc .., ?_⟩
    rw [map_append]
    exact hsubBase.append hsub

end Objects

/-- The bytes are read back as the value, whatever follows them; where extensions are allowed,
only when nothing does. -/
def Reads (A : AbiSerializer) (scopes : Nat) (type : TypeName) (allowed : Bool) (out : Bytes)
    (v : Variant) : Prop :=
  ∀ rest, (allowed = true → rest = []) →
    (A.decoders scopes).value type (out ++ rest) = .ok (v, rest)

def ValuesReturn (A : AbiSerializer) (scopes : Nat) : Prop :=
  ∀ {type : TypeName} {stream rest : Bytes} {v : Variant},
    (A.decoders scopes).value type stream = .ok (v, rest) →
    ∀ {allowed : Bool}, A.Packable ⟨type, v, allowed⟩ → ∀ {packing : Nat}, scopes ≤ packing →
      ∃ out, A.encoders packing type v allowed = .ok out ∧ A.Reads scopes type allowed out v

/-- The same for the fields of a struct, which are packed from an object `vo` that holds them
among others. -/
def ObjectsReturn (A : AbiSerializer) (scopes : Nat) : Prop :=
  ∀ {type : TypeName} {stream rest : Bytes} {obj obj' : VariantObject},
    (A.decoders scopes).object (A.resolveType type) stream obj = .ok (obj', rest) →
    (obj.map fst ++ A.chainNames scopes (A.resolveType type)).Nodup →
    ∀ {vo : VariantObject},
      (∀ name ∈ A.chainNames scopes (A.resolveType type), vo.lookup name = obj'.lookup name) →
    ∀ {allowed : Bool}, A.Packable ⟨type, .object vo, allowed⟩ →
      A.StructName (A.resolveType type) → ∀ {packing : Nat}, scopes ≤ packing →
      ∃ out, A.encoders packing type (.object vo) allowed = .ok out ∧
        ∀ rest', (allowed = true → rest' = []) →
          (A.decoders scopes).object (A.resolveType type) (out ++ rest') obj = .ok (obj', rest')

variable {scopes packing : Nat} {fields : List FieldDef} {stream rest : Bytes}
  {obj obj' vo : VariantObject} {allowed : Bool} {type : TypeName}

lemma object_nil
    (h : (A.decoders scopes).object type [] obj = .ok (obj', rest)) : obj' = obj ∧ rest = [] := by
  induction scopes generalizing type obj obj' rest with
  | zero => cases h
  | succ scopes ih =>
    obtain ⟨st, -, obj₁, stream₁, hbase, hfields⟩ := binaryToObject_iff.mp h
    split at hbase
    · obtain ⟨rfl, rfl⟩ := hbase
      exact hfields.nil_stream rfl
    · obtain ⟨rfl, rfl⟩ := ih hbase
      exact hfields.nil_stream rfl

lemma value_nil {v : Variant}
    (h : (A.decoders scopes).value type stream = .ok (v, rest)) : stream ≠ [] := by
  rintro rfl
  cases scopes with
  | zero => cases h
  | succ scopes =>
    cases binaryToValue_iff.mp h with
    | @builtIn b _ _ _ _ hunpack =>
      rw [b.unpack_nil] at hunpack
      cases hunpack
    | array _ _ hsize | choice _ _ _ _ hsize =>
      rw [Packing.unpackSize_nil] at hsize
      cases hsize
    | struct _ _ _ _ hobject hne => exact hne (object_nil hobject).1

lemma value_resolveType (hA : A.validate = .ok ()) (type : TypeName) :
    (A.decoders scopes).value (A.resolveType type) stream =
      (A.decoders scopes).value type stream := by
  cases scopes with
  | zero => rfl
  | succ scopes =>
    change A.binaryToValue _ _ _ = A.binaryToValue _ _ _
    unfold binaryToValue
    rw [resolveType_resolveType hA]

lemma many_return (hvalues : A.ValuesReturn scopes) (hle : scopes ≤ packing) {ftype : TypeName}
    {vars : List Variant} (h : ReadsMany (A.decoders scopes) ftype stream vars rest)
    (hpack : ∀ x ∈ vars, A.Packable ⟨ftype, x, false⟩) :
    ∃ out, variantsToBinary (A.encoders packing) ftype vars = .ok out ∧
      ∀ rest', ReadsMany (A.decoders scopes) ftype (out ++ rest') vars rest' := by
  induction h with
  | nil stream => exact ⟨[], rfl, fun rest' => .nil rest'⟩
  | @cons stream stream' rest v vars hv hnull h ih =>
    obtain ⟨out₁, henc₁, hread₁⟩ := hvalues hv (hpack v (mem_cons_self ..)) hle
    obtain ⟨out₂, henc₂, hread₂⟩ := ih fun x hx => hpack x (mem_cons_of_mem _ hx)
    refine ⟨out₁ ++ out₂, ?_, fun rest' => ?_⟩
    · exact bind_ok_iff.mpr ⟨_, henc₁, bind_ok_iff.mpr ⟨_, henc₂, rfl⟩⟩
    · rw [append_assoc]
      exact .cons (hread₁ _ fun hf => absurd hf Bool.false_ne_true) hnull (hread₂ rest')

lemma omitted_return {next : Decoders} {encode : Encoder}
    (h : ReadsFields A next fields stream obj obj' rest) (hend : stream = [])
    (hallowed : allowed = true) (hmissing : ∀ field ∈ fields, vo.lookup (cString field.name) = none)
    (disallow : Bool) : PacksFields encode allowed vo fields disallow [] := by
  induction h generalizing disallow with
  | nil => exact .nil disallow
  | present hne => exact absurd hend hne
  | omitted hext _ ih =>
    rw [forall_mem_cons] at hmissing
    exact .omitted hmissing.1 hext hallowed (ih rfl hmissing.2 true)

def FieldsPackable (A : AbiSerializer) (vo : VariantObject) (allowed : Bool)
    (fields : List FieldDef) : Prop :=
  ∀ before field after, fields = before ++ field :: after →
    vo.lookup (cString field.name) = vo.lookup field.name ∧
    (∀ x, vo.lookup (cString field.name) = some x →
      A.Packable ⟨removeBinExtension field.type, x, allowed && after.isEmpty⟩) ∧
    (vo.lookup field.name = none → allowed = true)

lemma FieldsPackable.tail {field : FieldDef}
    (h : A.FieldsPackable vo allowed (field :: fields)) : A.FieldsPackable vo allowed fields :=
  fun before f after hsplit => h (field :: before) f after (by rw [hsplit, cons_append])

variable (hA : A.validate = .ok ()) {st : StructDef}
include hA

lemma fields_return (hvalues : A.ValuesReturn scopes)
    (hle : scopes ≤ packing) (h : ReadsFields A (A.decoders scopes) fields stream obj obj' rest)
    (hnames : (obj.map fst ++ fields.map FieldDef.name).Nodup)
    (hvo : ∀ field ∈ fields, vo.lookup field.name = obj'.lookup field.name)
    (hpack : A.FieldsPackable vo allowed fields) :
    ∃ out, PacksFields (A.encoders packing) allowed vo fields false out ∧
      ∀ rest', (allowed = true → rest' = []) →
        ReadsFields A (A.decoders scopes) fields (out ++ rest') obj obj' rest' := by
  induction h with
  | nil stream obj => exact ⟨[], .nil false, fun rest' _ => .nil rest' obj⟩
  | @present field fields stream stream' rest obj obj' v hne hv h ih =>
    have hnew : field.name ∉ obj.map fst := by
      intro hmem
      exact (nodup_append.mp hnames).2.2 _ hmem _ (mem_cons_self ..) rfl
    have hnames' : ((A.builtIns.setField obj field.name v).map fst ++
        fields.map FieldDef.name).Nodup := by
      rw [A.builtIns.setField_new v hnew]
      simpa using hnames
    -- the value stands in the object that the encoder is given
    have hlookup : vo.lookup (cString field.name) = some v := by
      rw [(hpack [] field fields rfl).1]
      obtain ⟨new, rfl, -⟩ := h.appends hnames'
      rw [hvo field (mem_cons_self ..), A.builtIns.setField_new v hnew, append_assoc,
        lookup_append_right hnew]
      simp
    obtain ⟨out₁, henc₁, hread₁⟩ := hvalues ((value_resolveType hA _).symm.trans hv)
      ((hpack [] field fields rfl).2.1 v hlookup) hle
    obtain ⟨out₂, henc₂, hread₂⟩ := ih hnames'
      (fun f hf => hvo f (mem_cons_of_mem _ hf)) hpack.tail
    refine ⟨out₁ ++ out₂, .present hlookup henc₁ henc₂, fun rest' hrest' => ?_⟩
    have hlast : (allowed && fields.isEmpty) = true → out₂ ++ rest' = [] := by
      intro hlast
      rw [Bool.and_eq_true, List.isEmpty_iff] at hlast
      obtain ⟨hallowed, rfl⟩ := hlast
      cases henc₂
      rw [hrest' hallowed]
      rfl
    have hread := hread₁ _ hlast
    rw [List.append_assoc]
    exact .present (value_nil hread) ((value_resolveType hA _).trans hread) (hread₂ rest' hrest')
  | @omitted field fields rest obj obj' hext h ih =>
    obtain ⟨rfl, rfl⟩ := h.nil_stream rfl
    have hall : ReadsFields A (A.decoders scopes) (field :: fields) [] obj' obj' [] :=
      .omitted hext h
    have hnone : ∀ f ∈ field :: fields, vo.lookup f.name = none := by
      intro f hf
      rw [hvo f hf]
      apply lookup_of_notMem
      intro hmem
      exact (nodup_append.mp hnames).2.2 _ hmem _ (mem_map_of_mem hf) rfl
    have hmissing : ∀ f ∈ field :: fields, vo.lookup (cString f.name) = none := by
      intro f hf
      obtain ⟨before, after, hsplit⟩ := append_of_mem hf
      rw [(hpack before f after hsplit).1, hnone f hf]
    have hallowed := (hpack [] field fields rfl).2.2 (hnone field (mem_cons_self ..))
    refine ⟨[], omitted_return hall rfl hallowed hmissing false, fun rest' hrest' => ?_⟩
    rw [hrest' hallowed]
    exact hall

omit hA in
lemma fieldsPackable_of_packable
    (hpack : A.Packable ⟨type, .object vo, allowed⟩) (hname : A.StructName (A.resolveType type))
    (hst : A.structs.find? (A.resolveType type) = some st) :
    A.FieldsPackable vo allowed st.fields := by
  intro before field after hsplit
  have hmem : field ∈ st.fields := by
    rw [hsplit]
    simp
  have hhandled := (hpack.handled hname.builtIn hname.array).2 st vo hname.variant hst rfl
  exact ⟨(hhandled.1 field hmem).1,
    fun x hx => hpack.part (.field hname.builtIn hname.array hname.variant hst hsplit hx),
    (hhandled.1 field hmem).2⟩

lemma base_return (hobjects : A.ObjectsReturn scopes)
    (hle : scopes ≤ packing) {obj₁ : VariantObject}
    {stream₁ : Bytes} (h : A.ReadsBase (A.decoders scopes) st stream obj obj₁ stream₁)
    (hnames : (obj.map fst ++ A.baseNames scopes st).Nodup)
    (hvo : ∀ name ∈ A.baseNames scopes st, vo.lookup name = obj₁.lookup name)
    (hpack : A.Packable ⟨type, .object vo, allowed⟩) (hname : A.StructName (A.resolveType type))
    (hst : A.structs.find? (A.resolveType type) = some st) :
    ∃ out, A.baseToBinary (A.encoders packing) st (.object vo) = .ok out ∧
      ∀ rest', A.ReadsBase (A.decoders scopes) st (out ++ rest') obj obj₁ rest' := by
  unfold ReadsBase at h ⊢
  unfold baseNames baseFields at hnames hvo
  unfold baseToBinary
  by_cases hempty : st.base = ""
  · rw [if_pos hempty] at h
    simp only [if_pos hempty]
    exact ⟨[], rfl, fun rest' => ⟨h.1, rfl⟩⟩
  rw [if_neg hempty] at h hnames hvo
  simp only [if_neg hempty]
  have hhandled := (hpack.handled hname.builtIn hname.array).2 st vo hname.variant hst rfl
  have hbase := hpack.part (.base hname.builtIn hname.array hname.variant hst hempty)
  have hstruct := hhandled.2 hempty
  -- the base is looked up under its resolved name, which resolves to itself
  rw [← resolveType_resolveType hA st.base] at h hnames hvo hstruct
  obtain ⟨out, henc, hread⟩ := hobjects h hnames hvo hbase hstruct hle
  refine ⟨out, henc, fun rest' => ?_⟩
  rw [resolveType_resolveType hA st.base] at hread
  exact hread rest' fun hf => absurd hf Bool.false_ne_true

lemma objects_return_succ (hvalues : A.ValuesReturn scopes)
    (hobjects : A.ObjectsReturn scopes) : A.ObjectsReturn (scopes + 1) := by
  intro type stream rest obj obj' h hnames vo hvo allowed hpack hname packing hle
  obtain ⟨packing, rfl⟩ : ∃ p, packing = p + 1 := ⟨packing - 1, by omega⟩
  have hle : scopes ≤ packing := by omega
  obtain ⟨st, hst, obj₁, stream₁, hbase, hfields⟩ := binaryToObject_iff.mp h
  have hbase : A.ReadsBase (A.decoders scopes) st stream obj obj₁ stream₁ := hbase
  rw [chainNames_struct hst] at hnames hvo
  have hfieldNames := hbase.nodup (objects_append scopes) hnames
  obtain ⟨new, rfl, hsub⟩ := hfields.appends hfieldNames
  have hvoBase : ∀ name ∈ A.baseNames scopes st, vo.lookup name = obj₁.lookup name := by
    intro name hmem
    rw [hvo name (mem_append_left _ hmem)]
    apply lookup_append_left
    intro hnew
    have hdisjoint := (nodup_append.mp (nodup_append.mp hnames).2.1).2.2
    exact hdisjoint _ hmem _ (hsub.subset hnew) rfl
  obtain ⟨outBase, hencBase, hreadBase⟩ := base_return hA hobjects hle hbase
    (hnames.sublist ((sublist_append_left _ _).append_left _)) hvoBase hpack hname hst
  obtain ⟨out, henc, hread⟩ := fields_return hA hvalues hle hfields hfieldNames
    (fun f hf => hvo f.name (mem_append_right _ (mem_map_of_mem hf)))
    (fieldsPackable_of_packable hpack hname hst)
  refine ⟨outBase ++ out, ?_, fun rest' hrest' => ?_⟩
  · exact valueToBinary_iff.mpr
      (.object hname.builtIn hname.array hname.variant hst hencBase henc)
  · rw [append_assoc]
    exact binaryToObject_iff.mpr ⟨st, hst, _, _, hreadBase _, hread rest' hrest'⟩

omit hA in
lemma values_return_succ (hrepeat : A.NoRepeatedNames)
    (hvalues : A.ValuesReturn scopes) (hobjects : A.ObjectsReturn scopes) :
    A.ValuesReturn (scopes + 1) := by
  intro type stream rest v h allowed hpack packing hle
  obtain ⟨packing, rfl⟩ : ∃ p, packing = p + 1 := ⟨packing - 1, by omega⟩
  cases binaryToValue_iff.mp h with
  | @builtIn b _ _ _ hbuilt hunpack =>
    obtain ⟨out, henc, hread⟩ := b.pack_of_unpack hunpack
    exact ⟨out, valueToBinary_iff.mpr (.builtIn hbuilt henc), fun rest' _ =>
      binaryToValue_iff.mpr (.builtIn hbuilt (hread rest'))⟩
  | @array _ stream' _ vars hbuilt harray hsize hmany =>
    obtain ⟨out, henc, hread⟩ := many_return hvalues (Nat.le_of_succ_le_succ hle) hmany
      fun x hx => hpack.part (.element hbuilt harray hx)
    refine ⟨A.builtIns.packSize vars.length ++ out,
      valueToBinary_iff.mpr (.array hbuilt harray henc), fun rest' _ => ?_⟩
    rw [append_assoc]
    exact binaryToValue_iff.mpr (.array hbuilt harray
      (Packing.unpackSize_packSize _ (Packing.unpackSize_lt _ hsize) _) (hread rest'))
  | absent hbuilt harray hoptional | present hbuilt harray hoptional =>
    have hhandled := (hpack.handled hbuilt harray).1
    rw [hoptional] at hhandled
    cases hhandled
  | @choice def' select t _ stream' _ content hbuilt harray hoptional hvariant hselect ht hcontent =>
    obtain ⟨out, henc, hread⟩ := hvalues hcontent (hpack.part (.content hbuilt harray hvariant))
      (Nat.le_of_succ_le_succ hle)
    have hmem : t ∈ def'.types := mem_of_getElem? ht
    -- the tag that is packed is the first with this type
    have hfirst : def'.types.idxOf t < select + 1 := by
      rw [← mem_take_iff_idxOf_lt hmem]
      apply mem_of_getElem? (i := select)
      rw [List.getElem?_take_of_lt (Nat.lt_succ_self select), ht]
    have hidx := Nat.lt_of_le_of_lt (Nat.le_of_lt_succ hfirst) (Packing.unpackSize_lt _ hselect)
    have htag : def'.types[def'.types.idxOf t]? = some t := List.getElem?_idxOf hmem
    refine ⟨A.builtIns.packSize (def'.types.idxOf t) ++ out,
      valueToBinary_iff.mpr (.choice hbuilt harray hvariant hmem henc), fun rest' hrest' => ?_⟩
    rw [append_assoc]
    exact binaryToValue_iff.mpr (.choice hbuilt harray hoptional hvariant
      (Packing.unpackSize_packSize _ hidx _) htag (hread rest' hrest'))
  | @struct _ _ mvo hbuilt harray hoptional hvariant hobject hne =>
    obtain ⟨out, henc, hread⟩ := hobjects hobject
      (by rw [map_nil, nil_append]; exact hrepeat _ _) (fun _ _ => rfl) hpack
      ⟨hbuilt, harray, hvariant⟩ (Nat.le_of_succ_le hle)
    refine ⟨out, henc, fun rest' hrest' => ?_⟩
    exact binaryToValue_iff.mpr
      (.struct hbuilt harray hoptional hvariant (hread rest' hrest') hne)

lemma values_return (hrepeat : A.NoRepeatedNames) (scopes : Nat) :
    A.ValuesReturn scopes ∧ A.ObjectsReturn scopes := by
  induction scopes with
  | zero =>
    refine ⟨?_, ?_⟩
    · intro type stream rest v h
      cases h
    · intro type stream rest obj obj' h
      cases h
  | succ scopes ih =>
    exact ⟨values_return_succ hrepeat ih.1 ih.2, objects_return_succ hA ih.1 ih.2⟩

end DimensionChain.AbiSerializer
