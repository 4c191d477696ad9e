import DimensionChain.Abi.AbiSerializer

/-!
# From bytes to variants and back

`_binary_to_variant` and `_variant_to_binary` call themselves through several functions, and each
call enters a scope. The body of each is a function of the functions that the scopes left over
allow to be called, and `decoders` and `encoders` tie the knot.
-/

namespace DimensionChain

/-- The two overloads that read from a stream: of a value, and of the fields of a struct. They
return the bytes that are left. -/
structure Decoders where
  value : TypeName → Bytes → Result (Variant × Bytes)
  object : TypeName → Bytes → VariantObject → Result (VariantObject × Bytes)

abbrev Encoder := TypeName → Variant → Bool → Result Bytes

namespace AbiSerializer
variable (A : AbiSerializer)

def unpackOr {α : Type} (x : Option α) (message : String) : Result α :=
  match x with
  | some a => .ok a
  | none => .error ⟨.unpack, message⟩

def binaryToArray (next : Decoders) (ftype : TypeName) :
    Nat → Bytes → Result (List Variant × Bytes)
  | 0, stream => .ok ([], stream)
  | n + 1, stream => do
    let (v, stream) ← next.value ftype stream
    eosAssert (v.isNull = false) .unpack "Invalid packed array '$\x7bp\x7d'"
    let (vars, stream) ← binaryToArray next ftype n stream
    pure (v :: vars, stream)

def binaryToFields (next : Decoders) :
    List FieldDef → Bool → Bytes → VariantObject → Result (VariantObject × Bytes)
  | [], _, stream, obj => .ok (obj, stream)
  | field :: fields, encountered, stream, obj =>
    let extension := isExtension field.type
    let encounteredExtension := encountered || extension
    if stream = [] then
      if extension then binaryToFields next fields encounteredExtension stream obj
      else if encounteredExtension then
        .error ⟨.abi, "Encountered field '$\x7bf\x7d' without binary extension designation while " ++
          "processing struct '$\x7bp\x7d'"⟩
      else
        .error ⟨.unpack, "Stream unexpectedly ended; unable to unpack field '$\x7bf\x7d' of " ++
          "struct '$\x7bp\x7d'"⟩
    else do
      let (v, stream) ← next.value (A.resolveType (removeBinExtension field.type)) stream
      binaryToFields next fields encounteredExtension stream (A.builtIns.setField obj field.name v)

def binaryToObject (next : Decoders) (type : TypeName) (stream : Bytes) (obj : VariantObject) :
    Result (VariantObject × Bytes) :=
  match A.structs.find? type with
  | none => .error ⟨.invalidTypeInsideAbi, "Unknown type $\x7btype\x7d"⟩
  | some st =>
    if st.base = "" then A.binaryToFields next st.fields false stream obj
    else do
      let (obj, stream) ← next.object (A.resolveType st.base) stream obj
      A.binaryToFields next st.fields false stream obj

def binaryToValue (next : Decoders) (type : TypeName) (stream : Bytes) : Result (Variant × Bytes) :=
  let rtype := A.resolveType type
  let ftype := fundamentalType rtype
  match A.builtIn? rtype with
  | some btype =>
    unpackOr (btype.unpack stream (isArray rtype) (isOptional rtype))
      "Unable to unpack $\x7bclass\x7d type '$\x7btype\x7d' while processing '$\x7bp\x7d'"
  | none =>
    if isArray rtype then do
      let (size, stream) ←
        unpackOr (A.builtIns.unpackSize stream) "Unable to unpack size of array '$\x7bp\x7d'"
      let (vars, stream) ← binaryToArray next ftype size stream
      pure (.array vars, stream)
    else if isOptional rtype then
      match stream with
      | [] => .error ⟨.unpack, "Unable to unpack presence flag of optional '$\x7bp\x7d'"⟩
      | flag :: stream => if flag ≠ 0 then next.value ftype stream else .ok (.null, stream)
    else match A.variants.find? rtype with
      | some v => do
        let (select, stream) ←
          unpackOr (A.builtIns.unpackSize stream) "Unable to unpack tag of variant '$\x7bp\x7d'"
        match v.types[select]? with
        | none =>
          .error ⟨.unpack, "Unpacked invalid tag ($\x7bselect\x7d) for variant '$\x7bp\x7d'"⟩
        | some t => do
          let (content, stream) ← next.value t stream
          pure (.array [.string t, content], stream)
      | none => do
        let (mvo, stream) ← next.object rtype stream []
        eosAssert (mvo ≠ []) .unpack "Unable to unpack '$\x7bp\x7d' from stream"
        pure (.object mvo, stream)

def decoders : Nat → Decoders
  | 0 => ⟨fun _ _ => .error recursionExceeded, fun _ _ _ => .error recursionExceeded⟩
  | scopes + 1 => ⟨A.binaryToValue (decoders scopes), A.binaryToObject (decoders scopes)⟩

def binaryToVariant (type : TypeName) (binary : Bytes) : Result (Variant × Bytes) :=
  (A.decoders (outerScopes - 1)).value type binary

def variantsToBinary (next : Encoder) (ftype : TypeName) :
    List Variant → Result Bytes
  | [] => .ok []
  | var :: vars => do
    let out ← next ftype var false
    let rest ← variantsToBinary next ftype vars
    pure (out ++ rest)

/-- The name up to its first NUL character, under which an object is searched for a field. -/
def cString (name : String) : String :=
  String.ofList (name.toList.takeWhile fun c => c.toNat ≠ 0)

/-- The fields of a struct from an object. A field may be the last one that is packed with
extensions allowed only when no field follows it in the struct. -/
def objectToFields (next : Encoder) (allowed : Bool) (vo : VariantObject) :
    List FieldDef → Bool → Result Bytes
  | [], _ => .ok []
  | field :: fields, disallowAdditionalFields =>
    match vo.lookup (cString field.name) with
    | some v =>
      if disallowAdditionalFields then
        .error ⟨.pack, "Unexpected field '$\x7bf\x7d' found in input object while processing " ++
          "struct '$\x7bp\x7d'"⟩
      else do
        let out ← next (removeBinExtension field.type) v (allowed && fields.isEmpty)
        let rest ← objectToFields next allowed vo fields disallowAdditionalFields
        pure (out ++ rest)
    | none =>
      if isExtension field.type && allowed then objectToFields next allowed vo fields true
      else if disallowAdditionalFields then
        .error ⟨.abi, "Encountered field '$\x7bf\x7d' without binary extension designation while " ++
          "processing struct '$\x7bp\x7d'"⟩
      else
        .error ⟨.pack, "Missing field '$\x7bf\x7d' in input object while processing struct " ++
          "'$\x7bp\x7d'"⟩

def arrayToFields (next : Encoder) (allowed : Bool) :
    List FieldDef → List Variant → Result Bytes
  | [], _ => .ok []
  | field :: fields, v :: va => do
    let out ← next (removeBinExtension field.type) v (allowed && fields.isEmpty)
    let rest ← arrayToFields next allowed fields va
    pure (out ++ rest)
  | field :: _, [] =>
    if isExtension field.type && allowed then .ok []
    else
      .error ⟨.pack, "Early end to input array specifying the fields of struct '$\x7bp\x7d'; " ++
        "require input for field '$\x7bf\x7d'"⟩

def baseToBinary (next : Encoder) (st : StructDef) (var : Variant) : Result Bytes :=
  if st.base = "" then .ok [] else next (A.resolveType st.base) var false

def structToBinary (next : Encoder) (st : StructDef) (var : Variant) (allowed : Bool) :
    Result Bytes :=
  match var with
  | .object vo => do
    let base ← A.baseToBinary next st var
    let fields ← objectToFields next allowed vo st.fields false
    pure (base ++ fields)
  | .array va => do
    eosAssert (st.base = "") .invalidTypeInsideAbi
      ("Using input array to specify the fields of the derived struct '$\x7bp\x7d'; input " ++
        "arrays are currently only allowed for structs without a base")
    arrayToFields next allowed st.fields va
  | _ => .error ⟨.pack, "Unexpected input encountered while processing struct '$\x7bp\x7d'"⟩

def choiceToBinary (next : Encoder) (v : VariantDef) (var : Variant) (allowed : Bool) :
    Result Bytes :=
  match var with
  | .array [name, content] =>
    match name with
    | .string t =>
      if t ∈ v.types then do
        let out ← next t content allowed
        pure (A.builtIns.packSize (v.types.idxOf t) ++ out)
      else
        .error ⟨.pack, "Specified type '$\x7bt\x7d' in input array is not valid within the variant " ++
          "'$\x7bp\x7d'"⟩
    | _ =>
      .error ⟨.pack, "Encountered non-string as first item of input array while processing " ++
        "variant '$\x7bp\x7d'"⟩
  | _ =>
    .error ⟨.pack, "Expected input to be an array of two items while processing variant " ++
      "'$\x7bp\x7d'"⟩

def badCast : ChainException := ⟨.pack, "Bad Cast"⟩

def valueToBinary (next : Encoder) (type : TypeName) (var : Variant) (allowed : Bool) :
    Result Bytes :=
  let rtype := A.resolveType type
  match A.builtIn? rtype with
  | some btype =>
    match btype.pack var (isArray rtype) (isOptional rtype) with
    | some out => .ok out
    | none => .error badCast
  | none =>
    if isArray rtype then
      match var with
      | .array vars => do
        let out ← variantsToBinary next (fundamentalType rtype) vars
        pure (A.builtIns.packSize vars.length ++ out)
      | _ => .error badCast
    else match A.variants.find? rtype with
      | some v => A.choiceToBinary next v var allowed
      | none =>
        match A.structs.find? rtype with
        | some st => A.structToBinary next st var allowed
        | none => .error ⟨.invalidTypeInsideAbi, "Unknown type $\x7btype\x7d"⟩

def encoders : Nat → Encoder
  | 0 => fun _ _ _ => .error recursionExceeded
  | scopes + 1 => A.valueToBinary (encoders scopes)

def bufferSize : Nat := 1024 * 1024

/-- The overload that returns a byte string enters a scope of its own, and so does its test of
the type. A write past the end of the buffer fails. -/
def variantToBinary (type : TypeName) (var : Variant) : Result Bytes := do
  let known ← A.isType (outerScopes - 1) type
  if known then do
    let out ← A.encoders (outerScopes - 1) type var true
    eosAssert (out.length ≤ bufferSize) .streamFailure "datastream attempted to write past the end"
    pure out
  else
    match A.builtIns.asBytes var with
    | some out => .ok out
    | none => .error badCast

end AbiSerializer

end DimensionChain
