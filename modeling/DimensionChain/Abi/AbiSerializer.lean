import DimensionChain.Base.FlatMap
import DimensionChain.Chain.Types
import DimensionChain.Abi.Variant

/-!
# The type tables of the ABI serializer

`setAbi` fills the tables from an ABI and checks them. A type is a name: `T[]` is an array of `T`,
`T?` an optional `T`, and a field of type `T$` may be left out at the end of the bytes. Functions
that recur on types enter a scope, and the models recur on the scopes that are left. Deadlines and
the paths in error texts are left out.
-/

namespace DimensionChain

abbrev TypeName := String

structure TypeDef where
  newTypeName : TypeName
  type : TypeName
  deriving DecidableEq, Repr

structure FieldDef where
  name : String
  type : TypeName
  deriving DecidableEq, Repr

structure StructDef where
  name : TypeName
  base : TypeName
  fields : List FieldDef
  deriving DecidableEq, Repr

structure ActionDef where
  name : AccountName
  type : TypeName
  deriving DecidableEq, Repr

structure TableDef where
  name : AccountName
  type : TypeName
  deriving DecidableEq, Repr

structure ErrorMessage where
  errorCode : Nat
  errorMsg : String
  deriving DecidableEq, Repr

structure VariantDef where
  name : TypeName
  types : List TypeName
  deriving DecidableEq, Repr

structure AbiDef where
  version : String := ""
  types : List TypeDef := []
  structs : List StructDef := []
  actions : List ActionDef := []
  tables : List TableDef := []
  errorMessages : List ErrorMessage := []
  variants : List VariantDef := []
  deriving DecidableEq, Repr

structure BuiltIns extends RawLibrary where
  types : TypeName → Option BuiltIn

structure AbiSerializer where
  builtIns : BuiltIns
  typedefs : FlatMap TypeName TypeName := .empty
  structs : FlatMap TypeName StructDef := .empty
  actions : FlatMap AccountName TypeName := .empty
  tables : FlatMap AccountName TypeName := .empty
  errorMessages : FlatMap Nat String := .empty
  variants : FlatMap TypeName VariantDef := .empty

namespace AbiSerializer

def startsWith (text pre : String) : Bool := pre.toList.isPrefixOf text.toList

def endsWith (type : TypeName) (suffix : String) : Bool := suffix.toList.isSuffixOf type.toList

/-- The name without its last `n` characters. -/
def shorten (type : TypeName) (n : Nat) : TypeName :=
  String.ofList (type.toList.take (type.toList.length - n))

def isArray (type : TypeName) : Bool := endsWith type "[]"

def isOptional (type : TypeName) : Bool := endsWith type "?"

def fundamentalType (type : TypeName) : TypeName :=
  if isArray type then shorten type 2
  else if isOptional type then shorten type 1
  else type

def isExtension (type : TypeName) : Bool := endsWith type "$"

def removeBinExtension (type : TypeName) : TypeName :=
  if isExtension type then shorten type 1 else type

lemma fundamentalType_plain {type : TypeName} (harray : isArray type = false)
    (hoptional : isOptional type = false) : fundamentalType type = type := by
  simp [fundamentalType, harray, hoptional]

def maxRecursionDepth : Nat := 32

def recursionExceeded : ChainException :=
  ⟨.abiRecursionDepth, "recursive definition, max_recursion_depth $\x7br\x7d "⟩

section Lookups
variable (A : AbiSerializer)

def builtIn? (type : TypeName) : Option BuiltIn := A.builtIns.types (fundamentalType type)

/-- `scopes` is how often a scope can still be entered. -/
def isType : Nat → TypeName → Result Bool
  | 0, _ => .error recursionExceeded
  | scopes + 1, rtype =>
    let type := fundamentalType rtype
    if (A.builtIns.types type).isSome then .ok true
    else match A.typedefs.find? type with
      | some target => isType scopes target
      | none => .ok ((A.structs.find? type).isSome || (A.variants.find? type).isSome)

/-- The loop of `resolve_type`, with the name to return when its rounds are used up. -/
def resolveLoop (type : TypeName) : Nat → TypeName → TypeName
  | 0, _ => type
  | i + 1, t =>
    match A.typedefs.find? t with
    | none => t
    | some t' => resolveLoop type i t'

def resolveType (type : TypeName) : TypeName :=
  match A.typedefs.find? type with
  | none => type
  | some t => A.resolveLoop type A.typedefs.size t

def getStruct (type : TypeName) : Result StructDef :=
  match A.structs.find? (A.resolveType type) with
  | some st => .ok st
  | none => .error ⟨.invalidTypeInsideAbi, "Unknown struct $\x7btype\x7d"⟩

end Lookups

section Validation
variable (A : AbiSerializer)

def outerScopes : Nat := maxRecursionDepth - 1

def assertType (type : TypeName) : Result Unit := do
  let known ← A.isType outerScopes type
  eosAssert (known = true) .invalidTypeInsideAbi "$\x7btype\x7d"

/-- Follows the typedefs from `type` on. There is a round for each of them, and one more. -/
def checkTypedef : Nat → List TypeName → TypeName → Result Unit
  | 0, _, _ => .ok ()
  | rounds + 1, seen, type =>
    match A.typedefs.find? type with
    | none => .ok ()
    | some target => do
      eosAssert (target ∉ seen) .abiCircularDef "Circular reference in type $\x7btype\x7d"
      checkTypedef rounds (seen ++ [target]) target

/-- Follows the bases from `current` on. There is a round for each struct, and one more. -/
def checkBases : Nat → List TypeName → StructDef → Result Unit
  | 0, _, _ => .ok ()
  | rounds + 1, seen, current =>
    if current.base = "" then .ok ()
    else do
      let base ← A.getStruct current.base
      eosAssert (base.name ∉ seen) .abiCircularDef "Circular reference in struct $\x7btype\x7d"
      checkBases rounds (seen ++ [base.name]) base

def checkStruct (st : StructDef) : Result Unit := do
  A.checkBases (A.structs.size + 1) [st.name] st
  st.fields.forM fun field => A.assertType (removeBinExtension field.type)

def validate : Result Unit := do
  A.typedefs.entries.forM fun t => A.checkTypedef (A.typedefs.size + 1) [t.1, t.2] t.2
  A.typedefs.entries.forM fun t => A.assertType t.2
  A.structs.entries.forM fun s => A.checkStruct s.2
  A.variants.entries.forM fun v => v.2.types.forM A.assertType
  A.actions.entries.forM fun a => A.assertType a.2
  A.tables.entries.forM fun t => A.assertType t.2

end Validation

def addTypes : List TypeDef → AbiSerializer → Result AbiSerializer
  | [], A => .ok A
  | td :: tds, A => do
    let known ← A.isType outerScopes td.type
    eosAssert (known = true) .invalidTypeInsideAbi "invalid type $\x7btype\x7d"
    let existing ← A.isType outerScopes td.newTypeName
    eosAssert (existing = false) .duplicateAbiTypeDef "type already exists"
    addTypes tds { A with typedefs := A.typedefs.set td.newTypeName td.type }

def setAbi (builtIns : BuiltIns) (abi : AbiDef) : Result AbiSerializer := do
  eosAssert (startsWith abi.version "eosio::abi/1.") .unsupportedAbiVersion
    "ABI has an unsupported version"
  let structs := FlatMap.empty.setAll (abi.structs.map fun st => (st.name, st))
  let A ← addTypes abi.types { builtIns, structs }
  let A := { A with
    actions := A.actions.setAll (abi.actions.map fun a => (a.name, a.type))
    tables := A.tables.setAll (abi.tables.map fun t => (t.name, t.type))
    errorMessages := A.errorMessages.setAll (abi.errorMessages.map fun e => (e.errorCode, e.errorMsg))
    variants := A.variants.setAll (abi.variants.map fun v => (v.name, v)) }
  eosAssert (A.typedefs.size = abi.types.length) .duplicateAbiTypeDef
    "duplicate type definition detected"
  eosAssert (A.structs.size = abi.structs.length) .duplicateAbiStructDef
    "duplicate struct definition detected"
  eosAssert (A.actions.size = abi.actions.length) .duplicateAbiActionDef
    "duplicate action definition detected"
  eosAssert (A.tables.size = abi.tables.length) .duplicateAbiTableDef
    "duplicate table definition detected"
  eosAssert (A.errorMessages.size = abi.errorMessages.length) .duplicateAbiErrMsgDef
    "duplicate error message definition detected"
  eosAssert (A.variants.size = abi.variants.length) .duplicateAbiVariantDef
    "duplicate variant definition detected"
  A.validate
  pure A

end AbiSerializer

end DimensionChain
