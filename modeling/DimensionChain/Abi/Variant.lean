import DimensionChain.Base.Packing

/-!
# Variants and the built-in types

A variant is the value of a JSON text. Packing and the conversions of a raw type to and from a
variant come from a library outside the repository: they are the fields of `RawType`, with the
assumption that a value survives both, and of `RawLibrary`. For a built-in type the serializer
keeps the functions of `packUnpack`, which also serve its arrays and optionals.
-/

namespace DimensionChain

inductive Variant where
  | null
  | int64 (i : Int)
  | uint64 (n : Nat)
  | double (bits : Nat)
  | bool (b : Bool)
  | string (s : String)
  | array (vars : List Variant)
  | object (fields : List (String × Variant))
  | blob (data : Bytes)
  deriving Inhabited

abbrev VariantObject := List (String × Variant)

namespace Variant

def isNull : Variant → Bool
  | null => true
  | _ => false

end Variant

structure RawType (α : Type) extends Codec α where
  unpack_nil : unpack [] = none
  toVariant : α → Variant
  ofVariant : Variant → Option α
  ofVariant_toVariant : ∀ a, ofVariant (toVariant a) = some a
  toVariant_ne_null : ∀ a, toVariant a ≠ .null

/-- `setField` sets an entry of an object. -/
structure RawLibrary extends Packing where
  asBytes : Variant → Option Bytes
  setField : VariantObject → String → Variant → VariantObject
  setField_new : ∀ {obj : VariantObject} {name : String} (v : Variant),
    name ∉ obj.map Prod.fst → setField obj name v = obj ++ [(name, v)]

def plainLibrary : RawLibrary where
  toPacking := bytePacking
  asBytes _ := none
  setField obj name v :=
    if name ∈ obj.map Prod.fst then obj.map fun e => if e.1 = name then (name, v) else e
    else obj ++ [(name, v)]
  setField_new _ h := if_neg h

/-- The two functions of a built-in type, told whether the type is an array or an optional of it.
Whatever is unpacked is packed again so that it unpacks to the same. -/
structure BuiltIn where
  unpack : Bytes → Bool → Bool → Option (Variant × Bytes)
  pack : Variant → Bool → Bool → Option Bytes
  unpack_nil : ∀ isArray isOptional, unpack [] isArray isOptional = none
  pack_of_unpack : ∀ {bs : Bytes} {isArray isOptional : Bool} {v : Variant} {rest : Bytes},
    unpack bs isArray isOptional = some (v, rest) →
    ∃ out, pack v isArray isOptional = some out ∧
      ∀ rest', unpack (out ++ rest') isArray isOptional = some (v, rest')

namespace RawType
variable {α : Type} (T : RawType α) (P : Packing)

def variantFromStream (bs : Bytes) : Option (Variant × Bytes) :=
  (T.unpack bs).map fun r => (T.toVariant r.1, r.2)

def variantFromVector (bound : Nat) (bs : Bytes) : Option (Variant × Bytes) :=
  (P.unpackVector T.toCodec bound bs).map fun r => (.array (r.1.map T.toVariant), r.2)

def optionalVariant : Option α → Variant
  | none => .null
  | some a => T.toVariant a

def variantFromOptional (bs : Bytes) : Option (Variant × Bytes) :=
  (P.unpackOptional T.toCodec bs).map fun r => (T.optionalVariant r.1, r.2)

def vectorOfVariant : Variant → Option (List α)
  | .array vars => vars.mapM T.ofVariant
  | _ => none

def optionalOfVariant : Variant → Option (Option α)
  | .null => some none
  | v => (T.ofVariant v).map some

lemma vectorOfVariant_array (as : List α) :
    T.vectorOfVariant (.array (as.map T.toVariant)) = some as := by
  change (as.map T.toVariant).mapM T.ofVariant = some as
  induction as with
  | nil => rfl
  | cons a as ih =>
    rw [List.map_cons, List.mapM_cons, T.ofVariant_toVariant, ih]
    rfl

lemma optionalOfVariant_optionalVariant (a : Option α) :
    T.optionalOfVariant (T.optionalVariant a) = some a := by
  cases a with
  | none => rfl
  | some a =>
    have hvalue : T.optionalOfVariant (T.toVariant a) = (T.ofVariant (T.toVariant a)).map some := by
      unfold optionalOfVariant
      split
      · rename_i hnull
        exact absurd hnull (T.toVariant_ne_null a)
      · rfl
    rw [optionalVariant, hvalue, T.ofVariant_toVariant]
    rfl

variable (bound : Nat) {bs rest : Bytes} {v : Variant}

def unpackVariant (bs : Bytes) (isArray isOptional : Bool) : Option (Variant × Bytes) :=
  if isArray then T.variantFromVector P bound bs
  else if isOptional then T.variantFromOptional P bs
  else T.variantFromStream bs

def packVariant (v : Variant) (isArray isOptional : Bool) : Option Bytes :=
  if isArray then (T.vectorOfVariant v).bind (P.packVector T.toCodec bound)
  else if isOptional then (T.optionalOfVariant v).map (P.packOptional T.pack)
  else (T.ofVariant v).map T.pack

lemma unpackVariant_nil (isArray isOptional : Bool) :
    T.unpackVariant P bound [] isArray isOptional = none := by
  have hraw : T.variantFromStream [] = none := by
    unfold variantFromStream
    rw [T.unpack_nil]
    rfl
  cases isArray with
  | true => simp [unpackVariant, variantFromVector, Packing.unpackVector, P.unpackSize_nil]
  | false =>
    cases isOptional with
    | true => simp [unpackVariant, variantFromOptional, Packing.unpackOptional, P.flag_nil]
    | false => exact hraw

lemma pack_of_vector (hbound : bound < 4294967296)
    (h : T.variantFromVector P bound bs = some (v, rest)) :
    ∃ out, (T.vectorOfVariant v).bind (P.packVector T.toCodec bound) = some out ∧
      ∀ rest', T.variantFromVector P bound (out ++ rest') = some (v, rest') := by
  obtain ⟨⟨as, rest₁⟩, hvec, h⟩ := Option.map_eq_some_iff.mp h
  cases h
  have hpack := P.packVector_of_unpackVector T.toCodec hvec
  refine ⟨P.packList T.pack as, ?_, fun rest' => ?_⟩
  · rw [vectorOfVariant_array, Option.bind_some]
    exact hpack
  · unfold variantFromVector
    rw [P.unpackVector_packVector T.toCodec hbound hpack]
    rfl

lemma pack_of_optional (h : T.variantFromOptional P bs = some (v, rest)) :
    ∃ out, (T.optionalOfVariant v).map (P.packOptional T.pack) = some out ∧
      ∀ rest', T.variantFromOptional P (out ++ rest') = some (v, rest') := by
  obtain ⟨⟨a, rest₁⟩, -, h⟩ := Option.map_eq_some_iff.mp h
  cases h
  refine ⟨P.packOptional T.pack a, ?_, fun rest' => ?_⟩
  · rw [optionalOfVariant_optionalVariant]
    rfl
  · unfold variantFromOptional
    rw [P.unpackOptional_pack]
    rfl

lemma pack_of_stream (h : T.variantFromStream bs = some (v, rest)) :
    ∃ out, (T.ofVariant v).map T.pack = some out ∧
      ∀ rest', T.variantFromStream (out ++ rest') = some (v, rest') := by
  obtain ⟨⟨a, rest₁⟩, -, h⟩ := Option.map_eq_some_iff.mp h
  cases h
  refine ⟨T.pack a, ?_, fun rest' => ?_⟩
  · rw [T.ofVariant_toVariant]
    rfl
  · unfold variantFromStream
    rw [T.unpack_pack]
    rfl

def packUnpack (hbound : bound < 4294967296) : BuiltIn where
  unpack := T.unpackVariant P bound
  pack := T.packVariant P bound
  unpack_nil := T.unpackVariant_nil P bound
  pack_of_unpack := by
    intro bs isArray isOptional v rest h
    cases isArray with
    | true => exact T.pack_of_vector P bound hbound h
    | false =>
      cases isOptional with
      | true => exact T.pack_of_optional P h
      | false => exact T.pack_of_stream h

end RawType

end DimensionChain
