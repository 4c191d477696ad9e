import DimensionChain.Base.Bytes

/-!
# Packed sizes, vectors and optionals

A vector is its size and its elements, an optional a flag and its value. How a size and a flag are
packed is left open; one way is seven bits of a size to a byte, lowest first, with the top bit set
on every byte but the last, and a byte for a flag.
-/

namespace DimensionChain

open List Option

/-- Neither is read from no bytes, and the flag of an absent value is a zero byte. -/
structure Packing where
  size : Codec UInt32
  flag : Codec Bool
  size_nil : size.unpack [] = none
  flag_nil : flag.unpack [] = none
  flag_false : flag.pack false = [0]

namespace Packing
variable (P : Packing) {α : Type} {as : List α} {bs rest : Bytes} {n bound : Nat}

def packSize (n : Nat) : Bytes := P.size.pack (UInt32.ofNat n)

def unpackSize (bs : Bytes) : Option (Nat × Bytes) :=
  (P.size.unpack bs).map fun r => (r.1.toNat, r.2)

lemma unpackSize_packSize (h : n < 4294967296) (rest : Bytes) :
    P.unpackSize (P.packSize n ++ rest) = some (n, rest) := by
  rw [unpackSize, packSize, P.size.unpack_pack, map_some, UInt32.toNat_ofNat_of_lt' h]

lemma unpackSize_nil : P.unpackSize [] = none := by
  rw [unpackSize, P.size_nil, map_none]

lemma unpackSize_lt (h : P.unpackSize bs = some (n, rest)) : n < 4294967296 := by
  obtain ⟨r, -, hr⟩ := map_eq_some_iff.mp h
  cases hr
  exact r.1.toNat_lt

def packList (pack : α → Bytes) (as : List α) : Bytes :=
  P.packSize as.length ++ (as.map pack).flatten

def packOptional (pack : α → Bytes) : Option α → Bytes
  | none => P.flag.pack false
  | some a => P.flag.pack true ++ pack a

variable (c : Codec α)

def unpackMany : Nat → Bytes → Option (List α × Bytes)
  | 0, bs => some ([], bs)
  | n + 1, bs => do
    let (a, bs) ← c.unpack bs
    let (as, bs) ← unpackMany n bs
    pure (a :: as, bs)

lemma unpackMany_pack (as : List α) (rest : Bytes) :
    unpackMany c as.length ((as.map c.pack).flatten ++ rest) = some (as, rest) := by
  induction as with
  | nil => rfl
  | cons a as ih =>
    rw [map_cons, flatten_cons, append_assoc, length_cons, unpackMany,
      c.unpack_pack]
    simp [ih]

lemma length_of_unpackMany (h : unpackMany c n bs = some (as, rest)) : as.length = n := by
  induction n generalizing bs as with
  | zero =>
    cases h
    rfl
  | succ n ih =>
    obtain ⟨⟨a, bs₁⟩, -, h⟩ := bind_eq_some_iff.mp h
    obtain ⟨⟨as₁, bs₂⟩, hmany, h⟩ := bind_eq_some_iff.mp h
    cases h
    rw [length_cons, ih hmany]

/-- A vector of more than `bound` elements is neither packed nor unpacked. -/
def packVector (bound : Nat) (as : List α) : Option Bytes :=
  if as.length ≤ bound then some (P.packList c.pack as) else none

def unpackVector (bound : Nat) (bs : Bytes) : Option (List α × Bytes) := do
  let (size, bs) ← P.unpackSize bs
  if size ≤ bound then unpackMany c size bs else none

lemma unpackVector_packVector (hbound : bound < 4294967296)
    {out : Bytes} (h : P.packVector c bound as = some out) (rest : Bytes) :
    P.unpackVector c bound (out ++ rest) = some (as, rest) := by
  unfold packVector at h
  by_cases hlen : as.length ≤ bound
  · rw [if_pos hlen] at h
    cases h
    unfold unpackVector packList
    rw [append_assoc, P.unpackSize_packSize (by omega)]
    simp [hlen, unpackMany_pack]
  · rw [if_neg hlen] at h
    cases h

lemma packVector_of_unpackVector (h : P.unpackVector c bound bs = some (as, rest)) :
    P.packVector c bound as = some (P.packList c.pack as) := by
  obtain ⟨⟨size, bs₁⟩, -, h⟩ := bind_eq_some_iff.mp h
  dsimp only at h
  split at h
  · rename_i hle
    unfold packVector
    rw [if_pos (length_of_unpackMany c h ▸ hle)]
  · cases h

def unpackOptional (bs : Bytes) : Option (Option α × Bytes) := do
  let (present, bs) ← P.flag.unpack bs
  if present then (c.unpack bs).map fun r => (some r.1, r.2) else some (none, bs)

lemma unpackOptional_pack (a : Option α) (rest : Bytes) :
    P.unpackOptional c (P.packOptional c.pack a ++ rest) = some (a, rest) := by
  cases a with
  | none => simp [packOptional, unpackOptional, P.flag.unpack_pack]
  | some a => simp [packOptional, unpackOptional, P.flag.unpack_pack, c.unpack_pack]

end Packing

namespace Bytes

def ofVaruintAux : Nat → Nat → Bytes
  | 0, _ => []
  | k + 1, n =>
    if n < 128 then [UInt8.ofNat n] else UInt8.ofNat (n % 128 + 128) :: ofVaruintAux k (n / 128)

def ofVaruint (n : Nat) : Bytes := ofVaruintAux 5 (n % 4294967296)

def toVaruintAux : Nat → Bytes → Option (Nat × Bytes)
  | 0, bs => some (0, bs)
  | _ + 1, [] => none
  | k + 1, b :: bs =>
    if b.toNat < 128 then some (b.toNat, bs)
    else (toVaruintAux k bs).map fun r => (b.toNat - 128 + 128 * r.1, r.2)

def toVaruint (bs : Bytes) : Option (Nat × Bytes) :=
  (toVaruintAux 5 bs).map fun r => (r.1 % 4294967296, r.2)

lemma toVaruintAux_ofVaruintAux {k n : Nat} (h : n < 128 ^ k) (rest : Bytes) :
    toVaruintAux k (ofVaruintAux k n ++ rest) = some (n, rest) := by
  induction k generalizing n with
  | zero =>
    rw [Nat.pow_zero, Nat.lt_one_iff] at h
    subst h
    rfl
  | succ k ih =>
    unfold ofVaruintAux
    by_cases hn : n < 128
    · have hbyte : (UInt8.ofNat n).toNat = n := UInt8.toNat_ofNat_of_lt' (Nat.lt_trans hn (by decide))
      rw [if_pos hn, singleton_append, toVaruintAux, hbyte, if_pos hn]
    have hbyte : (UInt8.ofNat (n % 128 + 128)).toNat = n % 128 + 128 := by
      apply UInt8.toNat_ofNat_of_lt'
      change n % 128 + 128 < 256
      omega
    rw [if_neg hn, cons_append, toVaruintAux, hbyte, if_neg (by omega), ih (by omega),
      map_some]
    congr 2
    omega

lemma toVaruint_ofVaruint {n : Nat} (h : n < 4294967296) (rest : Bytes) :
    toVaruint (ofVaruint n ++ rest) = some (n, rest) := by
  have hpow : n < 128 ^ 5 := Nat.lt_trans h (by decide)
  unfold toVaruint ofVaruint
  rw [Nat.mod_eq_of_lt h, toVaruintAux_ofVaruintAux hpow, map_some]
  rw [Nat.mod_eq_of_lt h]

end Bytes

def sizeCodec : Codec UInt32 where
  pack n := Bytes.ofVaruint n.toNat
  unpack bs := (Bytes.toVaruint bs).map fun r => (UInt32.ofNat r.1, r.2)
  unpack_pack n rest := by
    rw [Bytes.toVaruint_ofVaruint n.toNat_lt, map_some, UInt32.ofNat_toNat]

def flagCodec : Codec Bool where
  pack b := [if b then 1 else 0]
  unpack
    | [] => none
    | b :: bs => if b = 0 then some (false, bs) else if b = 1 then some (true, bs) else none
  unpack_pack b rest := by cases b <;> rfl

def bytePacking : Packing := ⟨sizeCodec, flagCodec, rfl, rfl, rfl⟩

end DimensionChain
