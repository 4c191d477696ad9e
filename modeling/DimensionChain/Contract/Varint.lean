import DimensionChain.Base.Packing
import DimensionChain.Contract.Library

/-!
# Variable-length integers of the contracts

Both kinds are written seven bits to a byte, a signed integer after its sign has been moved to the
lowest bit. Reading it back shifts the highest of the 32 bits down onto the lowest one, as if the
number read were signed, so an integer past 31 bits comes back changed.
-/

namespace DimensionChain.Varint

open Bytes BitVec

def writeUnsigned (value : UInt32) : Bytes := ofVaruint value.toNat

def zigzag (value : Int32) : UInt32 := ((value <<< 1) ^^^ (value >>> 31)).toUInt32

def writeSigned (value : Int32) : Bytes := ofVaruint (zigzag value).toNat

/-- The loop of both readers: the low bits of a byte are shifted as a number of 32 bits. -/
def get : Bytes → Nat → Nat → Result (Nat × Bytes)
  | [], _, _ => .error ⟨.eosioAssertMessage, "get"⟩
  | b :: ds, v, shift =>
    let v := v ||| (b.toNat % 128) <<< (shift % 32) % 2 ^ 32
    if 128 ≤ b.toNat then get ds v (shift + 7) else .ok (v, ds)

def readUnsigned (ds : Bytes) : Result (UInt32 × Bytes) := do
  let (v, ds) ← get ds 0 0
  pure (UInt32.ofNat v, ds)

def signed (v magnitude : UInt32) : Int32 :=
  let value := (magnitude + (v &&& 1)).toInt32
  Int32.neg (if v &&& 1 ≠ 0 then value else -value)

def readSigned (ds : Bytes) : Result (Int32 × Bytes) := do
  let (v, ds) ← get ds 0 0
  let v := UInt32.ofNat v
  pure (signed v ((v >>> 1) ^^^ (v >>> 31)), ds)

variable {v k n shift : Nat} {rest : Bytes}

lemma get_cons {b : UInt8} {ds : Bytes} (hv : v < 2 ^ shift) (hs : shift < 32)
    (hfit : v + b.toNat % 128 * 2 ^ shift < 2 ^ 32) : get (b :: ds) v shift =
      if 128 ≤ b.toNat then get ds (v + b.toNat % 128 * 2 ^ shift) (shift + 7)
      else .ok (v + b.toNat % 128 * 2 ^ shift, ds) := by
  rw [get, Nat.mod_eq_of_lt hs, Nat.shiftLeft_eq, Nat.mod_eq_of_lt (a := _ * _) (by omega),
    Nat.or_comm, Nat.mul_comm, ← Nat.two_pow_add_eq_or_of_lt hv, Nat.add_comm]

lemma get_ofVaruintAux (hk : 0 < k) (hn : n < 128 ^ k) (hv : v < 2 ^ shift) (hs : shift < 32)
    (hfit : v + n * 2 ^ shift < 2 ^ 32) :
    get (ofVaruintAux k n ++ rest) v shift = .ok (v + n * 2 ^ shift, rest) := by
  induction k generalizing n v shift with
  | zero => exact absurd hk (by decide)
  | succ k ih =>
    rw [ofVaruintAux]
    by_cases hlast : n < 128
    · have hbyte : (UInt8.ofNat n).toNat % 128 = n := by
        rw [UInt8.toNat_ofNat']
        omega
      rw [if_pos hlast, List.singleton_append, get_cons hv hs (by rwa [hbyte]), hbyte, if_neg]
      rw [UInt8.toNat_ofNat']
      omega
    have hbyte : (UInt8.ofNat (n % 128 + 128)).toNat = n % 128 + 128 := by
      rw [UInt8.toNat_ofNat']
      omega
    have hlow : (n % 128 + 128) % 128 = n % 128 := by omega
    -- the low bits, and the others shifted by seven more
    have hpow : 2 ^ (shift + 7) = 2 ^ shift * 128 := Nat.pow_add 2 shift 7
    have hsplit : n * 2 ^ shift = n % 128 * 2 ^ shift + n / 128 * 2 ^ (shift + 7) := by
      rw [hpow, Nat.mul_comm (2 ^ shift), ← Nat.mul_assoc, ← Nat.add_mul]
      congr 1
      omega
    have hless : n % 128 * 2 ^ shift ≤ 127 * 2 ^ shift := Nat.mul_le_mul_right _ (by omega)
    have hmore : 1 * 2 ^ (shift + 7) ≤ n / 128 * 2 ^ (shift + 7) :=
      Nat.mul_le_mul_right _ (by omega)
    have hs' : shift + 7 < 32 := (Nat.pow_lt_pow_iff_right (by decide : 1 < 2)).mp (by omega)
    have hk' : 0 < k := by
      apply Nat.pos_of_ne_zero
      rintro rfl
      omega
    rw [if_neg hlast, List.cons_append, get_cons hv hs (by rw [hbyte, hlow]; omega), hbyte,
      if_pos (by omega), hlow, ih hk' (by omega) (by omega) hs' (by omega), Nat.add_assoc, ← hsplit]

lemma get_ofVaruint (value : UInt32) (rest : Bytes) :
    get (ofVaruint value.toNat ++ rest) 0 0 = .ok (value.toNat, rest) := by
  have hlt := value.toNat_lt
  rw [ofVaruint, Nat.mod_eq_of_lt hlt,
    get_ofVaruintAux (by decide) (Nat.lt_trans hlt (by decide)) (by decide) (by decide) (by omega),
    Nat.zero_add, pow_zero, Nat.mul_one]

lemma signed_inj {v a b : UInt32} (h : signed v a = signed v b) : a = b := by
  have h' : (a + (v &&& 1)).toInt32 = (b + (v &&& 1)).toInt32 := by
    unfold signed at h
    split at h
    · exact Int32.neg_inj.mp h
    · exact Int32.neg_inj.mp (Int32.neg_inj.mp h)
  exact (UInt32.add_left_inj _).mp (congrArg Int32.toUInt32 h')

lemma toNat_zigzag (value : Int32) : (zigzag value).toNat =
    if value.toBitVec.toNat < 2 ^ 31 then 2 * value.toBitVec.toNat
    else 2 ^ 33 - 1 - 2 * value.toBitVec.toNat := by
  have hbits : (zigzag value).toBitVec = value.toBitVec <<< 1 ^^^ value.toBitVec.sshiftRight 31 :=
    rfl
  rw [← UInt32.toNat_toBitVec, hbits]
  generalize value.toBitVec = x
  have hmsb := msb_eq_decide x
  have hzero : ∀ y : BitVec 32, y.toNat < 2 ^ 31 → y >>> 31 = 0#32 := by
    intro y hy
    apply eq_of_toNat_eq
    rw [toNat_ushiftRight, Nat.shiftRight_eq_div_pow]
    exact Nat.div_eq_of_lt hy
  split
  · rw [decide_eq_false (by omega)] at hmsb
    rw [sshiftRight_eq_of_msb_false hmsb, hzero x (by omega), xor_zero,
      toNat_shiftLeft, Nat.shiftLeft_eq]
    omega
  rw [decide_eq_true (by omega)] at hmsb
  have hnot := toNat_not (x := x)
  rw [sshiftRight_eq_of_msb_true hmsb, hzero (~~~x) (by omega), not_zero,
    xor_allOnes, toNat_not, toNat_shiftLeft, Nat.shiftLeft_eq]
  omega

lemma signed_zigzag (value : Int32) : signed (zigzag value) (zigzag value >>> 1) = value := by
  have hz := toNat_zigzag value
  have hlt := value.toBitVec.isLt
  have hbit : (zigzag value &&& 1).toNat = (zigzag value).toNat % 2 := by
    rw [UInt32.toNat_and]
    exact Nat.and_one_is_mod _
  have hsum : (zigzag value >>> 1 + (zigzag value &&& 1)).toNat =
      (zigzag value).toNat / 2 + (zigzag value).toNat % 2 := by
    rw [UInt32.toNat_add, hbit, UInt32.toNat_shiftRight, Nat.shiftRight_eq_div_pow]
    change ((zigzag value).toNat / 2 + _) % 2 ^ 32 = _
    have hlt' := (zigzag value).toNat_lt
    omega
  apply Int32.toBitVec_inj.mp
  apply eq_of_toNat_eq
  unfold signed
  split
  · rename_i hodd
    have hodd' : (zigzag value).toNat % 2 ≠ 0 :=
      fun heq => hodd (UInt32.toNat_inj.mp (hbit.trans heq))
    change (-(zigzag value >>> 1 + (zigzag value &&& 1)).toBitVec).toNat = _
    rw [toNat_neg, UInt32.toNat_toBitVec, hsum]
    split at hz <;> omega
  rename_i heven
  rw [not_not.mp heven] at hbit
  change (- -(zigzag value >>> 1 + (zigzag value &&& 1)).toBitVec).toNat = _
  rw [neg_neg, UInt32.toNat_toBitVec, hsum]
  change 0 = _ at hbit
  split at hz <;> omega

/-- An unsigned integer is always read back, a signed one exactly if it has no more than 31 bits. -/
theorem varints_read_back (n : UInt32) (m : Int32) (rest : Bytes) :
    readUnsigned (writeUnsigned n ++ rest) = .ok (n, rest) ∧
      (readSigned (writeSigned m ++ rest) = .ok (m, rest) ↔
        -2 ^ 30 ≤ m.toInt ∧ m.toInt < 2 ^ 30) := by
  constructor
  · rw [readUnsigned, writeUnsigned, get_ofVaruint]
    exact congrArg (fun n => Except.ok (n, rest)) (UInt32.ofNat_toNat)
  rw [readSigned, writeSigned, get_ofVaruint]
  change Except.ok (signed (.ofNat (zigzag m).toNat) _, rest) = _ ↔ _
  rw [UInt32.ofNat_toNat]
  have hrange : zigzag m >>> 31 = 0 ↔ -2 ^ 30 ≤ m.toInt ∧ m.toInt < 2 ^ 30 := by
    have hz := toNat_zigzag m
    have hlt := m.toBitVec.isLt
    have hint : m.toInt = _ := toInt_eq_toNat_cond m.toBitVec
    rw [← UInt32.toNat_inj, UInt32.toNat_shiftRight, Nat.shiftRight_eq_div_pow]
    change (zigzag m).toNat / 2 ^ 31 = 0 ↔ _
    split at hz <;> split at hint <;> omega
  rw [← hrange]
  constructor
  · intro heq
    have hsame := signed_inj ((Prod.mk.inj (Except.ok.inj heq)).1.trans (signed_zigzag m).symm)
    have hxor := congrArg (zigzag m >>> 1 ^^^ ·) hsame
    simpa [← UInt32.xor_assoc] using hxor
  · intro hzero
    rw [hzero, UInt32.xor_zero, signed_zigzag]

theorem int_of_31_bits_changes : readSigned (writeSigned 1073741824) = .ok (1073741825, []) := by
  decide +kernel

end DimensionChain.Varint
