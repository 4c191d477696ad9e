import Mathlib

/-!
# Bytes

Words of a fixed width, lowest byte first, reads at a position of a file, and values that are
packed so that they can be read back from the front of any bytes.
-/

namespace DimensionChain

abbrev Bytes := List UInt8

namespace Bytes

def ofWord : Nat → Nat → Bytes
  | 0, _ => []
  | width + 1, n => UInt8.ofNat n :: ofWord width (n / 256)

def toWord : Bytes → Nat
  | [] => 0
  | b :: bs => b.toNat + 256 * toWord bs

@[simp] lemma length_ofWord (width n : Nat) : (ofWord width n).length = width := by
  induction width generalizing n with
  | zero => rfl
  | succ width ih => rw [ofWord, List.length_cons, ih]

lemma toWord_ofWord {width n : Nat} (h : n < 256 ^ width) : toWord (ofWord width n) = n := by
  induction width generalizing n with
  | zero =>
    rw [Nat.pow_zero, Nat.lt_one_iff] at h
    exact h.symm
  | succ width ih =>
    rw [Nat.pow_succ] at h
    rw [ofWord, toWord, ih (by omega), UInt8.toNat_ofNat']
    omega

/-- `len` bytes of a file at a position. A read past the end fails. -/
def readAt (file : Bytes) (pos len : Nat) : Option Bytes :=
  if pos + len ≤ file.length then some ((file.drop pos).take len) else none

def readWord (file : Bytes) (pos width : Nat) : Option Nat := (file.readAt pos width).map toWord

lemma readAt_append (before bytes after : Bytes) :
    readAt (before ++ (bytes ++ after)) before.length bytes.length = some bytes := by
  unfold readAt
  rw [if_pos (by simp), List.drop_left, List.take_left]

lemma readAt_eq {file before bytes after : Bytes} {pos len : Nat}
    (hfile : file = before ++ (bytes ++ after)) (hpos : before.length = pos)
    (hlen : bytes.length = len) : file.readAt pos len = some bytes := by
  subst hfile hpos hlen
  exact readAt_append before bytes after

lemma readAt_take (file : Bytes) {pos len cut : Nat} (h : pos + len ≤ cut) :
    readAt (file.take cut) pos len = readAt file pos len := by
  unfold readAt
  rw [List.length_take, List.drop_take, List.take_take,
    Nat.min_eq_left (show len ≤ cut - pos by omega)]
  exact if_congr (by omega) rfl rfl

lemma readWord_eq {file : Bytes} (before after : Bytes) {pos width n : Nat} (hn : n < 256 ^ width)
    (hfile : file = before ++ (ofWord width n ++ after)) (hpos : before.length = pos) :
    file.readWord pos width = some n := by
  unfold readWord
  rw [readAt_eq hfile hpos (length_ofWord width n), Option.map_some, toWord_ofWord hn]

lemma readWord_front {width n : Nat} (hn : n < 256 ^ width) (after : Bytes) :
    (ofWord width n ++ after).readWord 0 width = some n :=
  readWord_eq [] after hn rfl rfl

end Bytes

/-- A packed form of the values of a type. What is read back is the value and the bytes after. -/
structure Codec (α : Type) where
  pack : α → Bytes
  unpack : Bytes → Option (α × Bytes)
  unpack_pack : ∀ a rest, unpack (pack a ++ rest) = some (a, rest)

end DimensionChain
