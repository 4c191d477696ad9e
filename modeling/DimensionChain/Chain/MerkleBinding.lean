import DimensionChain.Base.PairTree
import DimensionChain.Chain.PendingBlock

/-!
# What a merkle root binds

Two lists of digests have one root exactly if they are equal once both are filled: `merkle` closes
an odd level by repeating its last node, and so it does not see the difference between a list
and the same list with its end repeated.
-/

namespace DimensionChain

open PairTree List

variable {Key Sig : Type}

def canonicalNode (C : Crypto Key Sig) (l r : Digest) : Digest :=
  C.pairDigest (makeCanonicalLeft l) (makeCanonicalRight r)

def merklePairs (C : Crypto Key Sig) (ids : List Digest) : List (Digest × Digest) :=
  PairTree.rootPairs (canonicalNode C) ids.length ids

/-- The leaves of the tree that `merkle` folds. The root of an empty list is that of the zero
digest alone. -/
def merkleLeaves (ids : List Digest) : List Digest := PairTree.filled default ids

structure CollisionFree (C : Crypto Key Sig) (l m : List Digest) : Prop where
  injective : ∀ p ∈ merklePairs C l ++ merklePairs C m, ∀ q ∈ merklePairs C l ++ merklePairs C m,
    C.pairDigest (makeCanonicalLeft p.1) (makeCanonicalRight p.2) =
      C.pairDigest (makeCanonicalLeft q.1) (makeCanonicalRight q.2) →
    makeCanonicalLeft p.1 = makeCanonicalLeft q.1 ∧ makeCanonicalRight p.2 = makeCanonicalRight q.2
  /-- No two nodes differ in the bit of the side alone. -/
  canonical : ∀ p ∈ merklePairs C l ++ merklePairs C m, ∀ q ∈ merklePairs C l ++ merklePairs C m,
    ∀ a ∈ [p.1, p.2], ∀ b ∈ [q.1, q.2], makeCanonicalLeft a = makeCanonicalLeft b → a = b
  leaves : ∀ d ∈ merkleLeaves l ++ merkleLeaves m, ∀ p ∈ merklePairs C l ++ merklePairs C m,
    d ≠ C.pairDigest (makeCanonicalLeft p.1) (makeCanonicalRight p.2)

variable (C : Crypto Key Sig)
include C

lemma merkleLevel_eq (ids : List Digest) :
    merkleLevel C ids = PairTree.level (canonicalNode C) ids := by
  induction ids using merkleLevel.induct with
  | case1 => rfl
  | case2 a => rfl
  | case3 a b rest ih =>
    rw [merkleLevel, ih]
    rfl

lemma merkleLoop_eq (fuel : Nat) (ids : List Digest) :
    merkleLoop C fuel ids = PairTree.root (canonicalNode C) default fuel ids := by
  induction fuel generalizing ids with
  | zero => rfl
  | succ fuel ih =>
    unfold merkleLoop PairTree.root
    rw [ih, merkleLevel_eq]

lemma merkle_eq_fold (ids : List Digest) :
    merkle C ids = (PairTree.build default ids).fold (canonicalNode C) := by
  rw [fold_build]
  exact merkleLoop_eq C _ ids

omit C

lemma makeCanonicalLeft_right (d : Digest) :
    makeCanonicalLeft (makeCanonicalRight d) = makeCanonicalLeft d := by
  have hword : ∀ x : UInt64,
      (x ||| 0x0000000000000080) &&& 0xFFFFFFFFFFFFFF7F = x &&& 0xFFFFFFFFFFFFFF7F := by
    intro x
    apply UInt64.toBitVec_inj.mp
    rw [UInt64.toBitVec_and, UInt64.toBitVec_or, UInt64.toBitVec_and, BitVec.and_or_distrib_right]
    exact BitVec.or_zero
  unfold makeCanonicalLeft makeCanonicalRight
  simp [hword]

lemma merkleLeaves_injective {l m : List Digest} (hlen : l.length = m.length)
    (h : merkleLeaves l = merkleLeaves m) : l = m := by
  cases l with
  | nil => exact (length_eq_zero_iff.mp hlen.symm).symm
  | cons a l =>
    obtain ⟨b, m, rfl⟩ := exists_cons_of_length_eq_add_one hlen.symm
    have hl : a :: l <+: merkleLeaves (a :: l) := PairTree.prefix_fillFrom _ _ _
    have hm : b :: m <+: merkleLeaves (b :: m) := PairTree.prefix_fillFrom _ _ _
    rw [← h] at hm
    exact (prefix_of_prefix_length_le hl hm hlen.le).eq_of_length hlen

namespace CollisionFree
variable {C : Crypto Key Sig} {l m : List Digest}

lemma node_injective (h : CollisionFree C l m) {p q : Digest × Digest}
    (hp : p ∈ merklePairs C l ++ merklePairs C m) (hq : q ∈ merklePairs C l ++ merklePairs C m)
    (heq : canonicalNode C p.1 p.2 = canonicalNode C q.1 q.2) : p = q := by
  obtain ⟨hleft, hright⟩ := h.injective p hp q hq heq
  have hright' : makeCanonicalLeft p.2 = makeCanonicalLeft q.2 := by
    rw [← makeCanonicalLeft_right p.2, hright, makeCanonicalLeft_right]
  apply Prod.ext
  · exact h.canonical p hp q hq p.1 (by simp) q.1 (by simp) hleft
  · exact h.canonical p hp q hq p.2 (by simp) q.2 (by simp) hright'

lemma merkle_eq_iff (h : CollisionFree C l m) :
    merkle C l = merkle C m ↔ merkleLeaves l = merkleLeaves m := by
  rw [merkle_eq_fold, merkle_eq_fold]
  unfold merkleLeaves
  rw [← build_eq_iff]
  constructor
  · apply eq_of_fold (J := fun p => p ∈ merklePairs C l ++ merklePairs C m)
      (L := fun x => x ∈ merkleLeaves l ++ merkleLeaves m)
    · intro p q hp hq
      exact h.node_injective hp hq
    · intro x p hx hp
      exact h.leaves x hx p hp
    · intro p hp
      exact mem_append_left _ (joined_build default l p hp)
    · intro p hp
      exact mem_append_right _ (joined_build default m p hp)
    · intro x hx
      rw [(build_filled default l).2] at hx
      exact mem_append_left _ hx
    · intro x hx
      rw [(build_filled default m).2] at hx
      exact mem_append_right _ hx
  · intro heq
    rw [heq]

lemma merkle_eq_iff_of_length (h : CollisionFree C l m) (hlen : l.length = m.length) :
    merkle C l = merkle C m ↔ l = m := by
  rw [h.merkle_eq_iff]
  exact ⟨merkleLeaves_injective hlen, congrArg merkleLeaves⟩

end CollisionFree

/-- A root binds its list, and so a block id binds the digests of the transactions, exactly
as far as the filled lists differ. -/
theorem merkle_binds_iff (C : Crypto Key Sig) (l m : List Digest) (h : CollisionFree C l m) :
    ((l ≠ m → merkle C l ≠ merkle C m) ↔ (l ≠ m → merkleLeaves l ≠ merkleLeaves m)) ∧
      ((∀ b b' : BlockHeader Key, (b.id C = b'.id C → b = b') →
          b.transactionMroot = merkle C l → b'.transactionMroot = merkle C m →
          b.id C = b'.id C → l = m) ↔ (l ≠ m → merkleLeaves l ≠ merkleLeaves m)) := by
  have hroots : (l ≠ m → merkle C l ≠ merkle C m) ↔
      (l ≠ m → merkleLeaves l ≠ merkleLeaves m) := by
    apply imp_congr_right
    intro _
    exact not_congr h.merkle_eq_iff
  refine ⟨hroots, ?_⟩
  rw [← hroots]
  constructor
  · intro hbinds hne heq
    -- one header has the root of both lists
    exact hne (hbinds { transactionMroot := merkle C l } { transactionMroot := merkle C l }
      (fun _ => rfl) rfl heq rfl)
  intro hbinds b b' hinj hb hb' hid
  by_contra hne
  apply hbinds hne
  rw [← hb, ← hb', hinj hid]

def wordDigest (n : UInt64) : Digest := ⟨0, n, 0, 0⟩

/-- The repeated last digest is not seen. -/
theorem repeated_end_same_root :
    CollisionFree plainCrypto (map wordDigest [1, 2, 8]) (map wordDigest [1, 2, 8, 8]) ∧
      map wordDigest [1, 2, 8] ≠ map wordDigest [1, 2, 8, 8] ∧
      merkle plainCrypto (map wordDigest [1, 2, 8]) =
        merkle plainCrypto (map wordDigest [1, 2, 8, 8]) :=
  ⟨⟨by decide +kernel, by decide +kernel, by decide +kernel⟩, by decide, by decide⟩

theorem other_end_other_root :
    merkle plainCrypto (map wordDigest [1, 2, 8]) ≠
      merkle plainCrypto (map wordDigest [1, 2, 32]) :=
  (merkle_binds_iff plainCrypto _ _
    ⟨by decide +kernel, by decide +kernel, by decide +kernel⟩).1.mpr (fun _ => by decide) (by decide)

end DimensionChain
