import DimensionChain.Base.PairFrontier
import DimensionChain.Chain.HeaderChain
import DimensionChain.Chain.MerkleBinding

/-!
# The incremental tree and the tree of the whole list

The active nodes of an incremental tree begin with the frontier of the digests appended so far,
and the loop of `append` reads the frontier from its lowest level up. The depth that it counts
down is the number of levels of the whole tree, so `top` ends as the root of the longer list.
The block root, which the producers sign, is such a tree: it fixes all earlier blocks of a chain.
-/

namespace DimensionChain

open List PairTree Nat

variable {Key Sig : Type}

def Smears (x width v : Nat) : Prop :=
  ∀ i, v.testBit i = true ↔ ∃ j, i ≤ j ∧ j < i + width ∧ x.testBit j = true

lemma smears_self (x : Nat) : Smears x 1 x := by
  intro i
  constructor
  · intro h
    exact ⟨i, le_refl i, lt_succ_self i, h⟩
  · rintro ⟨j, hij, hji, hj⟩
    have heq : j = i := by omega
    rwa [heq] at hj

lemma Smears.double {x width v : Nat} (h : Smears x width v) :
    Smears x (2 * width) (v ||| v >>> width) := by
  intro i
  rw [testBit_or, testBit_shiftRight, Bool.or_eq_true, h i, h (width + i)]
  constructor
  · rintro (⟨j, hij, hji, hj⟩ | ⟨j, hij, hji, hj⟩)
    · exact ⟨j, hij, by omega, hj⟩
    · exact ⟨j, by omega, by omega, hj⟩
  rintro ⟨j, hij, hji, hj⟩
  by_cases hlow : j < i + width
  · exact .inl ⟨j, hij, hlow, hj⟩
  · exact .inr ⟨j, by omega, by omega, hj⟩

lemma Smears.eq_ones {x v : Nat} (h : Smears x 64 v) (hx : x < 2 ^ 64) :
    v = 2 ^ Nat.size x - 1 := by
  apply eq_of_testBit_eq
  intro i
  rw [testBit_two_pow_sub_one, Bool.eq_iff_iff, h i, decide_eq_true_eq, lt_size]
  constructor
  · rintro ⟨j, hij, -, hj⟩
    exact Nat.le_trans (Nat.pow_le_pow_right (by decide) hij) (Nat.ge_two_pow_of_testBit hj)
  intro hle
  obtain ⟨j, hij, hj⟩ := Nat.exists_ge_and_testBit_of_ge_two_pow hle
  have hj64 : 2 ^ j < 2 ^ 64 := Nat.lt_of_le_of_lt (Nat.ge_two_pow_of_testBit hj) hx
  have hlt : j < 64 := (Nat.pow_lt_pow_iff_right (by decide)).mp hj64
  exact ⟨j, hij, by omega, hj⟩

lemma nextPowerOf2_toNat (value : UInt64) :
    (nextPowerOf2 value).toNat = 2 ^ Nat.size (value - 1).toNat % 2 ^ 64 := by
  have hones : Smears (value - 1).toNat 64 (nextPowerOf2 value - 1).toNat := by
    have h₁ := (smears_self (value - 1).toNat).double.double.double.double.double.double
    unfold nextPowerOf2
    simpa using h₁
  have hone := hones.eq_ones (UInt64.toNat_lt _)
  have hpos : 0 < 2 ^ Nat.size (value - 1).toNat := Nat.two_pow_pos _
  have hback : nextPowerOf2 value = nextPowerOf2 value - 1 + 1 := by
    rw [UInt64.sub_add_cancel]
  rw [hback, UInt64.toNat_add, hone]
  have hone' : (1 : UInt64).toNat = 1 := rfl
  rw [hone', Nat.sub_add_cancel hpos]

lemma clzPower2_pow (k : Fin 64) : clzPower2 (UInt64.ofNat (2 ^ k.val)) = k.val := by
  revert k
  decide

lemma maxDepth_eq {count : UInt64} (h : count ≠ 0) :
    (calcluateMaxDepth count - 1).toNat = Nat.size (count.toNat - 1) := by
  have hpos : 0 < count.toNat := by
    rw [Nat.pos_iff_ne_zero]
    intro hzero
    exact h (UInt64.toNat_inj.mp hzero)
  have hsub : (count - 1).toNat = count.toNat - 1 := by
    apply UInt64.toNat_sub_of_le
    exact hpos
  have hpower := nextPowerOf2_toNat count
  rw [hsub] at hpower
  have hsize : size (count.toNat - 1) ≤ 64 := by
    apply size_le.mpr
    have hlt := UInt64.toNat_lt count
    omega
  have hclz : clzPower2 (nextPowerOf2 count) = size (count.toNat - 1) := by
    by_cases hfull : size (count.toNat - 1) = 64
    · have hzero : nextPowerOf2 count = 0 := by
        apply UInt64.toNat_inj.mp
        rw [hpower, hfull]
        rfl
      rw [hzero, hfull]
      decide
    have hlt : size (count.toNat - 1) < 64 := by omega
    have hpow : nextPowerOf2 count = UInt64.ofNat (2 ^ size (count.toNat - 1)) := by
      apply UInt64.toNat_inj.mp
      rw [hpower]
      rfl
    rw [hpow]
    exact clzPower2_pow ⟨_, hlt⟩
  unfold calcluateMaxDepth
  rw [if_neg h, hclz]
  omega

namespace IncrementalMerkle

/-- The collapse loop, which ends without a result when it would read past the active nodes. -/
def collapse? (C : Crypto Key Sig) :
    Nat → UInt64 → Digest → Bool → List Digest → List Digest → Option (Digest × List Digest)
  | 0, _, top, _, _, updated => some (top, updated)
  | depth + 1, index, top, partially, active, updated =>
    if index &&& 1 = 0 then
      collapse? C depth (index >>> 1)
        (C.pairDigest (makeCanonicalLeft top) (makeCanonicalRight top)) true active
        (if partially then updated else top :: updated)
    else
      match active with
      | [] => none
      | leftValue :: active =>
        collapse? C depth (index >>> 1)
          (C.pairDigest (makeCanonicalLeft leftValue) (makeCanonicalRight top)) partially active
          (if partially then leftValue :: updated else updated)

def append? (C : Crypto Key Sig) (m : IncrementalMerkle) (digest : Digest) :
    Option IncrementalMerkle :=
  let maxDepth := calcluateMaxDepth (m.nodeCount + 1)
  (collapse? C (maxDepth - 1).toNat m.nodeCount digest false m.activeNodes []).map
    fun (top, updated) =>
      { nodeCount := m.nodeCount + 1, activeNodes := (top :: updated).reverse }

variable {C : Crypto Key Sig} {m : IncrementalMerkle}

lemma collapse_eq_of_some {depth : Nat} {index : UInt64} {top : Digest}
    {partially : Bool} {active updated : List Digest} {r : Digest × List Digest}
    (h : collapse? C depth index top partially active updated = some r) :
    collapse C depth index top partially active updated = r := by
  induction depth generalizing index top partially active updated with
  | zero => exact Option.some.inj h
  | succ depth ih =>
    unfold collapse? at h
    unfold collapse
    split at h
    · rename_i heven
      rw [if_pos heven]
      exact ih h
    rename_i hodd
    rw [if_neg hodd]
    cases active with
    | nil => cases h
    | cons leftValue active => exact ih h

lemma append_eq_of_some {m m' : IncrementalMerkle} {digest : Digest}
    (h : m.append? C digest = some m') : m.append C digest = m' := by
  obtain ⟨r, hr, rfl⟩ := Option.map_eq_some_iff.mp h
  unfold append
  dsimp only
  rw [collapse_eq_of_some hr]

lemma index_even_iff (index : UInt64) : index &&& 1 = 0 ↔ index.toNat % 2 = 0 := by
  rw [← UInt64.toNat_inj, UInt64.toNat_and]
  change index.toNat &&& 1 = 0 ↔ _
  rw [and_one_is_mod]

lemma index_half (index : UInt64) : (index >>> 1).toNat = index.toNat / 2 := by
  rw [UInt64.toNat_shiftRight]
  exact shiftRight_eq_div_pow _ 1

/-- The nodes of a level that are full, with the node of the new leaf after them: what the loop makes
of them in the remaining levels. -/
lemma collapse?_spec (C : Crypto Key Sig) (rest : List Digest) (depth : Nat) (index : UInt64)
    (full : List Digest) (top : Digest) (partially : Bool) (updated : List Digest)
    (hindex : index.toNat = full.length) (hlow : full.length < 2 ^ depth)
    (hhigh : 2 ^ depth ≤ 2 * full.length + 1) : ∃ updated', collapse? C depth index top partially
        (PairTree.frontier (canonicalNode C) full ++ rest) updated =
        some (PairTree.root (canonicalNode C) default (full ++ [top]).length (full ++ [top]),
          updated') ∧ (partially = true → updated'.reverse =
        updated.reverse ++ PairTree.frontier (canonicalNode C) full) ∧
      (partially = false → ∃ rest', updated'.reverse ++
          [PairTree.root (canonicalNode C) default (full ++ [top]).length (full ++ [top])] =
        updated.reverse ++ PairTree.frontier (canonicalNode C) (full ++ [top]) ++ rest') := by
  induction depth generalizing index full top partially updated with
  | zero =>
    have hnil : full = [] := length_eq_zero_iff.mp (by simpa using hlow)
    subst hnil
    refine ⟨updated, rfl, by simp, ?_⟩
    intro _
    have hone : frontier (canonicalNode C) ([] ++ [top]) = [top] := by
      rw [frontier_snoc_even (by rfl), frontier_nil]
    rw [hone]
    simp [root]
  | succ depth ih =>
    unfold collapse?
    by_cases heven : index &&& 1 = 0
    · -- a left node: its right sibling is implied
      have hmod : full.length % 2 = 0 := hindex ▸ (index_even_iff index).mp heven
      have hlevel : level (canonicalNode C) (full ++ [top]) =
          pairs (canonicalNode C) full ++ [canonicalNode C top top] :=
        (pairs_append_even hmod [top]).2
      have hhalf := length_pairs (canonicalNode C) full
      rw [if_pos heven, frontier_even hmod,
        root_level (by rw [length_append, length_singleton]; omega), hlevel]
      obtain ⟨updated', hrun, hpart, -⟩ := ih (index >>> 1)
        (pairs (canonicalNode C) full) (canonicalNode C top top) true
        (if partially then updated else top :: updated)
        (by rw [index_half, hindex, hhalf]) (by omega) (by omega)
      refine ⟨updated', hrun, ?_, ?_⟩
      · intro hp
        rw [hpart rfl, if_pos hp]
      intro hp
      generalize root (canonicalNode C) default _ _ = root
      rw [hpart rfl, hp, frontier_snoc_even hmod, frontier_even hmod]
      exact ⟨[root], by simp⟩
    -- a right node: its left sibling is the lowest node of the frontier
    have hmod : ¬ full.length % 2 = 0 :=
      fun hzero => heven ((index_even_iff index).mpr (hindex ▸ hzero))
    obtain ⟨front, left, rfl⟩ : ∃ front left, full = front ++ [left] := by
      rcases eq_nil_or_concat full with hnil | ⟨front, left, hfull⟩
      · rw [hnil] at hmod
        simp at hmod
      · exact ⟨front, left, by rw [hfull, concat_eq_append]⟩
    rw [length_append, length_singleton] at hmod hlow hhigh hindex
    have hfront : front.length % 2 = 0 := by omega
    have hlevel : level (canonicalNode C) (front ++ [left] ++ [top]) =
        pairs (canonicalNode C) front ++ [canonicalNode C left top] := by
      rw [append_assoc]
      exact (pairs_append_even hfront [left, top]).2
    have hfull := length_pairs (canonicalNode C) front
    rw [if_neg heven, frontier_snoc_even hfront, frontier_even hfront,
      root_level
        (by simp only [length_append, length_singleton]; omega), hlevel]
    obtain ⟨updated', hrun, hpart, hwhole⟩ := ih (index >>> 1)
      (pairs (canonicalNode C) front) (canonicalNode C left top) partially
      (if partially then left :: updated else updated)
      (by rw [index_half, hindex, hfull]; omega) (by omega) (by omega)
    refine ⟨updated', hrun, ?_, ?_⟩
    · intro hp
      rw [hpart hp, if_pos hp]
      simp
    intro hp
    obtain ⟨rest', hrest⟩ := hwhole hp
    rw [frontier_snoc_odd hfront]
    refine ⟨rest', ?_⟩
    rw [hrest, hp]
    rfl

structure Holds (C : Crypto Key Sig) (m : IncrementalMerkle) (ids : List Digest) : Prop where
  count : m.nodeCount.toNat = ids.length
  frontier : ∃ rest, m.activeNodes = PairTree.frontier (canonicalNode C) ids ++ rest
  root : m.getRoot = merkle C ids

lemma holds_empty (C : Crypto Key Sig) : Holds C {} [] where
  count := rfl
  frontier := ⟨[], by rw [frontier_nil]; rfl⟩
  root := rfl

lemma two_pow_size_le (n : Nat) : 2 ^ Nat.size n ≤ 2 * n + 1 := by
  cases hk : size n with
  | zero => omega
  | succ k =>
    have hle : 2 ^ k ≤ n := lt_size.mp (by omega)
    omega

lemma Holds.append? {ids : List Digest}
    (h : Holds C m ids) (digest : Digest) (hlen : ids.length + 1 < 2 ^ 64) :
    ∃ m', m.append? C digest = some m' ∧ Holds C m' (ids ++ [digest]) := by
  obtain ⟨rest, hactive⟩ := h.frontier
  have hcount : (m.nodeCount + 1).toNat = ids.length + 1 := by
    rw [UInt64.toNat_add, h.count]
    exact mod_eq_of_lt hlen
  have hne : m.nodeCount + 1 ≠ 0 := by
    intro hzero
    rw [hzero] at hcount
    simp at hcount
  have hdepth : (calcluateMaxDepth (m.nodeCount + 1) - 1).toNat = size ids.length := by
    rw [maxDepth_eq hne, hcount]
    rfl
  obtain ⟨updated, hrun, -, hwhole⟩ := collapse?_spec C rest (size ids.length) m.nodeCount ids
    digest false [] h.count (lt_size_self _) (two_pow_size_le _)
  obtain ⟨rest', hrest⟩ := hwhole rfl
  have hroot : PairTree.root (canonicalNode C) default (ids ++ [digest]).length (ids ++ [digest]) =
      merkle C (ids ++ [digest]) := (merkleLoop_eq C _ _).symm
  rw [hroot] at hrun hrest
  rw [reverse_nil, nil_append] at hrest
  have hnodes : (merkle C (ids ++ [digest]) :: updated).reverse =
      PairTree.frontier (canonicalNode C) (ids ++ [digest]) ++ rest' := by
    rw [reverse_cons, hrest]
  refine ⟨⟨m.nodeCount + 1, (merkle C (ids ++ [digest]) :: updated).reverse⟩, ?_, ?_, ?_, ?_⟩
  · unfold IncrementalMerkle.append?
    dsimp only
    rw [hdepth, hactive, hrun]
    rfl
  · rw [length_append, length_singleton]
    exact hcount
  · exact ⟨rest', hnodes⟩
  have hpos : m.nodeCount + 1 > 0 := by
    apply UInt64.lt_iff_toNat_lt.mpr
    rw [hcount]
    exact succ_pos _
  unfold getRoot
  rw [if_pos hpos, reverse_cons, List.getLast?_append]
  rfl

def appendAll? (C : Crypto Key Sig) (m : IncrementalMerkle) (ids : List Digest) :
    Option IncrementalMerkle :=
  ids.foldlM (fun m digest => m.append? C digest) m

lemma Holds.appendAll? {old : List Digest}
    (h : Holds C m old) (ids : List Digest) (hlen : old.length + ids.length < 2 ^ 64) :
    ∃ m', m.appendAll? C ids = some m' ∧ ids.foldl (append C) m = m' ∧ Holds C m' (old ++ ids) := by
  induction ids generalizing m old with
  | nil => exact ⟨m, rfl, rfl, by simpa using h⟩
  | cons digest ids ih =>
    rw [length_cons] at hlen
    obtain ⟨m₁, hm₁, hold⟩ := h.append? digest (by omega)
    obtain ⟨m', hm', hfold, hnew⟩ := ih hold
      (by rw [length_append, length_singleton]; omega)
    rw [append_assoc] at hnew
    refine ⟨m', ?_, ?_, hnew⟩
    · unfold IncrementalMerkle.appendAll?
      rw [foldlM_cons, hm₁]
      exact hm'
    · rw [foldl_cons, append_eq_of_some hm₁]
      exact hfold

/-- The root of the tree grown digest by digest is the root of the whole list, and no append reads
past the active nodes. -/
theorem append_all_merkle (C : Crypto Key Sig) (ids : List Digest) (hlen : ids.length < 2 ^ 64) :
    ({} : IncrementalMerkle).appendAll? C ids = some (ids.foldl (append C) {}) ∧
      (ids.foldl (append C) {}).getRoot = merkle C ids ∧
      (ids.foldl (append C) {}).nodeCount.toNat = ids.length := by
  obtain ⟨m, hm, hfold, hholds⟩ := (holds_empty C).appendAll? ids (by simpa using hlen)
  rw [hfold]
  exact ⟨hm, hholds.root, hholds.count⟩

theorem append_all_merkle_five :
    (List.map wordDigest [1, 2, 3, 4, 5]).length < 2 ^ 64 ∧
      ((List.map wordDigest [1, 2, 3, 4, 5]).foldl (append plainCrypto) {}).getRoot =
        merkle plainCrypto (List.map wordDigest [1, 2, 3, 4, 5]) :=
  ⟨by decide, (append_all_merkle plainCrypto _ (by decide)).2.1⟩

end IncrementalMerkle

namespace BlockHeaderState

def earlierIds (s : BlockHeaderState Key Sig) (bs : List (BlockHeaderState Key Sig)) :
    List BlockId :=
  (s :: bs).dropLast.map (·.id)

variable [Inhabited Sig] [DecidableEq Key] {C : Crypto Key Sig}
  {P : BlockHeaderState Key Sig → SignedBlockHeader Key Sig → Prop}
  {s s' t t' : BlockHeaderState Key Sig} {bs bs' : List (BlockHeaderState Key Sig)}

lemma next_blockroot {h : SignedBlockHeader Key Sig} {skip : Bool}
    (hn : s.next C h skip = .ok t) : t.blockrootMerkle = s.blockrootMerkle.append C s.id := by
  obtain ⟨-, -, -, prokey, -, -, -, -, ha⟩ := next_cases hn
  have hkept : ∀ g : BlockHeaderState Key Sig,
      (g.afterPromotion h.confirmed).blockrootMerkle = g.blockrootMerkle := by
    intro g
    unfold afterPromotion maybePromotePending
    split <;> rfl
  rcases adopt_cases ha with ⟨-, rfl⟩ | ⟨sch, r, -, -, hr, rfl⟩
  · exact hkept _
  · obtain ⟨-, -, rfl⟩ := setNewProducers_ok_iff.mp hr
    exact hkept _

lemma holds_earlierIds (hrun : Trace (Accepts C P) s bs t) (hempty : s.blockrootMerkle = {})
    (hlen : bs.length < 2 ^ 64) : t.blockrootMerkle.Holds C (s.earlierIds bs) := by
  unfold earlierIds
  induction hrun with
  | nil => exact hempty ▸ IncrementalMerkle.holds_empty C
  | @snoc t r bs hrun hstep ih =>
    rw [length_append, length_singleton] at hlen
    obtain ⟨h, skip, hn, -⟩ := hstep
    obtain ⟨m, hm, hnew⟩ := (ih (by omega)).append? t.id (by simpa using hlen)
    have hlast : t ∈ (s :: bs).getLast? := by
      rw [getLast?_cons, hrun.last_eq]
      rfl
    rw [next_blockroot hn, IncrementalMerkle.append_eq_of_some hm, ← cons_append, dropLast_concat,
      ← dropLast_append_getLast? t hlast, map_append]
    exact hnew

/-- The root is that of the ids of all earlier blocks, and in two chains of one length it is the
same only where these ids are. -/
theorem blockroot_commits (hrun : Trace (Accepts C P) s bs t)
    (hrun' : Trace (Accepts C P) s' bs' t') (hempty : s.blockrootMerkle = {})
    (hempty' : s'.blockrootMerkle = {}) (hlen : bs.length < 2 ^ 64)
    (hsame : bs.length = bs'.length) :
    t.blockrootMerkle.getRoot = merkle C (s.earlierIds bs) ∧
      (CollisionFree C (s.earlierIds bs) (s'.earlierIds bs') →
        (t.blockrootMerkle.getRoot = t'.blockrootMerkle.getRoot ↔
          s.earlierIds bs = s'.earlierIds bs')) := by
  have hroot := (holds_earlierIds hrun hempty hlen).root
  have hroot' := (holds_earlierIds hrun' hempty' (hsame ▸ hlen)).root
  refine ⟨hroot, ?_⟩
  intro hfree
  rw [hroot, hroot']
  exact hfree.merkle_eq_iff_of_length (by simp [earlierIds, hsame])

theorem blockroot_commits_two : ∃ t t', Trace (Accepts plainCrypto fun _ _ => True) plainGenesis
      (plainGenesis.build [⟨2, 0, none⟩, ⟨4, 0, none⟩]) t ∧
    Trace (Accepts plainCrypto fun _ _ => True) plainGenesis
      (plainGenesis.build [⟨3, 0, none⟩, ⟨4, 0, none⟩]) t' ∧
    t.blockrootMerkle.getRoot ≠ t'.blockrootMerkle.getRoot := by
  have h := trace_of_builds (fun _ _ => true) (P := fun _ _ => True) (fun _ _ _ => trivial)
    plainGenesis [⟨2, 0, none⟩, ⟨4, 0, none⟩] (by decide +kernel)
  have h' := trace_of_builds (fun _ _ => true) (P := fun _ _ => True) (fun _ _ _ => trivial)
    plainGenesis [⟨3, 0, none⟩, ⟨4, 0, none⟩] (by decide +kernel)
  refine ⟨_, _, h, h', fun heq => ?_⟩
  exact absurd (((blockroot_commits h h' rfl rfl (by decide +kernel) (by decide +kernel)).2
    ⟨by decide +kernel, by decide +kernel, by decide +kernel⟩).mp heq) (by decide +kernel)

end BlockHeaderState

end DimensionChain
