import DimensionChain.Chain.Types

/-!
# The incremental merkle tree of block ids

`append` collapses from the new leaf upwards: at an even index the right sibling is
implied by the left one, at an odd index the left sibling is read from the active
nodes of the previous tree.
-/

namespace DimensionChain

def makeCanonicalLeft (val : Digest) : Digest :=
  { val with hash0 := val.hash0 &&& 0xFFFFFFFFFFFFFF7F }

def makeCanonicalRight (val : Digest) : Digest :=
  { val with hash0 := val.hash0 ||| 0x0000000000000080 }

def nextPowerOf2 (value : UInt64) : UInt64 :=
  let v := value - 1
  let v := v ||| (v >>> 1)
  let v := v ||| (v >>> 2)
  let v := v ||| (v >>> 4)
  let v := v ||| (v >>> 8)
  let v := v ||| (v >>> 16)
  let v := v ||| (v >>> 32)
  v + 1

def clzPower2 (value : UInt64) : Int :=
  let off (mask : UInt64) (n : Int) : Int := if value &&& mask ≠ 0 then n else 0
  64 - (if value ≠ 0 then 1 else 0) - off 0x00000000FFFFFFFF 32 - off 0x0000FFFF0000FFFF 16
    - off 0x00FF00FF00FF00FF 8 - off 0x0F0F0F0F0F0F0F0F 4 - off 0x3333333333333333 2
    - off 0x5555555555555555 1

/-- The source's `calcluate_max_depth`, with its spelling. -/
def calcluateMaxDepth (nodeCount : UInt64) : Int :=
  if nodeCount = 0 then 0 else clzPower2 (nextPowerOf2 nodeCount) + 1

structure IncrementalMerkle where
  nodeCount : UInt64 := 0
  activeNodes : List Digest := []
  deriving DecidableEq, Repr, Inhabited

namespace IncrementalMerkle
variable {Key Sig : Type}

/-- The collapse loop; the first argument counts `current_depth` down. The result is the
final `top` and the updated active nodes, last pushed first. -/
def collapse (C : Crypto Key Sig) :
    Nat → UInt64 → Digest → Bool → List Digest → List Digest → Digest × List Digest
  | 0, _, top, _, _, updated => (top, updated)
  | depth + 1, index, top, partially, active, updated =>
    if index &&& 1 = 0 then
      collapse C depth (index >>> 1)
        (C.pairDigest (makeCanonicalLeft top) (makeCanonicalRight top)) true active
        (if partially then updated else top :: updated)
    else
      let leftValue := active.headD default
      collapse C depth (index >>> 1)
        (C.pairDigest (makeCanonicalLeft leftValue) (makeCanonicalRight top)) partially
        active.tail (if partially then leftValue :: updated else updated)

def append (C : Crypto Key Sig) (m : IncrementalMerkle) (digest : Digest) : IncrementalMerkle :=
  let maxDepth := calcluateMaxDepth (m.nodeCount + 1)
  let (top, updated) := collapse C (maxDepth - 1).toNat m.nodeCount digest false m.activeNodes []
  { nodeCount := m.nodeCount + 1, activeNodes := (top :: updated).reverse }

def getRoot (m : IncrementalMerkle) : Digest :=
  if m.nodeCount > 0 then m.activeNodes.getLast?.getD default else default

end IncrementalMerkle

end DimensionChain
