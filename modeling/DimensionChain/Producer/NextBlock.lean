import DimensionChain.Producer.Plugin

/-!
# The next turn of a producer

Slots are dealt out in groups of twelve, one group for each producer of the schedule in turn. The
plugin computes the first slot of a producer from a given slot on by going ahead from the group of
that slot, with the number of groups in unsigned arithmetic.
-/

namespace DimensionChain.ProducerState
open Nat List Config

variable {Key Sig : Type}

section Source
variable (s : ProducerState Key Sig)

def minimumOffset (producerName : AccountName) : Nat :=
  match s.producerWatermarks.find? producerName with
  | none => 1
  | some watermark =>
    let blockNum := if s.pending.isSome then u32 (s.head.blockNum + 1) else s.head.blockNum
    if watermark > blockNum then u32 (sub32 watermark blockNum + 1) else 1

/-- The slot that `calculate_next_block_time` returns the time of, for a producer with this index
in a schedule of this size. -/
def nextBlockSlot (size producerIndex minimumSlot : Nat) : Nat :=
  let minimumSlotProducerIndex :=
    minimumSlot % (size * producerRepetitions) / producerRepetitions
  if producerIndex = minimumSlotProducerIndex then minimumSlot
  else
    let producerDistance := sub64 producerIndex minimumSlotProducerIndex
    -- check for unsigned underflow
    let producerDistance :=
      if producerDistance > producerIndex then (producerDistance + size) % 2 ^ 64
      else producerDistance
    let firstMinimumProducerSlot := sub32 minimumSlot (minimumSlot % producerRepetitions)
    u32 (firstMinimumProducerSlot + producerDistance * producerRepetitions)

def calculateNextBlockTime (producerName : AccountName) (currentSlot : Nat) : Option Int :=
  let activeSchedule := s.head.activeSchedule.producers
  match activeSchedule.findIdx? fun asp => asp.producerName = producerName with
  | none => none
  | some producerIndex =>
    some (blockTime (nextBlockSlot activeSchedule.length producerIndex
      (u32 (currentSlot + s.minimumOffset producerName))))

def HasSlot (producerName : AccountName) (slot : Nat) : Prop :=
  (s.head.getScheduledProducer slot).map (fun p => p.producerName) = some producerName

end Source

section Turns
variable {size index slot : Nat}

def turn (size slot : Nat) : Nat := slot / producerRepetitions % size

lemma index_eq_turn (size slot : Nat) :
    slot % (size * producerRepetitions) / producerRepetitions = turn size slot :=
  mod_mul_left_div_self _ _ _

def turnsTo (size slot index : Nat) : Nat :=
  if index < turn size slot then index + size - turn size slot else index - turn size slot

lemma turnsTo_spec (hindex : index < size) (groups : Nat) :
    (slot / producerRepetitions + groups) % size = index →
      turnsTo size slot index ≤ groups := by
  intro hgroups
  rw [← mod_add_mod] at hgroups
  change (turn size slot + groups) % size = index at hgroups
  unfold turnsTo
  by_cases hsum : turn size slot + groups < size
  · rw [mod_eq_of_lt hsum] at hgroups
    split <;> omega
  · rw [mod_eq_sub_mod (not_lt.mp hsum)] at hgroups
    have hle := mod_le (turn size slot + groups - size) size
    split <;> omega

lemma turn_turnsTo (hindex : index < size) :
    (slot / producerRepetitions + turnsTo size slot index) % size = index := by
  have hpos : 0 < size := zero_lt_of_lt hindex
  have hlt : turn size slot < size := mod_lt _ hpos
  rw [← mod_add_mod]
  change (turn size slot + turnsTo size slot index) % size = index
  unfold turnsTo
  split
  · have hsum : turn size slot + (index + size - turn size slot) = index + size := by omega
    rw [hsum, add_mod_right, mod_eq_of_lt hindex]
  · have hsum : turn size slot + (index - turn size slot) = index := by omega
    rw [hsum, mod_eq_of_lt hindex]

def firstSlot (size slot index : Nat) : Nat :=
  if index = turn size slot then slot
  else (slot / producerRepetitions + turnsTo size slot index) * producerRepetitions

lemma firstSlot_spec (slot : Nat) (hindex : index < size) :
    slot ≤ firstSlot size slot index ∧ turn size (firstSlot size slot index) = index ∧
      ∀ m, slot ≤ m → turn size m = index → firstSlot size slot index ≤ m := by
  have hreps : producerRepetitions = 12 := rfl
  unfold firstSlot
  by_cases heq : index = turn size slot
  · rw [if_pos heq]
    exact ⟨le_refl _, heq.symm, fun m hm _ => hm⟩
  rw [if_neg heq]
  have hlt : turn size slot < size := mod_lt _ (zero_lt_of_lt hindex)
  have hsome : 0 < turnsTo size slot index := by
    unfold turnsTo
    split <;> omega
  refine ⟨?_, ?_, ?_⟩
  · rw [hreps]
    omega
  · unfold turn
    rw [Nat.mul_div_cancel _ (by decide)]
    exact turn_turnsTo hindex
  intro m hm hturn
  have hdiv : slot / producerRepetitions ≤ m / producerRepetitions :=
    Nat.div_le_div_right hm
  obtain ⟨groups, hgroups⟩ := Nat.exists_eq_add_of_le hdiv
  have hle := turnsTo_spec hindex groups (by rw [← hgroups]; exact hturn)
  rw [hreps] at hdiv hgroups ⊢
  omega

lemma distance_eq (hindex : index < size) (hsize : size < 2 ^ 64) :
    (if sub64 index (turn size slot) > index then (sub64 index (turn size slot) + size) % 2 ^ 64
      else sub64 index (turn size slot)) = turnsTo size slot index := by
  have hlt : turn size slot < size := mod_lt _ (zero_lt_of_lt hindex)
  unfold turnsTo sub64
  generalize turn size slot = t at hlt
  rw [mod_eq_of_lt (lt_trans hlt hsize)]
  by_cases hunder : index < t
  · have hwrap : (index + (2 ^ 64 - t)) % 2 ^ 64 = index + (2 ^ 64 - t) :=
      mod_eq_of_lt (by omega)
    rw [hwrap, if_pos hunder, if_pos (by omega)]
    have hsum : index + (2 ^ 64 - t) + size = index + size - t + 2 ^ 64 := by omega
    rw [hsum, add_mod_right]
    exact mod_eq_of_lt (by omega)
  · have hsum : index + (2 ^ 64 - t) = index - t + 2 ^ 64 := by omega
    rw [hsum, add_mod_right, mod_eq_of_lt (by omega), if_neg hunder, if_neg (by omega)]

lemma nextBlockSlot_eq (hindex : index < size) (hsize : size < 2 ^ 64)
    (hfits : firstSlot size slot index < 4294967296) :
    nextBlockSlot size index slot = firstSlot size slot index := by
  obtain ⟨hle, -, -⟩ := firstSlot_spec slot hindex
  unfold nextBlockSlot
  rw [index_eq_turn]
  dsimp only
  rw [distance_eq hindex hsize]
  unfold firstSlot at hfits hle ⊢
  by_cases heq : index = turn size slot
  · rw [if_pos heq, if_pos heq]
  rw [if_neg heq] at hfits hle ⊢
  rw [if_neg heq]
  have hreps : producerRepetitions = 12 := rfl
  rw [hreps] at hfits hle ⊢
  have haligned : sub32 slot (slot % 12) = slot - slot % 12 :=
    sub32_eq (mod_le _ _) (by omega)
  rw [haligned]
  have hsum : slot - slot % 12 + turnsTo size slot index * 12 =
      (slot / 12 + turnsTo size slot index) * 12 := by omega
  rw [hsum, u32_eq hfits]

end Turns

variable {s : ProducerState Key Sig} {producerName : AccountName} {index : Nat}

lemma hasSlot_iff (hnames : (s.head.activeSchedule.producers.map fun p => p.producerName).Nodup)
    (hindex : index < s.head.activeSchedule.producers.length)
    (hname : (s.head.activeSchedule.producers[index]).producerName = producerName) (slot : Nat) :
    s.HasSlot producerName slot ↔ turn s.head.activeSchedule.producers.length slot = index := by
  have hpos := zero_lt_of_lt hindex
  have hlt : turn s.head.activeSchedule.producers.length slot <
      s.head.activeSchedule.producers.length := mod_lt _ hpos
  unfold HasSlot BlockHeaderState.getScheduledProducer
  rw [if_neg (ne_of_gt hpos), index_eq_turn, getElem?_eq_getElem hlt, Option.map_some,
    Option.some.injEq, ← hname]
  constructor
  · intro hsame
    rw [nodup_iff_injective_getElem] at hnames
    have hfin := @hnames ⟨_, by simpa using hlt⟩ ⟨index, by simpa using hindex⟩ (by simpa using hsame)
    exact congrArg Fin.val hfin
  · intro hturn
    simp [hturn]

/-- `calculate_next_block_time` returns the time of the first slot of the producer that is not
before the current slot and the offset for its watermark, if that is a slot of 32 bits, and nothing
for a producer out of the schedule. -/
theorem calculateNextBlockTime_least (s : ProducerState Key Sig) (producerName : AccountName)
    (currentSlot : Nat)
    (hnames : (s.head.activeSchedule.producers.map fun p => p.producerName).Nodup)
    (hsize : s.head.activeSchedule.producers.length < 2 ^ 64) :
    (producerName ∉ s.head.activeSchedule.producers.map (fun p => p.producerName) →
      s.calculateNextBlockTime producerName currentSlot = none) ∧
    (producerName ∈ s.head.activeSchedule.producers.map (fun p => p.producerName) → ∃ slot, IsLeast
          {m | currentSlot + s.minimumOffset producerName ≤ m ∧ s.HasSlot producerName m} slot ∧
        (slot < 4294967296 →
          s.calculateNextBlockTime producerName currentSlot = some (blockTime slot))) := by
  constructor
  · intro hout
    have hnone : s.head.activeSchedule.producers.findIdx?
        (fun asp => asp.producerName = producerName) = none := by
      rw [findIdx?_eq_none_iff]
      intro p hp
      rw [decide_eq_false_iff_not]
      intro hname
      exact hout (mem_map.mpr ⟨p, hp, hname⟩)
    unfold calculateNextBlockTime
    dsimp only
    rw [hnone]
  intro hin
  obtain ⟨p, hp, hpname⟩ := mem_map.mp hin
  have hsome : (s.head.activeSchedule.producers.findIdx?
      (fun asp => asp.producerName = producerName)).isSome := by
    rw [findIdx?_isSome, any_eq_true]
    exact ⟨p, hp, decide_eq_true hpname⟩
  obtain ⟨index, hfound⟩ := Option.isSome_iff_exists.mp hsome
  obtain ⟨hindex, hname, -⟩ := findIdx?_eq_some_iff_getElem.mp hfound
  have hturn := hasSlot_iff hnames hindex (of_decide_eq_true hname)
  obtain ⟨hle, hat, hleast⟩ :=
    firstSlot_spec (currentSlot + s.minimumOffset producerName) hindex
  refine ⟨_, ⟨⟨hle, (hturn _).mpr hat⟩, ?_⟩, ?_⟩
  · intro m hm
    exact hleast m hm.1 ((hturn m).mp hm.2)
  intro hfits
  unfold calculateNextBlockTime
  dsimp only
  rw [hfound, u32_eq (lt_of_le_of_lt hle hfits)]
  dsimp only
  rw [nextBlockSlot_eq hindex hsize hfits]

def waitingProducer : ProducerState Nat Nat where
  producerWatermarks := FlatMap.empty.set 3 12
  head :=
    { blockNum := 4, header := { producerSignature := 9 }, blockSigningKey := 9
      activeSchedule := { producers := [⟨3, 30⟩, ⟨5, 50⟩, ⟨7, 70⟩] } }

theorem calculateNextBlockTime_least_waiting : waitingProducer.calculateNextBlockTime 9 40 = none ∧
    waitingProducer.calculateNextBlockTime 3 40 = some (blockTime 72) ∧
    ∃ slot, IsLeast {m | 40 + waitingProducer.minimumOffset 3 ≤ m ∧ waitingProducer.HasSlot 3 m}
        slot ∧ (slot < 4294967296 →
        waitingProducer.calculateNextBlockTime 3 40 = some (blockTime slot)) := by
  have hnames : (waitingProducer.head.activeSchedule.producers.map
      fun p => p.producerName).Nodup := by decide
  have hsize : waitingProducer.head.activeSchedule.producers.length < 2 ^ 64 := by decide
  obtain ⟨hout, -⟩ := calculateNextBlockTime_least waitingProducer 9 40 hnames hsize
  obtain ⟨-, hin⟩ := calculateNextBlockTime_least waitingProducer 3 40 hnames hsize
  exact ⟨hout (by decide), by decide +kernel, hin (by decide)⟩

end DimensionChain.ProducerState
