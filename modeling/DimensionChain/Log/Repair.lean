import DimensionChain.Log.Reopening

/-!
# Repairing the block log

`repair_log` copies the blocks of a log to a new one, up to the first that does not unpack or is not
followed by its position, or up to the block it is told to stop at. What it logs and the file with
the bytes of the tail are left out.
-/

namespace DimensionChain.BlockFiles
open List Bytes RecordLog

variable {Key Sig Block Genesis : Type} (F : LogFormat Key Sig Block Genesis)

/-- The header, copied, and the bytes after it. A header that is cut short fails. -/
def repairFront (file : Bytes) : Result (Bytes × Bytes) := do
  let version ← stream (file.readWord 0 4)
  eosAssert (version > 0) .blockLog "Block log was not setup properly"
  eosAssert (minSupportedVersion ≤ version ∧ version ≤ maxSupportedVersion)
    .blockLogUnsupportedVersion "Unsupported version of block log. Block log version is $\x7bversion\x7d while code supports version(s) [$\x7bmin\x7d,$\x7bmax\x7d]"
  if version ≠ 1 then
    let firstBlockNum ← stream (file.readWord 4 4)
    let (gs, input) ← stream (F.genesis.unpack (file.drop 8))
    let totem ← stream (input.readWord 0 8)
    eosAssert (totem = npos) .blockLog
      "Expected separator between block log header and blocks was not found( expected: $\x7be\x7d, actual: $\x7ba\x7d )"
    pure (Bytes.ofWord 4 version ++ (Bytes.ofWord 4 firstBlockNum ++ (F.genesis.pack gs ++
      Bytes.ofWord 8 totem)), input.drop 8)
  else
    let (gs, input) ← stream (F.genesis.unpack (file.drop 4))
    pure (Bytes.ofWord 4 version ++ F.genesis.pack gs, input)

def trailingPos (endPos : Nat) (input : Bytes) : Nat :=
  if endPos - input.length + 8 ≤ endPos then (input.readWord 0 8).getD npos else npos

/-- The loop over the blocks. The position comes from the new log, and the bytes `input` from the
old one, which ends at `endPos`. -/
def repairLoop (endPos truncateAtBlock : Nat) : Nat → Nat → Bytes → Bytes →
    Result Bytes
  | 0, _, _, _ => .error ⟨.undefined, "the loop does not end"⟩
  | rounds + 1, pos, input, log =>
    if pos < endPos then
      match F.block.unpack input with
      | none => .ok log
      | some (tmp, input) =>
        if pos ≠ trailingPos endPos input then .ok log
        else
          let log := log ++ (F.block.pack tmp ++ Bytes.ofWord 8 pos)
          if (F.signed tmp).blockNum = truncateAtBlock then .ok log
          else repairLoop endPos truncateAtBlock rounds log.length (input.drop 8) log
    else .ok log

def repairLog (file : Bytes) (truncateAtBlock : Nat) : Result Bytes := do
  let (log, input) ← repairFront F file
  repairLoop F file.length truncateAtBlock (file.length + 1) (file.length - input.length) input log

def stopAt (k : Nat) : List Block → List Block
  | [] => []
  | b :: bs => if (F.signed b).blockNum = k then [b] else b :: stopAt k bs

variable {F} {gs : Genesis} {first k : Nat} {bs : List Block}

lemma stopAt_eq (bs : List Block) : ∀ m, (∀ i b, bs[i]? = some b → (F.signed b).blockNum = m + i) →
      stopAt F k bs = if k < m then bs else bs.filter fun b => (F.signed b).blockNum ≤ k := by
  induction bs with
  | nil => simp [stopAt]
  | cons b bs ih =>
    intro m hnum
    have hb : (F.signed b).blockNum = m := hnum 0 b rfl
    have hrest : ∀ i c, bs[i]? = some c → (F.signed c).blockNum = m + 1 + i := by
      intro i c hc
      rw [hnum (i + 1) c hc]
      omega
    rw [stopAt, ih (m + 1) hrest, hb]
    rcases Nat.lt_trichotomy m k with hlt | heq | hgt
    · simp [hb, Nat.ne_of_lt hlt, Nat.le_of_lt hlt, Nat.not_lt.mpr hlt, Nat.not_lt.mpr hlt.le]
    · subst heq
      have hnone : bs.filter (fun c => (F.signed c).blockNum ≤ m) = [] := by
        rw [filter_eq_nil_iff]
        intro c hc
        obtain ⟨i, hi⟩ := mem_iff_getElem?.mp hc
        simp [hrest i c hi]
        omega
      simp [hb, hnone]
    · simp [hgt, Nat.ne_of_gt hgt, Nat.lt_succ_of_lt hgt]

variable (F) in
/-- What is left of a packed block that is cut does not unpack. -/
def PrefixFails : Prop :=
  ∀ b p, p <+: F.block.pack b → p ≠ F.block.pack b → F.block.unpack p = none

lemma repairLoop_cut {b : Block} {rest log : Bytes} {rounds pos c : Nat} (hfails : PrefixFails F)
    (hc : c < (F.block.pack b).length + 8) (hpos : pos < 2 ^ 63) :
    repairLoop F (pos + ((F.block.pack b ++ (Bytes.ofWord 8 pos ++ rest)).take c).length) k
      (rounds + 1) pos ((F.block.pack b ++ (Bytes.ofWord 8 pos ++ rest)).take c) log = .ok log := by
  rw [repairLoop]
  split
  · by_cases hblock : c < (F.block.pack b).length
    · have hcut : F.block.unpack ((F.block.pack b ++ (ofWord 8 pos ++ rest)).take c) = none := by
        rw [take_append_of_le_length hblock.le]
        apply hfails b _ (List.take_prefix c _)
        intro h
        have := congrArg List.length h
        rw [length_take] at this
        omega
      rw [hcut]
    rw [take_append, take_of_length_le (by omega), F.block.unpack_pack]
    have hshort : ((ofWord 8 pos ++ rest).take (c - (F.block.pack b).length)).length < 8 := by
      rw [length_take]
      omega
    generalize (ofWord 8 pos ++ rest).take (c - (F.block.pack b).length) = input at hshort
    have htrailing : trailingPos (pos + (F.block.pack b ++ input).length) input = npos :=
      if_neg (by rw [length_append]; omega)
    dsimp only
    rw [htrailing, if_pos (by unfold npos; omega)]
  · rfl

lemma repairLoop_layout (hfails : PrefixFails F) (bs : List Block) :
    ∀ rounds pos c log, ((layout pos (records F bs)).take c).length < rounds →
      log.length = pos → RecordLog.next pos (records F bs) < 2 ^ 63 → ∃ n ≤ bs.length,
        (∀ i < bs.length, RecordLog.next pos ((records F bs).take (i + 1)) ≤ pos + c ↔ i < n) ∧
        repairLoop F (pos + ((layout pos (records F bs)).take c).length) k rounds pos
          ((layout pos (records F bs)).take c) log =
          .ok (log ++ layout pos (records F (stopAt F k (bs.take n)))) := by
  induction bs with
  | nil =>
    intro rounds pos c log hrounds _ _
    obtain ⟨rounds, rfl⟩ : ∃ r, rounds = r + 1 := ⟨rounds - 1, by omega⟩
    refine ⟨0, Nat.le_refl 0, by simp, ?_⟩
    simp [records, layout, repairLoop, stopAt]
  | cons b bs ih =>
    intro rounds pos c log hrounds hlog hsize
    obtain ⟨rounds, rfl⟩ : ∃ r, rounds = r + 1 := ⟨rounds - 1, by omega⟩
    have hrecords : records F (b :: bs) = F.block.pack b :: records F bs := rfl
    have hpos : pos < 2 ^ 63 := Nat.lt_of_le_of_lt le_next hsize
    rw [hrecords, layout, append_assoc] at hrounds ⊢
    by_cases hc : c < (F.block.pack b).length + 8
    · refine ⟨0, Nat.zero_le _, ?_, ?_⟩
      · intro i _
        rw [take_succ_cons, next_cons]
        have : pos + (F.block.pack b).length + 8 ≤ RecordLog.next
          (pos + (F.block.pack b).length + 8) ((records F bs).take i) := le_next
        omega
      · rw [repairLoop_cut hfails hc hpos]
        simp [records, stopAt, layout]
    rw [hrecords, next_cons] at hsize
    have hnext : (log ++ (F.block.pack b ++ ofWord 8 pos)).length =
        pos + (F.block.pack b).length + 8 := by
      simp only [length_append, length_ofWord, hlog]
      omega
    have htake : (F.block.pack b ++ (ofWord 8 pos ++
        layout (pos + (F.block.pack b).length + 8) (records F bs))).take c =
        F.block.pack b ++ (ofWord 8 pos ++ (layout
          (pos + (F.block.pack b).length + 8) (records F bs)).take
            (c - ((F.block.pack b).length + 8))) := by
      rw [take_append, take_of_length_le (by omega), take_append,
        take_of_length_le (by rw [length_ofWord]; omega), length_ofWord,
        Nat.sub_sub]
    rw [htake] at hrounds ⊢
    simp only [length_append, length_ofWord] at hrounds
    obtain ⟨n, hn, hiff, hloop⟩ := ih rounds _ (c - ((F.block.pack b).length + 8))
      (log ++ (F.block.pack b ++ ofWord 8 pos)) (by omega) hnext hsize
    refine ⟨n + 1, by simp; omega, ?_, ?_⟩
    · intro i hi
      rw [take_succ_cons, next_cons]
      cases i with
      | zero => simp; omega
      | succ i =>
        have hi := hiff i (by simp at hi; omega)
        rw [show pos + (F.block.pack b).length + 8 + (c - ((F.block.pack b).length + 8)) =
          pos + c by omega] at hi
        rw [hi]
        omega
    generalize (layout (pos + (F.block.pack b).length + 8) (records F bs)).take
      (c - ((F.block.pack b).length + 8)) = input at hloop
    rw [repairLoop, if_pos (by simp only [length_append, length_ofWord]; omega),
      F.block.unpack_pack]
    have htrailing : trailingPos (pos + (F.block.pack b ++ (ofWord 8 pos ++ input)).length)
        (ofWord 8 pos ++ input) = pos := by
      unfold trailingPos
      rw [if_pos (by simp only [length_append, length_ofWord]; omega),
        readWord_front (by omega), Option.getD_some]
    dsimp only
    rw [htrailing, if_neg (by simp), take_succ_cons, stopAt]
    split
    · simp [records, layout]
    rw [hnext, drop_left' (length_ofWord 8 pos)]
    have hend : pos + (F.block.pack b ++ (ofWord 8 pos ++ input)).length =
        pos + (F.block.pack b).length + 8 + input.length := by
      simp only [length_append, length_ofWord]
      omega
    rw [hend, hloop]
    simp [records, layout]

lemma repairFront_front (hfirst : first < 2 ^ 32) (rest : Bytes) :
    repairFront F (front F gs first ++ rest) = .ok (front F gs first, rest) := by
  have hversion : (front F gs first ++ rest).readWord 0 4 = some maxSupportedVersion := by
    exact readWord_front (by decide) _
  have hnum : (front F gs first ++ rest).readWord 4 4 = some first := by
    apply readWord_eq (ofWord 4 maxSupportedVersion)
      (F.genesis.pack gs ++ (ofWord 8 npos ++ rest)) (by omega)
    · simp only [front, append_assoc]
    · exact length_ofWord 4 _
  have hdrop : (front F gs first ++ rest).drop 8 =
      F.genesis.pack gs ++ (ofWord 8 npos ++ rest) := by
    have hsplit : front F gs first ++ rest = (ofWord 4 maxSupportedVersion ++
        ofWord 4 first) ++ (F.genesis.pack gs ++ (ofWord 8 npos ++ rest)) := by
      simp [front]
    rw [hsplit, drop_left' (by simp)]
  unfold repairFront
  rw [hversion, hnum, hdrop, F.genesis.unpack_pack]
  have htotem : (ofWord 8 npos ++ rest).readWord 0 8 = some npos :=
    readWord_front (by decide) rest
  simp only [stream_some, bind, Except.bind, htotem, drop_left' (length_ofWord 8 npos)]
  rfl

lemma blockBytes_eq_nil_iff : blockBytes F gs first bs = blockBytes F gs first [] ↔ bs = [] := by
  constructor
  · intro h
    cases bs with
    | nil => rfl
    | cons b bs =>
      have hlen := congrArg length h
      simp [blockBytes, records, layout] at hlen
  · rintro rfl
    rfl

/-- The repair of a log that was cut behind its header keeps exactly the blocks that are complete,
up to the number it stops at, if and only if that number is zero or not below the first one, or no
block is complete. -/
theorem repair_keeps_complete {cut : Nat} (hfails : PrefixFails F) (hpos : 0 < first)
    (hfirst : first < 2 ^ 32) (hnum : ∀ i b, bs[i]? = some b → (F.signed b).blockNum = first + i)
    (hsize : nextPos F gs first bs < 2 ^ 63) (hcut : (front F gs first).length ≤ cut) :
    ∃ n ≤ bs.length, (∀ i < bs.length, nextPos F gs first (bs.take (i + 1)) ≤ cut ↔ i < n) ∧
      (repairLog F ((blockBytes F gs first bs).take cut) k = .ok (blockBytes F gs first
        (if k = 0 then bs.take n else (bs.take n).filter fun b => (F.signed b).blockNum ≤ k)) ↔
        k = 0 ∨ first ≤ k ∨ n = 0) := by
  have hfile : (blockBytes F gs first bs).take cut = front F gs first ++
      (layout (front F gs first).length (records F bs)).take
        (cut - (front F gs first).length) := by
    rw [blockBytes, take_append, take_of_length_le hcut]
  obtain ⟨n, hn, hiff, hloop⟩ := repairLoop_layout (k := k) hfails bs
    (((blockBytes F gs first bs).take cut).length + 1) (front F gs first).length
    (cut - (front F gs first).length) (front F gs first)
    (by rw [hfile, length_append]; omega) rfl hsize
  refine ⟨n, hn, ?_, ?_⟩
  · intro i hi
    rw [← hiff i hi, Nat.add_sub_cancel' hcut, nextPos, records_take]
  have htaken : ∀ i b, (bs.take n)[i]? = some b → (F.signed b).blockNum = first + i := by
    intro i b hb
    rw [List.getElem?_take] at hb
    split at hb
    · exact hnum i b hb
    · cases hb
  generalize (layout (front F gs first).length (records F bs)).take
    (cut - (front F gs first).length) = input at hfile hloop
  have hlen : ((blockBytes F gs first bs).take cut).length =
      (front F gs first).length + input.length := by
    rw [hfile, length_append]
  have hfront : repairFront F ((blockBytes F gs first bs).take cut) =
      .ok (front F gs first, input) := by
    rw [hfile]
    exact repairFront_front hfirst input
  have hrepair : repairLog F ((blockBytes F gs first bs).take cut) k =
      .ok (blockBytes F gs first (stopAt F k (bs.take n))) := by
    unfold repairLog
    rw [hfront]
    change repairLoop F _ k _ (_ - _) _ _ = _
    rw [hlen, Nat.add_sub_cancel]
    rw [hlen] at hloop
    exact hloop
  rw [hrepair, stopAt_eq _ first htaken]
  by_cases hk : k = 0
  · simp [hk, hpos]
  by_cases hlt : k < first
  · have hnone : (bs.take n).filter (fun b => (F.signed b).blockNum ≤ k) = [] := by
      rw [filter_eq_nil_iff]
      intro b hb
      obtain ⟨i, hi⟩ := mem_iff_getElem?.mp hb
      simp [htaken i b hi]
      omega
    have htake : bs.take n = [] ↔ n = 0 := by
      rw [take_eq_nil_iff]
      constructor
      · rintro (h | rfl)
        · exact h
        · exact Nat.le_zero.mp hn
      · exact .inl
    rw [if_pos hlt, if_neg hk, hnone, Except.ok.injEq, blockBytes_eq_nil_iff, htake]
    omega
  · simp [hk, hlt, Nat.not_lt.mp hlt]

lemma prefixFails_byteFormat : PrefixFails byteFormat := by
  intro b p hp hne
  rcases p with - | ⟨x, p⟩
  · rfl
  · have hx : x :: p = [b] := hp.eq_of_length_le (by simp [byteFormat])
    exact absurd hx hne

/-- Blocks 5 and 6, cut in the position of the second. -/
theorem repair_keeps_complete_five : ∃ n ≤ 2,
    (∀ i < 2, nextPos byteFormat () 5 ([5, 6].take (i + 1)) ≤ 30 ↔ i < n) ∧
      repairLog byteFormat ((blockBytes byteFormat () 5 [5, 6]).take 30) 0 =
        .ok (blockBytes byteFormat () 5 ([5, 6].take n)) := by
  have hnum : ∀ i b, [5, 6][i]? = some b → (byteFormat.signed b).blockNum = 5 + i := by
    intro i b hb
    match i, hb with
    | 0, rfl => rfl
    | 1, rfl => rfl
  obtain ⟨n, hn, hcomplete, hiff⟩ := repair_keeps_complete (k := 0) prefixFails_byteFormat
    (by decide) (by decide) hnum (by decide) (show (front byteFormat () 5).length ≤ 30 by decide)
  exact ⟨n, hn, hcomplete, hiff.mpr (.inl rfl)⟩

/-- A number to stop at that is below all blocks does not stop the repair. -/
theorem truncation_below_first : repairLog byteFormat (blockBytes byteFormat () 5 [5, 6]) 3 =
      .ok (blockBytes byteFormat () 5 [5, 6]) ∧
    [5, 6].filter (fun b => (byteFormat.signed b).blockNum ≤ 3) = [] :=
  ⟨rfl, rfl⟩

end DimensionChain.BlockFiles
