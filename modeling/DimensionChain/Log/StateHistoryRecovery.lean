import DimensionChain.Log.StateHistoryRuns

/-!
# Opening a torn state history log

The scan of `recover_blocks` ends after the last complete entry, whatever the payloads are. It is
only made when the last eight bytes of the file do not pass for the position of a last entry, and
an index is only rebuilt when its size is wrong.
-/

namespace DimensionChain

open List Bytes RecordLog StateHistoryLogHeader

namespace StateHistoryLog
variable {s : StateHistoryLog} {es : List WriteRequest} {cut k : Nat}
  {run : List (StateHistoryLog × WriteRequest × StateHistoryLog)}

/-- The number of entries that are complete before the cut. -/
def complete (es : List WriteRequest) (cut : Nat) : Nat :=
  Nat.findGreatest (fun k => nextPos (es.take k) ≤ cut) es.length

variable (s es k) in
def recovered : StateHistoryLog where
  log := s.log.take (nextPos (es.take k))
  index := s.index.take (8 * k)
  beginBlock := s.beginBlock
  endBlock := s.beginBlock + k
  lastBlockId := ((es.take k).getLast?.map (·.blockId)).getD default

variable (s es cut) in
/-- The file after the cut, with what `open_log` takes from its first entry. -/
def torn : StateHistoryLog where
  log := s.log.take cut
  beginBlock := s.beginBlock
  lastBlockId := (es[0]?.map (·.blockId)).getD default

/-- The last eight bytes of the file pass for the position of an entry that ends there. -/
def PassesForEntry (log : Bytes) (beginBlock : Nat) : Prop :=
  ∃ pos bytes, log.readWord (log.length - 8) 8 = some pos ∧ log.readAt pos size = some bytes ∧
    u64 (pos + size + (decode bytes).payloadSize + 8) = log.length ∧
    beginBlock < u32 ((decode bytes).blockNum + 1)

variable (s es) in
/-- The files of a cut log are opened with exactly the complete entries and their positions if and
only if nothing follows the last of them or the last eight bytes do not pass for a position, and an
old index of the right size has the right contents. -/
def Recovers : Prop :=
  ∀ cut index, cut ≤ s.log.length → 0 < complete es cut →
    (s.recovered es (complete es cut)).Holds (es.take (complete es cut)) ∧
      (openFiles (s.log.take cut) index = .ok (s.recovered es (complete es cut)) ↔
        (cut = nextPos (es.take (complete es cut)) ∨
            ¬PassesForEntry (s.log.take cut) s.beginBlock) ∧
          (index.length = 8 * complete es cut →
            index = (s.recovered es (complete es cut)).index))

lemma getLastBlock_cases (hlow : 8 ≤ s.log.length) (hhigh : s.log.length < 2 ^ 63) :
    (¬PassesForEntry s.log s.beginBlock ∧ s.getLastBlock s.log.length = .ok none) ∨
      ∃ endBlock lastBlockId, PassesForEntry s.log s.beginBlock ∧
        s.getLastBlock s.log.length = .ok (some { s with endBlock, lastBlockId }) := by
  unfold getLastBlock
  obtain ⟨pos, hpos⟩ : ∃ pos, s.log.readWord (s.log.length - 8) 8 = some pos := by
    unfold readWord readAt
    rw [if_pos (by omega)]
    exact ⟨_, rfl⟩
  have hroom : (pos > s.log.length ∨ u64 (pos + size) > s.log.length) ↔
      ¬pos + size ≤ s.log.length := by
    unfold u64 size
    omega
  rw [hpos]
  simp only [read, readHeader, bind, Except.bind, hroom]
  by_cases hle : pos + size ≤ s.log.length
  case neg =>
    rw [if_pos hle]
    refine .inl ⟨?_, rfl⟩
    rintro ⟨pos', bytes, hpos', hbytes, -⟩
    cases hpos.symm.trans hpos'
    rw [readAt, if_neg hle] at hbytes
    cases hbytes
  have hbytes : s.log.readAt pos size = some ((s.log.drop pos).take size) := if_pos hle
  generalize (s.log.drop pos).take size = bytes at hbytes
  have hpasses : PassesForEntry s.log s.beginBlock ↔
      u64 (pos + size + (decode bytes).payloadSize + 8) = s.log.length ∧
        s.beginBlock < u32 ((decode bytes).blockNum + 1) := by
    refine ⟨?_, fun h => ⟨pos, bytes, hpos, hbytes, h⟩⟩
    rintro ⟨pos', bytes', hpos', hbytes', h⟩
    cases hpos.symm.trans hpos'
    cases hbytes.symm.trans hbytes'
    exact h
  rw [if_neg (not_not.mpr hle), hbytes, hpasses]
  dsimp only [pure, Except.pure]
  by_cases hends : u64 (pos + size + (decode bytes).payloadSize + 8) = s.log.length
  case neg =>
    rw [if_pos hends]
    exact .inl ⟨fun h => hends h.1, rfl⟩
  rw [if_neg (not_not.mpr hends)]
  by_cases hnum : s.beginBlock < u32 ((decode bytes).blockNum + 1)
  · rw [if_neg (Nat.not_le.mpr hnum)]
    exact .inr ⟨_, _, ⟨hends, hnum⟩, rfl⟩
  · rw [if_pos (Nat.le_of_not_lt hnum)]
    exact .inl ⟨fun h => hnum h.2, rfl⟩

lemma readHeader_take (log : Bytes) {pos : Nat} (h : pos + size ≤ cut) :
    readHeader (log.take cut) pos = readHeader log pos := by
  unfold readHeader
  rw [readAt_take log h]

variable (es cut k) in
structure CutAfter : Prop where
  pos : 0 < k
  le : k ≤ es.length
  low : nextPos (es.take k) ≤ cut
  high : k < es.length → cut < nextPos (es.take (k + 1))
  cut_le : cut ≤ nextPos es

lemma cutAfter_complete (hcut : cut ≤ nextPos es) (hpos : 0 < complete es cut) :
    CutAfter es cut (complete es cut) where
  pos := hpos
  le := Nat.findGreatest_le _
  low := Nat.findGreatest_spec (P := fun k => nextPos (es.take k) ≤ cut) (Nat.zero_le _)
    (Nat.zero_le cut)
  high hlt := Nat.lt_of_not_le (Nat.findGreatest_is_greatest
    (P := fun k => nextPos (es.take k) ≤ cut) (Nat.lt_succ_self _) hlt)
  cut_le := hcut

section Cut
variable (hc : CutAfter es cut k)
include hc

lemma CutAfter.entry {i : Nat} (hi : i < k) : ∃ r, es[i]? = some r ∧
    nextPos (es.take i) + size + r.payload.length + 8 ≤ cut := by
  have hr : es[i]? = some (es.get ⟨i, Nat.lt_of_lt_of_le hi hc.le⟩) := getElem?_eq_getElem _
  have hlt := nextPos_take_lt (hr ▸ getElem?_take_of_lt hi)
  rw [take_take, Nat.min_eq_left (Nat.le_of_lt hi)] at hlt
  exact ⟨_, hr, Nat.le_trans hlt hc.low⟩

lemma CutAfter.take_eq_concat : ∃ front r, es.take k = front ++ [r] := by
  have hpos := hc.pos
  have hle := hc.le
  rcases eq_nil_or_concat (es.take k) with hnil | ⟨front, r, hconcat⟩
  · have hlength := congrArg length hnil
    rw [length_take, length_nil] at hlength
    omega
  · exact ⟨front, r, by simpa using hconcat⟩

variable (hsize : nextPos es < 2 ^ 63)
include hsize

lemma CutAfter.soundPrefix {i rounds : Nat} (hi : i ≤ k) (hrounds : k - i < rounds) :
    StateHistoryLog.soundPrefix ((layout 0 (records es)).take cut) cut rounds
      (nextPos (es.take i)) = .ok (nextPos (es.take k)) := by
  induction rounds generalizing i with
  | zero => omega
  | succ rounds ih =>
    rw [StateHistoryLog.soundPrefix]
    rcases Nat.eq_or_lt_of_le hi with hend | hlt
    · subst hend
      -- the scan stops at the entry that is cut, before or after its header is read
      split
      · rfl
      rename_i hheader
      have hcut := hc.cut_le
      rcases Nat.eq_or_lt_of_le hc.le with hall | hmore
      · rw [hall, take_length, size] at hheader
        omega
      have hr : es[i]? = some es[i] := getElem?_eq_getElem hmore
      have hnext := nextPos_take_succ hr
      have hshort := hc.high hmore
      rw [readHeader_take _ (by omega), readHeader_layout hr hsize]
      exact if_pos (.inr (by change _ + es[i].payload.length + 8 > _; omega))
    obtain ⟨r, hr, hpos⟩ := hc.entry hlt
    have hpayload : r.header.payloadSize = r.payload.length := rfl
    have hword := readWord_layout hr hsize
    unfold readWord at hword ⊢
    rw [if_neg (by omega), readHeader_take _ (by omega), readHeader_layout hr hsize]
    simp only [bind, Except.bind]
    rw [hpayload, if_neg (by omega), readAt_take _ (by omega), hword]
    simp only [read]
    rw [if_neg (by simp), ← nextPos_take_succ hr]
    exact ih (by omega) (by omega)

omit hsize
variable (h : s.Holds es)
include h

lemma Holds.recovered : (s.recovered es k).Holds (es.take k) := by
  refine ⟨h.toStores.keep hc.le _, ?_, h.linked.take k, ?_⟩
  · intro r hr
    rw [StateHistoryLog.recovered, Option.mem_def.mp hr]
    rfl
  intro hnil
  obtain ⟨front, r, hconcat⟩ := hc.take_eq_concat
  rw [hconcat] at hnil
  cases front <;> cases hnil

lemma Holds.recoverBlocks :
    (s.torn es cut).recoverBlocks cut = .ok { s.recovered es k with index := [] } := by
  have hkept := h.recovered hc
  have hlow := hc.low
  have hle := hc.le
  have hsize : nextPos es < 2 ^ 63 := h.length_log ▸ h.length_lt
  obtain ⟨front, r, hconcat⟩ := hc.take_eq_concat
  have hcount : (records (es.take k)).length ≤ (layout 0 (records (es.take k))).length :=
    length_le_layout
  rw [length_layout, records, length_map, length_take] at hcount
  have hscan := hc.soundPrefix hsize (Nat.zero_le k) (show k - 0 < cut + 1 by omega)
  have hlast : ({ s.torn es cut with log := (s.recovered es k).log } : StateHistoryLog).getLastBlock
      (nextPos (es.take k)) = .ok (some { s.recovered es k with index := [] }) := by
    rw [← hkept.length_log]
    rw [hconcat] at hkept
    exact hkept.getLastBlock _ rfl rfl
  unfold StateHistoryLog.recoverBlocks torn
  rw [← h.log] at hscan
  rw [show soundPrefix _ _ _ 0 = _ from hscan]
  simp only [bind, Except.bind]
  rw [take_take, Nat.min_eq_left hlow]
  dsimp only [torn, StateHistoryLog.recovered] at hlast
  rw [hlast]
  rfl

lemma Holds.openLog_torn {last : Option StateHistoryLog}
    (hlast : (s.torn es cut).getLastBlock cut = .ok last) :
    StateHistoryLog.openLog (s.log.take cut) =
      last.elim ((s.torn es cut).recoverBlocks cut) .ok := by
  obtain ⟨r, hr, hfirst⟩ := hc.entry hc.pos
  have hnum : r.header.blockNum = s.beginBlock := h.numbers 0 r hr
  have hpayload : r.header.payloadSize = r.payload.length := rfl
  have hsize : nextPos es < 2 ^ 63 := h.length_log ▸ h.length_lt
  have hcut := hc.cut_le
  have hlength : (s.log.take cut).length = cut := length_take_of_le (h.length_log ▸ hcut)
  have hheader : readHeader (s.log.take cut) 0 = .ok r.header := by
    rw [readHeader_take _ (by omega), h.log]
    exact readHeader_layout hr hsize
  have htorn : s.torn es cut =
      ⟨s.log.take cut, [], r.header.blockNum, 0, r.header.blockId⟩ := by
    rw [torn, hr, hnum]
    rfl
  rw [htorn] at hlast ⊢
  unfold StateHistoryLog.openLog eosAssert
  rw [hlength, if_pos (by omega), hheader]
  simp only [bind, Except.bind]
  rw [if_pos ⟨rfl, by rw [hpayload]; unfold u64; omega⟩]
  dsimp only
  rw [hlast]
  cases last with
  | none => rfl
  | some t => rfl

lemma Holds.torn_getLastBlock :
    (¬PassesForEntry (s.log.take cut) s.beginBlock ∧ (s.torn es cut).getLastBlock cut = .ok none) ∨
      ∃ endBlock lastBlockId, PassesForEntry (s.log.take cut) s.beginBlock ∧
        (s.torn es cut).getLastBlock cut =
          .ok (some { s.torn es cut with endBlock, lastBlockId }) := by
  obtain ⟨r, -, hfirst⟩ := hc.entry hc.pos
  have hlength : (s.torn es cut).log.length = cut :=
    length_take_of_le (h.length_log ▸ hc.cut_le)
  have hlt : cut < 2 ^ 63 := Nat.lt_of_le_of_lt (h.length_log ▸ hc.cut_le) h.length_lt
  have hcases := getLastBlock_cases (s := s.torn es cut) (by omega) (by omega)
  rwa [hlength] at hcases

lemma Holds.openLog_cut
    (hcond : cut = nextPos (es.take k) ∨ ¬PassesForEntry (s.log.take cut) s.beginBlock) :
    StateHistoryLog.openLog (s.log.take cut) = .ok { s.recovered es k with index := [] } := by
  rcases hcond with hend | hpasses
  · have hkept := h.recovered hc
    obtain ⟨front, r, hconcat⟩ := hc.take_eq_concat
    rw [hconcat] at hkept
    rw [hend]
    exact hkept.openLog
  rcases h.torn_getLastBlock hc with ⟨-, hnone⟩ | ⟨_, _, hpass, -⟩
  · rw [h.openLog_torn hc hnone]
    exact h.recoverBlocks hc
  · exact absurd hpass hpasses

lemma Holds.openLog_deceived (hpass : PassesForEntry (s.log.take cut) s.beginBlock) :
    ∃ t, StateHistoryLog.openLog (s.log.take cut) = .ok t ∧ t.log = s.log.take cut := by
  rcases h.torn_getLastBlock hc with ⟨hnot, -⟩ | ⟨_, _, -, hsome⟩
  · exact absurd hpass hnot
  · exact ⟨_, h.openLog_torn hc hsome, rfl⟩

end Cut

lemma openIndex_log {t : StateHistoryLog} {index : Bytes} (h : s.openIndex index = .ok t) :
    t.log = s.log := by
  unfold openIndex at h
  split at h
  · cases h
    rfl
  · obtain ⟨index', -, h⟩ := bind_ok_iff.mp h
    cases h
    rfl

theorem torn_log_recovers (h : Steps WritesBelowMax {} run s) :
    ∃ es, s.Holds es ∧ Latest es run ∧ s.Recovers es := by
  obtain ⟨es, hholds, hlatest⟩ := holds_of_run h
  refine ⟨es, hholds, hlatest, ?_⟩
  intro cut index hcut hpos
  have hc := cutAfter_complete (hholds.length_log ▸ hcut) hpos
  have hkept := hholds.recovered hc
  have hindex := hkept.toStores.openIndex index
  rw [length_take_of_le hc.le] at hindex
  have hopen (hcond : cut = nextPos (es.take (complete es cut)) ∨
      ¬PassesForEntry (s.log.take cut) s.beginBlock) :
      openFiles (s.log.take cut) index = .ok { s.recovered es (complete es cut) with
        index := if index.length = 8 * complete es cut then index
          else (s.recovered es (complete es cut)).index } := by
    unfold openFiles
    rw [hholds.openLog_cut hc hcond]
    exact hindex
  refine ⟨hkept, ⟨fun hok => ?_, fun ⟨hcond, hold⟩ => ?_⟩⟩
  · have hcond : cut = nextPos (es.take (complete es cut)) ∨
        ¬PassesForEntry (s.log.take cut) s.beginBlock := by
      by_contra hnot
      obtain ⟨hmore, hpass⟩ := not_or.mp hnot
      obtain ⟨t, ht, hlog⟩ := hholds.openLog_deceived hc (not_not.mp hpass)
      unfold openFiles at hok
      rw [ht] at hok
      have hlength := congrArg length ((openIndex_log hok).trans hlog)
      rw [hkept.length_log, length_take_of_le hcut] at hlength
      exact hmore hlength.symm
    refine ⟨hcond, fun hlen => ?_⟩
    have heq := (hopen hcond).symm.trans hok
    rw [if_pos hlen] at heq
    exact congrArg StateHistoryLog.index (Except.ok.inj heq)
  · rw [hopen hcond]
    split
    case isTrue hlen => rw [hold hlen]
    case isFalse => rfl

theorem torn_fork_log_recovers : ∃ run s, Steps WritesBelowMax {} run s ∧
    run.map (fun e => e.2.1) = forkWrites ∧ ∃ es, s.Holds es ∧ Latest es run ∧ s.Recovers es := by
  obtain ⟨s, hreplay⟩ := Option.isSome_iff_exists.mp forkWrites_replay
  obtain ⟨run, hrun, hlabels⟩ := Steps.of_replay writesBelowMax_of_some hreplay
  exact ⟨run, s, hrun, hlabels, torn_log_recovers hrun⟩

lemma five_lt : 5 < 2 ^ 32 := by decide

lemma six_lt : 6 < 2 ^ 32 := by decide

/-- The second payload has the bytes of a header and of its position. -/
def deceiving : List WriteRequest :=
  [⟨5, ⟨1, 0, 0, 0⟩, default, [], five_lt⟩, ⟨6, ⟨2, 0, 0, 0⟩, ⟨1, 0, 0, 0⟩,
    encode { blockNum := 6, blockId := ⟨3, 0, 0, 0⟩ } ++ (Bytes.ofWord 8 120 ++ [0]), six_lt⟩]

/-- Cut before its last payload byte, the log is opened with a block 6 that was never written. -/
theorem torn_log_deceived : complete deceiving 184 = 1 ∧
    ((Steps.replay writesBelowMax? {} deceiving).any fun s =>
      match openFiles (s.log.take 184) s.index with
      | .ok t => t.endBlock = 7 ∧ t.lastBlockId = ⟨3, 0, 0, 0⟩ ∧ t.log = s.log.take 184
      | .error _ => false) := by
  decide +kernel

end StateHistoryLog

end DimensionChain
