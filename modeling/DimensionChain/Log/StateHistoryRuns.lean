import DimensionChain.Base.Steps
import DimensionChain.Log.StateHistory

/-!
# The state history log over its runs

The entries that the files stand for are the accepted writes that no later write to the same or a
lower block has removed. The end of the range is a 32-bit number, so it wraps when the last
possible block is written.
-/

namespace DimensionChain

open List Bytes RecordLog Option StateHistoryLogHeader

namespace StateHistoryLogHeader

@[simp] lemma length_encode (h : StateHistoryLogHeader) : h.encode.length = size := by
  rfl

structure Fits (h : StateHistoryLogHeader) : Prop where
  blockNum : h.blockNum < 2 ^ 32
  payloadSize : h.payloadSize < 2 ^ 64
  version : h.version < 2 ^ 8

lemma field_append (bytes before : Bytes) (pos width : Nat) :
    field (before ++ bytes) (before.length + pos) width = field bytes pos width := by
  unfold field
  rw [drop_length_add_append]

lemma field_ofWord {width n : Nat} (hn : n < 256 ^ width) (after : Bytes) :
    field (Bytes.ofWord width n ++ after) 0 width = n := by
  unfold field
  rw [drop_zero, take_left' (length_ofWord width n), toWord_ofWord hn]

lemma field_skip (width n : Nat) (bytes : Bytes) {pos w : Nat} (hpos : width ≤ pos) :
    field (Bytes.ofWord width n ++ bytes) pos w = field bytes (pos - width) w := by
  have happend := field_append bytes (Bytes.ofWord width n) (pos - width) w
  rwa [length_ofWord, Nat.add_sub_cancel' hpos] at happend

lemma decode_encode {h : StateHistoryLogHeader} (hfits : h.Fits) : decode h.encode = h := by
  have hword : ∀ x : UInt64, x.toNat < 256 ^ 8 := fun x => x.toNat_lt
  have hnum : h.blockNum < 256 ^ 4 := by have := hfits.blockNum; omega
  have hsize : h.payloadSize < 256 ^ 8 := by have := hfits.payloadSize; omega
  have hversion : h.version < 256 ^ 1 := by have := hfits.version; omega
  unfold decode encode
  simp (disch := omega) only [field_skip, Nat.reduceSub, Nat.sub_self, field_ofWord hnum,
    field_ofWord hsize, field_ofWord hversion, field_ofWord (hword _), UInt64.ofNat_toNat]

end StateHistoryLogHeader

namespace StateHistoryLog
open StateHistoryLogHeader (size)
variable {s t : StateHistoryLog} {es : List WriteRequest} {r : WriteRequest}

def record (r : WriteRequest) : Bytes := r.header.encode ++ r.payload

def records (es : List WriteRequest) : List Bytes := es.map record

def nextPos (es : List WriteRequest) : Nat := RecordLog.next 0 (records es)

variable (s es) in
structure Stores : Prop where
  log : s.log = RecordLog.layout 0 (records es)
  index : s.index = RecordLog.index 0 (records es)
  endBlock : s.endBlock = s.beginBlock + es.length
  numbers : ∀ i r, es[i]? = some r → r.blockNum = s.beginBlock + i
  endBlock_lt : s.endBlock < 2 ^ 32
  length_lt : s.log.length < 2 ^ 63

section Entries

lemma length_record (r : WriteRequest) : (record r).length = size + r.payload.length := by
  rw [record, length_append, length_encode]

variable {i : Nat}

lemma getElem?_records (h : es[i]? = some r) : (records es)[i]? = some (record r) := by
  rw [records, getElem?_map, h, map_some]

lemma records_take (es : List WriteRequest) (i : Nat) :
    records (es.take i) = (records es).take i :=
  map_take

lemma records_drop (es : List WriteRequest) (i : Nat) :
    records (es.drop i) = (records es).drop i :=
  map_drop

lemma records_concat : records (es ++ [r]) = records es ++ [record r] := by
  rw [records, map_append]
  rfl

lemma nextPos_concat : nextPos (es ++ [r]) = nextPos es + size + r.payload.length + 8 := by
  rw [nextPos, records_concat, next_concat, length_record]
  unfold nextPos
  omega

lemma nextPos_take_lt (h : es[i]? = some r) :
    nextPos (es.take i) + size + r.payload.length + 8 ≤ nextPos es := by
  have hlt := next_take_lt 0 (getElem?_records h)
  unfold nextPos
  rw [records_take]
  rw [length_record] at hlt
  omega

lemma nextPos_take_succ (h : es[i]? = some r) :
    nextPos (es.take (i + 1)) = nextPos (es.take i) + size + r.payload.length + 8 := by
  rw [take_add_one, h, toList_some, nextPos_concat]

lemma fits_header (h : r.payload.length < 2 ^ 64) : r.header.Fits :=
  ⟨r.blockNum_lt, h, Nat.two_pow_pos 8⟩

lemma length_layout (es : List WriteRequest) :
    (layout 0 (records es)).length = nextPos es := by
  unfold nextPos RecordLog.next
  omega

lemma Stores.length_log (h : s.Stores es) : s.log.length = nextPos es := by
  rw [h.log, length_layout]

lemma Stores.length_index (h : s.Stores es) : s.index.length = 8 * es.length := by
  rw [h.index, RecordLog.length_index, records, length_map]

lemma drop_layout (h : es[i]? = some r) :
    (RecordLog.layout 0 (records es)).drop (nextPos (es.take i)) =
      r.header.encode ++ (r.payload ++ (Bytes.ofWord 8 (nextPos (es.take i)) ++
        RecordLog.layout (nextPos (es.take (i + 1))) (records (es.drop (i + 1))))) := by
  have hdrop := RecordLog.drop_layout [] length_nil (getElem?_records h)
  have hnext : nextPos (es.take i) + (record r).length + 8 = nextPos (es.take (i + 1)) := by
    rw [nextPos_take_succ h, length_record]
    omega
  rw [← records_take, nil_append] at hdrop
  unfold nextPos at hnext ⊢
  rw [hdrop, hnext, record, append_assoc, records_drop]

lemma take_layout (es : List WriteRequest) (i : Nat) :
    (RecordLog.layout 0 (records es)).take (nextPos (es.take i)) =
      RecordLog.layout 0 (records (es.take i)) := by
  rw [nextPos, records_take]
  exact RecordLog.take_layout [] length_nil i

lemma layout_eq (h : es[i]? = some r) :
    layout 0 (records es) = layout 0 (records (es.take i)) ++
      (r.header.encode ++ (r.payload ++ (Bytes.ofWord 8 (nextPos (es.take i)) ++
        layout (nextPos (es.take (i + 1))) (records (es.drop (i + 1)))))) := by
  rw [← drop_layout h, ← take_layout]
  exact (take_append_drop _ _).symm

lemma readHeader_layout (h : es[i]? = some r) (hsize : nextPos es < 2 ^ 63) :
    readHeader (layout 0 (records es)) (nextPos (es.take i)) = .ok r.header := by
  have hlt := nextPos_take_lt h
  unfold readHeader
  rw [readAt_eq (layout_eq h) (length_layout _) (length_encode _)]
  exact congrArg Except.ok (decode_encode (fits_header (by omega)))

lemma Stores.getPos (h : s.Stores es) (hr : es[i]? = some r) :
    s.getPos (s.beginBlock + i) = .ok (nextPos (es.take i)) := by
  have hlen := h.length_log
  have hsize := h.length_lt
  have hend := h.endBlock
  have hlt := h.endBlock_lt
  have hi := (List.getElem?_eq_some_iff.mp hr).1
  have hword : s.index.readWord (8 * i) 8 = some (nextPos (es.take i)) := by
    rw [h.index, readWord_index (getElem?_records hr) (by unfold nextPos at hlen; omega),
      nextPos, records_take]
  unfold StateHistoryLog.getPos
  rw [sub32_eq (by omega) (by omega), Nat.add_sub_cancel_left, hword]
  rfl

lemma Stores.getEntry (h : s.Stores es) (hr : es[i]? = some r) :
    ∃ rest, s.getEntry (s.beginBlock + i) = .ok (r.header, r.payload ++ rest) := by
  have hi := (List.getElem?_eq_some_iff.mp hr).1
  have hend := h.endBlock
  have hlen := h.length_log
  have hsize := h.length_lt
  unfold StateHistoryLog.getEntry eosAssert
  rw [if_pos (by omega), h.getPos hr, h.log]
  simp only [bind, Except.bind]
  rw [readHeader_layout hr (by omega), ← drop_drop, drop_layout hr,
    drop_left' (length_encode _)]
  exact ⟨_, rfl⟩

lemma Stores.getBlockId (h : s.Stores es) (hr : es[i]? = some r) :
    s.getBlockId (s.beginBlock + i) = .ok r.blockId := by
  obtain ⟨rest, hentry⟩ := h.getEntry hr
  unfold StateHistoryLog.getBlockId
  rw [hentry]
  rfl

end Entries

section Writing

lemma Stores.keep (h : s.Stores es) {k : Nat} (hk : k ≤ es.length) (id : BlockId) :
    Stores ⟨s.log.take (nextPos (es.take k)), s.index.take (8 * k), s.beginBlock, s.beginBlock + k,
      id⟩ (es.take k) := by
  have hend := h.endBlock
  have hlt := h.endBlock_lt
  have hsize := h.length_lt
  refine ⟨?_, ?_, ?_, ?_, ?_, ?_⟩
  · rw [h.log, take_layout]
  · rw [h.index, records_take, index_take (by rwa [records, length_map])]
  · rw [length_take_of_le hk]
  · intro i r hir
    rw [getElem?_take] at hir
    split at hir
    · exact h.numbers i r hir
    · cases hir
  · dsimp only
    omega
  · rw [length_take]
    omega

lemma Stores.truncate (h : s.Stores es) {n : Nat} (hn : n < s.endBlock)
    (ht : s.truncate n = .ok t) : t.Stores (es.take (n - s.beginBlock)) ∧
      t.beginBlock = (if n ≤ s.beginBlock then 0 else s.beginBlock) := by
  have hend := h.endBlock
  unfold StateHistoryLog.truncate at ht
  split at ht
  · rename_i hlow
    cases ht
    rw [if_pos hlow, Nat.sub_eq_zero_of_le hlow]
    exact ⟨⟨rfl, rfl, rfl, nofun, Nat.two_pow_pos 32, Nat.two_pow_pos 63⟩, rfl⟩
  rename_i hhigh
  have hi : n - s.beginBlock < es.length := by omega
  have hr : es[n - s.beginBlock]? = some (es[n - s.beginBlock]) := getElem?_eq_getElem hi
  have hpos := h.getPos hr
  rw [show s.beginBlock + (n - s.beginBlock) = n by omega] at hpos
  rw [hpos] at ht
  cases ht
  have hlt := h.endBlock_lt
  have hkeep := h.keep (Nat.le_of_lt hi) s.lastBlockId
  rw [Nat.add_sub_cancel' (by omega)] at hkeep
  rw [if_neg hhigh, sub32_eq (by omega) (by omega)]
  exact ⟨hkeep, rfl⟩

lemma Stores.append (h : s.Stores es) (hnum : es ≠ [] → r.blockNum = s.endBlock)
    (hmax : r.blockNum ≠ 2 ^ 32 - 1) (hsize : nextPos (es ++ [r]) < 2 ^ 63) :
    Stores {
      log := s.log ++ (r.header.encode ++ r.payload) ++ Bytes.ofWord 8 s.log.length
      index := s.index ++ Bytes.ofWord 8 s.log.length
      beginBlock := if s.beginBlock = s.endBlock then r.blockNum else s.beginBlock
      endBlock := u32 (r.blockNum + 1)
      lastBlockId := r.blockId } (es ++ [r]) := by
  have hlen := h.length_log
  have hend := h.endBlock
  have hlt := r.blockNum_lt
  have hbegin : (if s.beginBlock = s.endBlock then r.blockNum else s.beginBlock) + es.length =
      r.blockNum := by
    cases es with
    | nil => rw [if_pos (by simpa using hend.symm)]; rfl
    | cons e es =>
      rw [length_cons] at hend ⊢
      rw [if_neg (by omega), hnum (by simp), hend]
  have hu32 : u32 (r.blockNum + 1) = r.blockNum + 1 := by
    unfold u32
    omega
  have hlog : s.log ++ (r.header.encode ++ r.payload) ++ Bytes.ofWord 8 s.log.length =
      layout 0 (records (es ++ [r])) := by
    rw [records_concat, layout_concat, ← h.log, hlen, append_assoc]
    rfl
  refine ⟨hlog, ?_, ?_, ?_, ?_, ?_⟩
  · rw [records_concat, index_concat, ← h.index, hlen]
    rfl
  · rw [hu32, length_append, length_singleton, ← Nat.add_assoc, hbegin]
  · intro i e he
    rcases Nat.lt_trichotomy i es.length with hi | hi | hi
    · rw [getElem?_append_left hi] at he
      rw [if_neg (by omega)]
      exact h.numbers i e he
    · rw [hi, getElem?_concat_length, some.injEq] at he
      rw [hi, hbegin, he]
    · rw [getElem?_eq_none (by rw [length_append, length_singleton]; omega)] at he
      cases he
  · dsimp only
    omega
  · rw [hlog, length_layout]
    exact hsize

variable (es) in
def Linked : Prop := ∀ i r r', es[i]? = some r → es[i + 1]? = some r' → r'.prevId = r.blockId

lemma Linked.take (h : Linked es) (n : Nat) : Linked (es.take n) := by
  intro i r r' hr hr'
  rw [getElem?_take] at hr hr'
  split at hr
  · split at hr'
    · exact h i r r' hr hr'
    · cases hr'
  · cases hr

lemma Linked.concat (h : Linked es)
    (hlast : ∀ i e, es[i]? = some e → i + 1 = es.length → r.prevId = e.blockId) :
    Linked (es ++ [r]) := by
  intro i e e' he he'
  have hi := (List.getElem?_eq_some_iff.mp he').1
  rw [length_append, length_singleton] at hi
  rw [List.getElem?_append_left (by omega)] at he
  by_cases hend : i + 1 = es.length
  · rw [hend, List.getElem?_concat_length, some.injEq] at he'
    rw [← he']
    exact hlast i e he hend
  · rw [List.getElem?_append_left (by omega)] at he'
    exact h i e e' he he'

variable (s es) in
structure Holds : Prop extends Stores s es where
  lastBlockId : ∀ r ∈ es.getLast?, s.lastBlockId = r.blockId
  linked : Linked es
  empty : es = [] → s = {}

variable (h : s.Holds es)
include h

lemma Holds.range_iff : s.beginBlock = s.endBlock ↔ es = [] := by
  have hend := h.endBlock
  rw [← length_eq_zero_iff]
  omega

lemma Holds.checkEntry (hcheck : s.checkEntry r.header r.prevId = .ok ()) :
    (es = [] ∨ r.blockNum ≤ s.endBlock) ∧
      ∀ i e, es[i]? = some e → r.blockNum = s.beginBlock + i + 1 → r.prevId = e.blockId := by
  have hend := h.endBlock
  obtain ⟨_, hblock, hcheck⟩ := bind_ok_iff.mp hcheck
  rw [eosAssert_ok_iff, h.range_iff] at hblock
  refine ⟨hblock, ?_⟩
  intro i e he hnum
  have hi := (List.getElem?_eq_some_iff.mp he).1
  have hne : ¬ s.beginBlock = s.endBlock := by omega
  have hnum' : r.header.blockNum = s.beginBlock + i + 1 := hnum
  rw [if_pos ⟨hne, by omega⟩] at hcheck
  split at hcheck
  · rw [eosAssert_ok_iff] at hcheck
    have hmem : e ∈ es.getLast? := by
      rw [getLast?_eq_getElem?, show es.length - 1 = i by omega]
      exact he
    rw [hcheck, h.lastBlockId e hmem]
  · obtain ⟨prev, hprev, hcheck⟩ := bind_ok_iff.mp hcheck
    rw [hnum', Nat.add_sub_cancel, h.toStores.getBlockId he] at hprev
    rw [eosAssert_ok_iff.mp hcheck, ← Except.ok.inj hprev]

lemma Holds.before (hblock : es = [] ∨ r.blockNum ≤ s.endBlock)
    (hm : (if r.blockNum < s.endBlock then s.truncate r.blockNum else .ok s) = .ok t) :
    t.Stores (es.take (r.blockNum - s.beginBlock)) ∧
      (es.take (r.blockNum - s.beginBlock) ≠ [] → r.blockNum = t.endBlock) := by
  have hend := h.endBlock
  split at hm
  · rename_i hlow
    obtain ⟨hstores, hbegin⟩ := h.toStores.truncate hlow hm
    refine ⟨hstores, ?_⟩
    intro hne
    have htend := hstores.endBlock
    have hhigh : ¬ r.blockNum ≤ s.beginBlock := by
      intro hle
      rw [Nat.sub_eq_zero_of_le hle] at hne
      exact hne rfl
    rw [hbegin, if_neg hhigh, length_take] at htend
    omega
  cases hm
  have htake : es.take (r.blockNum - s.beginBlock) = es := by
    apply take_of_length_le
    omega
  rw [htake]
  refine ⟨h.toStores, ?_⟩
  intro hne
  rcases hblock with hnil | hle
  · exact absurd hnil hne
  · omega

lemma Holds.write (hmax : r.blockNum ≠ 2 ^ 32 - 1)
    (ht : s.writeEntry r.header r.prevId r.payload = .ok t) (hsize : t.log.length < 2 ^ 63) :
    t.Holds (es.take (r.blockNum - s.beginBlock) ++ [r]) := by
  unfold StateHistoryLog.writeEntry at ht
  split at ht
  case h_1 => cases ht
  case h_2 hcheck =>
    obtain ⟨hblock, hprev⟩ := h.checkEntry hcheck
    split at ht
    case h_1 => cases ht
    case h_2 middle hmiddle =>
      obtain ⟨hstores, hnum⟩ := h.before hblock hmiddle
      dsimp only at ht
      split at ht
      case isFalse => cases ht
      case isTrue =>
        cases ht
        have hpos : nextPos (es.take (r.blockNum - s.beginBlock) ++ [r]) < 2 ^ 63 := by
          have hlen := hstores.length_log
          have hencode := length_encode r.header
          simp only [length_append, length_ofWord] at hsize
          rw [nextPos_concat]
          omega
        refine ⟨hstores.append hnum hmax hpos, ?_, ?_, ?_⟩
        · intro e he
          rw [getLast?_concat, mem_some_iff] at he
          rw [← he]
          rfl
        · apply (h.linked.take _).concat
          intro i e he hlast
          rw [getElem?_take] at he
          rw [length_take] at hlast
          split at he
          · apply hprev i e he
            have hend := h.endBlock
            have hi := (List.getElem?_eq_some_iff.mp he).1
            rcases hblock with hnil | hle
            · rw [hnil] at hi
              cases hi
            · omega
          · cases he
        · intro hnil
          simp at hnil

omit h

lemma writeEntry_throw {e : ChainException}
    (ht : s.writeEntry r.header r.prevId r.payload = .throw e t) (hsize : t.log.length < 2 ^ 63) :
    t = s := by
  unfold StateHistoryLog.writeEntry at ht
  split at ht
  case h_1 =>
    cases ht
    rfl
  case h_2 hcheck =>
    split at ht
    case h_1 =>
      cases ht
      rfl
    case h_2 middle hmiddle =>
      dsimp only at ht
      split at ht
      case isTrue => cases ht
      case isFalse hlen =>
        cases ht
        -- a payload of the declared size gives the length that is expected
        have hencode := length_encode r.header
        have hpayload : r.header.payloadSize = r.payload.length := rfl
        simp only [length_append] at hlen hsize
        unfold u64 at hlen
        omega

end Writing

lemma Holds.getLastBlock (h : s.Holds (es ++ [r])) (u : StateHistoryLog) (hlog : u.log = s.log)
    (hbegin : u.beginBlock = s.beginBlock) : u.getLastBlock s.log.length =
      .ok (some { u with endBlock := s.endBlock, lastBlockId := s.lastBlockId }) := by
  have hlast : (es ++ [r])[es.length]? = some r := getElem?_concat_length
  have hnum := h.numbers es.length r hlast
  have hend := h.endBlock
  have hlt := h.endBlock_lt
  have hlen := h.length_log
  have hsize := h.length_lt
  have hid := h.lastBlockId r getLast?_concat
  rw [length_append, length_singleton] at hend
  have hword : s.log.readWord (s.log.length - 8) 8 = some (nextPos es) := by
    rw [hlen, h.log, nextPos, records_concat]
    apply readWord_last [] length_nil
    rw [← records_concat]
    unfold nextPos at hlen
    omega
  have hheader : readHeader s.log (nextPos es) = .ok r.header := by
    have hread := readHeader_layout hlast (by omega)
    rwa [take_left, ← h.log] at hread
  have hpayload : r.header.payloadSize = r.payload.length := rfl
  have hblock : r.header.blockNum = r.blockNum := rfl
  rw [nextPos_concat] at hlen
  unfold StateHistoryLog.getLastBlock
  rw [hlog, hword]
  simp only [read, bind, Except.bind]
  rw [if_neg (by unfold u64; omega), hheader]
  dsimp only
  rw [if_neg (by rw [hpayload]; unfold u64; omega), hblock, hbegin,
    if_neg (by unfold u32; omega)]
  have hu32 : u32 (r.blockNum + 1) = s.endBlock := by
    unfold u32
    omega
  rw [hu32, hid]
  rfl

lemma Holds.openLog (h : s.Holds (es ++ [r])) : openLog s.log = .ok { s with index := [] } := by
  obtain ⟨e, he⟩ : ∃ e, (es ++ [r])[0]? = some e :=
    ⟨_, getElem?_eq_getElem (by rw [length_append]; exact Nat.succ_pos _)⟩
  have hlen := h.length_log
  have hsize := h.length_lt
  have hfirst := nextPos_take_lt he
  have hnum := h.numbers 0 e he
  have hheader : readHeader s.log 0 = .ok e.header := by
    rw [h.log]
    exact readHeader_layout he (by omega)
  have hpayload : e.header.payloadSize = e.payload.length := rfl
  unfold StateHistoryLog.openLog eosAssert
  rw [if_pos (by omega), hheader]
  simp only [bind, Except.bind]
  rw [if_pos ⟨rfl, by rw [hpayload]; unfold u64; omega⟩]
  have hlast := h.getLastBlock
    { log := s.log, beginBlock := e.header.blockNum, lastBlockId := e.header.blockId } rfl hnum
  have hblock : e.header.blockNum = s.beginBlock := hnum
  rw [hlast, hblock]
  rfl

lemma readWord_layout {i : Nat} (h : es[i]? = some r) (hsize : nextPos es < 2 ^ 63) :
    (layout 0 (records es)).readWord (nextPos (es.take i) + size + r.payload.length) 8 =
      some (nextPos (es.take i)) := by
  have hpos := nextPos_take_lt h
  apply readWord_eq (layout 0 (records (es.take i)) ++ (r.header.encode ++ r.payload)) _ (by omega)
  · have hsplit := layout_eq h
    simp only [append_assoc] at hsplit ⊢
    exact hsplit
  · rw [length_append, length_layout, length_append, length_encode, ← Nat.add_assoc]

lemma indexLoop_eq {i rounds : Nat} {index : Bytes} (hsize : nextPos es < 2 ^ 63)
    (hi : i ≤ es.length) (hrounds : es.length - i < rounds) :
    indexLoop (RecordLog.layout 0 (records es)) rounds (nextPos (es.take i)) index =
      .ok (index ++ RecordLog.index (nextPos (es.take i)) (records (es.drop i))) := by
  induction rounds generalizing i index with
  | zero => omega
  | succ rounds ih =>
    rcases Nat.eq_or_lt_of_le hi with hend | hlt
    · rw [hend, take_length, drop_length, indexLoop,
        if_neg (by rw [length_layout]; omega)]
      exact congrArg Except.ok (append_nil index).symm
    have hr : es[i]? = some es[i] := getElem?_eq_getElem hlt
    have hpos := nextPos_take_lt hr
    have hnext := nextPos_take_succ hr
    have hpayload : es[i].header.payloadSize = es[i].payload.length := rfl
    have hcons : es.drop i = es[i] :: es.drop (i + 1) := drop_eq_getElem_cons hlt
    rw [indexLoop, length_layout, if_pos (by omega), readHeader_layout hr hsize]
    unfold eosAssert u64
    simp only [bind, Except.bind]
    rw [if_pos (by omega)]
    rw [hpayload, Nat.mod_eq_of_lt (by omega), Nat.mod_eq_of_lt (by omega), if_pos (by omega),
      readWord_layout hr hsize]
    simp only [read, if_true]
    rw [← hnext, ih (by omega) (by omega), hcons, hnext]
    unfold records
    rw [map_cons, RecordLog.index, length_record, append_assoc, Nat.add_assoc _ size]

lemma Stores.openIndex (h : s.Stores es) (index : Bytes) :
    StateHistoryLog.openIndex { s with index := [] } index =
      .ok { s with index := if index.length = 8 * es.length then index else s.index } := by
  have hend := h.endBlock
  have hlt := h.endBlock_lt
  have hsize := h.length_lt
  have hlen := h.length_log
  have hcount : es.length ≤ s.log.length := by
    rw [h.log, ← length_map record]
    exact length_le_layout
  have hloop : indexLoop s.log (s.log.length + 1) 0 [] = .ok s.index := by
    rw [h.log, h.index]
    rw [h.log] at hcount
    exact indexLoop_eq (i := 0) (by omega) (Nat.zero_le _) (by omega)
  have hrange : sub32 s.endBlock s.beginBlock = es.length := by
    rw [sub32_eq (by omega) (by omega)]
    omega
  unfold StateHistoryLog.openIndex
  dsimp only
  rw [hrange, hloop]
  split
  · rfl
  · rfl

lemma Holds.reopen (h : s.Holds es) :
    openFiles s.log s.index = .ok s ∧ openFiles s.log [] = .ok s := by
  rcases eq_nil_or_concat es with hnil | ⟨front, r, hconcat⟩
  · rw [h.empty hnil]
    exact ⟨rfl, rfl⟩
  have hconcat : es = front ++ [r] := by simpa using hconcat
  subst hconcat
  unfold openFiles
  rw [h.openLog]
  constructor
  · refine (h.toStores.openIndex s.index).trans ?_
    rw [ite_self]
  · refine (h.toStores.openIndex []).trans ?_
    rw [if_neg (by simp)]

section Runs

def accepts (s : StateHistoryLog) (r : WriteRequest) : Bool :=
  (s.writeEntry r.header r.prevId r.payload).okAnd fun _ => true

/-- A call of `write_entry`, accepted or rejected. A file has less than `2 ^ 63` bytes. -/
def Writes (s : StateHistoryLog) (r : WriteRequest) (t : StateHistoryLog) : Prop :=
  (s.writeEntry r.header r.prevId r.payload).state = t ∧ t.log.length < 2 ^ 63

def WritesBelowMax (s : StateHistoryLog) (r : WriteRequest) (t : StateHistoryLog) : Prop :=
  r.blockNum ≠ 2 ^ 32 - 1 ∧ s.Writes r t

def lastWrite (es : List (StateHistoryLog × WriteRequest × StateHistoryLog)) (n : Nat) :
    Option WriteRequest :=
  ((es.filter fun e => e.1.accepts e.2.1).map fun e => e.2.1).reverse.find? (·.blockNum = n)

variable (es) in
def Latest (run : List (StateHistoryLog × WriteRequest × StateHistoryLog)) : Prop :=
  ∀ r ∈ es, lastWrite run r.blockNum = some r

variable {run : List (StateHistoryLog × WriteRequest × StateHistoryLog)}

lemma lastWrite_reject (h : s.accepts r = false) (n : Nat) :
    lastWrite (run ++ [(s, r, t)]) n = lastWrite run n := by
  unfold lastWrite
  rw [filter_append, filter_cons_of_neg (by simp [h]), filter_nil, append_nil]

lemma lastWrite_accept (h : s.accepts r = true) (n : Nat) :
    lastWrite (run ++ [(s, r, t)]) n = if r.blockNum = n then some r else lastWrite run n := by
  have hkept : [(s, r, t)].filter (fun e => e.1.accepts e.2.1) = [(s, r, t)] := by
    simp [h]
  unfold lastWrite
  rw [filter_append, hkept, map_append, map_singleton, reverse_append,
    reverse_singleton, singleton_append, find?_cons]
  by_cases hn : r.blockNum = n
  · simp [hn]
  · simp [hn]

lemma Holds.step (h : s.Holds es) (hlatest : Latest es run) (ht : s.WritesBelowMax r t) :
    ∃ es', t.Holds es' ∧ Latest es' (run ++ [(s, r, t)]) := by
  obtain ⟨hmax, hstate, hsize⟩ := ht
  cases hw : s.writeEntry r.header r.prevId r.payload with
  | throw e u =>
    rw [hw] at hstate
    obtain rfl : u = t := hstate
    obtain rfl := writeEntry_throw hw hsize
    refine ⟨es, h, ?_⟩
    intro e he
    rw [lastWrite_reject (by simp [accepts, hw, Outcome.okAnd])]
    exact hlatest e he
  | ok u =>
    rw [hw] at hstate
    obtain rfl : u = t := hstate
    refine ⟨_, h.write hmax hw hsize, ?_⟩
    intro e he
    rw [lastWrite_accept (by simp [accepts, hw, Outcome.okAnd])]
    rcases mem_append.mp he with hold | hnew
    · -- the entries that stay have lower numbers
      obtain ⟨i, hi⟩ := mem_iff_getElem?.mp hold
      rw [getElem?_take] at hi
      split at hi
      · have hnum := h.numbers i e hi
        rw [if_neg (by omega)]
        exact hlatest e (mem_of_getElem? hi)
      · cases hi
    · rw [mem_singleton.mp hnew, if_pos rfl]

lemma holds_of_run (h : Steps WritesBelowMax {} run s) : ∃ es, s.Holds es ∧ Latest es run := by
  induction h with
  | nil =>
    refine ⟨[], ⟨⟨rfl, rfl, rfl, nofun, by decide, by decide⟩, nofun, nofun, fun _ => rfl⟩, nofun⟩
  | snoc _ hstep ih =>
    obtain ⟨es, hholds, hlatest⟩ := ih
    exact hholds.step hlatest hstep

/-- In every run without a write for the last possible block, the entries cover the range, each
is the last accepted write for its block, each but the first follows the one before it, and the
files can be opened again with and without the index. -/
theorem log_consistent (h : Steps WritesBelowMax {} run s) :
    s.beginBlock ≤ s.endBlock ∧ s.index.length = 8 * (s.endBlock - s.beginBlock) ∧
      (∀ n, (∃ entry, s.getEntry n = .ok entry) ↔ s.beginBlock ≤ n ∧ n < s.endBlock) ∧
      (∀ n, s.beginBlock ≤ n → n < s.endBlock → ∃ r rest, lastWrite run n = some r ∧
        s.getEntry n = .ok (r.header, r.payload ++ rest)) ∧
      (∀ n r r', s.beginBlock ≤ n → n + 1 < s.endBlock → lastWrite run n = some r →
        lastWrite run (n + 1) = some r' → r'.prevId = r.blockId) ∧
      openFiles s.log s.index = .ok s ∧ openFiles s.log [] = .ok s := by
  obtain ⟨es, hholds, hlatest⟩ := holds_of_run h
  have hend := hholds.endBlock
  have hstored : ∀ n, s.beginBlock ≤ n → n < s.endBlock →
      ∃ r, es[n - s.beginBlock]? = some r ∧ lastWrite run n = some r := by
    intro n hlow hhigh
    have hr : es[n - s.beginBlock]? = some (es[n - s.beginBlock]) :=
      getElem?_eq_getElem (by omega)
    have hnum := hholds.numbers _ _ hr
    rw [Nat.add_sub_cancel' hlow] at hnum
    have hlast := hlatest _ (mem_of_getElem? hr)
    rw [hnum] at hlast
    exact ⟨_, hr, hlast⟩
  have hentry : ∀ n, s.beginBlock ≤ n → n < s.endBlock → ∃ r rest, lastWrite run n = some r ∧
      s.getEntry n = .ok (r.header, r.payload ++ rest) := by
    intro n hlow hhigh
    obtain ⟨r, hr, hlast⟩ := hstored n hlow hhigh
    obtain ⟨rest, hrest⟩ := hholds.toStores.getEntry hr
    rw [Nat.add_sub_cancel' hlow] at hrest
    exact ⟨r, rest, hlast, hrest⟩
  refine ⟨by omega, ?_, ?_, hentry, ?_, hholds.reopen⟩
  · rw [hholds.length_index]
    omega
  · intro n
    constructor
    · rintro ⟨entry, hok⟩
      obtain ⟨_, hrange, -⟩ := bind_ok_iff.mp hok
      exact eosAssert_ok_iff.mp hrange
    · rintro ⟨hlow, hhigh⟩
      obtain ⟨r, rest, -, hok⟩ := hentry n hlow hhigh
      exact ⟨_, hok⟩
  intro n r r' hlow hhigh hr hr'
  obtain ⟨e, he, hlast⟩ := hstored n hlow (by omega)
  obtain ⟨e', he', hlast'⟩ := hstored (n + 1) (by omega) hhigh
  rw [hr, some.injEq] at hlast
  rw [hr', some.injEq] at hlast'
  rw [Nat.sub_add_comm hlow] at he'
  subst hlast hlast'
  exact hholds.linked _ _ _ he he'

end Runs

def lastPossible : WriteRequest := ⟨2 ^ 32 - 1, default, default, [7], by decide⟩

/-- After a write for the last possible block the range ends at zero: the entry cannot be read, and
the files cannot be opened. -/
theorem end_wraps : ∃ t, Steps Writes {} [({}, lastPossible, t)] t ∧
    ({} : StateHistoryLog).accepts lastPossible = true ∧
    t.beginBlock = 2 ^ 32 - 1 ∧ t.endBlock = 0 ∧
    t.getEntry (2 ^ 32 - 1) = .error ⟨.plugin, "read non-existing block in $\x7bname\x7d.log"⟩ ∧
    openFiles t.log t.index = .error ⟨.plugin, "recover $\x7bname\x7d.log failed"⟩ := by
  refine ⟨_, .snoc (.nil _) ⟨rfl, by decide⟩, by decide, rfl, rfl, rfl, rfl⟩

def forkWrites : List WriteRequest :=
  [⟨5, ⟨1, 0, 0, 0⟩, default, [7, 8], by decide⟩, ⟨6, ⟨2, 0, 0, 0⟩, ⟨1, 0, 0, 0⟩, [9], by decide⟩,
    ⟨6, ⟨3, 0, 0, 0⟩, ⟨1, 0, 0, 0⟩, [], by decide⟩]

def writesBelowMax? (s : StateHistoryLog) (r : WriteRequest) : Option StateHistoryLog :=
  let t := (s.writeEntry r.header r.prevId r.payload).state
  if r.blockNum ≠ 2 ^ 32 - 1 ∧ t.log.length < 2 ^ 63 then some t else none

lemma writesBelowMax_of_some (h : writesBelowMax? s r = some t) : s.WritesBelowMax r t := by
  unfold writesBelowMax? at h
  dsimp only at h
  split at h
  · rename_i hcond
    cases h
    exact ⟨hcond.1, rfl, hcond.2⟩
  · cases h

lemma forkWrites_replay : (Steps.replay writesBelowMax? {} forkWrites).isSome := by
  decide +kernel

theorem fork_log_consistent : ∃ run s, Steps WritesBelowMax {} run s ∧
    run.map (fun e => e.2.1) = forkWrites ∧
    (∀ n, s.beginBlock ≤ n → n < s.endBlock → ∃ r rest, lastWrite run n = some r ∧
      s.getEntry n = .ok (r.header, r.payload ++ rest)) ∧
    openFiles s.log s.index = .ok s ∧ openFiles s.log [] = .ok s := by
  obtain ⟨s, hreplay⟩ := isSome_iff_exists.mp forkWrites_replay
  obtain ⟨run, hrun, hlabels⟩ := Steps.of_replay writesBelowMax_of_some hreplay
  obtain ⟨-, -, -, hentries, -, hreopen⟩ := log_consistent hrun
  exact ⟨run, s, hrun, hlabels, hentries, hreopen⟩

end StateHistoryLog

end DimensionChain
