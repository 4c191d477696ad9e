import DimensionChain.Log.BlockFiles

/-!
# Reopening the block log

What was appended since the last reset is found again after the files are closed and opened,
with the index as it was, without one, or with one that ends elsewhere than the log. A log that
has no block cannot be opened, because the id of its head is read through a null pointer.
-/

namespace DimensionChain.BlockFiles
open List Bytes RecordLog Option Nat

variable {Key Sig Block Genesis : Type} {C : Crypto Key Sig} {F : LogFormat Key Sig Block Genesis}
  {log log' : BlockFiles Block} {gs : Genesis} {first : Nat} {b : Block} {bs cs : List Block}
  {i : Nat} {firstBlock : Option Block}

@[simp] lemma stream_some {α : Type} (a : α) : stream (some a) = .ok a := rfl

variable (F gs first) in
def front : Bytes :=
  ofWord 4 maxSupportedVersion ++ (ofWord 4 first ++ (F.genesis.pack gs ++
    ofWord 8 npos))

variable (F) in
def records (bs : List Block) : List Bytes := bs.map F.block.pack

variable (F gs first bs) in
def blockBytes : Bytes :=
  front F gs first ++ RecordLog.layout (front F gs first).length (records F bs)

variable (F gs first bs) in
def indexBytes : Bytes := RecordLog.index (front F gs first).length (records F bs)

variable (F gs first bs) in
def nextPos : Nat := RecordLog.next (front F gs first).length (records F bs)

variable (C F gs first bs log) in
structure Holds : Prop where
  blockFile : log.blockFile = blockBytes F gs first bs
  indexFile : log.indexFile = indexBytes F gs first bs
  genesis : log.genesisWrittenToBlockLog = true
  version : log.version = maxSupportedVersion
  firstBlockNum : log.firstBlockNum = first
  head : ∀ b ∈ bs.getLast?, log.head = some b ∧ log.headId = (F.signed b).id C
  numbers : ∀ i b, bs[i]? = some b → sub32 (F.signed b).blockNum first = i

lemma records_concat : records F (bs ++ [b]) = records F bs ++ [F.block.pack b] := by
  rw [records, map_append]
  rfl

variable (F) in
lemma getElem?_records (hb : bs[i]? = some b) : (records F bs)[i]? = some (F.block.pack b) := by
  rw [records, getElem?_map, hb, map_some]

variable (F bs) in
lemma records_take (i : Nat) : records F (bs.take i) = (records F bs).take i :=
  map_take

lemma length_front : (front F gs first).length = 16 + (F.genesis.pack gs).length := by
  unfold front
  simp only [length_append, length_ofWord]
  omega

lemma length_blockBytes : (blockBytes F gs first bs).length = nextPos F gs first bs := by
  rw [blockBytes, length_append]
  rfl

lemma length_indexBytes : (indexBytes F gs first bs).length = 8 * bs.length := by
  rw [indexBytes, length_index, records, length_map]

variable (F gs first bs) in
lemma sixteen_le_nextPos : 16 ≤ nextPos F gs first bs := by
  rw [← length_blockBytes, blockBytes, length_append, length_front]
  omega

lemma blockBytes_concat : blockBytes F gs first (bs ++ [b]) = blockBytes F gs first bs ++
      (F.block.pack b ++ ofWord 8 (nextPos F gs first bs)) := by
  rw [blockBytes, records_concat, layout_concat, ← append_assoc]
  rfl

lemma indexBytes_concat : indexBytes F gs first (bs ++ [b]) =
    indexBytes F gs first bs ++ ofWord 8 (nextPos F gs first bs) := by
  rw [indexBytes, records_concat, index_concat]
  rfl

variable (F gs first bs b) in
lemma nextPos_concat : nextPos F gs first (bs ++ [b]) =
    nextPos F gs first bs + (F.block.pack b).length + 8 := by
  rw [nextPos, records_concat, next_concat]
  rfl

variable (F gs first) in
lemma nextPos_take_lt (hb : bs[i]? = some b) :
    nextPos F gs first (bs.take i) + 8 ≤ nextPos F gs first bs := by
  have hlt := next_take_lt (front F gs first).length (getElem?_records F hb)
  unfold nextPos
  rw [records_take]
  omega

lemma readWord_version : (blockBytes F gs first bs).readWord 0 4 = some maxSupportedVersion := by
  exact readWord_front (by decide) _

lemma readWord_firstBlockNum (hfirst : first < 2 ^ 32) :
    (blockBytes F gs first bs).readWord 4 4 = some first := by
  apply readWord_eq (ofWord 4 maxSupportedVersion)
    (F.genesis.pack gs ++ (ofWord 8 npos ++
      layout (front F gs first).length (records F bs))) (by omega)
  · unfold blockBytes
    nth_rewrite 1 [front]
    simp
  · exact length_ofWord 4 _

lemma readWord_end_nil :
    (blockBytes F gs first []).readWord (nextPos F gs first [] - 8) 8 = some npos := by
  apply readWord_eq (ofWord 4 maxSupportedVersion ++ (ofWord 4 first ++
    F.genesis.pack gs)) [] (by decide)
  · show front F gs first ++ [] = _
    unfold front
    simp
  show _ = (front F gs first).length - 8
  rw [length_front]
  simp only [length_append, length_ofWord]
  omega

lemma readWord_end (hsize : nextPos F gs first (bs ++ [b]) < 2 ^ 63) :
    (blockBytes F gs first (bs ++ [b])).readWord (nextPos F gs first (bs ++ [b]) - 8) 8 =
      some (nextPos F gs first bs) := by
  unfold nextPos at hsize
  unfold blockBytes nextPos
  rw [records_concat] at hsize ⊢
  apply readWord_last _ rfl
  omega

lemma readWord_index_end (hsize : nextPos F gs first bs < 2 ^ 63) :
    (indexBytes F gs first (bs ++ [b])).readWord (8 * bs.length) 8 =
      some (nextPos F gs first bs) := by
  apply readWord_eq (indexBytes F gs first bs) [] (by omega)
  · rw [indexBytes_concat, append_nil]
  · exact length_indexBytes

lemma append_ok_iff : log.append C F b = .ok log' ↔
    log.genesisWrittenToBlockLog = true ∧
      log.indexFile.length = 8 * sub32 (F.signed b).blockNum log.firstBlockNum ∧
      log' = { log with
        blockFile := log.blockFile ++
          (F.block.pack b ++ ofWord 8 log.blockFile.length)
        indexFile := log.indexFile ++ ofWord 8 log.blockFile.length
        head := some b
        headId := (F.signed b).id C } := by
  unfold append
  simp only [bind_ok_iff, eosAssert_ok_iff, pure, Except.pure, Except.ok.injEq]
  constructor
  · rintro ⟨-, hgenesis, -, hindex, rfl⟩
    exact ⟨hgenesis, hindex, rfl⟩
  · rintro ⟨hgenesis, hindex, rfl⟩
    exact ⟨(), hgenesis, (), hindex, rfl⟩

lemma Holds.append (h : log.Holds C F gs first bs)
    (hb : log.append C F b = .ok log') : log'.Holds C F gs first (bs ++ [b]) := by
  obtain ⟨-, hindex, rfl⟩ := append_ok_iff.mp hb
  have hlen : log.blockFile.length = nextPos F gs first bs := by
    rw [h.blockFile, length_blockBytes]
  refine ⟨?_, ?_, h.genesis, h.version, h.firstBlockNum, ?_, ?_⟩
  · rw [hlen, h.blockFile, blockBytes_concat]
  · rw [hlen, h.indexFile, indexBytes_concat]
  · intro c hc
    rw [getLast?_concat, mem_some_iff] at hc
    subst hc
    exact ⟨rfl, rfl⟩
  intro i c hc
  rcases lt_trichotomy i bs.length with hi | hi | hi
  · rw [getElem?_append_left hi] at hc
    exact h.numbers i c hc
  · rw [hi, getElem?_concat_length, Option.some.injEq] at hc
    rw [h.indexFile, length_indexBytes, h.firstBlockNum] at hindex
    rw [← hc]
    omega
  · rw [getElem?_eq_none (by rw [length_append, length_singleton]; omega)] at hc
    cases hc

lemma Holds.appendAll (h : log.Holds C F gs first bs)
    (hcs : log.appendAll C F cs = .ok log') : log'.Holds C F gs first (bs ++ cs) := by
  induction cs generalizing log bs with
  | nil =>
    cases hcs
    rw [append_nil]
    exact h
  | cons c cs ih =>
    obtain ⟨middle, hc, hrest⟩ := bind_ok_iff.mp hcs
    have hall := ih (h.append hc) hrest
    rwa [append_assoc] at hall

variable (C log F gs first) in
lemma holds_reset_none : ∃ log', log.reset C F gs none first = .ok log' ∧
    log'.Holds C F gs first [] := by
  refine ⟨_, rfl, ?_, rfl, rfl, rfl, rfl, nofun, nofun⟩
  exact (append_nil _).symm

lemma append_setVersion (hlen : 4 ≤ log.blockFile.length) (hb : log.append C F b = .ok log') :
    log.setVersion.append C F b = .ok log'.setVersion := by
  obtain ⟨hgenesis, hindex, rfl⟩ := append_ok_iff.mp hb
  have hsame : log.setVersion.blockFile.length = log.blockFile.length := by
    unfold setVersion
    rw [length_append, length_ofWord, length_drop]
    omega
  apply append_ok_iff.mpr
  refine ⟨hgenesis, hindex, ?_⟩
  rw [hsame]
  unfold setVersion
  rw [drop_append_of_le_length hlen, append_assoc]

lemma holds_reset (hreset : log.reset C F gs firstBlock first = .ok log') :
    log'.Holds C F gs first firstBlock.toList := by
  obtain ⟨empty, hempty, hholds⟩ := holds_reset_none C F log gs first
  cases firstBlock with
  | none =>
    obtain rfl := Except.ok.inj (hempty.symm.trans hreset)
    exact hholds
  | some b =>
    -- a reset with a first block is one without, and then the block is appended
    obtain ⟨unmarked, hb, hmarked⟩ := bind_ok_iff.mp hreset
    obtain rfl := Except.ok.inj hempty
    obtain rfl := Except.ok.inj hmarked
    have hlen : 4 ≤ (log.writeGenesis F gs first).blockFile.length := by
      unfold writeGenesis
      rw [length_append, length_ofWord]
      omega
    exact hholds.append (append_setVersion hlen hb)

section Index

lemma indexLoop_block {endPos rounds pos start : Nat} {rest index : Bytes} (hpos : pos < endPos)
    (hstart : start < 2 ^ 64) : indexLoop F endPos (rounds + 1) pos
        (F.block.pack b ++ (ofWord 8 start ++ rest)) index =
      indexLoop F endPos rounds start rest (index ++ ofWord 8 start) := by
  rw [indexLoop, if_pos hpos, F.block.unpack_pack]
  simp only [stream_some, bind, Except.bind]
  rw [readWord_front (by omega)]
  simp only [stream_some]
  rw [drop_left' (length_ofWord 8 start)]

lemma indexLoop_eq {endPos start rounds pos : Nat} {index : Bytes}
    (hend : endPos = RecordLog.next start (records F bs)) (hpos : pos < endPos)
    (hrounds : bs.length + 1 < rounds) (hsize : endPos < 2 ^ 63) :
    indexLoop F endPos rounds pos (RecordLog.layout start (records F (bs ++ [b]))) index =
      .ok (index ++ RecordLog.index start (records F (bs ++ [b]))) := by
  induction bs generalizing start rounds pos index with
  | nil =>
    have hstart : endPos = start := hend
    obtain ⟨n, rfl⟩ : ∃ n, rounds = n + 2 := ⟨rounds - 2, by omega⟩
    rw [nil_append, records, map_singleton, RecordLog.layout, RecordLog.layout,
      append_assoc, indexLoop_block hpos (by omega), indexLoop, if_neg (by omega),
      RecordLog.index, RecordLog.index, append_nil]
    rfl
  | cons c cs ih =>
    have hnext : endPos = RecordLog.next (start + (F.block.pack c).length + 8)
        (records F cs) := by
      rw [hend, records, map_cons, next_cons]
      rfl
    have hlt : start < endPos := by
      unfold RecordLog.next at hnext
      omega
    rw [length_cons] at hrounds
    obtain ⟨n, rfl⟩ : ∃ n, rounds = n + 1 := ⟨rounds - 1, by omega⟩
    have hcons : records F (c :: cs ++ [b]) =
        F.block.pack c :: records F (cs ++ [b]) := rfl
    rw [hcons, RecordLog.layout, append_assoc, indexLoop_block hpos (by omega),
      ih hnext hlt (by omega), RecordLog.index, append_assoc]

variable (hfile : log.blockFile = blockBytes F gs first (bs ++ [b]))
include hfile

lemma constructIndex_eq (hversion : log.version = maxSupportedVersion)
    (hsize : nextPos F gs first (bs ++ [b]) < 2 ^ 63) : log.constructIndex F =
      .ok { log with indexFile := indexBytes F gs first (bs ++ [b]) } := by
  have hgenesis : (blockBytes F gs first (bs ++ [b])).drop 8 =
      F.genesis.pack gs ++ (ofWord 8 npos ++
        layout (front F gs first).length (records F (bs ++ [b]))) := by
    unfold blockBytes
    nth_rewrite 1 [front]
    rw [append_assoc, append_assoc, append_assoc, ← append_assoc,
      drop_left' (by rw [length_append, length_ofWord, length_ofWord])]
  have hrounds : bs.length + 1 < nextPos F gs first (bs ++ [b]) + 1 := by
    have hlen : (records F (bs ++ [b])).length ≤
        (layout (front F gs first).length (records F (bs ++ [b]))).length :=
      length_le_layout
    have hcount : (records F (bs ++ [b])).length = bs.length + 1 := by
      rw [records, length_map, length_append, length_singleton]
    unfold nextPos RecordLog.next
    omega
  have hlast := nextPos_concat F gs first b bs
  have hlow := sixteen_le_nextPos F gs first bs
  have hloop : indexLoop F (nextPos F gs first bs) (nextPos F gs first (bs ++ [b]) + 1)
      8 (layout (front F gs first).length (records F (bs ++ [b]))) [] =
      .ok (indexBytes F gs first (bs ++ [b])) :=
    indexLoop_eq rfl (by omega) hrounds (by omega)
  unfold constructIndex
  rw [hfile, length_blockBytes, readWord_end hsize, hversion]
  simp only [stream_some, bind, Except.bind]
  rw [if_neg (by decide), hgenesis, F.genesis.unpack_pack]
  simp only [stream_some]
  rw [if_pos (by decide), readWord_front (by decide)]
  simp only [stream_some, pure, Except.pure]
  rw [drop_left' (length_ofWord 8 npos), hloop]

variable (F) in
/-- The index as it is written, none, or one that ends elsewhere. -/
def IndexSeen (gs : Genesis) (first : Nat) (bs : List Block) (b : Block) (index : Bytes) : Prop :=
  index = indexBytes F gs first (bs ++ [b]) ∨ index = [] ∨
    ∃ pos ≠ nextPos F gs first bs, index.readWord (index.length - 8) 8 = some pos

lemma openIndex_eq (hversion : log.version = maxSupportedVersion)
    (hsize : nextPos F gs first (bs ++ [b]) < 2 ^ 63)
    (hindex : IndexSeen F gs first bs b log.indexFile) : log.openIndex F =
      .ok { log with indexFile := indexBytes F gs first (bs ++ [b]) } := by
  have hconstruct := constructIndex_eq hfile hversion hsize
  have hlast := nextPos_concat F gs first b bs
  unfold openIndex
  split
  case isTrue => exact hconstruct
  case isFalse hne =>
    have hend : log.blockFile.readWord (log.blockFile.length - 8) 8 =
        some (nextPos F gs first bs) := by
      rw [hfile, length_blockBytes, readWord_end hsize]
    rw [hend]
    simp only [stream_some, bind, Except.bind]
    rcases hindex with hsame | hempty | ⟨pos, hpos, hread⟩
    · rw [hsame, length_indexBytes, length_append, length_singleton,
        show 8 * (bs.length + 1) - 8 = 8 * bs.length by omega, readWord_index_end (by omega)]
      simp only [stream_some, lt_irrefl, if_false]
      rw [← hsame]
      rfl
    · rw [hempty] at hne
      exact absurd rfl hne
    rw [hread]
    simp only [stream_some]
    split
    · exact hconstruct
    · rw [if_pos (by omega)]
      exact hconstruct

end Index

lemma Holds.readBlock (h : log.Holds C F gs first bs) (hb : bs[i]? = some b) :
    ∃ next, log.readBlock F (nextPos F gs first (bs.take i)) = .ok (b, next) := by
  unfold BlockFiles.readBlock nextPos
  rw [h.blockFile, blockBytes, records_take, drop_layout _ rfl (getElem?_records F hb),
    F.block.unpack_pack]
  exact ⟨_, rfl⟩

lemma readHead_eq (hfile : log.blockFile = blockBytes F gs first (bs ++ [b]))
    (hsize : nextPos F gs first (bs ++ [b]) < 2 ^ 63) : log.readHead F = .ok (some b) := by
  have hlast : (records F (bs ++ [b]))[bs.length]? = some (F.block.pack b) :=
    getElem?_records F getElem?_concat_length
  have hdrop := drop_layout (front F gs first) rfl hlast
  rw [← records_take, take_left] at hdrop
  have hconcat := nextPos_concat F gs first b bs
  have hlow := sixteen_le_nextPos F gs first bs
  unfold readHead BlockFiles.readBlock
  rw [hfile, length_blockBytes, if_neg (by omega), readWord_end hsize]
  simp only [stream_some, bind, Except.bind]
  rw [if_pos (by unfold npos; omega)]
  unfold nextPos blockBytes
  rw [hdrop, F.block.unpack_pack]
  rfl

lemma readHead_nil (hfile : log.blockFile = blockBytes F gs first []) :
    log.readHead F = .ok none := by
  have hlow := sixteen_le_nextPos F gs first []
  unfold readHead
  rw [hfile, length_blockBytes, if_neg (by omega), readWord_end_nil]
  rfl

lemma Holds.block_at (h : log.Holds C F gs first (bs ++ [b])) {n : Nat}
    (hrange : n ≤ (F.signed b).blockNum ∧ first ≤ n) :
    ∃ c, (bs ++ [b])[n - first]? = some c ∧ (F.signed c).blockNum = n := by
  have hlast := h.numbers bs.length b getElem?_concat_length
  have hbnum : (F.signed b).blockNum < 2 ^ 32 := mod_lt _ (by decide)
  rw [sub32_eq (hrange.2.trans hrange.1) hbnum] at hlast
  have hi : n - first < (bs ++ [b]).length := by
    rw [length_append, length_singleton]
    omega
  obtain ⟨c, hc⟩ : ∃ c, (bs ++ [b])[n - first]? = some c := ⟨_, getElem?_eq_getElem hi⟩
  have hcnum := h.numbers _ c hc
  have hclt : (F.signed c).blockNum < 2 ^ 32 := mod_lt _ (by decide)
  refine ⟨c, hc, ?_⟩
  unfold sub32 u32 at hcnum
  omega

lemma Holds.readBlockByNum (h : log.Holds C F gs first (bs ++ [b]))
    (hsize : nextPos F gs first (bs ++ [b]) < 2 ^ 63) (n : Nat) : log.readBlockByNum F n =
      .ok (if n ≤ (F.signed b).blockNum ∧ first ≤ n then (bs ++ [b])[n - first]? else none) := by
  obtain ⟨hhead, hheadId⟩ := h.head b getLast?_concat
  have hnum : numFromId log.headId = (F.signed b).blockNum := by
    rw [hheadId]
    exact numFromId_id C _
  unfold BlockFiles.readBlockByNum getBlockPos
  rw [hhead, hnum, h.firstBlockNum]
  simp only [isSome_some, true_and]
  split
  case isFalse => rfl
  case isTrue hrange =>
    obtain ⟨c, hc, hcnum⟩ := h.block_at hrange
    have hpos := nextPos_take_lt F gs first hc
    obtain ⟨next, hread⟩ := h.readBlock hc
    have hword : log.indexFile.readWord (8 * (n - first)) 8 =
        some (nextPos F gs first ((bs ++ [b]).take (n - first))) := by
      rw [h.indexFile, indexBytes, readWord_index (getElem?_records F hc) (by
        unfold nextPos at hsize; omega), nextPos, records_take]
    rw [hword, hc]
    simp only [stream_some, bind, Except.bind]
    rw [if_pos (by unfold npos; omega), hread]
    simp only [eosAssert]
    rw [if_pos hcnum]
    rfl

def toBlockLog (F : LogFormat Key Sig Block Genesis) (first : Nat) (bs : List Block) :
    BlockLog Key Sig :=
  ⟨first, bs.map F.signed⟩

lemma Holds.readBlockByNum_abstract (h : log.Holds C F gs first (bs ++ [b]))
    (hsize : nextPos F gs first (bs ++ [b]) < 2 ^ 63) (n : Nat) :
    (log.readBlockByNum F n).map (Option.map F.signed) =
      (toBlockLog F first (bs ++ [b])).readBlockByNum C n := by
  have hhead : (toBlockLog F first (bs ++ [b])).head = some (F.signed b) := by
    rw [BlockLog.head, toBlockLog, map_append]
    exact getLast?_concat
  have hid : numFromId ((F.signed b).id C) = (F.signed b).blockNum := numFromId_id C _
  rw [h.readBlockByNum hsize]
  unfold BlockLog.readBlockByNum
  rw [hhead]
  dsimp only
  rw [hid]
  show Except.ok _ = if n ≤ (F.signed b).blockNum ∧ first ≤ n then _ else _
  split
  case isFalse => rfl
  case isTrue hrange =>
    obtain ⟨c, hc, hcnum⟩ := h.block_at hrange
    rw [toBlockLog, getElem?_map, hc]
    dsimp only [map_some]
    rw [if_pos hcnum]

lemma Holds.append_abstract (h : log.Holds C F gs first bs) :
    (∃ log', log.append C F b = .ok log') ↔
      (toBlockLog F first bs).append (F.signed b) = .ok (toBlockLog F first (bs ++ [b])) := by
  have hindex : log.indexFile.length = 8 * sub32 (F.signed b).blockNum log.firstBlockNum ↔
      bs.length = sub32 (F.signed b).blockNum first := by
    rw [h.indexFile, length_indexBytes, h.firstBlockNum]
    omega
  unfold BlockLog.append
  simp only [append_ok_iff, h.genesis, hindex, true_and, toBlockLog, length_map,
    map_append, map_cons, map_nil]
  constructor
  · rintro ⟨-, hnum, -⟩
    rw [if_pos hnum]
  intro hok
  split at hok
  · rename_i hnum
    exact ⟨_, hnum, rfl⟩
  · cases hok

/-- After a reset and any appends the files read and append as the list of the blocks does. -/
theorem files_refine_log {log₀ start : BlockFiles Block}
    (hreset : log₀.reset C F gs firstBlock first = .ok start)
    (happend : start.appendAll C F bs = .ok log) (hsize : log.blockFile.length < 2 ^ 63) :
    (∀ b, (∃ log', log.append C F b = .ok log') ↔
      (toBlockLog F first (firstBlock.toList ++ bs)).append (F.signed b) =
        .ok (toBlockLog F first (firstBlock.toList ++ bs ++ [b]))) ∧
    (firstBlock.toList ++ bs ≠ [] → ∀ n, (log.readBlockByNum F n).map (Option.map F.signed) =
      (toBlockLog F first (firstBlock.toList ++ bs)).readBlockByNum C n) := by
  have hlog := (holds_reset hreset).appendAll happend
  refine ⟨fun b => hlog.append_abstract, ?_⟩
  intro hne n
  obtain ⟨cs, b, hconcat⟩ := (eq_nil_or_concat _).resolve_left hne
  rw [concat_eq_append] at hconcat
  rw [hconcat] at hlog ⊢
  rw [hlog.blockFile, length_blockBytes] at hsize
  exact hlog.readBlockByNum_abstract hsize n

section Opening

lemma openVersion_ok_iff (hfile : log.blockFile = blockBytes F gs first bs)
    (hfirst : first < 2 ^ 32) : log.openVersion = .ok log' ↔ 0 < first ∧ log' = { log with
      genesisWrittenToBlockLog := true
      version := maxSupportedVersion
      firstBlockNum := first } := by
  have hversion : log.blockFile.readWord 0 4 = some maxSupportedVersion := by
    rw [hfile, readWord_version]
  have hnum : log.blockFile.readWord 4 4 = some first := by
    rw [hfile, readWord_firstBlockNum hfirst]
  unfold openVersion
  rw [hversion, hnum]
  simp only [stream_some, bind_ok_iff, eosAssert_ok_iff, Except.ok.injEq, exists_eq_left',
    show maxSupportedVersion > 1 by decide, if_true, pure, Except.pure]
  constructor
  · rintro ⟨-, -, -, -, -, hpos, rfl⟩
    exact ⟨hpos, rfl⟩
  · rintro ⟨hpos, rfl⟩
    exact ⟨(), by decide, (), by decide, (), hpos, rfl⟩

lemma blockBytes_ne_nil : (blockBytes F gs first bs).length ≠ 0 := by
  have hlow := sixteen_le_nextPos F gs first bs
  rw [length_blockBytes]
  omega

variable {index : Bytes}

variable (C F) in
def opened (gs : Genesis) (first : Nat) (bs : List Block) (b : Block) : BlockFiles Block where
  head := some b
  headId := (F.signed b).id C
  blockFile := blockBytes F gs first (bs ++ [b])
  indexFile := indexBytes F gs first (bs ++ [b])
  genesisWrittenToBlockLog := true
  version := maxSupportedVersion
  firstBlockNum := first

lemma openFiles_ok_iff (hfirst : first < 2 ^ 32) (hsize : nextPos F gs first (bs ++ [b]) < 2 ^ 63)
    (hindex : IndexSeen F gs first bs b index) :
    openFiles C F (blockBytes F gs first (bs ++ [b])) index = .ok log' ↔
      0 < first ∧ log' = opened C F gs first bs b := by
  unfold openFiles
  rw [if_neg blockBytes_ne_nil, bind_ok_iff]
  constructor
  · rintro ⟨opened, hopened, hrest⟩
    obtain ⟨hpos, rfl⟩ := (openVersion_ok_iff rfl hfirst).mp hopened
    rw [readHead_eq rfl hsize] at hrest
    have hopen := hrest.symm.trans (openIndex_eq rfl rfl hsize hindex)
    exact ⟨hpos, Except.ok.inj hopen⟩
  rintro ⟨hpos, rfl⟩
  refine ⟨_, (openVersion_ok_iff rfl hfirst).mpr ⟨hpos, rfl⟩, ?_⟩
  rw [readHead_eq rfl hsize]
  exact openIndex_eq rfl rfl hsize hindex

lemma openFiles_nil (hfirst : first < 2 ^ 32) :
    openFiles C F (blockBytes F gs first []) index ≠ .ok log' := by
  intro hok
  obtain ⟨opened, hopened, hrest⟩ := bind_ok_iff.mp hok
  obtain ⟨-, rfl⟩ := (openVersion_ok_iff rfl hfirst).mp hopened
  rw [readHead_nil rfl] at hrest
  cases hrest

lemma readWord_older (hpos : 0 < i) (hi : i ≤ bs.length)
    (hsize : nextPos F gs first (bs ++ [b]) < 2 ^ 63) :
    ∃ pos ≠ nextPos F gs first bs, (indexBytes F gs first ((bs ++ [b]).take i)).readWord
      ((indexBytes F gs first ((bs ++ [b]).take i)).length - 8) 8 = some pos := by
  obtain ⟨n, rfl⟩ : ∃ n, i = n + 1 := ⟨i - 1, by omega⟩
  obtain ⟨c, hc⟩ : ∃ c, bs[n]? = some c := ⟨_, getElem?_eq_getElem (by omega)⟩
  have hlt := nextPos_take_lt F gs first hc
  have hlast := nextPos_concat F gs first b bs
  have htake : (bs ++ [b]).take (n + 1) = bs.take n ++ [c] := by
    rw [take_append_of_le_length hi, take_add_one, hc]
    rfl
  refine ⟨nextPos F gs first (bs.take n), by omega, ?_⟩
  rw [htake, length_indexBytes, length_append, length_singleton,
    show 8 * ((bs.take n).length + 1) - 8 = 8 * (bs.take n).length by omega,
    readWord_index_end (by omega)]

variable (C F log) in
/-- What can be in the place of the index when the log is opened again: the index as it was, none,
one of an earlier state since the reset, or one that ends with another position than the log. -/
inductive IndexLeft (start : BlockFiles Block) (bs : List Block) : Bytes → Prop where
  | intact : IndexLeft start bs log.indexFile
  | missing : IndexLeft start bs []
  | older (i : Nat) (old : BlockFiles Block) (h : start.appendAll C F (bs.take i) = .ok old) :
      IndexLeft start bs old.indexFile
  | elsewhere (index : Bytes) (pos : Nat)
      (hpos : index.readWord (index.length - 8) 8 = some pos)
      (hne : log.blockFile.readWord (log.blockFile.length - 8) 8 ≠ some pos) :
      IndexLeft start bs index

def numbered (first : Nat) (bs : List Block) (n : Nat) : Option Block :=
  if first ≤ n then bs[n - first]? else none

lemma IndexLeft.cases {start : BlockFiles Block}
    (h : IndexLeft C F log start cs index) (hstart : start.Holds C F gs first firstBlock.toList)
    (hlog : log.Holds C F gs first (bs ++ [b])) (hbs : firstBlock.toList ++ cs = bs ++ [b])
    (hsize : nextPos F gs first (bs ++ [b]) < 2 ^ 63) : IndexSeen F gs first bs b index := by
  cases h with
  | intact => exact .inl hlog.indexFile
  | missing => exact .inr (.inl rfl)
  | older i old hold =>
    have hfile := (hstart.appendAll hold).indexFile
    have htake : firstBlock.toList ++ cs.take i = (bs ++ [b]).take (firstBlock.toList.length + i) := by
      rw [← hbs, take_length_add_append]
    rw [hfile, htake]
    rcases Nat.eq_zero_or_pos (firstBlock.toList.length + i) with hzero | hpos
    · rw [hzero]
      exact .inr (.inl rfl)
    by_cases hi : firstBlock.toList.length + i ≤ bs.length
    · exact .inr (.inr (readWord_older hpos hi hsize))
    · rw [take_of_length_le (by rw [length_append, length_singleton]; omega)]
      exact .inl rfl
  | elsewhere index pos hpos hne =>
    rw [hlog.blockFile, length_blockBytes, readWord_end hsize] at hne
    exact .inr (.inr ⟨pos, fun heq => hne (heq ▸ rfl), hpos⟩)

lemma holds_opened (h : log.Holds C F gs first (bs ++ [b])) :
    (opened C F gs first bs b).Holds C F gs first (bs ++ [b]) := by
  refine ⟨rfl, rfl, rfl, rfl, rfl, ?_, h.numbers⟩
  intro c hc
  rw [getLast?_concat, mem_some_iff] at hc
  subst hc
  exact ⟨rfl, rfl⟩

/-- A log that is opened again has its head and its blocks exactly if there is a block, the
first number is not zero, and the numbers do not wrap. -/
theorem reopen_iff {log₀ start : BlockFiles Block} {firstBlock : Option Block} {index : Bytes}
    (hfirst : first < 2 ^ 32) (hreset : log₀.reset C F gs firstBlock first = .ok start)
    (happend : start.appendAll C F bs = .ok log) (hsize : log.blockFile.length < 2 ^ 63)
    (hindex : IndexLeft C F log start bs index) :
    (∃ log', openFiles C F log.blockFile index = .ok log' ∧ log'.head = log.head ∧
        ∀ n, log'.readBlockByNum F n = .ok (numbered first (firstBlock.toList ++ bs) n)) ↔
      firstBlock.toList ++ bs ≠ [] ∧ 0 < first ∧
        first + (firstBlock.toList ++ bs).length ≤ 2 ^ 32 := by
  have hstart := holds_reset hreset
  have hlog := hstart.appendAll happend
  rw [hlog.blockFile, length_blockBytes] at hsize
  rw [hlog.blockFile]
  rcases eq_nil_or_concat (firstBlock.toList ++ bs) with hnil | ⟨cs, b, hconcat⟩
  · rw [hnil]
    constructor
    · rintro ⟨log', hopen, -⟩
      exact absurd hopen (openFiles_nil hfirst)
    · intro h
      exact absurd rfl h.1
  have hconcat : firstBlock.toList ++ bs = cs ++ [b] := by simpa using hconcat
  rw [hconcat] at hlog hsize ⊢
  have hleft := hindex.cases hstart hlog hconcat hsize
  have hlast := hlog.numbers cs.length b getElem?_concat_length
  have hbnum : (F.signed b).blockNum < 2 ^ 32 := mod_lt _ (by decide)
  have hlen : (cs ++ [b]).length = cs.length + 1 := by rw [length_append]; rfl
  unfold sub32 u32 at hlast
  constructor
  · rintro ⟨log', hopen, -, hread⟩
    obtain ⟨hpos, rfl⟩ := (openFiles_ok_iff hfirst hsize hleft).mp hopen
    refine ⟨by simp, hpos, ?_⟩
    by_contra hwrap
    -- the number of the head is below the first one, so the first block is not found
    have hzero := hread first
    rw [(holds_opened hlog).readBlockByNum hsize, if_neg (by omega), numbered,
      if_pos (Nat.le_refl _), Nat.sub_self, getElem?_eq_getElem (by omega)] at hzero
    cases hzero
  rintro ⟨-, hpos, hwrap⟩
  refine ⟨_, (openFiles_ok_iff hfirst hsize hleft).mpr ⟨hpos, rfl⟩, ?_, ?_⟩
  · exact (hlog.head b getLast?_concat).1.symm
  intro n
  rw [(holds_opened hlog).readBlockByNum hsize]
  unfold numbered
  congr 1
  by_cases hrange : first ≤ n
  · by_cases hhigh : n ≤ (F.signed b).blockNum
    · rw [if_pos ⟨hhigh, hrange⟩, if_pos hrange]
    · rw [if_neg (by omega), if_pos hrange, getElem?_eq_none (by omega)]
  · rw [if_neg (by omega), if_neg hrange]

end Opening

lemma byte_unpacks (b : UInt8) (rest : Bytes) : (match [b] ++ rest with
    | [] => none
    | c :: rest => some (c, rest)) = some (b, rest) := rfl

def byteFormat : LogFormat Nat Nat UInt8 Unit where
  genesis := ⟨fun _ => [], fun bytes => some ((), bytes), fun _ _ => rfl⟩
  block := ⟨fun b => [b], fun
    | [] => none
    | b :: rest => some (b, rest), byte_unpacks⟩
  signed b := { (default : SignedBlockHeader Nat Nat) with
    previous := ⟨(endianReverseU32 (b.toUInt32 - 1)).toUInt64, 0, 0, 0⟩ }

/-- A log that is reset without a block cannot be opened. -/
theorem empty_log_does_not_open : ∃ start,
    ({} : BlockFiles UInt8).reset plainCrypto byteFormat () none 1 = .ok start ∧
      openFiles plainCrypto byteFormat start.blockFile start.indexFile =
        .error ⟨.undefined, "the head is a null pointer"⟩ :=
  ⟨_, rfl, rfl⟩

lemma two_blocks_written : ∃ start log,
    ({} : BlockFiles UInt8).reset plainCrypto byteFormat () (some 1) 1 = .ok start ∧
      start.appendAll plainCrypto byteFormat [2] = .ok log ∧ log.blockFile.length < 2 ^ 63 :=
  ⟨_, _, rfl, rfl, by decide⟩

theorem two_blocks_reopened : ∃ start log log',
    ({} : BlockFiles UInt8).reset plainCrypto byteFormat () (some 1) 1 = .ok start ∧
      start.appendAll plainCrypto byteFormat [2] = .ok log ∧
      openFiles plainCrypto byteFormat log.blockFile [] = .ok log' ∧ log'.head = log.head ∧
      ∀ n, log'.readBlockByNum byteFormat n = .ok (numbered 1 [1, 2] n) := by
  obtain ⟨start, log, hreset, happend, hsize⟩ := two_blocks_written
  obtain ⟨log', hopen⟩ := (reopen_iff (by decide) hreset happend hsize .missing).mpr (by decide)
  exact ⟨start, log, log', hreset, happend, hopen⟩

theorem files_refine_log_two : ∃ start log : BlockFiles UInt8,
    ({} : BlockFiles UInt8).reset plainCrypto byteFormat () (some 1) 1 = .ok start ∧
      start.appendAll plainCrypto byteFormat [2] = .ok log ∧ log.blockFile.length < 2 ^ 63 ∧
      (∃ log', log.append plainCrypto byteFormat 3 = .ok log') ∧
      ∀ n, (log.readBlockByNum byteFormat n).map (Option.map byteFormat.signed) =
        (toBlockLog byteFormat 1 [1, 2]).readBlockByNum plainCrypto n := by
  obtain ⟨start, log, hreset, happend, hsize⟩ := two_blocks_written
  obtain ⟨happends, hreads⟩ := files_refine_log hreset happend hsize
  exact ⟨start, log, hreset, happend, hsize, (happends 3).mpr rfl, hreads (by decide)⟩

end DimensionChain.BlockFiles
