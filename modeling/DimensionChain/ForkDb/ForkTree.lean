import DimensionChain.ForkDb.Subtree

/-!
# Fork databases over a tree of blocks

In a `BlockTree` ids are unique and a block is numbered one above its parent. `ForkTree T past db`
says that the database holds a part of the tree above the blocks `past` that have been pruned so
far, newest first. Adding a block keeps this, and so does pruning, which moves one block to
`past`.
-/

namespace DimensionChain

open List ForkMultiIndex Outcome Option ForkDatabase Relation.ReflTransGen

structure BlockTree (Key Sig : Type) where
  mem : BlockData Key Sig → Prop
  genesis : BlockData Key Sig
  genesis_mem : mem genesis
  genesis_pos : 0 < genesis.blockNum
  eq_of_id : ∀ a b, mem a → mem b → a.id = b.id → a = b
  num_of_parent : ∀ a b, mem a → mem b → a.prev = b.id → a.blockNum = b.blockNum + 1
  no_parent : ∀ b, mem b → b.id ≠ genesis.prev
  block : ∀ b, mem b → ∃ block, b.block = some block ∧ block.previous = b.prev

variable {Key Sig ε : Type} {n : BlockState Key Sig}

namespace BlockTree
variable (T : BlockTree Key Sig)

def LibBelow : Prop := ∀ b, T.mem b → b.dposIrreversibleBlocknum < b.blockNum

def rootId : List (BlockData Key Sig) → BlockId
  | [] => T.genesis.prev
  | p :: _ => p.id

def rootNum : List (BlockData Key Sig) → Nat
  | [] => T.genesis.blockNum - 1
  | p :: _ => p.blockNum

inductive History : List (BlockData Key Sig) → Prop where
  | nil : History []
  | genesis : History [T.genesis]
  | link {b p : BlockData Key Sig} {l : List (BlockData Key Sig)} : T.mem b → b.prev = p.id →
      History (p :: l) → History (b :: p :: l)

variable {T} {l : List (BlockData Key Sig)}

lemma History.mem (h : T.History l) : ∀ b ∈ l, T.mem b := by
  induction h with
  | nil => simp
  | genesis => simpa using T.genesis_mem
  | link hb _ _ ih =>
    intro c hc
    rcases mem_cons.mp hc with rfl | hc
    · exact hb
    · exact ih c hc

lemma History.isChain (h : T.History l) :
    l.IsChain fun a b => a.prev = b.id ∧ a.blockNum = b.blockNum + 1 := by
  induction h with
  | nil => exact .nil
  | genesis => exact .singleton _
  | link hb hp hl ih =>
    refine isChain_cons_cons.mpr ⟨⟨hp, ?_⟩, ih⟩
    exact T.num_of_parent _ _ hb (hl.mem _ (by simp)) hp

lemma ancestor_mem {a b : BlockData Key Sig} (hb : T.mem b)
    (h : blockLinks.Ancestor T.mem a b) : T.mem a ∧ a.blockNum ≤ b.blockNum := by
  apply h.closed (P := fun c => T.mem c ∧ c.blockNum ≤ b.blockNum) ⟨hb, Nat.le_refl _⟩
  intro c p hc hp hcp
  have hnum := T.num_of_parent c p hc.1 hp hcp
  exact ⟨hp, by omega⟩

lemma ancestor_eq_of_num {a b c : BlockData Key Sig} (hc : T.mem c)
    (ha : blockLinks.Ancestor T.mem a c) (hb : blockLinks.Ancestor T.mem b c)
    (hnum : a.blockNum = b.blockNum) : a = b := by
  induction ha using head_induction_on with
  | refl =>
    rcases cases_head hb with heq | ⟨p, ⟨hp, hcp⟩, hbp⟩
    · exact heq
    · have hcnum := T.num_of_parent a p hc hp hcp
      have hle := (ancestor_mem hp hbp).2
      omega
  | @head c p hstep hap ih =>
    have hcnum := T.num_of_parent c p hc hstep.1 hstep.2
    have hale := (ancestor_mem hstep.1 hap).2
    rcases cases_head hb with heq | ⟨q, ⟨hq, hcq⟩, hbq⟩
    · have hbnum : c.blockNum = b.blockNum := by rw [heq]
      omega
    · have hpq : q = p := T.eq_of_id q p hq hstep.1 (hcq.symm.trans hstep.2)
      subst hpq
      exact ih hq hbq

end BlockTree

def BlockTree.ofList (g : BlockData Key Sig) (l : List (BlockData Key Sig))
    (hpos : 0 < g.blockNum) (hids : ((g :: l).map fun b => b.id).Nodup)
    (hnum : ∀ a ∈ g :: l, ∀ b ∈ g :: l, a.prev = b.id → a.blockNum = b.blockNum + 1)
    (hroot : ∀ b ∈ g :: l, b.id ≠ g.prev)
    (hblock : ∀ b ∈ g :: l, (b.block.map fun block => block.previous) = some b.prev) :
    BlockTree Key Sig where
  mem b := b ∈ g :: l
  genesis := g
  genesis_mem := by simp
  genesis_pos := hpos
  eq_of_id := fun _ _ ha hb hab => List.inj_on_of_nodup_map hids ha hb hab
  num_of_parent := fun a b ha hb hab => hnum a ha b hb hab
  no_parent := hroot
  block := fun b hb => Option.map_eq_some_iff.mp (hblock b hb)

/-- A block for running the model: `tag` is its slot and makes its id unique. -/
def blockOn (previous : BlockId) (tag lib : Nat) : BlockState Nat Nat :=
  let header : SignedBlockHeader Nat Nat :=
    { timestamp := tag, previous := previous, producerSignature := 0 }
  { id := header.toBlockHeader.id plainCrypto
    blockNum := header.toBlockHeader.blockNum
    header := header
    dposIrreversibleBlocknum := lib
    blockSigningKey := 0
    block := some { toSignedBlockHeader := header } }

/-- A branch of the index down to the last block that left it. -/
abbrev BlockTree.Branch (T : BlockTree Key Sig) (past : List (BlockData Key Sig))
    (index : ForkMultiIndex Key Sig) : List (BlockData Key Sig) → Prop :=
  blockLinks.Branch index.byLibBlockNum (T.rootId past) (T.rootNum past)

lemma BlockTree.Branch.of_blocks {T : BlockTree Key Sig} {past l : List (BlockData Key Sig)}
    {index index' : ForkMultiIndex Key Sig} (h : T.Branch past index l)
    (hblocks : index'.byLibBlockNum = index.byLibBlockNum) : T.Branch past index' l := by
  unfold BlockTree.Branch
  rw [hblocks]
  exact h

structure ForkTree (T : BlockTree Key Sig) (past : List (BlockData Key Sig))
    (db : ForkDatabase Key Sig) : Prop where
  rooted : blockLinks.Rooted db.index.byLibBlockNum (T.rootId past) (T.rootNum past)
  members : ∀ b ∈ db.index.byLibBlockNum, T.mem b
  history : T.History past
  bottom : past = [] → ∀ b ∈ db.index.byLibBlockNum, b.prev = T.genesis.prev → b = T.genesis
  head : db.head = db.index.byLibBlockNum.head?

namespace ForkTree
variable {T : BlockTree Key Sig} {past : List (BlockData Key Sig)} {db : ForkDatabase Key Sig}

variable {b : BlockData Key Sig} (h : ForkTree T past db) {x : BlockData Key Sig}
  {l : List (BlockData Key Sig)} {db' : ForkDatabase Key Sig}
include h

lemma rootNum_lt (hb : b ∈ db.index.byLibBlockNum) : T.rootNum past < b.blockNum :=
  h.rooted.base_lt hb

lemma head_mem (hb : db.head = some b) : b ∈ db.index.byLibBlockNum := by
  rw [h.head] at hb
  exact mem_of_mem_head? hb

lemma head_eraseIf {past' : List (BlockData Key Sig)}
    {E : BlockId → Bool} (h' : ForkTree T past' db')
    (hindex : db'.index = db.index.eraseIf E) (hb : db.head = some b)
    (hkept : b ∈ db'.index.byLibBlockNum) : db'.head = some b := by
  rw [hindex, mem_blocks_eraseIf] at hkept
  rw [h.head] at hb
  rw [h'.head, hindex]
  exact OrderedIndex.head?_filter hb (by simp [hkept.2])

lemma history_cons (hx : x ∈ db.index.byLibBlockNum) (hxnum : x.blockNum = T.rootNum past + 1) :
    T.History (x :: past) := by
  have hprev := h.rooted.parent_of_lowest hx hxnum
  cases past with
  | nil =>
    rw [h.bottom rfl x hx hprev]
    exact .genesis
  | cons p l => exact .link (h.members x hx) hprev h.history

lemma front_lowest {x : BlockState Key Sig} (hx : db.index.byBlockNum.head? = some x) :
    x.blockNum = T.rootNum past + 1 ∧ ∀ c ∈ db.index.byBlockNum,
      c.blockNum = T.rootNum past + 1 → c.inCurrentChain = true → x.inCurrentChain = true := by
  have hxmem : x ∈ db.index.byBlockNum := mem_of_mem_head? hx
  have hself : ¬ x.numBefore x := fun hlt => numBefore_precedence.asymm x x hlt hlt
  have hfirst : ∀ c ∈ db.index.byBlockNum, ¬ c.numBefore x :=
    fun c hc => db.index.numOrdered.le_of_head hx hc hself
  obtain ⟨l, hl⟩ := h.rooted.exists_branch (mem_blocks hxmem)
  have hlow := h.rootNum_lt (mem_blocks hxmem)
  have hnum : x.blockNum = T.rootNum past + 1 := by
    obtain ⟨y, hy, hyh⟩ := hl.exists_height (n := T.rootNum past + 1) (by omega) hlow
    obtain ⟨c, hc, rfl⟩ := mem_blocks_iff.mp (hl.mem y hy)
    have hnot := hfirst c hc
    have hch : c.blockNum = T.rootNum past + 1 := hyh
    unfold BlockState.numBefore at hnot
    omega
  refine ⟨hnum, ?_⟩
  intro c hc hcnum hcmark
  cases hxm : x.inCurrentChain with
  | true => rfl
  | false => exact absurd (.inr ⟨hcnum.trans hnum.symm, hcmark, hxm⟩) (hfirst c hc)

lemma insert {p : BlockData Key Sig} {index : ForkMultiIndex Key Sig} (hn : T.mem n.toBlockData)
    (hp : p ∈ db.index.byLibBlockNum) (hnp : n.prev = p.id)
    (hins : db.index.insert n = some index) :
    ForkTree T past { index := index, head := index.byLibBlockNum.head? } := by
  have hperm := blocks_insert_perm hins
  have hfresh : ∀ b ∈ db.index.byLibBlockNum, b.id ≠ n.id := by
    intro b hb
    obtain ⟨c, hc, rfl⟩ := mem_blocks_iff.mp hb
    exact (insert_eq_some hins).1 c hc
  have hnum : n.blockNum = p.blockNum + 1 :=
    T.num_of_parent n.toBlockData p hn (h.members p hp) hnp
  have hplow := h.rootNum_lt hp
  have hroot : n.id ≠ T.rootId past := by
    have hhist := h.history
    cases past with
    | nil => exact T.no_parent _ hn
    | cons q l =>
      intro heq
      have hnq : n.toBlockData = q := T.eq_of_id _ _ hn (hhist.mem q (by simp)) heq
      have hq : n.blockNum = q.blockNum := by rw [← hnq]
      have hplow' : q.blockNum < p.blockNum := hplow
      omega
  refine ⟨(h.rooted.insert hp hnp hnum hfresh hroot).perm hperm, ?_, h.history, ?_, rfl⟩
  · intro b hb
    rcases mem_cons.mp (hperm.mem_iff.mpr hb) with rfl | hb
    · exact hn
    · exact h.members b hb
  intro hpast b hb hprev
  rcases mem_cons.mp (hperm.mem_iff.mpr hb) with rfl | hb
  · exact absurd (hnp.symm.trans hprev) (T.no_parent p (h.members p hp))
  · exact h.bottom hpast b hb hprev

lemma of_blocks
    (hblocks : db'.index.byLibBlockNum = db.index.byLibBlockNum) (hhead : db'.head = db.head) :
    ForkTree T past db' where
  rooted := by
    rw [hblocks]
    exact h.rooted
  members := by
    rw [hblocks]
    exact h.members
  history := h.history
  bottom := by
    rw [hblocks]
    exact h.bottom
  head := by
    rw [hhead, hblocks]
    exact h.head

lemma remove (hb : b ∈ db.index.byLibBlockNum) : ForkTree T past (db.remove b.id) := by
  obtain ⟨-, E, -, hcut, hmem⟩ := db.remove_cut hb
  refine ⟨h.rooted.of_cut hcut hmem (unique_blocks _), ?_, h.history, ?_, rfl⟩
  · intro d hd
    exact h.members d ((hmem d).mp hd).1
  · intro hpast d hd
    exact h.bottom hpast d ((hmem d).mp hd).1

lemma mem_branch_of_ancestor {z b : BlockData Key Sig} (hl : T.Branch past db.index (b :: l))
    (hz : T.rootNum past < z.blockNum) (hanc : blockLinks.Ancestor T.mem z b) : z ∈ b :: l := by
  induction l generalizing b with
  | nil =>
    rcases cases_head hanc with heq | ⟨p, ⟨hp, hbp⟩, hzp⟩
    · simp [heq]
    have hnum := T.num_of_parent b p (h.members b (hl.mem b (by simp))) hp hbp
    have hbnum : b.blockNum = T.rootNum past + 1 := hl.height_cons
    have hzle := (BlockTree.ancestor_mem hp hzp).2
    omega
  | cons q l ih =>
    rcases cases_head hanc with heq | ⟨p, ⟨hp, hbp⟩, hzp⟩
    · simp [heq]
    have hq := Links.Branch.of_append (k := [b]) hl (by simp)
    have hpq : p = q := T.eq_of_id p q hp (h.members q (hq.mem q (by simp)))
      (hbp.symm.trans (Links.Branch.parent_split (k := []) hl).1)
    subst hpq
    exact mem_cons_of_mem _ (ih hq hzp)

lemma branch_remove (hb : b ∈ db.index.byLibBlockNum) (hl : T.Branch past db.index l)
    (hnot : b ∉ l) : T.Branch past (db.remove b.id).index l := by
  obtain ⟨-, E, -, hcut, hmem⟩ := db.remove_cut hb
  refine hl.mono ?_
  intro d hd
  obtain ⟨k, m, rfl⟩ := append_of_mem hd
  refine (hmem d).mpr ⟨hl.mem d hd, fun hEd => ?_⟩
  obtain ⟨z, hz, hzb⟩ := (h.rooted.cut_iff hcut (hl.of_append (by simp))).mp hEd
  have hzl : z ∈ k ++ d :: m := mem_append_right _ hz
  rw [h.rooted.eq_of_ident (hl.mem z hzl) hb hzb] at hzl
  exact absurd hzl hnot

omit h

lemma pruneLevel (slot : Slot Key Sig ε) {w w₁ : Hosted Key Sig ε}
    (h : ForkTree T past w.forkDb) (hx : x ∈ w.forkDb.index.byLibBlockNum)
    (hxnum : x.blockNum = T.rootNum past + 1) (hslot : slot x w = .ok w₁)
    (hsame : w₁.forkDb = w.forkDb) (hne : w.forkDb.head ≠ some x)
    (hnext : ∀ f, w.forkDb.index.byBlockNum.find? (fun b => x.blockNum < b.blockNum) = some f →
      ∃ l, T.Branch past w.forkDb.index (f.toBlockData :: l ++ [x])) :
    ∃ w₂ E, w.pruneLevel slot x = .ok w₂ ∧ w₂.env = w₁.env ∧
      w₂.forkDb.index = w.forkDb.index.eraseIf E ∧
      (∀ b ∈ w.forkDb.index.byLibBlockNum, E b.id = false ↔
        ∃ l, T.Branch past w.forkDb.index (b :: l ++ [x])) ∧ ForkTree T (x :: past) w₂.forkDb := by
  obtain ⟨w₂, E, hprune, henv, hindex, hE, hhead⟩ :=
    Hosted.pruneLevel_eq h.rooted hx hxnum hslot hsame h.head hne hnext
  have hmem : ∀ b, b ∈ w₂.forkDb.index.byLibBlockNum ↔
      b ∈ w.forkDb.index.byLibBlockNum ∧ ∃ l, T.Branch past w.forkDb.index (b :: l ++ [x]) := by
    intro b
    rw [hindex, mem_blocks_eraseIf]
    apply and_congr_right
    intro hb
    exact hE b hb
  refine ⟨w₂, E, hprune, henv, hindex, hE, ?_, ?_, h.history_cons hx hxnum, ?_, hhead⟩
  · have hrooted := h.rooted.above_bottom hx hxnum hmem (unique_blocks _)
    have hnum : T.rootNum past + 1 = T.rootNum (x :: past) := hxnum.symm
    rw [hnum] at hrooted
    exact hrooted
  · intro b hb
    exact h.members b ((hmem b).mp hb).1
  · intro hnil
    simp at hnil

end ForkTree

lemma ForkDatabase.blocks_ofGenesis (g : BlockState Key Sig) :
    (ofGenesis g).index.byBlockNum = [g] ∧ (ofGenesis g).index.byLibBlockNum = [g.toBlockData] := by
  exact ⟨rfl, rfl⟩

lemma ForkTree.ofGenesis (T : BlockTree Key Sig) {g : BlockState Key Sig}
    (hg : g.toBlockData = T.genesis) : ForkTree T [] (.ofGenesis g) := by
  have hpos := T.genesis_pos
  have hblocks := (blocks_ofGenesis g).2
  rw [hg] at hblocks
  refine ⟨⟨unique_blocks _, ?_, ?_⟩, ?_, .nil, ?_, ?_⟩
  · rw [hblocks]
    intro b hb
    rw [mem_singleton.mp hb]
    exact T.no_parent _ T.genesis_mem
  · rw [hblocks]
    intro b hb
    rw [mem_singleton.mp hb]
    refine .inl ⟨rfl, ?_⟩
    change T.genesis.blockNum = T.genesis.blockNum - 1 + 1
    omega
  · rw [hblocks]
    intro b hb
    rw [mem_singleton.mp hb]
    exact T.genesis_mem
  · rw [hblocks]
    intro _ b hb _
    exact mem_singleton.mp hb
  · rfl

namespace Hosted
variable {slot : Slot Key Sig ε} {skip : Bool} {w : Hosted Key Sig ε}

lemma add_cases (slot : Slot Key Sig ε) (n : BlockState Key Sig) (skip : Bool)
    (w : Hosted Key Sig ε) : (∃ e, w.add slot n skip = .throw e w ∧
      (w.forkDb.head = none ∨ (∃ b ∈ w.forkDb.index.byBlockNum, b.id = n.id) ∨
        (skip = false ∧ ∀ block, n.block = some block →
          ∀ b ∈ w.forkDb.index.byBlockNum, b.id ≠ block.previous))) ∨
    (∃ index, w.forkDb.index.insert n = some index ∧
      w.add slot n skip = settle slot (w.setIndex index).chooseHead ∧
      (skip = false → ∃ block, n.block = some block ∧
        ∃ p ∈ w.forkDb.index.byLibBlockNum, block.previous = p.id)) := by
  unfold add
  by_cases hhead : w.forkDb.head.isSome = true
  · rw [require_pos hhead, ok_andThen]
    have hprev : (∃ e, validatePrevious n skip w = .throw e w ∧ skip = false ∧
          ∀ block, n.block = some block →
            ∀ b ∈ w.forkDb.index.byBlockNum, b.id ≠ block.previous) ∨
        (validatePrevious n skip w = .ok w ∧ (skip = false → ∃ block, n.block = some block ∧
          ∃ p ∈ w.forkDb.index.byLibBlockNum, block.previous = p.id)) := by
      unfold validatePrevious
      cases skip with
      | true => exact .inr ⟨rfl, by simp⟩
      | false =>
        cases hb : n.block with
        | none => exact .inl ⟨_, rfl, rfl, by simp⟩
        | some block =>
          cases hp : w.forkDb.index.find? block.previous with
          | none =>
            refine .inl ⟨⟨.unlinkableBlock, "unlinkable block"⟩, ?_, rfl, ?_⟩
            · simp [getBlock, hp, Outcome.require]
            intro block' hblock
            have heq : block = block' := some.inj hblock
            rw [← heq]
            exact ForkMultiIndex.find?_eq_none.mp hp
          | some p =>
            refine .inr ⟨?_, ?_⟩
            · simp [getBlock, hp, Outcome.require]
            · intro _
              obtain ⟨hpm, hpid⟩ := ForkMultiIndex.find?_eq_some.mp hp
              exact ⟨block, rfl, p.toBlockData, mem_blocks hpm, hpid.symm⟩
    rcases hprev with ⟨e, hv, hskip, hall⟩ | ⟨hv, hlink⟩
    · rw [hv, throw_andThen]
      exact .inl ⟨e, rfl, .inr (.inr ⟨hskip, hall⟩)⟩
    rw [hv, ok_andThen]
    cases hins : w.forkDb.index.insert n with
    | none => exact .inl ⟨_, rfl, .inr (.inl (insert_eq_none.mp hins))⟩
    | some index => exact .inr ⟨index, rfl, rfl, hlink⟩
  · rw [require_neg hhead, throw_andThen]
    exact .inl ⟨_, rfl, .inl (by simpa using hhead)⟩

lemma settle_cases {hd : BlockData Key Sig} {x : BlockState Key Sig}
    (hhd : w.forkDb.head = some hd) (hx : w.forkDb.index.byBlockNum.head? = some x) :
    (¬ x.blockNum < hd.dposIrreversibleBlocknum ∧ settle slot w = .ok w) ∨
      (x.blockNum < hd.dposIrreversibleBlocknum ∧
        settle slot w = w.pruneLevel slot x.toBlockData) := by
  unfold settle
  rw [hhd, hx]
  dsimp only
  by_cases hlt : x.blockNum < hd.dposIrreversibleBlocknum
  · rw [if_pos hlt, prune_front hx]
    exact .inr ⟨hlt, rfl⟩
  · rw [if_neg hlt]
    exact .inl ⟨hlt, rfl⟩

def winner (w : Hosted Key Sig ε) (n : BlockState Key Sig) : Option (BlockData Key Sig) :=
  w.forkDb.head.map fun h => if n.toBlockData.ranksAbove h then n.toBlockData else h

end Hosted

lemma ForkTree.add_cases {T : BlockTree Key Sig} {past : List (BlockData Key Sig)}
    {w : Hosted Key Sig ε} (slot : Slot Key Sig ε) (skip : Bool)
    (h : ForkTree T past w.forkDb) (hn : T.mem n.toBlockData)
    (hlink : skip = true → ∃ p ∈ w.forkDb.index.byLibBlockNum, n.prev = p.id) :
    (∃ e, w.add slot n skip = .throw e w ∧
      (w.forkDb.head = none ∨ (∃ b ∈ w.forkDb.index.byBlockNum, b.id = n.id) ∨
        ∀ b ∈ w.forkDb.index.byBlockNum, b.id ≠ n.prev)) ∨
    (∃ (w' : Hosted Key Sig ε) (hd : BlockData Key Sig) (x : BlockState Key Sig),
      (∃ p ∈ w.forkDb.index.byLibBlockNum, n.prev = p.id) ∧
      w.forkDb.index.insert n = some w'.forkDb.index ∧ w'.env = w.env ∧
      ForkTree T past w'.forkDb ∧ w.winner n = some hd ∧ w'.forkDb.head = some hd ∧
      w'.forkDb.index.byBlockNum.head? = some x ∧
      ((¬ x.blockNum < hd.dposIrreversibleBlocknum ∧ w.add slot n skip = .ok w') ∨
        (x.blockNum < hd.dposIrreversibleBlocknum ∧
          w.add slot n skip = w'.pruneLevel slot x.toBlockData))) := by
  obtain ⟨block, hblock, hprev⟩ := T.block _ hn
  rcases Hosted.add_cases slot n skip w with ⟨e, he, hwhy⟩ | ⟨index, hins, hadd, hchecked⟩
  · refine .inl ⟨e, he, ?_⟩
    rcases hwhy with hnone | hdup | ⟨-, hall⟩
    · exact .inl hnone
    · exact .inr (.inl hdup)
    refine .inr (.inr ?_)
    have hall' := hall block hblock
    rw [hprev] at hall'
    exact hall'
  have hparent : ∃ p ∈ w.forkDb.index.byLibBlockNum, n.prev = p.id := by
    cases skip with
    | true => exact hlink rfl
    | false =>
      obtain ⟨block', hblock', p, hp, hpid⟩ := hchecked rfl
      have heq : block = block' := some.inj (hblock.symm.trans hblock')
      exact ⟨p, hp, by rw [← hpid, ← heq, hprev]⟩
  obtain ⟨p, hp, hnp⟩ := hparent
  have htree := h.insert hn hp hnp hins
  have hnonempty : w.forkDb.index.byLibBlockNum.head? ≠ none := by
    intro hnil
    rw [List.head?_eq_none_iff.mp hnil] at hp
    simp at hp
  obtain ⟨hd₀, hhd₀⟩ := ne_none_iff_exists'.mp hnonempty
  have hhead : index.byLibBlockNum.head? =
      some (if n.toBlockData.ranksAbove hd₀ then n.toBlockData else hd₀) := by
    rw [(insert_eq_some hins).2.2]
    exact OrderedIndex.head?_insert hhd₀
  have hwin : w.winner n =
      some (if n.toBlockData.ranksAbove hd₀ then n.toBlockData else hd₀) := by
    rw [Hosted.winner, h.head, hhd₀]
    rfl
  obtain ⟨x, hx⟩ := exists_front (mem_blocks_of_insert hins hp)
  refine .inr ⟨(w.setIndex index).chooseHead, _, x, ⟨p, hp, hnp⟩, hins, rfl, htree, hwin,
    hhead, hx, ?_⟩
  rw [hadd]
  exact Hosted.settle_cases hhead hx

end DimensionChain
