import DimensionChain.Controller.Controller
import DimensionChain.ForkDb.ForkTree

/-!
# What the stores of a controller hold

One predicate for each store, in terms of the current chain `cur` above the pruned blocks `past`:
the marks of the index, the reversible blocks, the undo stack and the block log. Each step of the
controller moves the predicates along.
-/

namespace DimensionChain

open List FlatMap

variable {Key Sig : Type}

/-- The block applies: `apply_block` throws for all others. -/
def BlockData.Good (fails : SignedBlock Key Sig → Bool) (b : BlockData Key Sig) : Prop :=
  ∀ block, b.block = some block → block.blockExtensions = [] ∧ fails block = false

namespace BlockTree
variable (T : BlockTree Key Sig)

def Sized : Prop := ∀ b, T.mem b → b.blockNum < 4294967296

def Packed (C : Crypto Key Sig) : Prop :=
  ∀ b, T.mem b → ∀ block, b.block = some block → block.id C = b.id ∧ block.blockNum = b.blockNum

/-- The blocks of the log, newest first: the genesis block is logged from the start. -/
def logged : List (BlockData Key Sig) → List (BlockData Key Sig)
  | [] => [T.genesis]
  | p :: l => p :: l

def Marked (cur : List (BlockData Key Sig)) (idx : ForkMultiIndex Key Sig) : Prop :=
  ∀ b ∈ idx.byBlockNum, b.inCurrentChain = true ↔
    b.toBlockData ∈ cur ∧ T.genesis.blockNum < b.blockNum

def Reversible (cur : List (BlockData Key Sig)) (m : FlatMap Nat (SignedBlock Key Sig)) : Prop :=
  ∀ n block, m.find? n = some block ↔
    ∃ b ∈ cur, b.blockNum = n ∧ T.genesis.blockNum < n ∧ b.block = some block

/-- The database stands at block `num`, and every block above the log can be undone. -/
def Undoable (past : List (BlockData Key Sig)) (num : Nat) (db : Database) : Prop :=
  db.revision = num ∧ num ≤ db.undoStack + max T.genesis.blockNum (T.rootNum past)

def Logged (past : List (BlockData Key Sig)) (log : BlockLog Key Sig) : Prop :=
  log.firstBlockNum = T.genesis.blockNum ∧
    log.blocks.map some = (T.logged past).reverse.map BlockData.block

variable {T} {past cur : List (BlockData Key Sig)} {x : BlockData Key Sig}

lemma History.genesis_le {l : List (BlockData Key Sig)} (h : T.History l) :
    ∀ b ∈ l, T.genesis.blockNum ≤ b.blockNum := by
  induction h with
  | nil => simp
  | genesis => simp
  | @link b p l hb hp hl ih =>
    have hnum := T.num_of_parent b p hb (hl.mem p (by simp)) hp
    have hple := ih p (by simp)
    intro c hc
    rcases mem_cons.mp hc with rfl | hc
    · omega
    · exact ih c hc

lemma rootNum_lt_genesis (h : T.History past) : T.genesis.blockNum ≤ T.rootNum past + 1 := by
  cases past with
  | nil =>
    change T.genesis.blockNum ≤ T.genesis.blockNum - 1 + 1
    omega
  | cons p l =>
    have hple := h.genesis_le p (by simp)
    change T.genesis.blockNum ≤ p.blockNum + 1
    omega

section Undoable

variable {db : Database} {num : Nat}

lemma Undoable.start (h : T.Undoable past num db) :
    T.Undoable past (num + 1) db.startUndoSession := by
  obtain ⟨hrev, hstack⟩ := h
  refine ⟨?_, ?_⟩
  · change db.revision + 1 = num + 1
    omega
  · change num + 1 ≤ db.undoStack + 1 + _
    omega

lemma Undoable.undo (h : T.Undoable past (num + 1) db)
    (habove : max T.genesis.blockNum (T.rootNum past) ≤ num) : T.Undoable past num db.undo := by
  obtain ⟨hrev, hstack⟩ := h
  have hne : db.undoStack ≠ 0 := by omega
  unfold Database.undo
  rw [if_neg hne]
  refine ⟨?_, ?_⟩
  · change db.revision - 1 = num
    omega
  · change num ≤ db.undoStack - 1 + _
    omega

lemma Undoable.commit
    (h : T.Undoable past num db) (hx : x.blockNum = T.rootNum past + 1) (hle : x.blockNum ≤ num) :
    T.Undoable (x :: past) num (db.commit x.blockNum) := by
  obtain ⟨hrev, hstack⟩ := h
  refine ⟨hrev, ?_⟩
  change num ≤ min db.undoStack (db.revision - x.blockNum) + max T.genesis.blockNum x.blockNum
  omega

end Undoable

section Reversible
variable {m : FlatMap Nat (SignedBlock Key Sig)} {b : BlockData Key Sig}

lemma Reversible.none_above (h : T.Reversible cur m) {n : Nat}
    (habove : ∀ b ∈ cur, b.blockNum < n) : m.find? n = none := by
  cases hf : m.find? n with
  | none => rfl
  | some block =>
    obtain ⟨b, hb, hbn, -⟩ := (h n block).mp hf
    have hlt := habove b hb
    omega

lemma Reversible.push (h : T.Reversible cur m)
    {block : SignedBlock Key Sig} (hblock : b.block = some block)
    (hg : T.genesis.blockNum < b.blockNum) (habove : ∀ a ∈ cur, a.blockNum < b.blockNum) :
    T.Reversible (b :: cur) (m.set b.blockNum block) := by
  intro n block'
  rw [find?_set]
  constructor
  · intro hf
    split at hf
    · rename_i hn
      have heq : block = block' := Option.some.inj hf
      subst hn heq
      exact ⟨b, by simp, rfl, hg, hblock⟩
    · obtain ⟨a, ha, hrest⟩ := (h n block').mp hf
      exact ⟨a, mem_cons_of_mem _ ha, hrest⟩
  intro hex
  obtain ⟨a, ha, han, hgn, hablock⟩ := hex
  rcases mem_cons.mp ha with rfl | ha
  · rw [if_pos han.symm, ← hblock, hablock]
  · have hlt := habove a ha
    rw [if_neg (by omega)]
    exact (h n block').mpr ⟨a, ha, han, hgn, hablock⟩

lemma Reversible.pop (h : T.Reversible (b :: cur) m) (habove : ∀ a ∈ cur, a.blockNum < b.blockNum) :
    T.Reversible cur (m.erase b.blockNum) := by
  intro n block
  rw [find?_erase]
  constructor
  · intro hf
    split at hf
    · simp at hf
    rename_i hn
    obtain ⟨a, ha, han, hrest⟩ := (h n block).mp hf
    rcases mem_cons.mp ha with rfl | ha
    · exact absurd han.symm hn
    · exact ⟨a, ha, han, hrest⟩
  intro hex
  obtain ⟨a, ha, han, hrest⟩ := hex
  have hlt := habove a ha
  rw [if_neg (by omega)]
  exact (h n block).mpr ⟨a, mem_cons_of_mem _ ha, han, hrest⟩

lemma find?_dropReversible (m : FlatMap Nat (SignedBlock Key Sig)) (num n : Nat) :
    (Controller.dropReversible num m).find? n = if num < n then m.find? n else none := by
  apply Option.ext
  intro block
  rw [find?_eq_some]
  change (n, block) ∈ m.entries.filter _ ↔ _
  split
  · rename_i hlt
    rw [find?_eq_some]
    simp [hlt]
  · rename_i hle
    simp [hle]

lemma Reversible.drop (h : T.Reversible (cur ++ [x]) m)
    (habove : ∀ a ∈ cur, x.blockNum < a.blockNum) :
    T.Reversible cur (Controller.dropReversible x.blockNum m) := by
  intro n block
  rw [find?_dropReversible]
  constructor
  · intro hf
    split at hf
    · obtain ⟨a, ha, han, hrest⟩ := (h n block).mp hf
      rcases mem_append.mp ha with ha | ha
      · exact ⟨a, ha, han, hrest⟩
      · rw [mem_singleton.mp ha] at han
        omega
    · simp at hf
  intro hex
  obtain ⟨a, ha, han, hrest⟩ := hex
  have hlt := habove a ha
  rw [if_pos (by omega)]
  exact (h n block).mpr ⟨a, mem_append_left _ ha, han, hrest⟩

end Reversible

variable {log : BlockLog Key Sig} {C : Crypto Key Sig}

lemma logged_ne_nil (past : List (BlockData Key Sig)) : T.logged past ≠ [] := by
  cases past with
  | nil => simp [logged]
  | cons p l => simp [logged]

lemma logged_mem (h : T.History past) : ∀ b ∈ T.logged past, T.mem b := by
  cases past with
  | nil =>
    intro b hb
    rw [logged, mem_singleton] at hb
    rw [hb]
    exact T.genesis_mem
  | cons p l => exact h.mem

lemma Logged.head (h : T.Logged past log) :
    ∃ b block, (T.logged past).head? = some b ∧ b.block = some block ∧ log.head = some block := by
  obtain ⟨b, l, hbl⟩ := exists_cons_of_ne_nil (logged_ne_nil (T := T) past)
  have hlast := congrArg List.getLast? h.2
  rw [hbl, reverse_cons, map_append, map_singleton, List.getLast?_concat,
    List.getLast?_map] at hlast
  obtain ⟨block, hlog, hblock⟩ := Option.map_eq_some_iff.mp hlast
  exact ⟨b, block, by rw [hbl, List.head?_cons], hblock.symm, hlog⟩

lemma Logged.length (h : T.Logged past log) : log.blocks.length = (T.logged past).length := by
  have hlen := congrArg List.length h.2
  simpa using hlen

end BlockTree

end DimensionChain
