import DimensionChain.Base.Steps
import DimensionChain.ForkDb.BftMarks
import DimensionChain.ForkDb.Finality

/-!
# The head is the best block

The head is chosen anew when a block is added or removed. A prune takes blocks away without
choosing again, so it leaves the best block as the head unless it has taken the head itself. A
confirmation that completes two thirds reorders the index and leaves the head where it was.
-/

namespace DimensionChain

open List ForkMultiIndex Option Hosted

variable {Key Sig : Type} {id : BlockId}

namespace ForkDatabase

def Best (db : ForkDatabase Key Sig) : Prop :=
  ∃ h ∈ db.index.byLibBlockNum, db.head = some h ∧ ∀ b ∈ db.index.byLibBlockNum, ¬ b.ranksAbove h

def LibBounded (db : ForkDatabase Key Sig) : Prop :=
  ∀ b ∈ db.index.byLibBlockNum, b.dposIrreversibleBlocknum ≤ b.blockNum

variable {db db' : ForkDatabase Key Sig}

lemma best_of_first (hne : db.index.byLibBlockNum ≠ [])
    (hhead : db.head = db.index.byLibBlockNum.head?) : Best db := by
  obtain ⟨h, l, hl⟩ := exists_cons_of_ne_nil hne
  have hfirst : db.index.byLibBlockNum.head? = some h := by rw [hl, List.head?_cons]
  refine ⟨h, mem_of_mem_head? hfirst, hhead.trans hfirst, ?_⟩
  intro b hb
  exact db.index.libOrdered.le_of_head hfirst hb (ranksAbove_irrefl h)

lemma LibBounded.of_subset (hlib : LibBounded db)
    (hsub : ∀ b ∈ db'.index.byLibBlockNum, b ∈ db.index.byLibBlockNum) : LibBounded db' :=
  fun b hb => hlib b (hsub b hb)

lemma removeAll_head (id : BlockId) (ids : List BlockId) (db : ForkDatabase Key Sig) :
    ((id :: ids).foldl remove db).head =
      ((id :: ids).foldl remove db).index.byLibBlockNum.head? := by
  induction ids generalizing id db with
  | nil => rfl
  | cons i ids ih => exact ih i (db.remove id)

lemma removeLevel_cases (num fuel : Nat) (start : Option BlockId) (db : ForkDatabase Key Sig) :
    (∃ e db', removeLevel num fuel start db = .throw e db' ∧ e.kind = .undefined) ∨
      ∃ ids : List BlockId, removeLevel num fuel start db = .ok (ids.foldl remove db) := by
  induction fuel generalizing start db with
  | zero => exact .inr ⟨[], rfl⟩
  | succ fuel ih =>
    cases start with
    | none => exact .inr ⟨[], rfl⟩
    | some id =>
      unfold removeLevel
      cases db.getBlock id with
      | none => exact .inl ⟨_, _, rfl, rfl⟩
      | some b =>
        dsimp only
        by_cases hb : b.blockNum = num
        · rw [if_pos hb]
          refine (ih (db.index.next? id) (db.remove id)).imp_right ?_
          rintro ⟨ids, hids⟩
          exact ⟨id :: ids, hids⟩
        · rw [if_neg hb]
          exact .inr ⟨[], rfl⟩

end ForkDatabase

namespace ForkMultiIndex

lemma mem_modifyData {idx : ForkMultiIndex Key Sig} {f : BlockData Key Sig → BlockData Key Sig}
    (hf : ∀ b, (f b).id = b.id ∧ (f b).blockNum = b.blockNum) {d : BlockData Key Sig} :
    d ∈ (idx.modifyData id f hf).byLibBlockNum ↔
      ∃ b ∈ idx.byLibBlockNum, d = if b.id = id then f b else b := by
  rw [mem_blocks_iff]
  constructor
  · rintro ⟨c, hc, rfl⟩
    obtain ⟨b, hb, rfl⟩ := mem_map.mp hc
    refine ⟨b.toBlockData, mem_blocks hb, ?_⟩
    split <;> rfl
  rintro ⟨b, hb, rfl⟩
  obtain ⟨c, hc, rfl⟩ := mem_blocks_iff.mp hb
  refine ⟨_, mem_map.mpr ⟨c, hc, rfl⟩, ?_⟩
  split <;> rfl

end ForkMultiIndex

namespace ForkDatabase
variable {db : ForkDatabase Key Sig} {f : BlockData Key Sig → BlockData Key Sig}
  {hf : ∀ b, (f b).id = b.id ∧ (f b).blockNum = b.blockNum}

lemma Best.modifyData (hbest : Best db) (id : BlockId)
    (hrank : ∀ a b, (f a).ranksAbove b = a.ranksAbove b ∧ b.ranksAbove (f a) = b.ranksAbove a) :
    Best (db.setIndex (db.index.modifyData id f hf)) := by
  obtain ⟨h, hmem, hh, hmax⟩ := hbest
  have hnew : (if h.id = id then f h else h) ∈ (db.index.modifyData id f hf).byLibBlockNum :=
    (mem_modifyData hf).mpr ⟨h, hmem, rfl⟩
  have hid : (if h.id = id then f h else h).id = h.id := by
    split
    · exact (hf h).1
    · rfl
  obtain ⟨c, hc, hcd⟩ := exists_find? hnew
  rw [hid] at hc
  refine ⟨_, hnew, ?_, ?_⟩
  · unfold setIndex
    rw [hh, map_some, hc, map_some, getD_some, hcd]
  intro d hd
  obtain ⟨b, hb, rfl⟩ := (mem_modifyData hf).mp hd
  have hnot := hmax b hb
  split <;> split
  · rwa [(hrank b _).1, (hrank h _).2]
  · rwa [(hrank b _).1]
  · rwa [(hrank h _).2]
  · exact hnot

lemma LibBounded.modifyData (hlib : LibBounded db) (id : BlockId)
    (hdpos : ∀ b, (f b).dposIrreversibleBlocknum = b.dposIrreversibleBlocknum) :
    LibBounded (db.setIndex (db.index.modifyData id f hf)) := by
  intro d hd
  obtain ⟨b, hb, rfl⟩ := (mem_modifyData hf).mp hd
  have hle := hlib b hb
  split
  · rw [hdpos, (hf b).2]
    exact hle
  · exact hle

def Completes (db : ForkDatabase Key Sig) (c : HeaderConfirmation Sig) : Prop :=
  ∃ b, db.getBlock c.blockId = some b ∧ b.bftIrreversibleBlocknum < b.blockNum ∧
    b.activeSchedule.producers.length * 2 / 3 + 1 ≤ b.confirmations.length + 1

lemma addConfirmation_best [Inhabited Key] [DecidableEq Key] {C : Crypto Key Sig}
    {c : HeaderConfirmation Sig} {db' : ForkDatabase Key Sig} (hbest : Best db)
    (hlib : LibBounded db) (hnot : ¬ db.Completes c) (hadd : db.addConfirmation C c = .ok db') :
    Best db' ∧ LibBounded db' := by
  unfold addConfirmation at hadd
  cases hb : db.getBlock c.blockId with
  | none =>
    rw [hb] at hadd
    cases hadd
  | some b =>
    rw [hb] at hadd
    obtain ⟨-, -, hadd⟩ := bind_ok_iff.mp hadd
    have hfew : ¬ (b.bftIrreversibleBlocknum < b.blockNum ∧
        b.activeSchedule.producers.length * 2 / 3 + 1 ≤ b.confirmations.length + 1) :=
      fun hall => hnot ⟨b, hb, hall⟩
    rw [if_neg hfew] at hadd
    have heq := Except.ok.inj hadd
    subst heq
    exact ⟨hbest.modifyData _ fun _ _ => ⟨rfl, rfl⟩, hlib.modifyData _ fun _ => rfl⟩

end ForkDatabase

namespace Recorder
open ForkDatabase

inductive ForkOp (Key Sig : Type) where
  | add (n : BlockState Key Sig) (skipValidatePrevious : Bool)
  | confirm (c : HeaderConfirmation Sig)
  | setValidity (h : BlockData Key Sig) (valid : Bool)
  | remove (id : BlockId)
  | mark (h : BlockData Key Sig) (inCurrentChain : Bool)
  | prune (h : BlockData Key Sig)

def withDb (w : Recorder Key Sig) :
    Result (ForkDatabase Key Sig) → Attempt (Recorder Key Sig)
  | .error e => .throw e w
  | .ok db => .ok { w with forkDb := db }

def applyOp [Inhabited Key] [DecidableEq Key] (C : Crypto Key Sig) (w : Recorder Key Sig) :
    ForkOp Key Sig → Attempt (Recorder Key Sig)
  | .add n skip => w.add recordSignal n skip
  | .confirm c => w.withDb (w.forkDb.addConfirmation C c)
  | .setValidity h valid => .ok { w with forkDb := w.forkDb.setValidity h valid }
  | .remove id => .ok { w with forkDb := w.forkDb.remove id }
  | .mark h flag => w.withDb (w.forkDb.markInCurrentChain h flag)
  | .prune h => w.prune recordSignal h

def Undefined (r : Attempt (Recorder Key Sig)) : Prop :=
  ∃ e w, r = .throw e w ∧ e.kind = .undefined

lemma not_undefined {r : Attempt (Recorder Key Sig)}
    (h : r.okAnd (fun _ => true) = true) : ¬ Undefined r := by
  rintro ⟨e, w, rfl, -⟩
  simp [Outcome.okAnd] at h

def Signalled (db : ForkDatabase Key Sig) (new : List (BlockData Key Sig)) : Prop :=
  ∃ h, db.head = some h ∧ ∃ x ∈ new, x.id = h.id

/-- What an operation must not do: take the last block, take the head, or complete two thirds. -/
def Spares (w : Recorder Key Sig) (op : ForkOp Key Sig) (w' : Recorder Key Sig) : Prop :=
  w'.forkDb.index.byLibBlockNum ≠ [] ∧
    match op with
    | .add n _ => n.dposIrreversibleBlocknum ≤ n.blockNum
    | .confirm c => ¬ w.forkDb.Completes c
    | .prune _ => ∀ new, w'.env = new ++ w.env → ¬ Signalled w'.forkDb new
    | _ => True

section Prune
variable {w : Recorder Key Sig} {new : List (BlockData Key Sig)}

def Pruned (db : ForkDatabase Key Sig) (new : List (BlockData Key Sig)) : Prop :=
  db.index.byLibBlockNum ≠ [] → Best db ∨ Signalled db new

variable {db : ForkDatabase Key Sig} (h : Pruned db new)
include h

lemma Pruned.mono (x : BlockData Key Sig) : Pruned db (x :: new) := by
  intro hne
  rcases h hne with hbest | ⟨hd, hhd, y, hy, hyd⟩
  · exact .inl hbest
  · exact .inr ⟨hd, hhd, y, mem_cons_of_mem _ hy, hyd⟩

lemma Pruned.erase_other (hother : ∀ hd, db.head = some hd → hd.id ≠ id) :
    Pruned { db with index := db.index.erase id } new := by
  intro hne
  have hne' : db.index.byLibBlockNum ≠ [] := by
    intro hnil
    apply hne
    change db.index.byLibBlockNum.filter _ = []
    rw [hnil, filter_nil]
  rcases h hne' with ⟨hd, hmem, hhd, hmax⟩ | hsig
  · left
    have hkeep : hd ∈ (db.index.erase id).byLibBlockNum :=
      mem_blocks_eraseIf.mpr ⟨hmem, by simpa using hother hd hhd⟩
    exact ⟨hd, hkeep, hhd, fun b hb => hmax b (mem_blocks_eraseIf.mp hb).1⟩
  · exact .inr hsig

lemma Pruned.erase (x : BlockData Key Sig) :
    Pruned { db with index := db.index.erase x.id } (x :: new) := by
  by_cases hx : ∀ hd, db.head = some hd → hd.id ≠ x.id
  · exact (h.mono x).erase_other hx
  rw [not_forall] at hx
  obtain ⟨hd, hhd⟩ := hx
  rw [Classical.not_imp, not_not] at hhd
  exact fun _ => .inr ⟨hd, hhd.1, x, by simp, hhd.2.symm⟩

lemma Pruned.removeAll (ids : List BlockId) : Pruned (ids.foldl ForkDatabase.remove db) new := by
  cases ids with
  | nil => exact h
  | cons i ids => exact fun hne => .inl (best_of_first hne (removeAll_head i ids db))

omit h

lemma removeLevel_pruned (h : Pruned w.forkDb new) (num fuel : Nat) (start : Option BlockId) :
    Undefined (w.withForkDb (w.forkDb.removeLevel num fuel start)) ∨
    ∃ w', w.withForkDb (w.forkDb.removeLevel num fuel start) = .ok w' ∧ w'.env = w.env ∧
      Pruned w'.forkDb new ∧
      ∀ b ∈ w'.forkDb.index.byLibBlockNum, b ∈ w.forkDb.index.byLibBlockNum := by
  rcases removeLevel_cases num fuel start w.forkDb with ⟨e, db, hdb, he⟩ | ⟨ids, hids⟩
  · rw [hdb]
    exact .inl ⟨e, _, rfl, he⟩
  · rw [hids]
    exact .inr ⟨_, rfl, rfl, h.removeAll ids, removeAll_subset ids _⟩

/-- The call reads an erased block, or what it leaves is `Pruned` with the blocks it signalled. -/
def PrunedBy (w : Recorder Key Sig) (new : List (BlockData Key Sig))
    (r : Attempt (Recorder Key Sig)) : Prop :=
  Undefined r ∨ ∃ w' new', r = .ok w' ∧ w'.env = new' ++ w.env ∧ Pruned w'.forkDb (new' ++ new) ∧
    ∀ b ∈ w'.forkDb.index.byLibBlockNum, b ∈ w.forkDb.index.byLibBlockNum

lemma PrunedBy.ok (h : Pruned w.forkDb new) : PrunedBy w new (.ok w) :=
  .inr ⟨w, [], rfl, rfl, h, fun _ hb => hb⟩

lemma PrunedBy.andThen {r : Attempt (Recorder Key Sig)}
    {k : Recorder Key Sig → Attempt (Recorder Key Sig)} (h : PrunedBy w new r)
    (hk : ∀ u new, Pruned u.forkDb new → PrunedBy u new (k u)) : PrunedBy w new (r.andThen k) := by
  rcases h with ⟨e, u, rfl, he⟩ | ⟨u, new₁, rfl, henv, hpruned, hsub⟩
  · exact .inl ⟨e, u, rfl, he⟩
  rw [Outcome.ok_andThen]
  refine (hk u _ hpruned).imp_right ?_
  rintro ⟨w', new₂, hw', henv', hpruned', hsub'⟩
  refine ⟨w', new₂ ++ new₁, hw', ?_, ?_, fun c hc => hsub c (hsub' c hc)⟩
  · rw [henv', henv, append_assoc]
  · rwa [append_assoc]

lemma pruneLevel_pruned (h : Pruned w.forkDb new) (x : BlockData Key Sig) :
    PrunedBy w new (w.pruneLevel recordSignal x) := by
  unfold pruneLevel
  by_cases hx : (w.forkDb.getBlock x.id).isSome = true
  · rw [if_pos hx]
    refine (removeLevel_pruned (w := ⟨_, x :: w.env⟩) (h.erase x) _ _ _).imp_right ?_
    rintro ⟨w', hw', henv, hpruned, hsub⟩
    exact ⟨w', [x], hw', henv, hpruned, fun b hb => (mem_blocks_eraseIf.mp (hsub b hb)).1⟩
  · rw [if_neg hx]
    refine (removeLevel_pruned h _ _ _).imp_right ?_
    rintro ⟨w', hw', henv, hpruned, hsub⟩
    exact ⟨w', [], hw', henv, hpruned, hsub⟩

lemma pruneBelow_pruned (num fuel : Nat) (h : Pruned w.forkDb new) :
    PrunedBy w new (w.pruneBelow recordSignal num fuel) := by
  induction fuel generalizing w new with
  | zero => exact .ok h
  | succ fuel ih =>
    unfold pruneBelow
    cases w.forkDb.index.byBlockNum.head? with
    | none => exact .ok h
    | some b =>
      dsimp only
      by_cases hlt : b.blockNum < num
      · rw [if_pos hlt]
        exact (pruneLevel_pruned h b.toBlockData).andThen fun u new hu => ih hu
      · rw [if_neg hlt]
        exact .ok h

lemma prune_pruned (h : Pruned w.forkDb new) (x : BlockData Key Sig) :
    PrunedBy w new (w.prune recordSignal x) :=
  (pruneBelow_pruned x.blockNum w.forkDb.index.size h).andThen fun _ _ hu => pruneLevel_pruned hu x

end Prune

section Runs
variable {w w' : Recorder Key Sig}

lemma add_best {n : BlockState Key Sig} {skip : Bool} (hbest : Best w.forkDb)
    (hlib : LibBounded w.forkDb) (hn : n.dposIrreversibleBlocknum ≤ n.blockNum)
    (hw' : w' = (w.add recordSignal n skip).state)
    (hdefined : ¬ Undefined (w.add recordSignal n skip))
    (hne : w'.forkDb.index.byLibBlockNum ≠ []) : Best w'.forkDb ∧ LibBounded w'.forkDb := by
  rcases add_cases recordSignal n skip w with ⟨e, he, -⟩ | ⟨index, hins, hadd, -⟩
  · rw [hw', he]
    exact ⟨hbest, hlib⟩
  have hperm := blocks_insert_perm hins
  have hlib' : LibBounded (w.setIndex index).chooseHead.forkDb := by
    intro b hb
    rcases mem_cons.mp (hperm.mem_iff.mpr hb) with rfl | hb
    · exact hn
    · exact hlib b hb
  have hfull : (w.setIndex index).chooseHead.forkDb.index.byLibBlockNum ≠ [] :=
    ne_nil_of_mem (hperm.mem_iff.mp (mem_cons_self))
  have hbest' : Best (w.setIndex index).chooseHead.forkDb := best_of_first hfull rfl
  obtain ⟨hd, hhd, hhead, hmax⟩ := hbest'
  obtain ⟨x, hx⟩ := exists_front hhd
  rw [hadd] at hw' hdefined
  rcases @settle_cases _ _ _ recordSignal _ _ _ hhead hx with ⟨-, hsame⟩ | ⟨hlt, hprune⟩
  · rw [hw', hsame]
    exact ⟨⟨hd, hhd, hhead, hmax⟩, hlib'⟩
  -- the pruned block is below the head, so it is not the head
  have hxmem := mem_of_mem_head? hx
  have hfound : ((w.setIndex index).chooseHead.forkDb.getBlock x.id).isSome = true := by
    rw [getBlock, ForkMultiIndex.find?_eq_some.mpr ⟨hxmem, rfl⟩]
    rfl
  have hother : ∀ h, (w.setIndex index).chooseHead.forkDb.head = some h → h.id ≠ x.id := by
    intro h hh heq
    have hhd' : h = hd := Option.some.inj (hh.symm.trans hhead)
    have hxhd : hd = x.toBlockData := inj_on_of_nodup_map
      (w.setIndex index).chooseHead.forkDb.index.unique_blocks hhd
      (mem_blocks hxmem) (hhd' ▸ heq)
    have hbound := hlib' hd hhd
    rw [hxhd] at hbound hlt
    omega
  have hpruned : Pruned (w.setIndex index).chooseHead.forkDb [] :=
    fun _ => .inl ⟨hd, hhd, hhead, hmax⟩
  rw [hprune, pruneLevel, if_pos hfound] at hw' hdefined
  rcases removeLevel_pruned (w := ⟨_, x.toBlockData :: w.env⟩) (hpruned.erase_other hother) _ _ _ with
    hundef | ⟨v, hv, -, hleft, hsub⟩
  · exact absurd hundef hdefined
  have hwv : w' = v := hw'.trans (congrArg Outcome.state hv)
  subst hwv
  refine ⟨(hleft hne).resolve_right fun hsig => by simp [Signalled] at hsig, hlib'.of_subset ?_⟩
  intro b hb
  exact (mem_blocks_eraseIf.mp (hsub b hb)).1

lemma withDb_best {r : Result (ForkDatabase Key Sig)} (hbest : Best w.forkDb)
    (hlib : LibBounded w.forkDb) (hw' : w' = (w.withDb r).state)
    (hr : ∀ db, r = .ok db → Best db ∧ LibBounded db) : Best w'.forkDb ∧ LibBounded w'.forkDb := by
  subst hw'
  cases r with
  | error e => exact ⟨hbest, hlib⟩
  | ok db => exact hr db rfl

variable [Inhabited Key] [DecidableEq Key] {C : Crypto Key Sig}

lemma applyOp_best {op : ForkOp Key Sig} (hbest : Best w.forkDb) (hlib : LibBounded w.forkDb)
    (hw' : w' = (w.applyOp C op).state) (hdefined : ¬ Undefined (w.applyOp C op))
    (hspares : Spares w op w') : Best w'.forkDb ∧ LibBounded w'.forkDb := by
  obtain ⟨hne, hop⟩ := hspares
  have hremoved : ∀ id, w' = { w with forkDb := w.forkDb.remove id } →
      Best w'.forkDb ∧ LibBounded w'.forkDb := by
    intro id heq
    subst heq
    exact ⟨best_of_first hne rfl, hlib.of_subset (w.forkDb.remove_subset id)⟩
  cases op with
  | add n skip => exact add_best hbest hlib hop hw' hdefined hne
  | confirm c => exact withDb_best hbest hlib hw' fun db => addConfirmation_best hbest hlib hop
  | setValidity h valid =>
    cases valid with
    | true =>
      rw [hw']
      exact ⟨hbest, hlib⟩
    | false => exact hremoved h.id hw'
  | remove id => exact hremoved id hw'
  | mark h flag =>
    refine withDb_best hbest hlib hw' ?_
    intro db hmark
    obtain ⟨hblocks, hhead⟩ := markInCurrentChain_blocks hmark
    obtain ⟨h, hmem, hh, hmax⟩ := hbest
    refine ⟨⟨h, ?_, hhead.trans hh, ?_⟩, ?_⟩
    · rwa [hblocks]
    · rwa [hblocks]
    · exact hlib.of_subset fun b hb => hblocks ▸ hb
  | prune h =>
    rcases prune_pruned (fun _ => .inl hbest : Pruned w.forkDb []) h with
      hundef | ⟨v, new, hv, henv, hpruned, hsub⟩
    · exact absurd hundef hdefined
    have hwv : w' = v := by
      rw [hw']
      change (w.prune recordSignal h).state = v
      rw [hv]
      rfl
    subst hwv
    rw [append_nil] at hpruned
    exact ⟨(hpruned hne).resolve_right (hop new henv), hlib.of_subset hsub⟩

end Runs

def signedOn (previous : BlockId) (tag : Nat) : BlockState Nat Nat :=
  { blockOn previous tag 0 with activeSchedule := { producers := [⟨1, 7⟩] } }

def s1 : BlockState Nat Nat := signedOn default 1
def s2 : BlockState Nat Nat := signedOn s1.id 2
def s3 : BlockState Nat Nat := signedOn s2.id 3
def t2 : BlockState Nat Nat := signedOn s1.id 4

def started : Recorder Nat Nat := ⟨.ofGenesis s1, []⟩

def runOps (ops : List (ForkOp Nat Nat)) : Recorder Nat Nat :=
  ops.foldl (fun w op => (w.applyOp plainCrypto op).state) started

def rivals (w : Recorder Nat Nat) : Option (BlockId × List BlockId) :=
  w.forkDb.head.map fun h =>
    (h.id, (w.forkDb.index.byLibBlockNum.filter fun b => b.ranksAbove h).map fun b => b.id)

lemma started_best : Best started.forkDb ∧ LibBounded started.forkDb := by
  have hblocks : started.forkDb.index.byLibBlockNum = [s1.toBlockData] :=
    (ForkDatabase.blocks_ofGenesis s1).2
  refine ⟨best_of_first ?_ ?_, ?_⟩
  · rw [hblocks]
    simp
  · rfl
  intro b hb
  rw [hblocks, mem_singleton] at hb
  rw [hb]
  decide +kernel

end Recorder

end DimensionChain
