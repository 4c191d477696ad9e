import DimensionChain.Wasm.Injection

/-!
# The first pass of the instrumentation

Through the first pass the injected imports are a list that only grows, behind the others and
before the module's own. What the maps of the injectors hold is a function of that list, and so is
the number a call carries for an import: twice its position, past the functions of the module.
-/

namespace DimensionChain.Wasm

open List InjectorState Export Injector DimensionChain.Wasm.Module

open Injector (voidType depthCheck depthRestore depthGlobal)

/-! ## What the injectors ask for -/

def floatSignature : VoidOp → Option FunctionType
  | .f32Add | .f32Sub | .f32Mul | .f32Div | .f32Min | .f32Max | .f32Copysign =>
    some ⟨some .f32, [.f32, .f32]⟩
  | .f32Abs | .f32Neg | .f32Sqrt | .f32Ceil | .f32Floor | .f32Trunc | .f32Nearest =>
    some ⟨some .f32, [.f32]⟩
  | .f32Eq | .f32Ne | .f32Lt | .f32Le | .f32Gt | .f32Ge => some ⟨some .i32, [.f32, .f32]⟩
  | .f64Add | .f64Sub | .f64Mul | .f64Div | .f64Min | .f64Max | .f64Copysign =>
    some ⟨some .f64, [.f64, .f64]⟩
  | .f64Abs | .f64Neg | .f64Sqrt | .f64Ceil | .f64Floor | .f64Trunc | .f64Nearest =>
    some ⟨some .f64, [.f64]⟩
  | .f64Eq | .f64Ne | .f64Lt | .f64Le | .f64Gt | .f64Ge => some ⟨some .i32, [.f64, .f64]⟩
  | .f64PromoteF32 => some ⟨some .f64, [.f32]⟩
  | .f32DemoteF64 => some ⟨some .f32, [.f64]⟩
  | .i32TruncSF32 | .i32TruncUF32 => some ⟨some .i32, [.f32]⟩
  | .i32TruncSF64 | .i32TruncUF64 => some ⟨some .i32, [.f64]⟩
  | .i64TruncSF32 | .i64TruncUF32 => some ⟨some .i64, [.f32]⟩
  | .i64TruncSF64 | .i64TruncUF64 => some ⟨some .i64, [.f64]⟩
  | .f32ConvertSI32 | .f32ConvertUI32 => some ⟨some .f32, [.i32]⟩
  | .f32ConvertSI64 | .f32ConvertUI64 => some ⟨some .f32, [.i64]⟩
  | .f64ConvertSI32 | .f64ConvertUI32 => some ⟨some .f64, [.i32]⟩
  | .f64ConvertSI64 | .f64ConvertUI64 => some ⟨some .f64, [.i64]⟩
  | _ => none

/-- The conversions of integers, whose aliases are declared without `_t`. -/
def convertsInteger : VoidOp → Bool
  | .f32ConvertSI32 | .f32ConvertUI32 | .f32ConvertSI64 | .f32ConvertUI64
  | .f64ConvertSI32 | .f64ConvertUI32 | .f64ConvertSI64 | .f64ConvertUI64 => true
  | _ => false

def replacement (op : VoidOp) : Option (String × FunctionType) :=
  match convertsInteger op, floatSignature op, injectWhichOp op with
  | false, some type, .ok name => some (name, type)
  | _, _, _ => none

variable {n : String × FunctionType} {type : FunctionType} {op : VoidOp} {name : String}
  {κ ν : Type} {k : κ}

lemma visitOp_replaced (h : replacement op = some n)
    (s : InjectorState) : visitOp preOpInjectors (.void op) s =
      .ok ([.call (s.addImport n.2 n.1).1], (s.addImport n.2 n.1).2) := by
  cases op <;> cases h <;> rfl

lemma visitOp_void_kept (h : replacement op = none) (s : InjectorState) :
    visitOp preOpInjectors (.void op) s = .ok ([.void op], s) := by
  cases op <;> first | rfl | cases h

lemma replacement_mem (h : replacement op = some n) : n ∈ softfloatApi := by
  cases op <;> cases h <;> repeat (first | exact List.Mem.head _ | apply List.Mem.tail)

lemma replacement_eq_none_iff :
    replacement op = none ↔ floatSignature op = none ∨ convertsInteger op = true := by
  cases op <;> decide

def injectedApi : List (String × FunctionType) :=
  ("checktime", voidType) :: ("call_depth_assert", voidType) :: softfloatApi

def nameNumber (name : String) : Nat :=
  name.toByteArray.data.toList.foldl (fun n b => 256 * n + b.toNat) 0

lemma injectedApi_nodup : (injectedApi.map Prod.fst).Nodup := by
  have h : ((injectedApi.map Prod.fst).map nameNumber).Nodup := by decide +kernel
  exact h.of_map nameNumber

lemma injectedApi_unique {a b : FunctionType} (ha : (name, a) ∈ injectedApi)
    (hb : (name, b) ∈ injectedApi) : a = b :=
  congrArg Prod.snd (inj_on_of_nodup_map injectedApi_nodup ha hb rfl)

/-! ## The state of the pass -/

def Module.functionCount (m : Module) : Nat :=
  m.functionImports.length + m.functionDefs.length

def Module.placeholder (m : Module) (i : Nat) : Nat := m.functionCount + 2 * i

def Module.depthIndex (m : Module) : Nat := m.globalImports.length + m.globalDefs.length

def Export.shift (k : Nat) (e : Export) : Export :=
  if e.kind = .function then { e with index := e.index + k } else e

structure Stands (types : List FunctionType) (n : String × FunctionType) (i : FunctionImport) :
    Prop where
  moduleName : i.moduleName = injectedModuleName
  exportName : i.exportName = n.1
  type : types[i.type]? = some n.2

def Placed (m : Module) (names : List (String × FunctionType)) (n : String × FunctionType)
    (r : Nat) : Prop := ∃ i, names[i]? = some n ∧ r = m.placeholder i

/-- The state after the intrinsics `names` have been imported into `m`, in this order. -/
structure Tracks (m : Module) (names : List (String × FunctionType)) (s : InjectorState) :
    Prop where
  imports : ∃ injected, s.module.functionImports = injected ++ m.functionImports ∧
    List.Forall₂ (Stands s.module.types) names injected
  defs : s.module.functionDefs = m.functionDefs
  types : m.types <+: s.module.types
  exports : s.module.exports = m.exports.map (Export.shift names.length)
  start : s.module.startFunctionIndex = m.startFunctionIndex.map (· + names.length)
  tables : s.module.tableSegments = m.tableSegments.map fun t => t.map (· + names.length)
  registered : s.registeredInjected = names.zipIdx.map fun p => (p.1.1, m.placeholder p.2)
  mapping : s.injectedIndexMapping = (List.range names.length).map fun i => (m.placeholder i, i)
  next : s.nextInjectedIndex = names.length
  slots : ∀ type t, s.typeSlots.lookup type = some t → s.module.types[t]? = some type
  known : ∀ n ∈ names, n ∈ injectedApi
  nodup : (names.map Prod.fst).Nodup

/-- Function indices are numbers of 32 bits, for the injected imports too. -/
def Module.Indexable (m : Module) : Prop := m.functionCount + 2 * injectedApi.length < 4294967296

lemma Export.shift_zero (e : Export) : e.shift 0 = e := by
  unfold shift
  split <;> rfl

lemma Export.increment_shift (k : Nat) (e : Export) : (e.shift k).increment = e.shift (k + 1) := by
  unfold shift increment
  by_cases h : e.kind = .function
  · simp only [h, if_true]
    rfl
  · simp [h]

lemma getElem?_append_of_some {α : Type} {l : List α} {i : Nat} {a : α} (h : l[i]? = some a)
    (more : List α) : (l ++ more)[i]? = some a := by
  rw [List.getElem?_append_left (List.getElem?_eq_some_iff.mp h).1, h]

lemma Stands.append {types more : List FunctionType}
    {i : FunctionImport} (h : Stands types n i) : Stands (types ++ more) n i :=
  ⟨h.moduleName, h.exportName, getElem?_append_of_some h.type more⟩

lemma lookup_emplace [DecidableEq κ] {m : List (κ × ν)}
    (h : m.lookup k = none) (v : ν) : emplace m k v = m ++ [(k, v)] := by
  simp [emplace, h]

lemma insertIdx_length {α : Type} (l r : List α) (a : α) :
    (l ++ r).insertIdx l.length a = l ++ a :: r := by
  induction l with
  | nil => rfl
  | cons b l ih =>
    rw [cons_append, length_cons, insertIdx_succ_cons, ih]
    rfl

lemma lookup_of_getElem? [DecidableEq κ] {l : List (κ × ν)}
    (hl : (l.map Prod.fst).Nodup) {i : Nat} {v : ν} (h : l[i]? = some (k, v)) :
    l.lookup k = some v := by
  induction l generalizing i with
  | nil => simp at h
  | cons p l ih =>
    rw [map_cons, nodup_cons] at hl
    rw [lookup_cons]
    cases i with
    | zero =>
      cases h
      simp
    | succ i =>
      rw [getElem?_cons_succ] at h
      have hmem : k ∈ l.map Prod.fst := mem_map_of_mem (mem_of_getElem? h)
      have hne : (k == p.1) = false := by
        apply beq_false_of_ne
        intro heq
        exact hl.1 (heq ▸ hmem)
      rw [hne]
      exact ih hl.2 h

lemma lookup_append_singleton [DecidableEq κ] {l : List (κ × ν)} {k' : κ} {v v' : ν}
    (h : (l ++ [(k', v')]).lookup k = some v) : l.lookup k = some v ∨ (k = k' ∧ v' = v) := by
  rw [lookup_append, Option.or_eq_some_iff, lookup_cons, lookup_nil] at h
  rcases h with h | ⟨-, h⟩
  · exact .inl h
  · split at h
    · next heq => exact .inr ⟨eq_of_beq heq, Option.some.inj h⟩
    · cases h

lemma buildTypeSlots_sound {all : List FunctionType} (types : List FunctionType)
    (done : List FunctionType) (slots : List (FunctionType × Nat)) (hall : all = done ++ types)
    (hslots : ∀ type t, slots.lookup type = some t → all[t]? = some type) :
    ∀ type t, (buildTypeSlots types done.length slots).lookup type = some t →
      all[t]? = some type := by
  induction types generalizing done slots with
  | nil => exact hslots
  | cons first types ih =>
    have hlen : done.length + 1 = (done ++ [first]).length := by simp
    rw [buildTypeSlots, hlen]
    apply ih
    · rw [hall, append_assoc]
      rfl
    intro type t ht
    unfold emplace at ht
    split at ht
    · exact hslots type t ht
    rcases lookup_append_singleton ht with ht | ⟨rfl, rfl⟩
    · exact hslots type t ht
    · rw [hall, getElem?_append_right (Nat.le_refl _), Nat.sub_self]
      rfl

namespace Tracks
variable {m : Module} {names : List (String × FunctionType)} {s : InjectorState}

lemma init (m : Module) : Tracks m [] (InjectorState.init m) where
  imports := ⟨[], rfl, .nil⟩
  defs := rfl
  types := prefix_refl _
  exports := by
    have h : shift 0 = id := funext shift_zero
    change m.exports = m.exports.map (shift 0)
    rw [h, map_id]
  start := by simp [InjectorState.init]
  tables := by simp [InjectorState.init]
  registered := rfl
  mapping := rfl
  next := rfl
  slots := buildTypeSlots_sound m.types [] [] rfl (fun _ _ h => by cases h)
  known := by simp
  nodup := nodup_nil

variable (h : Tracks m names s) {i : Nat}
include h

lemma length_le : names.length ≤ injectedApi.length := by
  have hsub : names.map Prod.fst ⊆ injectedApi.map Prod.fst := by
    intro name hname
    obtain ⟨n, hn, rfl⟩ := mem_map.mp hname
    exact mem_map_of_mem (h.known n hn)
  have hle := (subperm_of_subset h.nodup hsub).length_le
  simpa using hle

lemma injected_length :
    s.module.functionImports.length = names.length + m.functionImports.length := by
  obtain ⟨injected, himports, hstands⟩ := h.imports
  rw [himports, length_append, hstands.length_eq]

lemma registered_fst : s.registeredInjected.map Prod.fst = names.map Prod.fst := by
  have hcomp : (Prod.fst ∘ fun p : (String × FunctionType) × Nat => (p.1.1, m.placeholder p.2)) =
      Prod.fst ∘ Prod.fst := rfl
  rw [h.registered, map_map, hcomp, ← map_map, zipIdx_map_fst]

lemma registered_lookup
    (hi : names[i]? = some n) : s.registeredInjected.lookup n.1 = some (m.placeholder i) := by
  refine lookup_of_getElem? (i := i) ?_ ?_
  · rw [h.registered_fst]
    exact h.nodup
  · rw [h.registered, getElem?_map, getElem?_zipIdx, hi]
    simp

lemma registered_none : s.registeredInjected.lookup name = none ↔ name ∉ names.map Prod.fst := by
  rw [← h.registered_fst, lookup_eq_none_iff]
  constructor
  · intro hall hmem
    obtain ⟨p, hp, rfl⟩ := mem_map.mp hmem
    simpa using hall p hp
  intro hnot p hp
  apply bne_iff_ne.mpr
  intro heq
  exact hnot (heq ▸ mem_map_of_mem hp)

lemma mapping_lookup (hi : i < names.length) :
    s.injectedIndexMapping.lookup (m.placeholder i) = some i := by
  refine lookup_of_getElem? (i := i) ?_ ?_
  · rw [h.mapping, map_map]
    apply List.Nodup.map _ nodup_range
    intro a b hab
    simp only [Function.comp_apply, placeholder] at hab
    omega
  · rw [h.mapping, getElem?_map, getElem?_range hi]
    rfl

lemma mapping_none {j : Nat} (hj : j < m.functionCount) :
    s.injectedIndexMapping.lookup j = none := by
  rw [h.mapping, lookup_eq_none_iff]
  intro p hp
  obtain ⟨i, -, rfl⟩ := mem_map.mp hp
  simp only [placeholder, bne_iff_ne]
  omega

lemma addTypeSlot (type : FunctionType) : Tracks m names (s.addTypeSlot type) ∧
      ∃ t, (s.addTypeSlot type).typeSlots.lookup type = some t := by
  unfold InjectorState.addTypeSlot
  split
  · next hnone =>
    rw [Option.isNone_iff_eq_none] at hnone
    rw [lookup_emplace hnone]
    refine ⟨?_, s.module.types.length, ?_⟩
    · obtain ⟨injected, himports, hstands⟩ := h.imports
      refine { h with
        imports := ⟨injected, himports, hstands.imp fun _ _ hst => hst.append⟩
        types := h.types.trans (prefix_append _ _)
        slots := ?_ }
      intro other t ht
      rcases lookup_append_singleton ht with ht | ⟨rfl, rfl⟩
      · exact getElem?_append_of_some (h.slots other t ht) [type]
      · simp
    · rw [lookup_append, hnone]
      simp
  next hsome =>
  refine ⟨h, ?_⟩
  cases hl : s.typeSlots.lookup type with
  | none => simp [hl] at hsome
  | some t => exact ⟨t, rfl⟩

lemma registered_length : s.registeredInjected.length = names.length := by
  rw [h.registered]
  simp

lemma nextFunctionIndex (hm : m.Indexable) : s.nextFunctionIndex = m.placeholder names.length := by
  have hle := h.length_le
  unfold InjectorState.nextFunctionIndex placeholder functionCount
  unfold Module.Indexable functionCount at hm
  rw [h.injected_length, h.defs, h.registered_length, u32_eq (by omega)]
  omega

lemma insertImport (hm : m.Indexable) {t : Nat} (ht : s.typeSlots.lookup type = some t)
    (hn : (name, type) ∈ injectedApi) (hnew : name ∉ names.map Prod.fst) :
    Tracks m (names ++ [(name, type)]) (s.insertImport type name) := by
  have hle := h.length_le
  have hnext := h.nextFunctionIndex hm
  have hlen : (names ++ [(name, type)]).length = names.length + 1 := by simp
  have hreg : emplace s.registeredInjected name s.nextFunctionIndex =
      s.registeredInjected ++ [(name, m.placeholder names.length)] := by
    rw [lookup_emplace (h.registered_none.mpr hnew), hnext]
  have hmap : s.injectedIndexMapping.lookup (m.placeholder names.length) = none := by
    rw [h.mapping, lookup_eq_none_iff]
    intro p hp
    obtain ⟨i, hi, rfl⟩ := mem_map.mp hp
    have hlt := mem_range.mp hi
    simp only [placeholder, bne_iff_ne]
    omega
  have hpos : (emplace s.registeredInjected name s.nextFunctionIndex).length - 1 =
      names.length := by
    rw [hreg, length_append, h.registered_length]
    rfl
  constructor
  case imports =>
    obtain ⟨injected, himports, hstands⟩ := h.imports
    refine ⟨injected ++ [⟨t, injectedModuleName, name⟩], ?_, ?_⟩
    · change s.module.functionImports.insertIdx _ _ = _
      rw [hpos, himports, hstands.length_eq, insertIdx_length, ht, append_assoc]
      rfl
    · apply rel_append hstands
      exact .cons ⟨rfl, rfl, h.slots type t ht⟩ .nil
  case defs => exact h.defs
  case types => exact h.types
  case exports =>
    change s.module.exports.map increment = _
    rw [h.exports, map_map, hlen]
    exact congrArg (List.map · m.exports) (funext (increment_shift names.length))
  case start =>
    change s.module.startFunctionIndex.map (· + 1) = _
    rw [h.start, Option.map_map, hlen]
    rfl
  case tables =>
    change s.module.tableSegments.map _ = _
    rw [h.tables, map_map, hlen]
    simp [Function.comp_def, Nat.add_assoc]
  case registered =>
    change emplace s.registeredInjected name s.nextFunctionIndex = _
    rw [hreg, h.registered, zipIdx_append, map_append]
    simp
  case mapping =>
    change emplace s.injectedIndexMapping s.nextFunctionIndex s.nextInjectedIndex = _
    rw [hnext, lookup_emplace hmap, h.mapping, h.next, hlen, range_succ, map_append]
    rfl
  case next =>
    change u32 (s.nextInjectedIndex + 1) = _
    unfold Module.Indexable at hm
    rw [h.next, hlen, u32_eq (by omega)]
  case slots => exact h.slots
  case known =>
    intro n hmem
    rcases mem_append.mp hmem with hmem | hmem
    · exact h.known n hmem
    · rw [mem_singleton.mp hmem]
      exact hn
  case nodup =>
    rw [map_append, nodup_append]
    refine ⟨h.nodup, by simp, ?_⟩
    intro a ha b hb heq
    rw [map_cons, map_nil, mem_singleton] at hb
    rw [heq, hb] at ha
    exact hnew ha

end Tracks

/-! ## Imports on demand -/

structure SameRest (s s' : InjectorState) : Prop where
  chktmIdx : s'.chktmIdx = s.chktmIdx
  globalIdx : s'.globalIdx = s.globalIdx
  globalImports : s'.module.globalImports = s.module.globalImports
  globalDefs : s'.module.globalDefs = s.module.globalDefs

lemma sameRest_addImport (s : InjectorState) (type : FunctionType) (name : String) :
    SameRest s (s.addImport type name).2 := by
  unfold addImport
  split
  · unfold addTypeSlot
    split <;> exact ⟨rfl, rfl, rfl, rfl⟩
  · exact ⟨rfl, rfl, rfl, rfl⟩

variable {names : List (String × FunctionType)} {m : Module} {s : InjectorState}
  {names' : List (String × FunctionType)} {inst : Instr}

lemma Tracks.addImport (h : Tracks m names s) (hm : m.Indexable) (hn : (name, type) ∈ injectedApi) :
    ∃ names', (names' = names ∨ names' = names ++ [(name, type)]) ∧
      Tracks m names' (s.addImport type name).2 ∧
      Placed m names' (name, type) (s.addImport type name).1 := by
  unfold InjectorState.addImport
  by_cases hnew : name ∈ names.map Prod.fst
  · obtain ⟨n, hmem, rfl⟩ := mem_map.mp hnew
    obtain ⟨i, hi⟩ := mem_iff_getElem?.mp hmem
    have hlookup := h.registered_lookup hi
    have himports : s.module.functionImports.length ≠ 0 := by
      have hpos := length_pos_of_mem hmem
      rw [h.injected_length]
      omega
    have htype : n.2 = type := injectedApi_unique (h.known n hmem) hn
    rw [if_neg (by simp [himports, hlookup])]
    refine ⟨names, .inl rfl, h, i, ?_, ?_⟩
    · rw [hi, ← htype]
    · rw [hlookup]
      rfl
  obtain ⟨hslot, t, ht⟩ := h.addTypeSlot type
  rw [if_pos (.inr (by rw [h.registered_none.mpr hnew]; rfl))]
  refine ⟨names ++ [(name, type)], .inr rfl, hslot.insertImport hm ht hn hnew, names.length, ?_,
    hslot.nextFunctionIndex hm⟩
  simp

lemma Placed.mono {r : Nat} (h : Placed m names n r) (hle : names <+: names') :
    Placed m names' n r := by
  obtain ⟨i, hi, hr⟩ := h
  obtain ⟨more, rfl⟩ := hle
  exact ⟨i, getElem?_append_of_some hi more, hr⟩

/-! ## The pass over the code -/

def Counted (m : Module) (globals : List GlobalDef) : Prop :=
  globals = m.globalDefs ++ [depthGlobal]

structure Passing (m : Module) (names : List (String × FunctionType)) (s : InjectorState) :
    Prop where
  tracks : Tracks m names s
  checktime : names[0]? = some ("checktime", voidType)
  chktmIdx : s.chktmIdx = m.placeholder 0
  globalImports : s.module.globalImports = m.globalImports
  globals : (s.globalIdx = none ∧ s.module.globalDefs = m.globalDefs) ∨
    (s.globalIdx = some m.depthIndex ∧ Counted m s.module.globalDefs)

structure Later (m : Module) (names names' : List (String × FunctionType))
    (s s' : InjectorState) : Prop where
  names : names <+: names'
  counted : Counted m s.module.globalDefs → Counted m s'.module.globalDefs

def Instr.isCall (inst : Instr) : Bool :=
  inst.op = .word .call || inst.op = .word .callIndirect

inductive Marked (m : Module) (names : List (String × FunctionType)) (s : InjectorState) :
    Instr → List Instr → Prop
  | call {inst : Instr} {assert : Nat} (hcall : inst.isCall = true)
      (hassert : Placed m names ("call_depth_assert", voidType) assert)
      (hcounted : Counted m s.module.globalDefs) :
      Marked m names s inst (depthCheck m.depthIndex assert ++ [inst] ++
        depthRestore m.depthIndex (m.placeholder 0))
  | float {op : VoidOp} {n : String × FunctionType} {r : Nat} (hop : replacement op = some n)
      (hr : Placed m names n r) : Marked m names s (.void op) [.call r]
  | kept {inst : Instr} (hcall : inst.isCall = false)
      (hop : ∀ op, inst = .void op → replacement op = none) : Marked m names s inst [inst]

lemma Marked.mono {s s' : InjectorState} {out : List Instr} (h : Marked m names s inst out)
    (hlater : Later m names names' s s') : Marked m names' s' inst out := by
  cases h with
  | call hcall hassert hcounted =>
    exact .call hcall (hassert.mono hlater.names) (hlater.counted hcounted)
  | float hop hr => exact .float hop (hr.mono hlater.names)
  | kept hcall hop => exact .kept hcall hop

lemma Later.refl (m : Module) (names : List (String × FunctionType)) (s : InjectorState) :
    Later m names names s s :=
  ⟨prefix_refl _, id⟩

lemma Later.trans {a b c : List (String × FunctionType)} {s t u : InjectorState}
    (h : Later m a b s t) (h' : Later m b c t u) : Later m a c s u :=
  ⟨h.names.trans h'.names, h'.counted ∘ h.counted⟩

variable (h : Passing m names s)
include h

lemma Passing.addImport (hm : m.Indexable) (hn : (name, type) ∈ injectedApi) :
    ∃ names', Passing m names' (s.addImport type name).2 ∧
      Later m names names' s (s.addImport type name).2 ∧
      Placed m names' (name, type) (s.addImport type name).1 := by
  obtain ⟨names', hnames, htracks, hplaced⟩ := h.tracks.addImport hm hn
  have hle : names <+: names' := by
    rcases hnames with rfl | rfl
    · exact prefix_refl _
    · exact prefix_append _ _
  have hrest := sameRest_addImport s type name
  refine ⟨names', ⟨htracks, ?_, ?_, ?_, ?_⟩, ⟨hle, ?_⟩, hplaced⟩
  · obtain ⟨more, rfl⟩ := hle
    exact getElem?_append_of_some h.checktime more
  · rw [hrest.chktmIdx, h.chktmIdx]
  · rw [hrest.globalImports, h.globalImports]
  · rw [hrest.globalIdx, hrest.globalDefs]
    exact h.globals
  · rw [hrest.globalDefs]
    exact id

lemma Passing.addDepthGlobal : Passing m names (Injector.addDepthGlobal s) ∧
      (Injector.addDepthGlobal s).globalIdx = some m.depthIndex ∧
      Counted m (Injector.addDepthGlobal s).module.globalDefs := by
  rcases h.globals with ⟨hidx, hdefs⟩ | ⟨hidx, hdefs⟩
  · have hmodule : depthModule s =
        { s.module with globalDefs := m.globalDefs ++ [depthGlobal] } := by
      unfold depthModule
      rw [if_pos hidx, hdefs]
    have hcount : s.module.globalImports.length + (m.globalDefs ++ [depthGlobal]).length - 1 =
        m.depthIndex := by
      rw [h.globalImports, length_append]
      rfl
    unfold Injector.addDepthGlobal
    rw [hmodule, hcount]
    exact ⟨⟨{ h.tracks with }, h.checktime, h.chktmIdx, h.globalImports, .inr ⟨rfl, rfl⟩⟩, rfl, rfl⟩
  have hmodule : Injector.depthModule s = s.module := by
    unfold Injector.depthModule
    rw [if_neg (by simp [hidx])]
  have hcount : s.module.globalImports.length + s.module.globalDefs.length - 1 =
      m.depthIndex := by
    rw [h.globalImports, hdefs, length_append]
    rfl
  have heq : Injector.addDepthGlobal s = s := by
    unfold Injector.addDepthGlobal
    rw [hmodule, hcount, ← hidx]
  rw [heq]
  exact ⟨h, hidx, hdefs⟩

omit h in
lemma callDepthAssert_mem : ("call_depth_assert", voidType) ∈ injectedApi :=
  mem_cons_of_mem _ mem_cons_self

omit h in
lemma visitOp_call (hcall : inst.isCall = true) (s : InjectorState) :
    visitOp preOpInjectors inst s = .ok (Injector.acceptCall inst s) := by
  have hinj : cachedOp preOpInjectors inst.op = .callDepthCheckAndInsertChecktime := by
    unfold Instr.isCall at hcall
    rw [Bool.or_eq_true, decide_eq_true_eq, decide_eq_true_eq] at hcall
    rcases hcall with hop | hop <;> rw [hop] <;> rfl
  unfold visitOp
  rw [hinj]
  change Except.ok ((acceptCall inst s).1 ++ [], _) = _
  rw [append_nil]

omit h in
lemma visitOp_kept (hcall : inst.isCall = false)
    (hop : ∀ op, inst = .void op → replacement op = none) (s : InjectorState) :
    visitOp preOpInjectors inst s = .ok ([inst], s) := by
  cases inst with
  | void op => exact visitOp_void_kept (hop op rfl) s
  | block op result => cases op <;> rfl
  | word op field => cases op <;> first | rfl | cases hcall
  | memory op a o => cases op <;> rfl
  | long op field => cases op <;> rfl
  | brTable depth index => rfl

lemma Passing.visitOp (hm : m.Indexable) (inst : Instr) :
    ∃ out s' names', visitOp preOpInjectors inst s = .ok (out, s') ∧ Passing m names' s' ∧
      Later m names names' s s' ∧ Marked m names' s' inst out := by
  cases hcall : inst.isCall with
  | true =>
    obtain ⟨hpass, hidx, hcounted⟩ := h.addDepthGlobal
    obtain ⟨names', hpass', hlater, hplaced⟩ := hpass.addImport hm callDepthAssert_mem
    refine ⟨_, _, names', visitOp_call hcall s, hpass', ⟨hlater.names, fun _ => ?_⟩, ?_⟩
    · exact hlater.counted hcounted
    · rw [hidx, hpass'.chktmIdx]
      exact .call hcall hplaced (hlater.counted hcounted)
  | false =>
    by_cases hop : ∃ op n, inst = .void op ∧ replacement op = some n
    · obtain ⟨op, n, rfl, hn⟩ := hop
      have hmem : (n.1, n.2) ∈ injectedApi :=
        mem_cons_of_mem _ (mem_cons_of_mem _ (replacement_mem hn))
      obtain ⟨names', hpass, hlater, hplaced⟩ := h.addImport hm hmem
      exact ⟨_, _, names', visitOp_replaced hn s, hpass, hlater, .float hn hplaced⟩
    have hkept : ∀ op, inst = .void op → replacement op = none := by
      intro op hinst
      cases hr : replacement op with
      | none => rfl
      | some n => exact absurd ⟨op, n, hinst, hr⟩ hop
    exact ⟨_, s, names, visitOp_kept hcall hkept s, h, .refl m names s, .kept hcall hkept⟩

lemma Passing.injectCode (hm : m.Indexable) (code : List Instr) :
    ∃ parts s' names', injectCode preOpInjectors code s = .ok (parts.flatten, s') ∧
      Passing m names' s' ∧ Later m names names' s s' ∧
      List.Forall₂ (Marked m names' s') code parts := by
  induction code generalizing s names with
  | nil => exact ⟨[], s, names, rfl, h, .refl m names s, .nil⟩
  | cons inst code ih =>
    obtain ⟨out, s₁, names₁, hvisit, hpass₁, hlater₁, hmarked⟩ := h.visitOp hm inst
    obtain ⟨parts, s₂, names₂, hcode, hpass₂, hlater₂, hparts⟩ := ih hpass₁
    refine ⟨out :: parts, s₂, names₂, ?_, hpass₂, hlater₁.trans hlater₂,
      .cons (hmarked.mono hlater₂) hparts⟩
    unfold Wasm.injectCode
    rw [hvisit]
    change (Wasm.injectCode preOpInjectors code s₁ >>= _) = _
    rw [hcode]
    rfl

omit h

def MarkedDef (m : Module) (names : List (String × FunctionType)) (s : InjectorState)
    (fd fd' : FunctionDef) : Prop :=
  fd'.type = fd.type ∧ ∃ parts, fd'.code = List.flatten parts ∧
    List.Forall₂ (Marked m names s) fd.code parts

lemma Passing.injectDefs (h : Passing m names s) (hm : m.Indexable) (defs : List FunctionDef) :
    ∃ defs' s' names', injectDefs preOpInjectors [] defs s = .ok (defs', s') ∧
      Passing m names' s' ∧ Later m names names' s s' ∧
      List.Forall₂ (MarkedDef m names' s') defs defs' := by
  induction defs generalizing s names with
  | nil => exact ⟨[], s, names, rfl, h, .refl m names s, .nil⟩
  | cons fd defs ih =>
    obtain ⟨parts, s₁, names₁, hcode, hpass₁, hlater₁, hparts⟩ := h.injectCode hm fd.code
    obtain ⟨defs', s₂, names₂, hdefs, hpass₂, hlater₂, hmarked⟩ := ih hpass₁
    refine ⟨{ fd with code := parts.flatten } :: defs', s₂, names₂, ?_, hpass₂,
      hlater₁.trans hlater₂, .cons ⟨rfl, parts, rfl, ?_⟩ hmarked⟩
    · unfold Wasm.injectDefs
      rw [hcode]
      change (Wasm.injectDefs preOpInjectors [] defs s₁ >>= _) = _
      rw [hdefs]
      rfl
    · exact hparts.imp fun _ _ hp => hp.mono hlater₂

lemma maxMemoryInject_eq (m : Module) :
    maxMemoryInject m = { m with memoryDefs := (maxMemoryInject m).memoryDefs } := by
  unfold maxMemoryInject
  split
  · rfl
  · split <;> rfl

lemma passing_injectChecktime (hm : m.Indexable) :
    ∃ names, Passing m names (injectChecktime m) := by
  have hinit : Tracks m [] { init m with module := maxMemoryInject m } := by
    rw [maxMemoryInject_eq m]
    exact { Tracks.init m with }
  have hmem : ("checktime", voidType) ∈ injectedApi := mem_cons_self
  obtain ⟨names, hnames, htracks, i, hi, hidx⟩ := hinit.addImport hm hmem
  have hrest := sameRest_addImport
    { init m with module := maxMemoryInject m } voidType "checktime"
  rcases hnames with rfl | rfl
  · cases hi
  have hzero : i = 0 := by
    have hlt := (List.getElem?_eq_some_iff.mp hi).1
    simpa using hlt
  rw [hzero] at hidx
  refine ⟨[("checktime", voidType)], ⟨{ htracks with }, rfl, hidx, ?_, .inl ⟨?_, ?_⟩⟩⟩
  · change (addImport _ voidType "checktime").2.module.globalImports = _
    rw [hrest.globalImports, maxMemoryInject_eq m]
  · exact hrest.globalIdx
  · change (addImport _ voidType "checktime").2.module.globalDefs = _
    rw [hrest.globalDefs, maxMemoryInject_eq m]

lemma injectPre_ok (hm : m.Indexable) :
    ∃ names s defs, injectPre m = .ok { s with module := { s.module with functionDefs := defs } } ∧
      Passing m names s ∧ List.Forall₂ (MarkedDef m names s) m.functionDefs defs := by
  obtain ⟨names₀, hstart⟩ := passing_injectChecktime hm
  obtain ⟨defs, s, names, hdefs, hpass, -, hmarked⟩ := hstart.injectDefs hm m.functionDefs
  refine ⟨names, s, defs, ?_, hpass, hmarked⟩
  unfold injectPre
  rw [hdefs]
  rfl

end DimensionChain.Wasm
