import DimensionChain.Wasm.FirstPass

/-!
# References of instrumented code

What instrumentation makes of a module, instruction by instruction: every reference to a function
of the module is moved by the number of injected imports, and every call that is put in reaches
what it is meant for.
-/

namespace DimensionChain.Wasm

open List InjectorState

open Injector (voidType depthCheck depthRestore depthGlobal)

def InjectedAt (m' : Module) (injected : List FunctionImport) (r : Nat)
    (n : String × FunctionType) : Prop :=
  ∃ i, injected[r]? = some i ∧ Stands m'.types n i

/-- What an instruction of the module `m` becomes in `m'`, where `f` moves the operands of the
calls. -/
inductive Rewrites (m m' : Module) (injected : List FunctionImport) (f : Nat → Nat) :
    Instr → List Instr → Prop
  | call {index assert checktime : Nat}
      (hassert : InjectedAt m' injected assert ("call_depth_assert", voidType))
      (hcheck : InjectedAt m' injected checktime ("checktime", voidType))
      (hcounted : Counted m m'.globalDefs) :
      Rewrites m m' injected f (.call index) (depthCheck m.depthIndex assert ++
        [.call (f index)] ++ depthRestore m.depthIndex checktime)
  | callIndirect {type assert checktime : Nat}
      (hassert : InjectedAt m' injected assert ("call_depth_assert", voidType))
      (hcheck : InjectedAt m' injected checktime ("checktime", voidType))
      (hcounted : Counted m m'.globalDefs) :
      Rewrites m m' injected f (.word .callIndirect type) (depthCheck m.depthIndex assert ++
        [.word .callIndirect type] ++ depthRestore m.depthIndex checktime)
  | loop {result checktime : Nat}
      (hcheck : InjectedAt m' injected checktime ("checktime", voidType)) :
      Rewrites m m' injected f (.loop result) [.loop result, .call checktime]
  | float {op : VoidOp} {n : String × FunctionType} {r : Nat} (hop : replacement op = some n)
      (hr : InjectedAt m' injected r n) : Rewrites m m' injected f (.void op) [.call r]
  | kept {inst : Instr} (hcall : inst.isCall = false) (hloop : inst.op ≠ .block .loop)
      (hop : ∀ op, inst = .void op → replacement op = none) :
      Rewrites m m' injected f inst [inst]

/-- A function keeps its type; its code starts with a call of `checktime` and goes on with what its
instructions have become, in their order. -/
def RewrittenDef (m m' : Module) (injected : List FunctionImport) (f : Nat → Nat)
    (fd fd' : FunctionDef) : Prop :=
  fd'.type = fd.type ∧ ∃ checktime parts,
    InjectedAt m' injected checktime ("checktime", voidType) ∧
    fd'.code = .call checktime :: List.flatten parts ∧
    List.Forall₂ (Rewrites m m' injected f) fd.code parts

structure Instrumented (m m' : Module) (injected : List FunctionImport) (f : Nat → Nat) :
    Prop where
  imports : m'.functionImports = injected ++ m.functionImports
  types : m.types <+: m'.types
  exports : m'.exports = m.exports.map (Export.shift injected.length)
  start : m'.startFunctionIndex = m.startFunctionIndex.map (· + injected.length)
  tables : m'.tableSegments = m.tableSegments.map fun t => t.map (· + injected.length)
  defs : List.Forall₂ (RewrittenDef m m' injected f) m.functionDefs m'.functionDefs

/-! ## The second pass -/

def InjectorState.resolve (s : InjectorState) (index : Nat) : Nat :=
  (s.injectedIndexMapping.lookup index).getD (u32 (index + s.registeredInjected.length))

def finish (s : InjectorState) (checktime : Nat) : Instr → List Instr
  | .call index => [.call (s.resolve index)]
  | .loop result => [.loop result, .call checktime]
  | inst => [inst]

section SecondPass
variable {s : InjectorState} {checktime : Nat}
  (hs : s.injectedIndexMapping.lookup s.chktmIdx = some checktime)
include hs

lemma accept_checktime (inst : Instr) :
    Injector.accept .checktimeInjection inst s = .ok (inst, [.call checktime], s) := by
  simp [Injector.accept, hs]

omit hs in
lemma accept_fixCallIndex (s : InjectorState) (index : Nat) :
    Injector.accept .fixCallIndex (.call index) s = .ok (.call (s.resolve index), [], s) := by
  unfold resolve
  cases h : s.injectedIndexMapping.lookup index <;> simp [Injector.accept, h]

lemma visitOp_finish
    (inst : Instr) : visitOp postOpInjectors inst s = .ok (finish s checktime inst, s) := by
  cases inst with
  | void op => cases op <;> rfl
  | block op result =>
    cases op with
    | loop =>
      change (Injector.accept .checktimeInjection (.loop result) s >>= _) = _
      rw [accept_checktime hs]
      rfl
    | block => rfl
    | if_ => rfl
  | word op field =>
    cases op with
    | call =>
      change (Injector.accept .fixCallIndex (.call field) s >>= _) = _
      rw [accept_fixCallIndex]
      rfl
    | _ => rfl
  | memory op a o => cases op <;> rfl
  | long op field => cases op <;> rfl
  | brTable depth index => rfl

lemma injectCode_finish (code : List Instr) :
    injectCode postOpInjectors code s = .ok (code.flatMap (finish s checktime), s) := by
  induction code with
  | nil => rfl
  | cons inst code ih =>
    unfold injectCode
    rw [visitOp_finish hs]
    change (injectCode postOpInjectors code s >>= _) = _
    rw [ih]
    rfl

lemma injectDefs_finish (start : List Instr) (defs : List FunctionDef) :
    injectDefs postOpInjectors start defs s = .ok (defs.map fun fd =>
      { fd with code := start ++ fd.code.flatMap (finish s checktime) }, s) := by
  induction defs with
  | nil => rfl
  | cons fd defs ih =>
    unfold injectDefs
    rw [injectCode_finish hs]
    change (injectDefs postOpInjectors start defs s >>= _) = _
    rw [ih]
    rfl

lemma injectPost_ok :
    injectPost s = .ok { s.module with
      functionDefs := s.module.functionDefs.map fun fd =>
        { fd with code := .call checktime :: fd.code.flatMap (finish s checktime) } } := by
  unfold injectPost
  rw [hs]
  change (injectDefs postOpInjectors _ s.module.functionDefs s >>= _) = _
  rw [injectDefs_finish hs]
  rfl

end SecondPass

/-! ## Both passes -/

lemma flatMap_flatten {α β : Type} (f : α → List β) (parts : List (List α)) :
    parts.flatten.flatMap f = (parts.map (List.flatMap f)).flatten := by
  induction parts with
  | nil => rfl
  | cons part parts ih =>
    rw [flatten_cons, flatMap_append, ih]
    rfl

section BothPasses
variable {m : Module} {names : List (String × FunctionType)} {s : InjectorState}
  {n : String × FunctionType} {r : Nat}

lemma Tracks.resolve_placed (h : Tracks m names s)
    (hr : Placed m names n r) : names[s.resolve r]? = some n := by
  obtain ⟨i, hi, rfl⟩ := hr
  unfold resolve
  rw [h.mapping_lookup (List.getElem?_eq_some_iff.mp hi).1]
  exact hi

lemma Tracks.resolve_own (h : Tracks m names s) (hm : m.Indexable) {index : Nat}
    (hindex : index < m.functionCount) : s.resolve index = index + names.length := by
  have hle := h.length_le
  unfold Module.Indexable at hm
  unfold resolve
  rw [h.mapping_none hindex, h.registered_length, Option.getD_none, u32_eq (by omega)]

variable {injected : List FunctionImport} {m' : Module} {part : List Instr} {inst : Instr}

lemma injectedAt_of_getElem? (hstands : List.Forall₂ (Stands m'.types) names injected)
    (hr : names[r]? = some n) : InjectedAt m' injected r n := by
  obtain ⟨hlt, heq⟩ := List.getElem?_eq_some_iff.mp hr
  have hlt' : r < injected.length := hstands.length_eq ▸ hlt
  refine ⟨injected[r], List.getElem?_eq_getElem hlt', ?_⟩
  have hget := forall₂_iff_get.mp hstands
  rw [← heq]
  exact hget.2 r hlt hlt'

lemma Marked.rewrites (h : Passing m names s)
    (hstands : List.Forall₂ (Stands m'.types) names injected)
    (hglobals : m'.globalDefs = s.module.globalDefs) (hpart : Marked m names s inst part) :
    Rewrites m m' injected s.resolve inst (part.flatMap (finish s 0)) := by
  have hat : ∀ {n : String × FunctionType} {r : Nat}, Placed m names n r →
      InjectedAt m' injected (s.resolve r) n :=
    fun hr => injectedAt_of_getElem? hstands (h.tracks.resolve_placed hr)
  have hcheck : InjectedAt m' injected (s.resolve (m.placeholder 0)) ("checktime", voidType) :=
    hat ⟨0, h.checktime, rfl⟩
  cases hpart with
  | @call _ assert hcall hassert hcounted =>
    rw [← hglobals] at hcounted
    cases inst with
    | word op field =>
      cases op with
      | call => exact .call (hat hassert) hcheck hcounted
      | callIndirect => exact .callIndirect (hat hassert) hcheck hcounted
      | _ => cases hcall
    | _ => cases hcall
  | float hop hr => exact .float hop (hat hr)
  | kept hcall hop =>
    rw [flatMap_singleton]
    by_cases hloop : inst.op = .block .loop
    · cases inst with
      | block op result =>
        cases hloop
        exact .loop (injectedAt_of_getElem? hstands h.checktime)
      | _ => cases hloop
    have hfinish : finish s 0 inst = [inst] := by
      cases inst with
      | word op field =>
        cases op with
        | call => cases hcall
        | _ => rfl
      | block op result =>
        cases op with
        | loop => exact absurd rfl hloop
        | _ => rfl
      | _ => rfl
    rw [hfinish]
    exact .kept hcall hloop hop

lemma Rewrites.congr {f g : Nat → Nat} (h : Rewrites m m' injected f inst part)
    (hfg : ∀ index, inst = .call index → f index = g index) :
    Rewrites m m' injected g inst part := by
  cases h with
  | @call index _ _ hassert hcheck hcounted =>
    rw [hfg index rfl]
    exact .call hassert hcheck hcounted
  | callIndirect hassert hcheck hcounted => exact .callIndirect hassert hcheck hcounted
  | loop hcheck => exact .loop hcheck
  | float hop hr => exact .float hop hr
  | kept hcall hloop hop => exact .kept hcall hloop hop

end BothPasses

/-- Instrumentation succeeds, and the operands of calls within the module move by the number of
the injected imports. -/
lemma inject_ok {m : Module} (hm : m.Indexable) :
    ∃ m' injected f, inject m = .ok m' ∧ Instrumented m m' injected f ∧
      (∀ index < m.functionCount, f index = index + injected.length) ∧
      m'.globalImports = m.globalImports ∧
      (m'.globalDefs = m.globalDefs ∨ Counted m m'.globalDefs) := by
  obtain ⟨names, s, defs, hpre, hpass, hdefs⟩ := injectPre_ok hm
  obtain ⟨injected, himports, hstands⟩ := hpass.tracks.imports
  have hlen : names.length = injected.length := hstands.length_eq
  have hzero : s.injectedIndexMapping.lookup s.chktmIdx = some 0 := by
    rw [hpass.chktmIdx]
    exact hpass.tracks.mapping_lookup (List.getElem?_eq_some_iff.mp hpass.checktime).1
  refine ⟨{ s.module with
      functionDefs := defs.map fun fd =>
        { fd with code := .call 0 :: fd.code.flatMap (finish s 0) } },
    injected, s.resolve, ?_, ⟨himports, hpass.tracks.types, ?_, ?_, ?_, ?_⟩, ?_,
    hpass.globalImports, hpass.globals.imp And.right And.right⟩
  · unfold inject
    rw [hpre]
    exact injectPost_ok (s := { s with module := { s.module with functionDefs := defs } }) hzero
  · rw [← hlen]
    exact hpass.tracks.exports
  · rw [← hlen]
    exact hpass.tracks.start
  · rw [← hlen]
    exact hpass.tracks.tables
  · apply forall₂_map_right_iff.mpr
    apply hdefs.imp
    intro fd fd' hfd
    obtain ⟨htype, parts, hcode, hparts⟩ := hfd
    refine ⟨htype, 0, parts.map (List.flatMap (finish s 0)),
      injectedAt_of_getElem? hstands hpass.checktime, ?_, ?_⟩
    · rw [hcode, flatMap_flatten]
    apply forall₂_map_right_iff.mpr
    apply hparts.imp
    intro inst part hpart
    refine Marked.rewrites hpass ?_ ?_ hpart
    · exact hstands
    · rfl
  · intro index hindex
    rw [← hlen]
    exact hpass.tracks.resolve_own hm hindex

/-- The code that is put into a module names the imports it is meant for, and what the module
refers to it still refers to, past the injected imports. -/
theorem inject_keeps_references {m : Module} (hm : m.Indexable)
    (hcalls : ∀ fd ∈ m.functionDefs, ∀ index, Instr.call index ∈ fd.code →
      index < m.functionCount) :
    ∃ m' injected, inject m = .ok m' ∧ Instrumented m m' injected (· + injected.length) := by
  obtain ⟨m', injected, f, hinject, hm', hf, -⟩ := inject_ok hm
  refine ⟨m', injected, hinject, { hm' with defs := ?_ }⟩
  have hdefs := (forall₂_and_left _ _).mpr ⟨hcalls, hm'.defs⟩
  apply hdefs.imp
  rintro fd fd' ⟨hfd, htype, checktime, parts, hcheck, hcode, hparts⟩
  refine ⟨htype, checktime, parts, hcheck, hcode, ?_⟩
  have hmem := (forall₂_and_left _ _).mpr ⟨fun _ h => h, hparts⟩
  apply hmem.imp
  rintro inst part ⟨hinst, hpart⟩
  apply hpart.congr
  rintro index rfl
  exact hf index (hfd index hinst)

def loopingContract : Module where
  types := [⟨none, [.f32]⟩, voidType]
  functionImports := [⟨0, "env", "printsf"⟩]
  functionDefs := [⟨1, [.loop 0, .word .f32Const 0, .word .f32Const 1, .void .f32Add, .call 0,
    .word .br 0, .void .end_, .void .end_]⟩]
  exports := [⟨"apply", .function, 1⟩]
  tableSegments := [[1, 0]]

theorem inject_keeps_references_looping : ∃ m' injected, inject loopingContract = .ok m' ∧
      Instrumented loopingContract m' injected (· + injected.length) := by
  apply inject_keeps_references
  · change _ < _
    decide
  intro fd hfd index hindex
  rw [mem_singleton.mp hfd] at hindex
  have hzero : index = 0 := by simpa using hindex
  rw [hzero]
  decide

end DimensionChain.Wasm
