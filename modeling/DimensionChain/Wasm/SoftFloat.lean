import DimensionChain.Wasm.References

/-!
# Floating-point instructions of instrumented code

Which instructions the first pass replaces is decided by the aliases of `pre_op_injectors`. For the
conversions of integers these are declared without the suffix that the decoder looks for, so the
conversions stay; all the other floating-point instructions are gone.
-/

namespace DimensionChain.Wasm

open List

open Injector (voidType depthCheck depthRestore)

/-- The only instruction left for a floating-point one is a call of a registered routine of its
type. -/
def Softened (m' : Module) (inst : Instr) (part : List Instr) : Prop :=
  ∀ op type, inst = .void op → floatSignature op = some type →
    ∃ r i, part = [.call r] ∧ m'.functionImports[r]? = some i ∧
      i.moduleName = injectedModuleName ∧ m'.types[i.type]? = some type ∧
      (i.exportName, type) ∈ softfloatApi

def SoftenedDef (m' : Module) (fd fd' : FunctionDef) : Prop :=
  ∃ checktime parts, fd'.code = Instr.call checktime :: List.flatten parts ∧
    List.Forall₂ (Softened m') fd.code parts

lemma replacement_signature {op : VoidOp} {n : String × FunctionType}
    (h : replacement op = some n) : floatSignature op = some n.2 := by
  unfold replacement at h
  split at h
  · next type name hconvert htype hname =>
    cases h
    exact htype
  · cases h

lemma floatSignature_ne_none {op : VoidOp} :
    convertsInteger op = true → floatSignature op ≠ none := by
  cases op <;> decide

lemma exists_related_of_mem {α β : Type} {R : α → β → Prop} {as : List α} {bs : List β}
    (h : List.Forall₂ R as bs) {b : β} (hb : b ∈ bs) : ∃ a ∈ as, R a b := by
  induction h with
  | nil => cases hb
  | @cons a b' as bs hab _ ih =>
    rcases mem_cons.mp hb with rfl | hb
    · exact ⟨a, mem_cons_self, hab⟩
    · obtain ⟨a', ha', hr⟩ := ih hb
      exact ⟨a', mem_cons_of_mem _ ha', hr⟩

section Code
variable {m m' : Module} {injected : List FunctionImport} {f : Nat → Nat} {inst : Instr}
  {part : List Instr} {op : VoidOp}

lemma floatSignature_of_mem_guarded {g a c : Nat} (hinst : inst ≠ .void op)
    (hop : Instr.void op ∈ depthCheck g a ++ [inst] ++ depthRestore g c) :
    floatSignature op = none := by
  have hcases : op = .i32Eqz ∨ op = .else_ ∨ op = .i32Add ∨ op = .end_ := by
    simp only [depthCheck, depthRestore, cons_append, nil_append, mem_cons,
      not_mem_nil, reduceCtorEq, Instr.void.injEq, false_or, or_false] at hop
    grind
  rcases hcases with rfl | rfl | rfl | rfl <;> rfl

lemma Rewrites.floatSignature_eq_none (h : Rewrites m m' injected f inst part)
    (hop : Instr.void op ∈ part) :
    floatSignature op = none ∨ (inst = .void op ∧ convertsInteger op = true) := by
  cases h with
  | call _ _ _ | callIndirect _ _ _ => exact .inl (floatSignature_of_mem_guarded (by simp) hop)
  | loop _ => simp at hop
  | float _ _ => simp at hop
  | kept _ _ hkept =>
    have hinst : inst = .void op := (mem_singleton.mp hop).symm
    rcases replacement_eq_none_iff.mp (hkept op hinst) with hnone | hconvert
    · exact .inl hnone
    · exact .inr ⟨hinst, hconvert⟩

lemma Rewrites.softened (h : Rewrites m m' injected f inst part)
    (himports : m'.functionImports = injected ++ m.functionImports)
    (hinst : ∀ op, inst = .void op → convertsInteger op = false) : Softened m' inst part := by
  intro op type hop htype
  cases h with
  | call _ _ _ => cases hop
  | callIndirect _ _ _ => cases hop
  | loop _ => cases hop
  | @float _ n r hn hr =>
    cases hop
    obtain ⟨i, hi, hstands⟩ := hr
    have hsig : n.2 = type := by
      have heq := replacement_signature hn
      rw [htype] at heq
      exact (Option.some.inj heq).symm
    refine ⟨r, i, rfl, ?_, hstands.moduleName, ?_, ?_⟩
    · rw [himports, List.getElem?_append_left (List.getElem?_eq_some_iff.mp hi).1]
      exact hi
    · rw [hstands.type, hsig]
    · rw [hstands.exportName, ← hsig]
      exact replacement_mem hn
  | kept _ _ hkept =>
    rcases replacement_eq_none_iff.mp (hkept op hop) with hnone | hconvert
    · rw [hnone] at htype
      cases htype
    · rw [hinst op hop] at hconvert
      cases hconvert

lemma Rewrites.eq_of_convertsInteger (h : Rewrites m m' injected f (.void op) part)
    (hop : convertsInteger op = true) : part = [.void op] := by
  cases h with
  | float hn _ =>
    rw [replacement_eq_none_iff.mpr (.inr hop)] at hn
    cases hn
  | kept _ _ _ => rfl

end Code

/-- The floating-point instructions have all become calls of the registered routines for them if
and only if the module has no conversion of an integer. -/
theorem inject_leaves_no_float {m : Module} (hm : m.Indexable) : ∃ m', inject m = .ok m' ∧
    ((∀ fd ∈ m'.functionDefs, ∀ op, Instr.void op ∈ fd.code → floatSignature op = none) ∧
        List.Forall₂ (SoftenedDef m') m.functionDefs m'.functionDefs ↔
      ∀ fd ∈ m.functionDefs, ∀ op, Instr.void op ∈ fd.code → convertsInteger op = false) := by
  obtain ⟨m', injected, f, hinject, hm', -⟩ := inject_ok hm
  refine ⟨m', hinject, ?_, fun hconvert => ?_⟩
  · rintro ⟨hnone, -⟩ fd hfd op hop
    by_contra hconverts
    rw [Bool.not_eq_false] at hconverts
    obtain ⟨fd', hfd', -, checktime, parts, -, hcode, hparts⟩ :=
      exists_related_of_mem hm'.defs.flip hfd
    obtain ⟨part, hpart, hrewrites⟩ := exists_related_of_mem hparts.flip hop
    rw [hrewrites.eq_of_convertsInteger hconverts] at hpart
    have hleft : Instr.void op ∈ fd'.code := by
      rw [hcode]
      exact mem_cons_of_mem _ (mem_flatten.mpr ⟨_, hpart, mem_singleton_self _⟩)
    exact floatSignature_ne_none hconverts (hnone fd' hfd' op hleft)
  have hdefs := (forall₂_and_left _ _).mpr ⟨hconvert, hm'.defs⟩
  refine ⟨?_, ?_⟩
  · intro fd' hfd' op hop
    obtain ⟨fd, -, hconv, -, checktime, parts, -, hcode, hparts⟩ :=
      exists_related_of_mem hdefs hfd'
    rw [hcode, mem_cons] at hop
    rcases hop with hop | hop
    · cases hop
    obtain ⟨part, hpart, hmem⟩ := mem_flatten.mp hop
    obtain ⟨inst, hinst, hrewrites⟩ := exists_related_of_mem hparts hpart
    rcases hrewrites.floatSignature_eq_none hmem with hnone | ⟨rfl, hconverts⟩
    · exact hnone
    · rw [hconv op hinst] at hconverts
      cases hconverts
  apply hdefs.imp
  rintro fd fd' ⟨hconv, -, checktime, parts, -, hcode, hparts⟩
  refine ⟨checktime, parts, hcode, ?_⟩
  have hmem := (forall₂_and_left _ _).mpr ⟨fun _ h => h, hparts⟩
  apply hmem.imp
  rintro inst part ⟨hinst, hpart⟩
  apply hpart.softened hm'.imports
  rintro op rfl
  exact hconv op hinst

def roundingContract : Module where
  types := [⟨some .i64, [.f64]⟩]
  functionDefs := [⟨0, [.word .getLocal 0, .void .f64Sqrt, .void .i64TruncSF64, .void .end_]⟩]

theorem inject_leaves_no_float_rounding : ∃ m', inject roundingContract = .ok m' ∧
      (∀ fd ∈ m'.functionDefs, ∀ op, Instr.void op ∈ fd.code → floatSignature op = none) ∧
      List.Forall₂ (SoftenedDef m') roundingContract.functionDefs m'.functionDefs := by
  have hm : roundingContract.Indexable := by
    change _ < _
    decide
  obtain ⟨m', hinject, hiff⟩ := inject_leaves_no_float hm
  refine ⟨m', hinject, hiff.mpr ?_⟩
  intro fd hfd op hop
  rw [mem_singleton.mp hfd] at hop
  have hcases : op = .f64Sqrt ∨ op = .i64TruncSF64 ∨ op = .end_ := by simpa using hop
  rcases hcases with rfl | rfl | rfl <;> rfl

def convertingContract : Module where
  types := [⟨some .f32, [.i32]⟩]
  functionDefs := [⟨0, [.word .getLocal 0, .void .f32ConvertSI32, .void .end_]⟩]
  exports := [⟨"apply", .function, 0⟩]

theorem conversion_survives : ∃ m', inject convertingContract = .ok m' ∧
    ∃ fd ∈ m'.functionDefs, Instr.void .f32ConvertSI32 ∈ fd.code := by
  have h : okAnd (inject convertingContract) (fun m' => decide
      (∃ fd ∈ m'.functionDefs, Instr.void .f32ConvertSI32 ∈ fd.code)) = true := by
    decide +kernel
  obtain ⟨m', hm', hfd⟩ := exists_ok_of_okAnd h
  exact ⟨m', hm', of_decide_eq_true hfd⟩

end DimensionChain.Wasm
