import DimensionChain.Abi.AbiSerializer

/-!
# What an accepted ABI guarantees

The typedefs of an accepted ABI do not run in a circle, so `resolveType` ends at a name that is
no typedef. A typedef has neither the name of a built-in type nor that of a struct, and every
base is a struct.
-/

namespace DimensionChain.AbiSerializer
open List FlatMap

variable {A A' : AbiSerializer} {type : TypeName} {st : StructDef}

section Chains

lemma length_le_typedefs {names : List TypeName} (hnodup : names.Nodup)
    (hkeys : ∀ k ∈ names, (A.typedefs.find? k).isSome) : names.length ≤ A.typedefs.size := by
  have hsub : names ⊆ A.typedefs.entries.map Prod.fst := by
    intro k hk
    obtain ⟨t, ht⟩ := Option.isSome_iff_exists.mp (hkeys k hk)
    exact mem_map_of_mem (find?_eq_some.mp ht)
  have hle := (subperm_of_subset hnodup hsub).length_le
  rw [length_map] at hle
  exact hle

variable {t : TypeName}

/-- `seen` is the chain up to `t`: every name before `t` is a typedef. The rounds of the check
and those of the resolution both outlast the chain. -/
lemma find?_resolveLoop (before : List TypeName) {rounds n : Nat}
    (hcheck : A.checkTypedef rounds (before ++ [t]) t = .ok ())
    (hnodup : (before ++ [t]).Nodup) (hkeys : ∀ k ∈ before, (A.typedefs.find? k).isSome)
    (hrounds : A.typedefs.size + 2 ≤ rounds + before.length)
    (hn : A.typedefs.size + 1 ≤ n + before.length) :
    A.typedefs.find? (A.resolveLoop type n t) = none := by
  induction n generalizing t before rounds with
  | zero =>
    have hle := length_le_typedefs (nodup_append.mp hnodup).1 hkeys
    omega
  | succ n ih =>
    unfold resolveLoop
    cases hfind : A.typedefs.find? t with
    | none => exact hfind
    | some target =>
      have hall : ∀ k ∈ before ++ [t], (A.typedefs.find? k).isSome := by
        intro k hk
        rcases mem_append.mp hk with hk | hk
        · exact hkeys k hk
        · rw [mem_singleton.mp hk, hfind]
          rfl
      have hle := length_le_typedefs hnodup hall
      rw [length_append, length_singleton] at hle
      obtain ⟨rounds, rfl⟩ : ∃ r, rounds = r + 1 := ⟨rounds - 1, by omega⟩
      unfold checkTypedef at hcheck
      rw [hfind] at hcheck
      obtain ⟨_, hseen, hcheck⟩ := bind_ok_iff.mp hcheck
      rw [eosAssert_ok_iff] at hseen
      apply ih (before ++ [t]) hcheck
      · rw [nodup_append]
        refine ⟨hnodup, nodup_singleton _, ?_⟩
        intro a ha b hb hab
        rw [mem_singleton.mp hb] at hab
        exact hseen (hab ▸ ha)
      · exact hall
      · rw [length_append, length_singleton]
        omega
      · rw [length_append, length_singleton]
        omega

lemma find?_resolveType (hA : A.validate = .ok ()) (type : TypeName) :
    A.typedefs.find? (A.resolveType type) = none := by
  obtain ⟨_, hcheck, -⟩ := bind_ok_iff.mp hA
  unfold resolveType
  cases hfind : A.typedefs.find? type with
  | none => exact hfind
  | some t =>
    have hcheck := except_forM_ok_iff.mp hcheck (type, t) (find?_eq_some.mp hfind)
    have hne : type ≠ t := by
      rintro rfl
      unfold checkTypedef at hcheck
      rw [hfind] at hcheck
      obtain ⟨_, hseen, -⟩ := bind_ok_iff.mp hcheck
      rw [eosAssert_ok_iff] at hseen
      exact hseen (by simp)
    apply find?_resolveLoop [type] hcheck
    · simp [hne]
    · intro k hk
      rw [mem_singleton.mp hk, hfind]
      rfl
    · rw [length_singleton]
    · rw [length_singleton]

lemma resolveType_of_none (h : A.typedefs.find? type = none) : A.resolveType type = type := by
  unfold resolveType
  rw [h]

lemma resolveType_resolveType (hA : A.validate = .ok ()) (type : TypeName) :
    A.resolveType (A.resolveType type) = A.resolveType type :=
  resolveType_of_none (find?_resolveType hA type)

lemma resolveType_of_some (h : A.typedefs.find? type = some t)
    (ht : A.typedefs.find? t = none) : A.resolveType type = t := by
  unfold resolveType
  rw [h]
  cases hsize : A.typedefs.size with
  | zero =>
    have hmem := find?_eq_some.mp h
    rw [eq_nil_of_length_eq_zero hsize] at hmem
    cases hmem
  | succ n =>
    dsimp only
    unfold resolveLoop
    rw [ht]

end Chains

lemma find?_base (hA : A.validate = .ok ()) {name : TypeName}
    (hst : A.structs.find? name = some st) (hbase : st.base ≠ "") :
    ∃ base, A.structs.find? (A.resolveType st.base) = some base := by
  simp only [validate, bind_ok_iff] at hA
  obtain ⟨_, -, _, -, _, hstructs, -⟩ := hA
  have hcheck := except_forM_ok_iff.mp hstructs (name, st) (find?_eq_some.mp hst)
  obtain ⟨_, hbases, -⟩ := bind_ok_iff.mp hcheck
  unfold checkBases at hbases
  rw [if_neg hbase] at hbases
  obtain ⟨base, hget, -⟩ := bind_ok_iff.mp hbases
  unfold getStruct at hget
  cases hfind : A.structs.find? (A.resolveType st.base) with
  | none =>
    rw [hfind] at hget
    cases hget
  | some base => exact ⟨base, rfl⟩

def NewNames (A : AbiSerializer) : Prop :=
  ∀ k t, A.typedefs.find? k = some t → A.builtIn? k = none ∧
    (fundamentalType (fundamentalType k) = fundamentalType k →
      A.structs.find? (fundamentalType k) = none)

lemma NewNames.set (hA : A.NewNames) {k t : TypeName} {scopes : Nat}
    (h : A.isType scopes k = .ok false) : NewNames { A with typedefs := A.typedefs.set k t } := by
  apply forall_set hA
  cases scopes with
  | zero => cases h
  | succ scopes =>
    unfold isType at h
    by_cases hbuilt : (A.builtIns.types (fundamentalType k)).isSome = true
    · rw [if_pos hbuilt] at h
      cases h
    rw [if_neg hbuilt] at h
    refine ⟨by simpa [builtIn?] using hbuilt, fun hplain => ?_⟩
    cases hfind : A.typedefs.find? (fundamentalType k) with
    | some target =>
      have hstruct := (hA _ _ hfind).2
      rw [hplain] at hstruct
      exact hstruct hplain
    | none =>
      rw [hfind] at h
      simp only [Except.ok.injEq, Bool.or_eq_false_iff] at h
      simpa using h.1

lemma addTypes_ok {tds : List TypeDef} (h : addTypes tds A = .ok A') :
    A' = { A with typedefs := A.typedefs.setAll (tds.map fun td => (td.newTypeName, td.type)) } ∧
      (A.NewNames → A'.NewNames) := by
  induction tds generalizing A with
  | nil =>
    cases h
    exact ⟨rfl, id⟩
  | cons td tds ih =>
    simp only [addTypes, bind_ok_iff] at h
    obtain ⟨_, -, _, -, existing, hexisting, _, hnew, h⟩ := h
    rw [eosAssert_ok_iff] at hnew
    subst hnew
    obtain ⟨heq, hkeeps⟩ := ih h
    exact ⟨heq, fun hA => hkeeps (hA.set hexisting)⟩

variable {builtIns : BuiltIns} {abi : AbiDef}

structure Accepted (builtIns : BuiltIns) (abi : AbiDef) (A : AbiSerializer) : Prop where
  builtIns_eq : A.builtIns = builtIns
  typedefs_eq : A.typedefs = FlatMap.empty.setAll (abi.types.map fun td => (td.newTypeName, td.type))
  typedef : ∀ td ∈ abi.types, A.typedefs.find? td.newTypeName = some td.type
  struct : ∀ st ∈ abi.structs, A.structs.find? st.name = some st
  variants_eq : A.variants = FlatMap.empty.setAll (abi.variants.map fun v => (v.name, v))
  newNames : A.NewNames
  valid : A.validate = .ok ()

lemma setAbi_ok (h : setAbi builtIns abi = .ok A) : Accepted builtIns abi A := by
  obtain ⟨_, h⟩ := ok_after h
  obtain ⟨A₁, hadd, h⟩ := bind_ok_iff.mp h
  obtain ⟨rfl, hnames⟩ := addTypes_ok hadd
  simp only [bind_ok_iff] at h
  obtain ⟨_, htypes, _, hstructs, _, -, _, -, _, -, _, -, _, hvalid, h⟩ := h
  cases h
  rw [eosAssert_ok_iff] at htypes hstructs
  have hfresh : NewNames
      { builtIns, structs := empty.setAll (abi.structs.map fun st => (st.name, st)) } := by
    intro k t hk
    cases hk
  refine ⟨rfl, rfl, ?_, ?_, rfl, hnames hfresh, hvalid⟩
  · intro td htd
    exact find?_setAll_empty (by rw [length_map]; exact htypes)
      (td.newTypeName, td.type) (mem_map_of_mem htd)
  · intro st hst
    exact find?_setAll_empty (by rw [length_map]; exact hstructs)
      (st.name, st) (mem_map_of_mem hst)

variable (h : Accepted builtIns abi A)
include h

lemma Accepted.resolve_builtIn {b : BuiltIn}
    (hb : A.builtIn? type = some b) : A.resolveType type = type := by
  apply resolveType_of_none
  by_contra hne
  obtain ⟨t, ht⟩ := Option.ne_none_iff_exists'.mp hne
  have hnone := (h.newNames type t ht).1
  rw [hb] at hnone
  cases hnone

lemma Accepted.resolve_new (type : TypeName)
    (hnew : ∀ td ∈ abi.types, td.newTypeName ≠ type) : A.resolveType type = type := by
  apply resolveType_of_none
  rw [h.typedefs_eq, find?_setAll_eq_none]
  refine ⟨rfl, ?_⟩
  intro e he
  obtain ⟨td, htd, rfl⟩ := mem_map.mp he
  exact hnew td htd

lemma Accepted.resolve_struct (type : TypeName)
    (hst : A.structs.find? (fundamentalType type) = some st)
    (hplain : fundamentalType (fundamentalType type) = fundamentalType type) :
    A.resolveType type = type := by
  apply resolveType_of_none
  by_contra hne
  obtain ⟨t, ht⟩ := Option.ne_none_iff_exists'.mp hne
  have hnone := (h.newNames type t ht).2 hplain
  rw [hst] at hnone
  cases hnone

end DimensionChain.AbiSerializer
