import DimensionChain.Wasm.Checktime

/-!
# The call depth of instrumented code

The counter that is put into a module holds how many further calls may be opened. It is not exact
within the instructions that change it, which is why these are followed one by one.
-/

namespace DimensionChain.Wasm

open List Program

open Injector (depthCheck depthRestore)

/-- A module without calls has no counter. -/
def counter (d : Nat) (g : List Nat) : Nat := (g[d]?).getD maximumCallDepth

/-- A call is open from its execution until the function that is called has returned. -/
def Configuration.openCalls (s : Configuration) : Nat :=
  match s.frames with
  | ⟨(_, some j) :: _, _, _⟩ :: fs => if j.isCall then fs.length + 1 else fs.length
  | frames => frames.tail.length

def Module.Owns (m : Module) (i : Instr) : Prop :=
  ∀ x, i = .word .getGlobal x ∨ i = .word .setGlobal x → x < m.depthIndex

def Module.Fresh (m : Module) (g : List Nat) : Prop :=
  g.length = m.globalImports.length + m.globalDefs.length ∧
  ∀ k type v, m.globalDefs[k]? = some ⟨type, .i32Const v⟩ →
    g[m.globalImports.length + k]? = some (v % 2 ^ 32).toNat

/-- Every execution comes to such a state. -/
inductive Program.Comes (P : Program) (Q : Configuration → Prop) : Configuration → Prop where
  | now {s : Configuration} : Q s → Comes P Q s
  | next {s : Configuration} : (∃ e t, P.Step s e t) → (∀ e t, P.Step s e t → Comes P Q t) →
      Comes P Q s

def Program.Asserts (P : Program) (s : Configuration) : Prop :=
  ∃ a o rest ls st fs, s.frames = ⟨(.call a, o) :: rest, ls, st⟩ :: fs ∧
    P.Imports a "call_depth_assert"

section Ahead
variable {d assert x n : Nat} {i : Instr} {o : Option Instr} {rest r : Code}
  {e : Instr × Option Instr}

lemma skip_cons (h : skip n (e :: rest) = some r) : r = rest ∨ ∃ k, skip k rest = some r := by
  unfold skip at h
  split at h <;> grind

lemma skipThen_cons {other : Bool} (h : skipThen n (e :: rest) = some (other, r)) :
    r = rest ∨ ∃ k, skipThen k rest = some (other, r) := by
  unfold skipThen at h
  split at h <;> grind

variable (h : i.isCall = true)
include h

lemma isCall_cases : ∃ y, i = .word .call y ∨ i = .word .callIndirect y := by
  cases i with
  | word op y => cases op <;> simp_all [Instr.isCall, Instr.op]
  | _ => simp [Instr.isCall, Instr.op] at h

lemma skip_wrapped : skip n (wrapped d assert x (i, o) rest) = skip n rest := by
  obtain ⟨y, rfl | rfl⟩ := isCall_cases h <;> simp [wrapped, depthCheck, depthRestore, skip]

lemma skipThen_wrapped : skipThen n (wrapped d assert x (i, o) rest) = skipThen n rest := by
  obtain ⟨y, rfl | rfl⟩ := isCall_cases h <;> simp [wrapped, depthCheck, depthRestore, skipThen]

omit h

lemma Clear.ahead {P : Program} {own : Instr → Prop} {code : Code} (h : Clear P d own code) :
    ∀ {r}, Ahead code r → Clear P d own r := by
  have hcons : ∀ {e rest r}, Ahead (e :: rest) r → r = e :: rest ∨ Ahead rest r := by
    rintro e rest r (heq | ⟨n, h⟩ | ⟨n, other, h⟩)
    · exact .inl heq
    · exact .inr ((skip_cons h).imp_right .inl)
    · exact .inr ((skipThen_cons h).imp_right fun ⟨k, hk⟩ => .inr ⟨k, other, hk⟩)
  induction h with
  | nil =>
    rintro r (rfl | ⟨n, h⟩ | ⟨n, other, h⟩)
    · exact .nil
    · cases h
    · cases h
  | checktime hx hrest ih =>
    intro r h
    rcases hcons h with rfl | h
    · exact .checktime hx hrest
    · exact ih h
  | call hi hj ha hx hrest ih =>
    rintro r (rfl | ⟨n, h⟩ | ⟨n, other, h⟩)
    · exact .call hi hj ha hx hrest
    · exact ih (.inr (.inl ⟨n, skip_wrapped hi ▸ h⟩))
    · exact ih (.inr (.inr ⟨n, other, skipThen_wrapped hi ▸ h⟩))
  | float hx hrest ih =>
    intro r h
    rcases hcons h with rfl | h
    · exact .float hx hrest
    · exact ih h
  | kept hcall hown hloop hrest ih =>
    intro r h
    rcases hcons h with rfl | h
    · exact .kept hcall hown hloop hrest
    · exact ih h

end Ahead

variable {g : List Nat} {e : Option Nat}

lemma counter_of_get {d c : Nat} (h : g[d]? = some c) : counter d g = c := by
  rw [counter, h, Option.getD_some]

lemma counter_set {d v : Nat} (h : d < g.length) : counter d (g.set d v) = v :=
  counter_of_get (List.getElem?_set_self h)

section Spots
variable (P : Program) (d : Nat) (own : Instr → Prop)

abbrev checkFrom (k a : Nat) (after : Code) : Code :=
  ((depthCheck d a).drop k).map (·, none) ++ after

abbrev restoreFrom (k x : Nat) (rest : Code) : Code :=
  ((depthRestore d x).drop k).map (·, none) ++ rest

def Waiting (code : Code) : Prop :=
  ∃ x rest, code = restoreFrom d 0 x rest ∧ Clear P d own ((.call x, none) :: rest)

def Calling (code : Code) : Prop :=
  ∃ i j rest, code = (i, some j) :: rest ∧ i.isCall = true ∧ j.isCall = true ∧ Waiting P d own rest

/-- Where the execution of the innermost function stands, above `n` open calls. -/
inductive Spot (n : Nat) (g : List Nat) : Frame → Prop where
  | clear {f : Frame} : Clear P d own f.code → counter d g + n = maximumCallDepth → Spot n g f
  | loaded {c a : Nat} {after : Code} {ls : List (Option Code)} {st : List Nat} :
      g[d]? = some c → c + n = maximumCallDepth → P.Imports a "call_depth_assert" →
      Calling P d own after → Spot n g ⟨checkFrom d 1 a after, ls, c :: st⟩
  | tested {c a : Nat} {after : Code} {ls : List (Option Code)} {st : List Nat} :
      g[d]? = some c → c + n = maximumCallDepth → P.Imports a "call_depth_assert" →
      Calling P d own after →
      Spot n g ⟨checkFrom d 2 a after, ls, (if c = 0 then 1 else 0) :: st⟩
  | asserting {a : Nat} {rest : Code} {ls : List (Option Code)} {st : List Nat} :
      n = maximumCallDepth → P.Imports a "call_depth_assert" →
      Spot n g ⟨(.call a, none) :: rest, ls, st⟩
  | spare {c : Nat} {after : Code} {l : Option Code} {ls : List (Option Code)} {st : List Nat} :
      g[d]? = some c → c + n = maximumCallDepth → 0 < c → Calling P d own after →
      Spot n g ⟨checkFrom d 5 0 after, l :: ls, st⟩
  | taking {c : Nat} {after : Code} {l : Option Code} {ls : List (Option Code)} {st : List Nat} :
      g[d]? = some c → c + n = maximumCallDepth → 0 < c → Calling P d own after →
      Spot n g ⟨checkFrom d 6 0 after, l :: ls, 4294967295 :: st⟩
  | takingFrom {c : Nat} {after : Code} {l : Option Code} {ls : List (Option Code)}
      {st : List Nat} : g[d]? = some c → c + n = maximumCallDepth → 0 < c →
      Calling P d own after →
      Spot n g ⟨checkFrom d 7 0 after, l :: ls, c :: 4294967295 :: st⟩
  | taken {c : Nat} {after : Code} {l : Option Code} {ls : List (Option Code)} {st : List Nat} :
      c + 1 + n = maximumCallDepth → Calling P d own after →
      Spot n g ⟨checkFrom d 8 0 after, l :: ls, c :: st⟩
  | stored {after : Code} {l : Option Code} {ls : List (Option Code)} {st : List Nat} :
      counter d g + n + 1 = maximumCallDepth → Calling P d own after →
      Spot n g ⟨checkFrom d 9 0 after, l :: ls, st⟩
  | calling {f : Frame} :
      counter d g + n + 1 = maximumCallDepth → Calling P d own f.code → Spot n g f
  | waiting {f : Frame} :
      counter d g + n + 1 = maximumCallDepth → Waiting P d own f.code → Spot n g f
  | reloaded {c x : Nat} {rest : Code} {ls : List (Option Code)} {st : List Nat} :
      c + n + 1 = maximumCallDepth → Clear P d own ((.call x, none) :: rest) →
      Spot n g ⟨restoreFrom d 1 x rest, ls, c :: st⟩
  | returning {c x : Nat} {rest : Code} {ls : List (Option Code)} {st : List Nat} :
      c + n + 1 = maximumCallDepth → Clear P d own ((.call x, none) :: rest) →
      Spot n g ⟨restoreFrom d 2 x rest, ls, 1 :: c :: st⟩
  | returned {c x : Nat} {rest : Code} {ls : List (Option Code)} {st : List Nat} :
      c + n = maximumCallDepth → Clear P d own ((.call x, none) :: rest) →
      Spot n g ⟨restoreFrom d 3 x rest, ls, c :: st⟩

variable {P d own} {n : Nat} {g' st : List Nat} {i : Instr} {o : Option Instr} {rest : Code}
  {ls : List (Option Code)} {f : Frame}

lemma Clear.runs (h : Clear P d own ((i, o) :: rest)) (hown : ∀ x, own (.word .setGlobal x) → x < d)
    (hlabels : ∀ body, some body ∈ ls → Clear P d own body)
    (hn : counter d g + n = maximumCallDepth) (hruns : i.Runs rest ls st g f g') :
    Spot P d own n g' f ∧ ∀ body, some body ∈ f.labels → Clear P d own body := by
  cases h with
  | checktime | float => cases hruns
  | @call j k a x after hj hk ha hx hafter =>
    obtain ⟨v, hv, rfl, rfl⟩ := hruns
    rw [counter_of_get hv] at hn
    have hcalling : Calling P d own ((j, some k) :: restoreFrom d 0 x after) :=
      ⟨j, k, _, rfl, hj, hk, x, after, rfl, .checktime hx hafter⟩
    exact ⟨.loaded hv hn ha hcalling, hlabels⟩
  | kept hcall hi hloop hrest =>
    have hmoves := hruns.moves
    constructor
    · apply Spot.clear
      · rcases hmoves.code with hahead | hlabel
        · exact hrest.ahead hahead
        · exact hlabels _ hlabel
      · rcases hmoves.globals with rfl | ⟨x, v, rfl, rfl⟩
        · exact hn
        · rwa [counter, List.getElem?_set_ne (Nat.ne_of_lt (hown x hi))]
    intro body hbody
    rcases hmoves.labels body hbody with hold | ⟨rfl, -⟩
    · exact hlabels body hold
    · exact hrest

variable (h : Spot P d own n g ⟨(i, o) :: rest, ls, st⟩)
include h

lemma Spot.runs (hown : ∀ x, own (.word .setGlobal x) → x < d)
    (hlabels : ∀ body, some body ∈ ls → Clear P d own body) (hruns : i.Runs rest ls st g f g') :
    Spot P d own n g' f ∧ ∀ body, some body ∈ f.labels → Clear P d own body := by
  cases h with
  | clear hclear hn => exact hclear.runs hown hlabels hn hruns
  | loaded hc hn ha hcalling =>
    obtain ⟨b, st', heq, rfl, rfl⟩ := hruns
    cases heq
    exact ⟨.tested hc hn ha hcalling, hlabels⟩
  | tested hc hn ha hcalling =>
    obtain ⟨b, st', heq, rfl, hb⟩ := hruns
    cases heq
    rcases hb with ⟨hb, rfl⟩ | ⟨hb, other, r, hskip, rfl⟩
    · refine ⟨.asserting ?_ ha, by simpa using hlabels⟩
      split at hb
      · omega
      · contradiction
    cases hskip
    refine ⟨.spare (l := none) hc hn ?_ hcalling, by simpa using hlabels⟩
    split at hb
    · cases hb
    · omega
  | asserting => cases hruns
  | spare hc hn hpos hcalling =>
    obtain ⟨rfl, rfl⟩ := hruns
    exact ⟨.taking hc hn hpos hcalling, hlabels⟩
  | taking hc hn hpos hcalling =>
    obtain ⟨v, hv, rfl, rfl⟩ := hruns
    cases hc.symm.trans hv
    exact ⟨.takingFrom hc hn hpos hcalling, hlabels⟩
  | takingFrom hc hn hpos hcalling =>
    obtain ⟨a, b, st', heq, rfl, rfl⟩ := hruns
    cases heq
    refine ⟨.taken ?_ hcalling, hlabels⟩
    unfold maximumCallDepth at hn ⊢
    omega
  | taken hn hcalling =>
    obtain ⟨v, st', heq, hlt, rfl, rfl⟩ := hruns
    cases heq
    refine ⟨.stored ?_ hcalling, hlabels⟩
    rw [counter_set hlt]
    omega
  | stored hn hcalling =>
    obtain ⟨l, ls', heq, rfl, rfl⟩ := hruns
    cases heq
    exact ⟨.calling hn hcalling, fun body hbody => hlabels body (mem_cons_of_mem _ hbody)⟩
  | calling hn hcalling =>
    obtain ⟨j, k, after, hcode, hj, -⟩ := hcalling
    cases hcode
    obtain ⟨y, rfl | rfl⟩ := isCall_cases hj <;> cases hruns
  | waiting hn hwaiting =>
    obtain ⟨x, after, hcode, hclear⟩ := hwaiting
    cases hcode
    obtain ⟨v, hv, rfl, rfl⟩ := hruns
    rw [counter_of_get hv] at hn
    exact ⟨.reloaded hn hclear, hlabels⟩
  | reloaded hn hclear =>
    obtain ⟨rfl, rfl⟩ := hruns
    exact ⟨.returning hn hclear, hlabels⟩
  | returning hn hclear =>
    obtain ⟨a, b, st', heq, rfl, rfl⟩ := hruns
    cases heq
    refine ⟨.returned ?_ hclear, hlabels⟩
    unfold maximumCallDepth at hn ⊢
    omega
  | returned hn hclear =>
    obtain ⟨v, st', heq, hlt, rfl, rfl⟩ := hruns
    cases heq
    refine ⟨.clear hclear ?_, hlabels⟩
    rwa [counter_set hlt]

omit h in
lemma Spot.le (h : Spot P d own n g f) : n ≤ maximumCallDepth := by
  cases h <;> omega

lemma Spot.cases : (Clear P d own ((i, o) :: rest) ∧ counter d g + n = maximumCallDepth) ∨
    (∃ a, i = .call a ∧ o = none ∧ P.Imports a "call_depth_assert") ∨
    (Calling P d own ((i, o) :: rest) ∧ counter d g + n + 1 = maximumCallDepth) ∨
    (o = none ∧ i.isCall = false ∧ ¬i.Returns ls ∧
      (n = maximumCallDepth → i ≠ .word .getGlobal d)) := by
  cases h with
  | clear hclear hn => exact .inl ⟨hclear, hn⟩
  | asserting _ ha => exact .inr (.inl ⟨_, rfl, rfl, ha⟩)
  | calling hn hcalling => exact .inr (.inr (.inl ⟨hcalling, hn⟩))
  | loaded | tested | taken | stored | reloaded | returning | returned =>
    exact .inr (.inr (.inr ⟨rfl, rfl, nofun, fun _ => nofun⟩))
  | spare | taking | takingFrom => exact .inr (.inr (.inr ⟨rfl, rfl, nofun, by omega⟩))
  | waiting hn hwaiting =>
    obtain ⟨y, after, hcode, -⟩ := hwaiting
    cases hcode
    exact .inr (.inr (.inr ⟨rfl, rfl, nofun, by omega⟩))

lemma Spot.calls {x : Nat} (hcalls : i.Calls x) :
    (Waiting P d own rest ∧ counter d g + n + 1 = maximumCallDepth) ∨
      x < P.imports.length ∧ (P.Imports x "call_depth_assert" ∨
        Clear P d own rest ∧ counter d g + n = maximumCallDepth) := by
  have hcall := isCall_of_calls hcalls
  rcases h.cases with ⟨hclear, hn⟩ | ⟨a, rfl, -, ha⟩ | ⟨hcalling, hn⟩ | ⟨-, hquiet, -⟩
  · cases hclear with
    | checktime hx hrest =>
      cases hcalls
      exact .inr ⟨lt_of_imports hx, .inr ⟨hrest, hn⟩⟩
    | call => cases hcalls
    | float hx hrest =>
      cases hcalls
      exact .inr ⟨hx, .inr ⟨hrest, hn⟩⟩
    | kept hkept =>
      rw [hcall] at hkept
      cases hkept
  · cases hcalls
    exact .inr ⟨lt_of_imports ha, .inl ha⟩
  · obtain ⟨j, k, after, hcode, -, -, hwaiting⟩ := hcalling
    cases hcode
    exact .inl ⟨hwaiting, hn⟩
  · rw [hcall] at hquiet
    cases hquiet

lemma Spot.returns (hreturns : i.Returns ls) : counter d g + n = maximumCallDepth := by
  rcases h.cases with ⟨-, hn⟩ | ⟨a, rfl, -⟩ | ⟨hcalling, -⟩ | ⟨-, -, hquiet, -⟩
  · exact hn
  · cases hreturns
  · obtain ⟨j, k, after, hcode, hj, -⟩ := hcalling
    cases hcode
    obtain ⟨y, rfl | rfl⟩ := isCall_cases hj <;> cases hreturns
  · exact absurd hreturns hquiet

omit h

lemma Spot.exact {j : Instr} (h : Spot P d own n g ⟨(i, some j) :: rest, ls, st⟩) :
    counter d g + (if j.isCall then n + 1 else n) = maximumCallDepth := by
  rcases h.cases with ⟨hclear, hn⟩ | ⟨a, -, hnone, -⟩ | ⟨hcalling, hn⟩ | ⟨hnone, -⟩
  · cases hclear with
    | float => exact hn
    | kept hkept => rwa [hkept]
  · cases hnone
  · obtain ⟨i', j', after, hcode, -, hj, -⟩ := hcalling
    cases hcode
    rwa [hj]
  · cases hnone

variable (P d own) in
structure Counts (s : Configuration) : Prop where
  labels : ∀ f ∈ s.frames, ∀ body, some body ∈ f.labels → Clear P d own body
  callers : ∀ f ∈ s.frames.tail, Waiting P d own f.code
  spot : ∀ f fs, s.frames = f :: fs → Spot P d own fs.length s.globals f

variable {s : Configuration}

lemma Counts.step {t : Configuration} (h : Counts P d own s)
    (hown : ∀ x, own (.word .setGlobal x) → x < d)
    (hbodies : ∀ body ∈ P.bodies, Clear P d own body) (hstep : P.Step s e t) :
    Counts P d own t := by
  cases hstep with
  | runs hruns =>
    obtain ⟨hf, hfs⟩ := forall_mem_cons.mp h.labels
    obtain ⟨hspot, hlabels⟩ := (h.spot _ _ rfl).runs hown hf hruns
    refine ⟨forall_mem_cons.mpr ⟨hlabels, hfs⟩, h.callers, ?_⟩
    rintro _ _ ⟨⟩
    exact hspot
  | host hcalls _ hassert =>
    obtain ⟨hf, hfs⟩ := forall_mem_cons.mp h.labels
    refine ⟨forall_mem_cons.mpr ⟨hf, hfs⟩, h.callers, ?_⟩
    rintro _ _ ⟨⟩
    rcases (h.spot _ _ rfl).calls hcalls with ⟨hwaiting, hn⟩ | ⟨-, ha | ⟨hclear, hn⟩⟩
    · exact .waiting hn hwaiting
    · exact absurd ha hassert
    · exact .clear hclear hn
  | enter hcalls hle hbody =>
    rcases (h.spot _ _ rfl).calls hcalls with ⟨hwaiting, hn⟩ | ⟨hlt, -⟩
    · obtain ⟨hf, hfs⟩ := forall_mem_cons.mp h.labels
      refine ⟨forall_mem_cons.mpr ⟨nofun, forall_mem_cons.mpr ⟨hf, hfs⟩⟩,
        forall_mem_cons.mpr ⟨hwaiting, h.callers⟩, ?_⟩
      rintro _ _ ⟨⟩
      exact .clear (hbodies _ (mem_of_getElem? hbody)) hn
    · exact absurd hlt (Nat.not_lt.mpr hle)
  | resume hreturns =>
    obtain ⟨-, hf, hfs⟩ := forall_mem_cons.mp h.labels |>.imp_right forall_mem_cons.mp
    obtain ⟨hwaiting, hcallers⟩ := forall_mem_cons.mp h.callers
    refine ⟨forall_mem_cons.mpr ⟨hf, hfs⟩, hcallers, ?_⟩
    rintro _ _ ⟨⟩
    exact .waiting ((h.spot _ _ rfl).returns hreturns) hwaiting
  | finish => exact ⟨nofun, nofun, nofun⟩

lemma Counts.openCalls_le (h : Counts P d own s) : s.openCalls ≤ maximumCallDepth := by
  unfold Configuration.openCalls
  split
  · rename_i hframes
    exact Nat.le.intro ((Nat.add_comm _ _).trans (h.spot _ _ hframes).exact)
  cases hs : s.frames with
  | nil => exact Nat.zero_le _
  | cons f fs => exact (h.spot f fs hs).le

lemma Spot.comes {fs : List Frame} {a : Nat} {after : Code}
    (h : Spot P d own n g ⟨checkFrom d 0 a after, ls, st⟩) (hn : n = maximumCallDepth) :
    P.Comes P.Asserts ⟨⟨checkFrom d 0 a after, ls, st⟩ :: fs, g⟩ := by
  rcases h.cases with ⟨hclear, hcount⟩ | ⟨b, hb, -⟩ | ⟨-, hlt⟩ | ⟨-, -, -, hne⟩
  · have hzero : g[d]? = some 0 := by
      unfold counter at hcount
      cases hd : g[d]? with
      | none => simp [hd, hn, maximumCallDepth] at hcount
      | some c =>
        rw [hd, Option.getD_some] at hcount
        rw [show c = 0 by omega]
    have ha : P.Imports a "call_depth_assert" := by
      cases hclear with
      | call _ _ ha => exact ha
    refine .next ⟨_, _, .runs ⟨0, hzero, rfl, rfl⟩⟩ fun e t hstep => ?_
    obtain ⟨_, _, ⟨v, hv, rfl, rfl⟩, rfl⟩ :=
      step_runs (i := .word .getGlobal d) rfl (fun h => h) hstep
    cases hzero.symm.trans hv
    refine .next ⟨_, _, .runs ⟨0, st, rfl, rfl, rfl⟩⟩ fun e t hstep => ?_
    obtain ⟨_, _, ⟨b, st', heq, rfl, rfl⟩, rfl⟩ :=
      step_runs (i := .void .i32Eqz) rfl (fun h => h) hstep
    cases heq
    refine .next ⟨_, _, .runs ⟨1, st, rfl, rfl, .inl ⟨by decide, rfl⟩⟩⟩ fun e t hstep => ?_
    obtain ⟨_, _, ⟨b, st', heq, rfl, hb⟩, rfl⟩ :=
      step_runs (i := .block .if_ 0x40) rfl (fun h => h) hstep
    cases heq
    rcases hb with ⟨-, rfl⟩ | ⟨hb, -⟩
    · exact .now ⟨a, none, _, _, _, _, rfl, ha⟩
    · cases hb
  · cases hb
  · omega
  · exact absurd rfl (hne hn)

end Spots

lemma not_step_of_asserts {P : Program} {s t : Configuration}
    (h : P.Asserts s) : ¬P.Step s e t := by
  obtain ⟨a, o, rest, ls, st, fs, hframes, ha⟩ := h
  intro hstep
  cases hstep with
  | runs hruns =>
    cases hframes
    cases hruns
  | host hcalls _ hassert =>
    cases hframes
    cases hcalls
    exact hassert ha
  | enter hcalls hle =>
    cases hframes
    cases hcalls
    exact absurd (lt_of_imports ha) (Nat.not_lt.mpr hle)
  | resume hreturns | finish hreturns =>
    cases hframes
    cases hreturns

lemma counter_fresh {m m' : Module} (h : m'.Fresh g) (himports : m'.globalImports = m.globalImports)
    (hdefs : m'.globalDefs = m.globalDefs ∨ Counted m m'.globalDefs) :
    counter m.depthIndex g = maximumCallDepth := by
  obtain ⟨hlength, hvalues⟩ := h
  rw [himports] at hlength hvalues
  rcases hdefs with hsame | hcounted
  · rw [hsame] at hlength
    rw [counter, List.getElem?_eq_none (i := m.depthIndex) (Nat.le_of_eq hlength)]
    rfl
  apply counter_of_get
  apply hvalues m.globalDefs.length ⟨.i32, true⟩ 250
  rw [hcounted, List.getElem?_concat_length]
  rfl

/-- Whenever an instruction of the contract executes, the counter and the open calls make up
`maximum_call_depth`. The check of a call above that depth comes to `call_depth_assert`, where the
execution ends. -/
theorem call_depth_bounded {m : Module} (hm : m.Indexable)
    (hown : ∀ fd ∈ m.functionDefs, ∀ i ∈ fd.code, m.Owns i) :
    ∃ m', inject m = .ok m' ∧ (∃ P : Program, P.Marks m m') ∧ ∀ P : Program, P.Marks m m' →
      ∀ start es s, P.Starts start → m'.Fresh start.globals → Steps P.Step start es s →
        (∀ f fs i j rest, s.frames = f :: fs → f.code = (i, some j) :: rest →
          counter m.depthIndex s.globals + s.openCalls = maximumCallDepth) ∧
        s.openCalls ≤ maximumCallDepth ∧ (∀ f fs a after, s.frames = f :: fs →
          f.code = (depthCheck m.depthIndex a).map (·, none) ++ after →
          fs.length = maximumCallDepth → P.Comes P.Asserts s) ∧
        (P.Asserts s → ∀ e t, ¬P.Step s e t) := by
  obtain ⟨m', injected, f, hinject, hm', -, himports, hdefs⟩ := inject_ok hm
  refine ⟨m', hinject, exists_marks hm', ?_⟩
  intro P hP start es s hstart hfresh hrun
  have hbodies : ∀ body ∈ P.bodies, Clear P m.depthIndex m.Owns body := by
    intro body hbody
    obtain ⟨x, rest, rfl, hx, hclear⟩ := hP.body hown hbody
    exact .checktime hx hclear
  have hcounts : Counts P m.depthIndex m.Owns start := by
    obtain ⟨body, hbody, hframes⟩ := hstart
    constructor
    · rw [hframes]
      exact forall_mem_singleton.mpr nofun
    · rw [hframes]
      exact nofun
    · intro f fs heq
      cases hframes.symm.trans heq
      exact .clear (hbodies body hbody) (counter_fresh hfresh himports hdefs)
  have hs := hrun.invariant (fun h hstep => h.step (fun x hx => hx x (.inr rfl)) hbodies hstep) hcounts
  refine ⟨?_, hs.openCalls_le, ?_, fun h e t => not_step_of_asserts h⟩
  · rintro ⟨code, ls, st⟩ fs i j rest hframes rfl
    unfold Configuration.openCalls
    rw [hframes]
    exact (hs.spot _ _ hframes).exact
  intro f fs a after hframes hcode hfull
  obtain ⟨frames, g⟩ := s
  obtain ⟨code, ls, st⟩ := f
  cases hframes
  cases hcode
  exact (hs.spot _ _ rfl).comes hfull

/-- The function has called itself, and the counter has gone down to 249. -/
theorem call_depth_bounded_nested : inject nestedContract = .ok nestedInjected ∧
    nestedProgram.Marks nestedContract nestedInjected ∧
    ∃ es, Steps nestedProgram.Step ⟨[⟨nestedBody, [], []⟩], [250]⟩ es nestedState ∧
      counter nestedContract.depthIndex nestedState.globals = 249 ∧ nestedState.openCalls = 1 ∧
      counter nestedContract.depthIndex nestedState.globals + nestedState.openCalls =
        maximumCallDepth ∧ nestedState.openCalls ≤ maximumCallDepth := by
  obtain ⟨es, hes, -⟩ := nested_run
  have hown : ∀ fd ∈ nestedContract.functionDefs, ∀ i ∈ fd.code, nestedContract.Owns i := by
    simp [nestedContract, Module.Owns]
  obtain ⟨m', hinject, -, hall⟩ := call_depth_bounded nestedContract_indexable hown
  rw [inject_nestedContract] at hinject
  cases hinject
  have hfresh : nestedInjected.Fresh [250] := by
    refine ⟨rfl, ?_⟩
    intro k type v hk
    cases k with
    | zero =>
      cases hk
      rfl
    | succ k => cases hk
  obtain ⟨hcount, hle, -⟩ := hall nestedProgram nestedProgram_marks _ es nestedState
    ⟨nestedBody, by simp [nestedProgram], rfl⟩ hfresh hes
  exact ⟨inject_nestedContract, nestedProgram_marks, es, hes, rfl, rfl,
    hcount _ _ _ _ _ rfl rfl, hle⟩

end DimensionChain.Wasm
