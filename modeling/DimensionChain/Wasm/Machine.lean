import DimensionChain.Base.Steps
import DimensionChain.Wasm.References

/-!
# Execution of instrumented code

A machine for the control flow of a module. It has exactly what the instructions of the call depth
check do to the stack and the globals; what other instructions leave on the stack is open, and so
are the values that decide branches, the targets of `br_table` and `call_indirect`, and what the
host returns. A trap is a state without a step. An instruction is kept with the instruction of the
contract that it stands for, if there is one.
-/

namespace DimensionChain.Wasm

open List

open Injector (voidType depthCheck depthRestore)

abbrev Code := List (Instr × Option Instr)

structure Program where
  imports : List FunctionImport
  bodies : List Code

/-- What is left to execute of a function, and the constructs around it, the innermost first. A
branch to a loop goes to the code after its opcode. -/
structure Frame where
  code : Code
  labels : List (Option Code)
  stack : List Nat

structure Configuration where
  frames : List Frame
  globals : List Nat

def skip : Nat → Code → Option Code
  | _, [] => none
  | n, (.block _ _, _) :: rest => skip (n + 1) rest
  | 0, (.void .end_, _) :: rest => some rest
  | n + 1, (.void .end_, _) :: rest => skip n rest
  | n, _ :: rest => skip n rest

/-- The `else` part of an `if`, or the code after its `end` when it has none. -/
def skipThen : Nat → Code → Option (Bool × Code)
  | _, [] => none
  | n, (.block _ _, _) :: rest => skipThen (n + 1) rest
  | 0, (.void .end_, _) :: rest => some (false, rest)
  | n + 1, (.void .end_, _) :: rest => skipThen n rest
  | 0, (.void .else_, _) :: rest => some (true, rest)
  | n, _ :: rest => skipThen n rest

def branch (rest : Code) (labels : List (Option Code)) (n : Nat) :
    Option (Code × List (Option Code)) :=
  match labels[n]? with
  | some (some body) => some (body, labels.drop n)
  | some none => (skip n rest).map fun r => (r, labels.drop (n + 1))
  | none => none

/-- What an instruction can do within its function: the new frame and the new globals. -/
def Instr.Runs (i : Instr) (rest : Code) (ls : List (Option Code)) (st g : List Nat) (f : Frame)
    (g' : List Nat) : Prop :=
  match i with
  | .word .getGlobal x => ∃ v, g[x]? = some v ∧ f = ⟨rest, ls, v :: st⟩ ∧ g' = g
  | .word .setGlobal x =>
    ∃ v st', st = v :: st' ∧ x < g.length ∧ f = ⟨rest, ls, st'⟩ ∧ g' = g.set x v
  | .word .i32Const c => f = ⟨rest, ls, c :: st⟩ ∧ g' = g
  | .void .i32Add =>
    ∃ a b st', st = a :: b :: st' ∧ f = ⟨rest, ls, (a + b) % 2 ^ 32 :: st'⟩ ∧ g' = g
  | .void .i32Eqz =>
    ∃ a st', st = a :: st' ∧ f = ⟨rest, ls, (if a = 0 then 1 else 0) :: st'⟩ ∧ g' = g
  | .block .block _ => f = ⟨rest, none :: ls, st⟩ ∧ g' = g
  | .block .loop _ => f = ⟨rest, some rest :: ls, st⟩ ∧ g' = g
  | .block .if_ _ => ∃ a st', st = a :: st' ∧ g' = g ∧
    ((a ≠ 0 ∧ f = ⟨rest, none :: ls, st'⟩) ∨ (a = 0 ∧ ∃ other r, skipThen 0 rest = some (other, r) ∧
      f = ⟨r, if other then none :: ls else ls, st'⟩))
  | .void .else_ => ∃ l ls' r, ls = l :: ls' ∧ skip 0 rest = some r ∧ f = ⟨r, ls', st⟩ ∧ g' = g
  | .void .end_ => ∃ l ls', ls = l :: ls' ∧ f = ⟨rest, ls', st⟩ ∧ g' = g
  | .word .br n => ∃ r ls' st', branch rest ls n = some (r, ls') ∧ f = ⟨r, ls', st'⟩ ∧ g' = g
  | .word .brIf n => ∃ r ls' st', (branch rest ls n = some (r, ls') ∨ (r, ls') = (rest, ls)) ∧
      f = ⟨r, ls', st'⟩ ∧ g' = g
  | .brTable _ _ => ∃ n r ls' st', branch rest ls n = some (r, ls') ∧ f = ⟨r, ls', st'⟩ ∧ g' = g
  | .void .return_ | .void .unreachable | .word .call _ | .word .callIndirect _ => False
  | _ => ∃ st', f = ⟨rest, ls, st'⟩ ∧ g' = g

def Instr.Returns (i : Instr) (ls : List (Option Code)) : Prop :=
  match i with
  | .void .end_ => ls = []
  | .void .return_ | .brTable _ _ => True
  | .word .br n | .word .brIf n => n = ls.length
  | _ => False

def Instr.Calls (i : Instr) (x : Nat) : Prop :=
  match i with
  | .word .call y => x = y
  | .word .callIndirect _ => True
  | _ => False

namespace Program
variable (P : Program)

def Imports (x : Nat) (name : String) : Prop :=
  ∃ i, P.imports[x]? = some i ∧ i.moduleName = injectedModuleName ∧ i.exportName = name

/-- A step executes one instruction. Its label is the function of the host that it calls;
`call_depth_assert` throws and does not return. -/
inductive Step : Configuration → Option Nat → Configuration → Prop where
  | runs {i : Instr} {o : Option Instr} {rest : Code} {ls : List (Option Code)} {st g g' : List Nat}
      {f : Frame} {fs : List Frame} : i.Runs rest ls st g f g' →
      Step ⟨⟨(i, o) :: rest, ls, st⟩ :: fs, g⟩ none ⟨f :: fs, g'⟩
  | host {i : Instr} {o : Option Instr} {x : Nat} {rest : Code} {ls : List (Option Code)}
      {st st' g : List Nat} {fs : List Frame} : i.Calls x → x < P.imports.length →
      ¬P.Imports x "call_depth_assert" →
      Step ⟨⟨(i, o) :: rest, ls, st⟩ :: fs, g⟩ (some x) ⟨⟨rest, ls, st'⟩ :: fs, g⟩
  | enter {i : Instr} {o : Option Instr} {x : Nat} {rest body : Code} {ls : List (Option Code)}
      {st g : List Nat} {fs : List Frame} : i.Calls x → P.imports.length ≤ x →
      P.bodies[x - P.imports.length]? = some body →
      Step ⟨⟨(i, o) :: rest, ls, st⟩ :: fs, g⟩ none ⟨⟨body, [], []⟩ :: ⟨rest, ls, st⟩ :: fs, g⟩
  | resume {i : Instr} {o : Option Instr} {rest code : Code} {ls ls' : List (Option Code)}
      {st st' st'' g : List Nat} {fs : List Frame} : i.Returns ls →
      Step ⟨⟨(i, o) :: rest, ls, st⟩ :: ⟨code, ls', st'⟩ :: fs, g⟩ none ⟨⟨code, ls', st''⟩ :: fs, g⟩
  | finish {i : Instr} {o : Option Instr} {rest : Code} {ls : List (Option Code)}
      {st g : List Nat} : i.Returns ls → Step ⟨[⟨(i, o) :: rest, ls, st⟩], g⟩ none ⟨[], g⟩

def Starts (s : Configuration) : Prop :=
  ∃ body ∈ P.bodies, s.frames = [⟨body, [], []⟩]

end Program

def origins (i : Instr) : List (Option Instr) :=
  if i.isCall then List.replicate 10 none ++ some i :: List.replicate 5 none
  else if i.op = .block .loop then [some i, none]
  else [some i]

section Marks
variable (m m' : Module) (injected : List FunctionImport) (f : Nat → Nat)

def MarkedPart (i : Instr) (part : Code) : Prop :=
  Rewrites m m' injected f i (part.map Prod.fst) ∧ part.map Prod.snd = origins i

def MarkedBody (fd : FunctionDef) (body : Code) : Prop :=
  ∃ checktime parts, InjectedAt m' injected checktime ("checktime", voidType) ∧
    body = (.call checktime, none) :: List.flatten parts ∧
    List.Forall₂ (MarkedPart m m' injected f) fd.code parts

structure Program.Marks (P : Program) : Prop where
  imports : P.imports = m'.functionImports
  codes : P.bodies.map (List.map Prod.fst) = m'.functionDefs.map FunctionDef.code
  origins : ∃ injected f, m'.functionImports = injected ++ m.functionImports ∧
    List.Forall₂ (MarkedBody m m' injected f) m.functionDefs P.bodies

end Marks

variable {injected : List FunctionImport} {f : Nat → Nat} {m m' : Module} {i : Instr}

lemma Rewrites.length
    {part : List Instr} (h : Rewrites m m' injected f i part) : part.length = (origins i).length := by
  cases h with
  | call | callIndirect | loop => rfl
  | float => rfl
  | kept hcall hloop => simp [origins, hcall, hloop]

lemma forall₂_choose {α β γ δ : Type} {R : α → β → Prop} {S : α → γ → Prop} {t : γ → δ} {u : β → δ}
    {as : List α} {bs : List β} (h : List.Forall₂ R as bs)
    (hR : ∀ a b, R a b → ∃ c, S a c ∧ t c = u b) :
    ∃ cs, List.Forall₂ S as cs ∧ cs.map t = bs.map u := by
  induction h with
  | nil => exact ⟨[], .nil, rfl⟩
  | @cons a b _ _ hab _ ih =>
    obtain ⟨c, hc, htu⟩ := hR a b hab
    obtain ⟨cs, hcs, hmap⟩ := ih
    exact ⟨c :: cs, .cons hc hcs, by rw [map_cons, map_cons, htu, hmap]⟩

lemma exists_marks (h : Instrumented m m' injected f) : ∃ P : Program, P.Marks m m' := by
  obtain ⟨bodies, hbodies, hcodes⟩ := forall₂_choose (t := List.map Prod.fst)
    (u := FunctionDef.code) (S := MarkedBody m m' injected f) h.defs (by
      rintro fd fd' ⟨-, checktime, parts, hcheck, hcode, hparts⟩
      obtain ⟨marked, hmarked, hfst⟩ := forall₂_choose (t := List.map Prod.fst) (u := id)
        (S := MarkedPart m m' injected f) hparts (by
          intro i part hpart
          have hfst := map_fst_zip (Nat.le_of_eq hpart.length)
          refine ⟨part.zip (origins i), ⟨?_, ?_⟩, hfst⟩
          · rw [hfst]
            exact hpart
          · exact map_snd_zip (Nat.le_of_eq hpart.length.symm))
      refine ⟨(.call checktime, none) :: marked.flatten, ⟨checktime, marked, hcheck, rfl, hmarked⟩, ?_⟩
      rw [map_cons, map_flatten, hfst, map_id, hcode])
  exact ⟨⟨m'.functionImports, bodies⟩, rfl, hcodes, injected, f, h.imports, hbodies⟩

lemma MarkedBody.map_snd {fd : FunctionDef} {body : Code} (h : MarkedBody m m' injected f fd body) :
    body.map Prod.snd = none :: fd.code.flatMap origins := by
  obtain ⟨checktime, parts, -, rfl, hparts⟩ := h
  rw [map_cons, map_flatten]
  congr 1
  generalize fd.code = code at hparts
  induction hparts with
  | nil => rfl
  | cons hpart _ ih => rw [map_cons, flatten_cons, ih, hpart.2, flatMap_cons]

/-- The marks are determined by the module. -/
lemma Program.Marks.bodies_eq {P : Program} (h : P.Marks m m') : P.bodies = List.zipWith
    (fun (fd fd' : FunctionDef) => fd'.code.zip (none :: fd.code.flatMap Wasm.origins))
    m.functionDefs m'.functionDefs := by
  obtain ⟨injected, f, -, hdefs⟩ := h.origins
  have hcodes := h.codes
  generalize m'.functionDefs = defs at hcodes ⊢
  generalize hfrom : m.functionDefs = olds at hdefs ⊢
  generalize P.bodies = bodies at hdefs hcodes ⊢
  clear hfrom
  induction hdefs generalizing defs with
  | nil => rfl
  | cons hbody _ ih =>
    obtain ⟨fd, rest, rfl, hcode, hrest⟩ := map_eq_cons_iff.mp hcodes.symm
    rw [zipWith_cons_cons, ← ih rest hrest.symm, hcode, ← hbody.map_snd, ← zip_of_prod rfl rfl]

/-! ## The shape of instrumented code -/

def wrapped (d assert checktime : Nat) (call : Instr × Option Instr) (rest : Code) : Code :=
  (depthCheck d assert).map (·, none) ++
    call :: ((depthRestore d checktime).map (·, none) ++ rest)

/-- Code of which no injected sequence has begun. The instructions of the contract satisfy `own`. -/
inductive Clear (P : Program) (d : Nat) (own : Instr → Prop) : Code → Prop where
  | nil : Clear P d own []
  | checktime {x : Nat} {rest : Code} : P.Imports x "checktime" → Clear P d own rest →
      Clear P d own ((.call x, none) :: rest)
  | call {i j : Instr} {assert x : Nat} {rest : Code} : i.isCall = true → j.isCall = true →
      P.Imports assert "call_depth_assert" → P.Imports x "checktime" → Clear P d own rest →
      Clear P d own (wrapped d assert x (i, some j) rest)
  | float {op : VoidOp} {x : Nat} {rest : Code} : x < P.imports.length → Clear P d own rest →
      Clear P d own ((.call x, some (.void op)) :: rest)
  | kept {i : Instr} {rest : Code} : i.isCall = false → own i → (i.op = .block .loop →
      ∃ x r, rest = (.call x, none) :: r ∧ P.Imports x "checktime") → Clear P d own rest →
      Clear P d own ((i, some i) :: rest)

variable {P : Program} {own : Instr → Prop} (himports : P.imports = injected ++ m.functionImports)
include himports

lemma imports_of_injectedAt {x : Nat}
    {n : String × FunctionType} (h : InjectedAt m' injected x n) : P.Imports x n.1 := by
  obtain ⟨i, hi, hstands⟩ := h
  refine ⟨i, ?_, hstands.moduleName, hstands.exportName⟩
  rw [himports, List.getElem?_append_left (List.getElem?_eq_some_iff.mp hi).1, hi]

lemma clear_part {part rest : Code}
    (h : MarkedPart m m' injected f i part) (hown : own i) (hrest : Clear P m.depthIndex own rest) :
    Clear P m.depthIndex own (part ++ rest) := by
  have hat : ∀ {x : Nat} {n : String × FunctionType}, InjectedAt m' injected x n → P.Imports x n.1 :=
    fun hx => imports_of_injectedAt himports hx
  obtain ⟨h, horigins⟩ := h
  have hpart : part = (part.map Prod.fst).zip (part.map Prod.snd) := zip_of_prod rfl rfl
  rw [hpart, horigins]
  generalize part.map Prod.fst = code at h
  cases h with
  | call hassert hcheck _
  | callIndirect hassert hcheck _ => exact .call rfl rfl (hat hassert) (hat hcheck) hrest
  | loop hcheck =>
    exact .kept rfl hown (fun _ => ⟨_, _, rfl, hat hcheck⟩) (.checktime (hat hcheck) hrest)
  | float _ hr =>
    obtain ⟨_, hi, -⟩ := hat hr
    exact .float (List.getElem?_eq_some_iff.mp hi).1 hrest
  | kept hcall hloop hop =>
    have horigin : origins i = [some i] := by simp [origins, hcall, hloop]
    rw [horigin]
    exact .kept hcall hown (fun h => absurd h hloop) hrest

lemma clear_flatten {code : List Instr} {parts : List Code}
    (h : List.Forall₂ (MarkedPart m m' injected f) code parts) (hown : ∀ i ∈ code, own i) :
    Clear P m.depthIndex own parts.flatten := by
  induction h with
  | nil => exact .nil
  | cons hpart _ ih =>
    exact clear_part himports hpart (hown _ (by simp)) (ih fun i hi => hown i (by simp [hi]))

omit himports

lemma Program.Marks.body (h : P.Marks m m') (hown : ∀ fd ∈ m.functionDefs, ∀ i ∈ fd.code, own i)
    {body : Code} (hbody : body ∈ P.bodies) :
    ∃ x rest, body = (.call x, none) :: rest ∧ P.Imports x "checktime" ∧
      Clear P m.depthIndex own rest := by
  obtain ⟨injected, f, himports, hdefs⟩ := h.origins
  have himports : P.imports = injected ++ m.functionImports := h.imports.trans himports
  obtain ⟨n, hn, rfl⟩ := mem_iff_getElem.mp hbody
  obtain ⟨hlen, hget⟩ := forall₂_iff_get.mp hdefs
  obtain ⟨x, parts, hcheck, hcode, hparts⟩ := hget n (hlen ▸ hn) hn
  exact ⟨x, parts.flatten, hcode, imports_of_injectedAt himports hcheck,
    clear_flatten himports hparts (hown _ (get_mem _ _))⟩

/-- A function that calls itself in a loop. -/
def nestedContract : Module where
  types := [voidType]
  functionDefs := [⟨0, [.loop 0, .call 0, .word .br 0, .void .end_, .void .end_]⟩]
  exports := [⟨"apply", .function, 0⟩]

def nestedBody : Code :=
  [(.call 0, none), (.loop 0, some (.loop 0)), (.call 0, none)] ++
    wrapped 0 1 0 (.call 2, some (.call 0)) [(.word .br 0, some (.word .br 0)),
      (.void .end_, some (.void .end_)), (.void .end_, some (.void .end_))]

def nestedProgram : Program :=
  ⟨[⟨0, injectedModuleName, "checktime"⟩, ⟨0, injectedModuleName, "call_depth_assert"⟩], [nestedBody]⟩

def nestedInjected : Module :=
  { nestedContract with
    functionImports := nestedProgram.imports
    functionDefs := [⟨0, nestedBody.map Prod.fst⟩]
    globalDefs := [Injector.depthGlobal]
    exports := [⟨"apply", .function, 2⟩] }

lemma inject_nestedContract : inject nestedContract = .ok nestedInjected := by
  obtain ⟨m', hm', heq⟩ := exists_ok_of_okAnd (x := inject nestedContract)
    (p := fun m' => m' = nestedInjected) (by decide +kernel)
  rw [hm', of_decide_eq_true heq]

lemma nestedContract_indexable : nestedContract.Indexable := by
  change _ < _
  decide

lemma nestedProgram_marks : nestedProgram.Marks nestedContract nestedInjected := by
  obtain ⟨m', injected, f, hinject, hm', -⟩ := inject_ok nestedContract_indexable
  rw [inject_nestedContract] at hinject
  cases hinject
  obtain ⟨P, hP⟩ := exists_marks hm'
  have heq : P = nestedProgram := by
    have himports := hP.imports
    have hbodies := hP.bodies_eq
    cases P
    cases himports
    cases hbodies
    rfl
  rw [← heq]
  exact hP

/-- The function has called itself once. -/
def nestedState : Configuration :=
  ⟨[⟨nestedBody.drop 1, [], []⟩, ⟨nestedBody.drop 14, [some (nestedBody.drop 2)], []⟩], [249]⟩

lemma nested_run : ∃ es, Steps nestedProgram.Step ⟨[⟨nestedBody, [], []⟩], [250]⟩ es nestedState ∧
    es.map (fun e => e.2.1) = [some 0, none, some 0] ++ replicate 9 none ++ [some 0] := by
  have hchecktime : 0 < nestedProgram.imports.length ∧
      ¬nestedProgram.Imports 0 "call_depth_assert" := by
    refine ⟨by decide, ?_⟩
    rintro ⟨i, hi, -, hname⟩
    cases hi
    revert hname
    decide
  obtain ⟨hlt, hother⟩ := hchecktime
  have hcheck : ∀ rest ls st fs g, nestedProgram.Step ⟨⟨(.call 0, none) :: rest, ls, st⟩ :: fs, g⟩
      (some 0) ⟨⟨rest, ls, st⟩ :: fs, g⟩ := fun _ _ _ _ _ => .host rfl hlt hother
  -- the counter is not zero, so the check goes on in its `else` part
  exact ⟨_, .cons (hcheck ..) <| .cons (.runs ⟨rfl, rfl⟩) <| .cons (hcheck ..) <|
    .cons (.runs ⟨_, rfl, rfl, rfl⟩) <| .cons (.runs ⟨_, _, rfl, rfl, rfl⟩) <|
    .cons (.runs ⟨_, _, rfl, rfl, .inr ⟨rfl, _, _, rfl, rfl⟩⟩) <| .cons (.runs ⟨rfl, rfl⟩) <|
    .cons (.runs ⟨_, rfl, rfl, rfl⟩) <| .cons (.runs ⟨_, _, _, rfl, rfl, rfl⟩) <|
    .cons (.runs ⟨_, _, rfl, by decide, rfl, rfl⟩) <| .cons (.runs ⟨_, _, rfl, rfl, rfl⟩) <|
    .cons (.enter rfl (Nat.le_refl 2) rfl) <| .cons (hcheck ..) <| .nil _, rfl⟩

end DimensionChain.Wasm
