import DimensionChain.Wasm.Machine

/-!
# Time checks of instrumented code

The code of a function gets shorter with each instruction, unless it branches back to a loop, calls
or returns. All of these lead to a call of `checktime`: at once, or after the call depth is restored.
-/

namespace DimensionChain.Wasm

open List Program

open Injector (depthRestore)

variable {code r : Code} {n : Nat} {st g g' : List Nat}

lemma skip_suffix (h : skip n code = some r) : r <:+ code := by
  fun_induction skip n code with
  | case1 => cases h
  | case3 => exact Option.some.inj h ▸ suffix_cons _ _
  | case2 _ _ _ _ _ ih | case4 _ _ _ ih | case5 _ _ _ _ _ _ ih =>
    exact (ih h).trans (suffix_cons _ _)

lemma skipThen_suffix {other : Bool} (h : skipThen n code = some (other, r)) : r <:+ code := by
  fun_induction skipThen n code with
  | case1 => cases h
  | case3 | case5 => cases h; exact suffix_cons _ _
  | case2 _ _ _ _ _ ih | case4 _ _ _ ih | case6 _ _ _ _ _ _ _ ih =>
    exact (ih h).trans (suffix_cons _ _)

def Ahead (rest r : Code) : Prop :=
  r = rest ∨ (∃ n, skip n rest = some r) ∨ ∃ n other, skipThen n rest = some (other, r)

lemma Ahead.suffix {rest r : Code} (h : Ahead rest r) : r <:+ rest := by
  rcases h with rfl | ⟨n, h⟩ | ⟨n, other, h⟩
  · exact suffix_refl r
  · exact skip_suffix h
  · exact skipThen_suffix h

/-- The code goes on ahead or at the start of a loop, a loop begins with what is left, and one global
is changed at most. -/
structure Moves (i : Instr) (rest : Code) (ls : List (Option Code)) (g : List Nat) (f : Frame)
    (g' : List Nat) : Prop where
  code : Ahead rest f.code ∨ some f.code ∈ ls
  labels : ∀ body, some body ∈ f.labels → some body ∈ ls ∨ (body = rest ∧ i.op = .block .loop)
  globals : g' = g ∨ ∃ x v, i = .word .setGlobal x ∧ g' = g.set x v

lemma Instr.Runs.moves {i : Instr} {rest : Code} {ls : List (Option Code)}
    {f : Frame} (h : i.Runs rest ls st g f g') : Moves i rest ls g f g' := by
  have hstay : ∀ st', f = ⟨rest, ls, st'⟩ → g' = g → Moves i rest ls g f g' := by
    rintro st' rfl hg
    exact ⟨.inl (.inl rfl), fun _ hbody => .inl hbody, .inl hg⟩
  have hjump : ∀ n r ls' st', branch rest ls n = some (r, ls') → f = ⟨r, ls', st'⟩ → g' = g →
      Moves i rest ls g f g' := by
    rintro n r ls' st' hbranch rfl hg
    unfold branch at hbranch
    split at hbranch
    · rename_i body hbody
      cases hbranch
      exact ⟨.inr (mem_of_getElem? hbody), fun _ h => .inl (mem_of_mem_drop h), .inl hg⟩
    · obtain ⟨r', hr', heq⟩ := Option.map_eq_some_iff.mp hbranch
      cases heq
      exact ⟨.inl (.inr (.inl ⟨n, hr'⟩)), fun _ h => .inl (mem_of_mem_drop h), .inl hg⟩
    · cases hbranch
  unfold Instr.Runs at h
  split at h
  · obtain ⟨v, -, hf, hg⟩ := h
    exact hstay _ hf hg
  · obtain ⟨v, st', -, -, rfl, hg⟩ := h
    exact ⟨.inl (.inl rfl), fun _ hbody => .inl hbody, .inr ⟨_, v, rfl, hg⟩⟩
  · exact hstay _ h.1 h.2
  · obtain ⟨a, b, st', -, hf, hg⟩ := h
    exact hstay _ hf hg
  · obtain ⟨a, st', -, hf, hg⟩ := h
    exact hstay _ hf hg
  · obtain ⟨rfl, hg⟩ := h
    exact ⟨.inl (.inl rfl), fun body hbody => .inl (by simpa using hbody), .inl hg⟩
  · obtain ⟨rfl, hg⟩ := h
    refine ⟨.inl (.inl rfl), fun body hbody => ?_, .inl hg⟩
    rcases mem_cons.mp hbody with heq | hbody
    · exact .inr ⟨Option.some.inj heq, rfl⟩
    · exact .inl hbody
  · obtain ⟨a, st', -, hg, ⟨-, rfl⟩ | ⟨-, other, r, hskip, rfl⟩⟩ := h
    · exact ⟨.inl (.inl rfl), fun body hbody => .inl (by simpa using hbody), .inl hg⟩
    · refine ⟨.inl (.inr (.inr ⟨0, other, hskip⟩)), fun body hbody => .inl ?_, .inl hg⟩
      cases other <;> simpa using hbody
  · obtain ⟨l, ls', r, rfl, hskip, rfl, hg⟩ := h
    exact ⟨.inl (.inr (.inl ⟨0, hskip⟩)), fun _ h => .inl (mem_cons_of_mem _ h), .inl hg⟩
  · obtain ⟨l, ls', rfl, rfl, hg⟩ := h
    exact ⟨.inl (.inl rfl), fun _ h => .inl (mem_cons_of_mem _ h), .inl hg⟩
  · obtain ⟨r, ls', st', hbranch, hf, hg⟩ := h
    exact hjump _ r ls' st' hbranch hf hg
  · obtain ⟨r, ls', st', hbranch | hnext, hf, hg⟩ := h
    · exact hjump _ r ls' st' hbranch hf hg
    · cases hnext
      exact hstay _ hf hg
  · obtain ⟨n, r, ls', st', hbranch, hf, hg⟩ := h
    exact hjump n r ls' st' hbranch hf hg
  · cases h
  · cases h
  · cases h
  · cases h
  · obtain ⟨st', hf, hg⟩ := h
    exact hstay _ hf hg

namespace Program
variable (P : Program)

def CallsChecktime (e : Option Nat) : Prop :=
  ∃ x, e = some x ∧ P.Imports x "checktime"

def Checks (code : Code) : Prop :=
  ∃ x rest, code = (.call x, none) :: rest ∧ P.Imports x "checktime"

def Resumes (code : Code) : Prop :=
  ∃ d x rest, code = (depthRestore d x).map (·, none) ++ rest ∧ P.Imports x "checktime"

def Checked : Code → Prop
  | [] => True
  | i :: rest => (i.1.op = .block .loop → P.Checks rest) ∧
      ((∃ x, i.1.Calls x ∧ P.imports.length ≤ x) → P.Resumes rest) ∧ Checked rest

structure Sound (L : Nat) (f : Frame) : Prop where
  code : P.Checked f.code ∧ f.code.length ≤ L
  labels : ∀ body, some body ∈ f.labels → P.Checks body ∧ P.Checked body ∧ body.length ≤ L

structure AllSound (L : Nat) (s : Configuration) : Prop where
  frames : ∀ f ∈ s.frames, P.Sound L f
  callers : ∀ f ∈ s.frames.tail, P.Resumes f.code

def Within : Nat → Configuration → Prop
  | 0, s => ∀ e t, P.Step s e t → P.CallsChecktime e
  | n + 1, s => ∀ e t, P.Step s e t → P.CallsChecktime e ∨ Within n t

variable {P} {L : Nat} {x : Nat}

lemma lt_of_imports {name : String} (h : P.Imports x name) : x < P.imports.length := by
  obtain ⟨i, hi, -⟩ := h
  exact (List.getElem?_eq_some_iff.mp hi).1

lemma Checked.suffix (h : P.Checked code) (hr : r <:+ code) : P.Checked r := by
  induction code with
  | nil => rwa [suffix_nil.mp hr]
  | cons i rest ih =>
    rcases suffix_cons_iff.mp hr with rfl | hr
    · exact h
    · exact ih h.2.2 hr

variable {o : Option Instr} {rest : Code} {ls : List (Option Code)} {i : Instr} {fs : List Frame}

lemma isCall_of_calls (h : i.Calls x) : i.isCall = true := by
  unfold Instr.Calls at h
  split at h
  · rfl
  · rfl
  · cases h

variable (h : P.Checked rest) {f : Frame} {e : Option Nat}
include h

lemma Checked.inert (hcall : i.isCall = false) (hloop : i.op = .block .loop → P.Checks rest) :
    P.Checked ((i, o) :: rest) := by
  refine ⟨hloop, ?_, h⟩
  rintro ⟨x, hx, -⟩
  rw [isCall_of_calls hx] at hcall
  cases hcall

lemma Checked.injected {l : List Instr} (his : ∀ i ∈ l, i.isCall = false ∧ i.op ≠ .block .loop) :
    P.Checked (l.map (·, none) ++ rest) := by
  induction l with
  | nil => exact h
  | cons i l ih =>
    obtain ⟨hi, his⟩ := forall_mem_cons.mp his
    exact (ih his).inert hi.1 fun hloop => absurd hloop hi.2

lemma Checked.ofImport (hx : x < P.imports.length) : P.Checked ((.call x, o) :: rest) := by
  refine ⟨nofun, ?_, h⟩
  rintro ⟨y, rfl, hy⟩
  exact absurd hx (Nat.not_lt.mpr hy)

omit h

lemma checked_of_clear {d : Nat} {own : Instr → Prop} {code : Code} (h : Clear P d own code) :
    P.Checked code := by
  induction h with
  | nil => trivial
  | checktime hx _ ih => exact ih.ofImport (lt_of_imports hx)
  | @call i j assert x rest hi _ hassert hx _ ih =>
    have hrestore : P.Checked ((depthRestore d x).map (·, none) ++ rest) :=
      (ih.ofImport (lt_of_imports hx)).injected
        (l := [.word .getGlobal d, .word .i32Const 1, .void .i32Add, .word .setGlobal d])
        (by simp [Instr.isCall, Instr.op])
    have hcall : P.Checked ((i, some j) :: ((depthRestore d x).map (·, none) ++ rest)) := by
      refine ⟨fun hloop => ?_, fun _ => ⟨d, x, rest, rfl, hx⟩, hrestore⟩
      unfold Instr.isCall at hi
      rw [hloop] at hi
      cases hi
    have hafter := hcall.injected (l := [.void .else_, .word .i32Const 4294967295,
      .word .getGlobal d, .void .i32Add, .word .setGlobal d, .void .end_])
      (by simp [Instr.isCall, Instr.op])
    exact (hafter.ofImport (lt_of_imports hassert)).injected
      (l := [.word .getGlobal d, .void .i32Eqz, .block .if_ 0x40]) (by simp [Instr.isCall, Instr.op])
  | float hx _ ih => exact ih.ofImport hx
  | kept hcall _ hloop _ ih => exact ih.inert hcall hloop

lemma within_mono {n k : Nat} (hk : n ≤ k) : ∀ {s}, P.Within n s → P.Within k s := by
  induction k generalizing n with
  | zero =>
    intro s h
    rwa [Nat.le_zero.mp hk] at h
  | succ k ih =>
    intro s h e t hstep
    cases n with
    | zero => exact .inl (h e t hstep)
    | succ n => exact (h e t hstep).imp_right (ih (Nat.le_of_succ_le_succ hk))

lemma within_checks (h : P.Checks f.code) : P.Within 0 ⟨f :: fs, g⟩ := by
  obtain ⟨x, rest, hcode, hx⟩ := h
  intro e t hstep
  cases hstep with
  | runs hruns =>
    cases hcode
    cases hruns
  | host hcalls =>
    cases hcode
    cases hcalls
    exact ⟨x, rfl, hx⟩
  | enter hcalls hle =>
    cases hcode
    cases hcalls
    exact absurd (lt_of_imports hx) (Nat.not_lt.mpr hle)
  | resume hreturns | finish hreturns =>
    cases hcode
    cases hreturns

lemma step_runs {st g : List Nat} {t : Configuration}
    (hcall : i.isCall = false) (hreturns : ¬i.Returns ls)
    (hstep : P.Step ⟨⟨(i, o) :: rest, ls, st⟩ :: fs, g⟩ e t) :
    ∃ f g', i.Runs rest ls st g f g' ∧ t = ⟨f :: fs, g'⟩ := by
  cases hstep with
  | runs hruns => exact ⟨_, _, hruns, rfl⟩
  | host hcalls | enter hcalls =>
    rw [isCall_of_calls hcalls] at hcall
    cases hcall
  | resume h | finish h => exact absurd h hreturns

lemma within_resumes (h : P.Resumes f.code) : P.Within 4 ⟨f :: fs, g⟩ := by
  obtain ⟨d, x, rest, hcode, hx⟩ := h
  obtain ⟨code, ls, st⟩ := f
  cases hcode
  intro e t hstep
  obtain ⟨_, _, ⟨v, -, rfl, -⟩, rfl⟩ := step_runs (i := .word .getGlobal d) rfl (fun h => h) hstep
  refine .inr fun e t hstep => ?_
  obtain ⟨_, _, ⟨rfl, -⟩, rfl⟩ := step_runs (i := .word .i32Const 1) rfl (fun h => h) hstep
  refine .inr fun e t hstep => ?_
  obtain ⟨_, _, ⟨a, b, st, -, rfl, -⟩, rfl⟩ := step_runs (i := .void .i32Add) rfl (fun h => h) hstep
  refine .inr fun e t hstep => ?_
  obtain ⟨_, _, ⟨v, st, -, -, rfl, -⟩, rfl⟩ :=
    step_runs (i := .word .setGlobal d) rfl (fun h => h) hstep
  exact .inr (within_checks ⟨x, rest, rfl, hx⟩)

lemma within_nil (n : Nat) (g : List Nat) : P.Within n ⟨[], g⟩ := by
  cases n <;> exact fun _ _ hstep => nomatch hstep

lemma Sound.next {st : List Nat} (h : P.Sound L ⟨(i, o) :: rest, ls, st⟩) (st' : List Nat) :
    P.Sound L ⟨rest, ls, st'⟩ :=
  ⟨⟨h.code.1.2.2, Nat.le_of_succ_le h.code.2⟩, h.labels⟩

lemma Sound.runs (h : P.Sound L ⟨(i, o) :: rest, ls, st⟩)
    (hruns : i.Runs rest ls st g f g') : P.Sound L f := by
  constructor
  · rcases hruns.moves.code with hahead | hlabel
    · have hle := Nat.le_trans hahead.suffix.length_le (Nat.le_of_succ_le h.code.2)
      exact ⟨h.code.1.2.2.suffix hahead.suffix, hle⟩
    · exact (h.labels _ hlabel).2
  intro body hbody
  rcases hruns.moves.labels body hbody with hold | ⟨rfl, hloop⟩
  · exact h.labels body hold
  · exact ⟨h.code.1.1 hloop, (h.next []).code⟩

variable (hbodies : ∀ body ∈ P.bodies, P.Checks body ∧ P.Checked body ∧ body.length ≤ L)
  {s t : Configuration}
include hbodies

lemma AllSound.step (h : P.AllSound L s) (hstep : P.Step s e t) : P.AllSound L t := by
  cases hstep with
  | runs hruns =>
    obtain ⟨hf, hfs⟩ := forall_mem_cons.mp h.frames
    exact ⟨forall_mem_cons.mpr ⟨hf.runs hruns, hfs⟩, h.callers⟩
  | host =>
    obtain ⟨hf, hfs⟩ := forall_mem_cons.mp h.frames
    exact ⟨forall_mem_cons.mpr ⟨hf.next _, hfs⟩, h.callers⟩
  | enter hcalls hle hbody =>
    obtain ⟨hf, hfs⟩ := forall_mem_cons.mp h.frames
    have hnew := (hbodies _ (mem_of_getElem? hbody)).2
    refine ⟨forall_mem_cons.mpr ⟨⟨hnew, nofun⟩, forall_mem_cons.mpr ⟨hf.next _, hfs⟩⟩, ?_⟩
    exact forall_mem_cons.mpr ⟨hf.code.1.2.1 ⟨_, hcalls, hle⟩, h.callers⟩
  | resume =>
    obtain ⟨-, hf, hfs⟩ := forall_mem_cons.mp h.frames |>.imp_right forall_mem_cons.mp
    exact ⟨forall_mem_cons.mpr ⟨⟨hf.code, hf.labels⟩, hfs⟩, (forall_mem_cons.mp h.callers).2⟩
  | finish => exact ⟨nofun, nofun⟩

lemma within_frame (n : Nat) : ∀ f fs g, f.code.length ≤ n → P.AllSound L ⟨f :: fs, g⟩ →
    P.Within (n + if fs = [] then 0 else 4) ⟨f :: fs, g⟩ := by
  induction n with
  | zero =>
    intro f fs g hlen _
    apply within_mono (Nat.zero_le _)
    intro e t hstep
    cases hstep <;> cases hlen
  | succ n ih =>
    intro f fs g hlen hsound
    rw [Nat.add_right_comm]
    intro e t hstep
    have ht := hsound.step hbodies hstep
    right
    cases hstep with
    | runs hruns =>
      rcases hruns.moves.code with hahead | hlabel
      · have hle := hahead.suffix.length_le
        exact ih _ _ _ (Nat.le_trans hle (Nat.le_of_succ_le_succ hlen)) ht
      · have hchecks := ((hsound.frames _ mem_cons_self).labels _ hlabel).1
        exact within_mono (Nat.zero_le _) (within_checks hchecks)
    | host => exact ih _ _ _ (Nat.le_of_succ_le_succ hlen) ht
    | enter _ _ hbody =>
      have hchecks := (hbodies _ (mem_of_getElem? hbody)).1
      exact within_mono (Nat.zero_le _) (within_checks hchecks)
    | resume =>
      have hresumes := hsound.callers _ mem_cons_self
      exact within_mono (by simp) (within_resumes hresumes)
    | finish => exact within_nil _ _

lemma within_twice {s : Configuration} (h : P.AllSound L s) : P.Within (2 * L) s := by
  obtain ⟨frames, g⟩ := s
  cases frames with
  | nil => exact within_nil _ g
  | cons f fs =>
    apply within_mono _ (within_frame hbodies L f fs g (h.frames f mem_cons_self).code.2 h)
    cases fs with
    | nil =>
      rw [if_pos rfl]
      omega
    | cons caller fs =>
      obtain ⟨d, x, rest, hcode, -⟩ := h.callers caller mem_cons_self
      have hle := (h.frames caller (by simp)).code.2
      rw [hcode, length_append] at hle
      have hfive : ((depthRestore d x).map (·, (none : Option Instr))).length = 5 := rfl
      rw [if_neg (cons_ne_nil _ _)]
      omega

omit hbodies

lemma length_le_of_within
    {es : List (Configuration × Option Nat × Configuration)} (h : P.Within n s)
    (hrun : Steps P.Step s es t) (hquiet : ∀ e ∈ es, ¬P.CallsChecktime e.2.1) :
    es.length ≤ n ∧ P.Within (n - es.length) t := by
  induction hrun with
  | nil => exact ⟨Nat.zero_le n, h⟩
  | @snoc t r e es _ hstep ih =>
    obtain ⟨hes, he⟩ := forall_mem_append.mp hquiet
    obtain ⟨hlen, hwithin⟩ := ih hes
    have hnot := he _ (mem_singleton_self _)
    rw [length_append, length_singleton]
    cases hleft : n - es.length with
    | zero =>
      rw [hleft] at hwithin
      exact absurd (hwithin e r hstep) hnot
    | succ k =>
      rw [hleft] at hwithin
      rw [show n - (es.length + 1) = k by omega]
      exact ⟨by omega, (hwithin e r hstep).resolve_left hnot⟩

lemma checktime_of_within {run : Nat → Configuration} {call : Nat → Option Nat}
    (hrun : ∀ n, P.Step (run n) (call n) (run (n + 1))) (k : Nat) :
    ∀ n, P.Within k (run n) → ∃ j ≥ n, P.CallsChecktime (call j) := by
  induction k with
  | zero =>
    intro n h
    exact ⟨n, Nat.le_refl n, h _ _ (hrun n)⟩
  | succ k ih =>
    intro n h
    rcases h _ _ (hrun n) with hcall | hnext
    · exact ⟨n, Nat.le_refl n, hcall⟩
    · obtain ⟨j, hj, hcall⟩ := ih (n + 1) hnext
      exact ⟨j, Nat.le_of_succ_le hj, hcall⟩

end Program

/-- Between two calls of `checktime`, instrumented code executes at most twice as many instructions as
its longest function has, and so an execution that does not end calls it again and again. -/
theorem checktime_recurs {m : Module} (hm : m.Indexable) :
    ∃ m', inject m = .ok m' ∧ (∃ P : Program, P.Marks m m') ∧ ∀ P : Program, P.Marks m m' →
      ∀ L, (∀ fd ∈ m'.functionDefs, fd.code.length ≤ L) → ∀ start, P.Starts start →
        (∀ es s es' t, Steps P.Step start es s → Steps P.Step s es' t →
          (∀ e ∈ es', ¬P.CallsChecktime e.2.1) → es'.length ≤ 2 * L) ∧
        ∀ (run : Nat → Configuration) (call : Nat → Option Nat), run 0 = start →
          (∀ n, P.Step (run n) (call n) (run (n + 1))) → ∀ n, ∃ j ≥ n, P.CallsChecktime (call j) := by
  obtain ⟨m', injected, f, hinject, hm', -⟩ := inject_ok hm
  refine ⟨m', hinject, exists_marks hm', ?_⟩
  intro P hP L hL start hstart
  have hbodies : ∀ body ∈ P.bodies, P.Checks body ∧ P.Checked body ∧ body.length ≤ L := by
    intro body hbody
    have hclear := hP.body (show ∀ fd ∈ m.functionDefs, ∀ i ∈ fd.code, True by simp) hbody
    obtain ⟨x, rest, rfl, hx, hclear⟩ := hclear
    have hchecked := checked_of_clear hclear
    refine ⟨⟨x, rest, rfl, hx⟩, hchecked.ofImport (lt_of_imports hx), ?_⟩
    have hcode := mem_map_of_mem (f := List.map Prod.fst) hbody
    rw [hP.codes] at hcode
    obtain ⟨fd, hfd, heq⟩ := mem_map.mp hcode
    have hle := hL fd hfd
    rwa [heq, length_map] at hle
  have hsound : P.AllSound L start := by
    obtain ⟨body, hbody, hframes⟩ := hstart
    have hnew := (hbodies body hbody).2
    constructor
    · rw [hframes]
      exact forall_mem_singleton.mpr ⟨hnew, nofun⟩
    · rw [hframes]
      exact nofun
  constructor
  · intro es s es' t hes hes' hquiet
    have hs := hes.invariant (fun h hstep => h.step hbodies hstep) hsound
    exact (length_le_of_within (within_twice hbodies hs) hes' hquiet).1
  intro run call hzero hrun n
  have hall : ∀ n, P.AllSound L (run n) := by
    intro n
    induction n with
    | zero => rwa [hzero]
    | succ n ih => exact ih.step hbodies (hrun n)
  exact checktime_of_within hrun (2 * L) n (within_twice hbodies (hall n))

/-- The run that comes to the nested call has called `checktime` three times, and it is called again
at the latest after 44 further steps. -/
theorem checktime_recurs_nested : inject nestedContract = .ok nestedInjected ∧
    nestedProgram.Marks nestedContract nestedInjected ∧
    ∃ es, Steps nestedProgram.Step ⟨[⟨nestedBody, [], []⟩], [250]⟩ es nestedState ∧
      (∃ e ∈ es, nestedProgram.CallsChecktime e.2.1) ∧
      ∀ es' t, Steps nestedProgram.Step nestedState es' t →
        (∀ e ∈ es', ¬nestedProgram.CallsChecktime e.2.1) → es'.length ≤ 2 * 22 := by
  obtain ⟨es, hes, hcalls⟩ := nested_run
  obtain ⟨m', hinject, -, hall⟩ := checktime_recurs nestedContract_indexable
  rw [inject_nestedContract] at hinject
  cases hinject
  refine ⟨inject_nestedContract, nestedProgram_marks, es, hes, ?_, ?_⟩
  · obtain ⟨e, he, hcall⟩ : ∃ e ∈ es, e.2.1 = some 0 := by
      have hmem : some 0 ∈ es.map fun e => e.2.1 := by simp [hcalls]
      simpa using hmem
    exact ⟨e, he, 0, hcall, _, rfl, rfl, rfl⟩
  · intro es' t hes' hquiet
    exact (hall nestedProgram nestedProgram_marks 22 (by decide) _
      ⟨nestedBody, by simp [nestedProgram], rfl⟩).1 es nestedState es' t hes hes' hquiet

end DimensionChain.Wasm
