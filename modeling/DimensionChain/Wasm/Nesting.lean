import DimensionChain.Wasm.Injection

/-!
# The nesting validator

Before the code of a contract is stored, `wasm_binary_validation::validate` visits its instructions.
One counter follows the nesting of all functions: it goes up at `block`, `loop`, `if` and `else`,
down at an `end` that finds it above zero, and up at an `end` that finds it at zero.
-/

namespace DimensionChain.Wasm

open List

structure NestedValidator where
  disabled : Bool
  depth : Nat
  deriving DecidableEq

namespace NestedValidator

def init (disable : Bool) : NestedValidator :=
  ⟨disable, 0⟩

def nestedDepthExceeded : ChainException :=
  ⟨.wasmExecution, "Nested depth exceeded"⟩

def accept (v : NestedValidator) (i : Instr) : Result NestedValidator :=
  if v.disabled then .ok v
  else if i = .void .end_ ∧ 0 < v.depth then .ok { v with depth := v.depth - 1 }
  else if v.depth + 1 < 1024 then .ok { v with depth := v.depth + 1 }
  else .error nestedDepthExceeded

def visit (v : NestedValidator) : Instr → Result NestedValidator
  | .void .error => .error ⟨.wasmExecution, "Error, blacklisted opcode $\x7bop\x7d "⟩
  | .memory _ _ o =>
    if maximumLinearMemory ≤ o then
      .error ⟨.wasmExecution, "Smart contract used an invalid large memory store/load offset"⟩
    else .ok v
  | .block op result => v.accept (.block op result)
  | .void .else_ => v.accept (.void .else_)
  | .void .end_ => v.accept (.void .end_)
  | _ => .ok v

def visitCode (v : NestedValidator) (code : List Instr) : Result NestedValidator :=
  code.foldlM visit v

/-- The loop of `validate` over the functions. The checks of the whole module come before it. -/
def validate (disable : Bool) (m : Module) : Result NestedValidator :=
  m.functionDefs.foldlM (fun v fd => v.visitCode fd.code) (init disable)

end NestedValidator

def Instr.IsNesting : Instr → Prop
  | .block _ _ | .void .else_ | .void .end_ => True
  | _ => False

inductive Nested : Nat → List Instr → Prop where
  | nil {n : Nat} : Nested n []
  | plain {n : Nat} {i : Instr} {rest : List Instr} : ¬i.IsNesting → Nested n rest →
      Nested n (i :: rest)
  | construct {n result : Nat} {op : BlockOp} {body rest : List Instr} : Nested n body →
      Nested (n + 1) rest → Nested (n + 1) (.block op result :: (body ++ .void .end_ :: rest))
  | ifElse {n result : Nat} {thenBody elseBody rest : List Instr} : Nested n thenBody →
      Nested n elseBody → Nested (n + 1) rest → Nested (n + 1)
        (.block .if_ result :: (thenBody ++ .void .else_ :: (elseBody ++ .void .end_ :: rest)))

def FunctionDef.Closed (n : Nat) (fd : FunctionDef) : Prop :=
  ∃ body, fd.code = body ++ [.void .end_] ∧ Nested n body

def elses (code : List Instr) : Nat :=
  code.count (.void .else_)

/-- What functions leave on the counter: each `else` stays, and the last `end` takes one away or,
at zero, adds one. -/
def carried (fds : List FunctionDef) : Nat :=
  fds.foldl (fun c fd => if c + elses fd.code = 0 then 1 else c + elses fd.code - 1) 0

def openAfter (d : Nat) : Instr → Option Nat
  | .block _ _ => some (d + 1)
  | .void .end_ => if d = 0 then none else some (d - 1)
  | _ => some d

/-- How many constructs are open behind the code of which `d` were open before it. -/
def openBehind (d : Nat) (code : List Instr) : Option Nat :=
  code.foldlM openAfter d

namespace Instr

def Counts : Instr → Prop
  | .block _ _ | .void .else_ => True
  | _ => False

/-- An instruction that another validator refuses. -/
def Refused : Instr → Prop
  | .void .error => True
  | .memory _ _ o => maximumLinearMemory ≤ o
  | _ => False

end Instr

lemma openBehind_append {d d' : Nat} {p q : List Instr} :
    openBehind d (p ++ q) = some d' ↔ ∃ k, openBehind d p = some k ∧ openBehind k q = some d' := by
  unfold openBehind
  rw [foldlM_append]
  exact Option.bind_eq_some_iff

lemma openBehind_cons {d d' : Nat} {i : Instr} {q : List Instr} :
    openBehind d (i :: q) = some d' ↔ ∃ k, openAfter d i = some k ∧ openBehind k q = some d' := by
  unfold openBehind
  rw [foldlM_cons]
  exact Option.bind_eq_some_iff

lemma openBehind_le {d d' : Nat} {p : List Instr} (h : openBehind d p = some d') :
    d' ≤ d + p.length := by
  induction p generalizing d with
  | nil =>
    cases h
    exact Nat.le_refl _
  | cons i p ih =>
    obtain ⟨k, hk, h⟩ := openBehind_cons.mp h
    have hstep : k ≤ d + 1 := by
      unfold openAfter at hk
      grind
    have hrest := ih h
    rw [length_cons]
    omega

lemma openAfter_plain {i : Instr} (hi : ¬i.IsNesting) (d : Nat) : openAfter d i = some d := by
  unfold openAfter
  split
  · exact absurd trivial hi
  · exact absurd trivial hi
  · rfl

lemma Nested.openBehind_eq {n : Nat} {code : List Instr} (h : Nested n code) :
    ∀ d, openBehind d code = some d := by
  induction h with
  | nil => exact fun _ => rfl
  | plain hi _ ih => exact fun d => openBehind_cons.mpr ⟨d, openAfter_plain hi d, ih d⟩
  | construct _ _ ihbody ihrest =>
    intro d
    exact openBehind_cons.mpr ⟨d + 1, rfl, openBehind_append.mpr
      ⟨d + 1, ihbody _, openBehind_cons.mpr ⟨d, rfl, ihrest d⟩⟩⟩
  | ifElse _ _ _ iha ihb ihrest =>
    intro d
    exact openBehind_cons.mpr ⟨d + 1, rfl, openBehind_append.mpr ⟨d + 1, iha _,
      openBehind_cons.mpr ⟨d + 1, rfl, openBehind_append.mpr
        ⟨d + 1, ihb _, openBehind_cons.mpr ⟨d, rfl, ihrest d⟩⟩⟩⟩⟩

lemma foldlM_error_iff {α σ ε : Type} {f : σ → α → Except ε σ} {l : List α} {e : ε} {s : σ} :
    l.foldlM f s = .error e ↔
      ∃ p a q s', l = p ++ a :: q ∧ p.foldlM f s = .ok s' ∧ f s' a = .error e := by
  induction l generalizing s with
  | nil => simp [pure, Except.pure]
  | cons b l ih =>
    rw [foldlM_cons]
    constructor
    · intro h
      cases hb : f s b with
      | error e' =>
        rw [hb] at h
        cases h
        exact ⟨[], b, l, s, rfl, rfl, hb⟩
      | ok s₁ =>
        rw [hb] at h
        obtain ⟨p, a, q, s', rfl, hp, ha⟩ := ih.mp h
        exact ⟨b :: p, a, q, s', rfl, by rw [foldlM_cons, hb]; exact hp, ha⟩
    rintro ⟨p, a, q, s', hsplit, hp, ha⟩
    rcases p with - | ⟨c, p⟩
    · cases hsplit
      cases hp
      rw [ha]
      rfl
    cases hsplit
    rw [foldlM_cons] at hp
    obtain ⟨s₁, hb, hp⟩ := bind_ok_iff.mp hp
    rw [hb]
    exact ih.mpr ⟨p, a, q, s', rfl, hp, ha⟩

lemma foldlM_error_append {α σ ε : Type} {f : σ → α → Except ε σ} {p q : List α} {e : ε} {s : σ}
    (h : p.foldlM f s = .error e) : (p ++ q).foldlM f s = .error e := by
  rw [foldlM_append, h]
  rfl

namespace NestedValidator

/-- The counter behind an instruction that is not refused. -/
def count (c : Nat) : Instr → Nat
  | .block _ _ | .void .else_ => c + 1
  | .void .end_ => if c = 0 then 1 else c - 1
  | _ => c

/-- What the validators make of an instruction, with the counter at `c`. -/
inductive Visited (c : Nat) (i : Instr) : Result NestedValidator → Prop
  | refused (e : ChainException) (hi : i.Refused) (he : e ≠ nestedDepthExceeded) :
      Visited c i (.error e)
  | exceeded (hi : i.Counts) (hc : 1024 ≤ c + 1) : Visited c i (.error nestedDepthExceeded)
  | counted (hi : ¬i.Refused) (hc : i.Counts → c + 1 < 1024) : Visited c i (.ok ⟨false, count c i⟩)

section Visits
variable {c d d' n : Nat} {i : Instr} {code : List Instr} {v : NestedValidator}
  {e : ChainException}

lemma visited_accept (hi : i.Counts) (hr : ¬i.Refused) (hend : i ≠ .void .end_)
    (hcount : count c i = c + 1) : Visited c i (accept ⟨false, c⟩ i) := by
  unfold accept
  rw [if_neg (by simp), if_neg (fun h => hend h.1), ← hcount]
  split
  · exact .counted hr fun _ => by omega
  · exact .exceeded hi (by omega)

lemma visited (c : Nat) (i : Instr) : Visited c i (visit ⟨false, c⟩ i) := by
  unfold visit
  split
  case h_1 => exact .refused _ trivial (by decide)
  case h_2 _ _ o =>
    split
    · next ho => exact .refused _ ho (by decide)
    · next ho => exact .counted ho fun h => h.elim
  case h_3 => exact visited_accept trivial id (by simp) rfl
  case h_4 => exact visited_accept trivial id (by simp) rfl
  case h_5 =>
    rcases Nat.eq_zero_or_pos c with rfl | hc
    · exact .counted id fun h => h.elim
    have haccept : accept ⟨false, c⟩ (.void .end_) = .ok ⟨false, count c (.void .end_)⟩ := by
      simp [accept, count, hc, hc.ne']
    rw [haccept]
    exact .counted id fun h => h.elim
  case h_6 herror hmemory hblock helse hend =>
    have hcount : count c i = c := by
      unfold count
      split <;> simp_all
    have hcounts : ¬i.Counts := by
      unfold Instr.Counts
      split <;> simp_all
    have hrefused : ¬i.Refused := by
      unfold Instr.Refused
      split <;> simp_all
    have h := Visited.counted (c := c) hrefused fun h => absurd h hcounts
    rwa [hcount] at h

lemma visit_exceeds (hi : i.Counts) (hc : 1024 ≤ c + 1) :
    visit ⟨false, c⟩ i = .error nestedDepthExceeded := by
  have hvisited := visited c i
  generalize visit ⟨false, c⟩ i = x at hvisited ⊢
  cases hvisited with
  | refused _ hrefused _ =>
    unfold Instr.Counts at hi
    split at hi
    · exact False.elim hrefused
    · exact False.elim hrefused
    · exact False.elim hi
  | exceeded _ _ => rfl
  | counted _ hlt => exact absurd (hlt hi) (Nat.not_lt.mpr hc)

lemma visitCode_ok (h : visitCode ⟨false, c⟩ code = .ok v) :
    v = ⟨false, code.foldl count c⟩ ∧ ∀ i ∈ code, ¬i.Refused := by
  induction code generalizing c with
  | nil =>
    cases h
    exact ⟨rfl, fun _ hi => by cases hi⟩
  | cons i code ih =>
    unfold visitCode at h
    rw [foldlM_cons] at h
    obtain ⟨v', hv', h⟩ := bind_ok_iff.mp h
    have hvisited := visited c i
    rw [hv'] at hvisited
    cases hvisited with
    | counted hi hc =>
      obtain ⟨rfl, hcode⟩ := ih h
      exact ⟨rfl, forall_mem_cons.mpr ⟨hi, hcode⟩⟩

/-- Before it comes to an `end` that closes nothing, the counter is what it was with the constructs
that have been opened and the `else` instructions. -/
lemma foldl_count (h : openBehind d code = some d') :
    code.foldl count (c + d) = c + d' + elses code := by
  induction code generalizing c d with
  | nil =>
    cases h
    rfl
  | cons i code ih =>
    obtain ⟨k, hk, h⟩ := openBehind_cons.mp h
    have hstep : count (c + d) i = c + (if i = .void .else_ then 1 else 0) + k := by
      unfold openAfter at hk
      split at hk
      · cases hk
        simp [count, Nat.add_assoc]
      · split at hk
        · cases hk
        · cases hk
          rw [show count (c + d) (.void .end_) = c + d - 1 from if_neg (by omega), if_neg (by simp)]
          omega
      · cases hk
        unfold count
        split <;> simp_all
        omega
    rw [foldl_cons, hstep, ih h]
    unfold elses
    rw [count_cons]
    by_cases hi : i = .void .else_
    · simp [hi]
      omega
    · simp [hi]

lemma openBehind_of_closed {fd : FunctionDef} {p q : List Instr} (hclosed : fd.Closed n)
    (hsplit : fd.code = p ++ i :: q) : ∃ d, openBehind 0 p = some d := by
  obtain ⟨body, hcode, hbody⟩ := hclosed
  rw [hcode] at hsplit
  have hprefix : p <+: body ++ [.void .end_] := ⟨i :: q, hsplit.symm⟩
  rcases prefix_concat_iff.mp hprefix with rfl | ⟨rest, rfl⟩
  · simp at hsplit
  obtain ⟨d, hd, -⟩ := openBehind_append.mp (hbody.openBehind_eq 0)
  exact ⟨d, hd⟩

lemma foldl_count_closed {fd : FunctionDef} (hclosed : fd.Closed n) : fd.code.foldl count c =
      if c + elses fd.code = 0 then 1 else c + elses fd.code - 1 := by
  obtain ⟨body, hcode, hbody⟩ := hclosed
  have helses : elses fd.code = elses body := by
    rw [hcode]
    simp [elses]
  rw [helses, hcode, foldl_append, ← Nat.add_zero c, foldl_count (hbody.openBehind_eq 0)]
  rfl

lemma visitCode_error (hcode : ∀ i ∈ code, ¬i.Refused) (h : visitCode ⟨false, c⟩ code = .error e) :
    e = nestedDepthExceeded := by
  obtain ⟨p, i, q, v, rfl, hp, hi⟩ := foldlM_error_iff.mp h
  obtain ⟨rfl, -⟩ := visitCode_ok hp
  have hvisited := visited (p.foldl count c) i
  rw [hi] at hvisited
  cases hvisited with
  | refused _ hrefused => exact absurd hrefused (hcode i (by simp))
  | exceeded => rfl

lemma visitAll_ok {fds : List FunctionDef} (hclosed : ∀ fd ∈ fds, ∃ n, fd.Closed n)
    (h : fds.foldlM (fun v fd => v.visitCode fd.code) (init false) = .ok v) :
    v = ⟨false, carried fds⟩ ∧ ∀ fd ∈ fds, ∀ i ∈ fd.code, ¬i.Refused := by
  induction fds using List.reverseRecOn generalizing v with
  | nil =>
    cases h
    exact ⟨rfl, fun _ hfd => by cases hfd⟩
  | append_singleton fds fd ih =>
    rw [foldlM_append] at h
    obtain ⟨v', hfds, h⟩ := bind_ok_iff.mp h
    obtain ⟨rfl, hrefused⟩ := ih (fun f hf => hclosed f (by simp [hf])) hfds
    obtain ⟨v'', hfd, h⟩ := bind_ok_iff.mp h
    cases h
    obtain ⟨rfl, hcode⟩ := visitCode_ok hfd
    obtain ⟨n, hn⟩ := hclosed fd (by simp)
    refine ⟨?_, ?_⟩
    · rw [foldl_count_closed hn]
      unfold carried
      rw [foldl_append]
      rfl
    · intro f hf
      rcases mem_append.mp hf with hf | hf
      · exact hrefused f hf
      · rw [mem_singleton.mp hf]
        exact hcode

lemma visitAll_error {fds : List FunctionDef} (hclosed : ∀ fd ∈ fds, ∃ n, fd.Closed n)
    (hrefused : ∀ fd ∈ fds, ∀ i ∈ fd.code, ¬i.Refused)
    (h : fds.foldlM (fun v fd => v.visitCode fd.code) (init false) = .error e) :
    e = nestedDepthExceeded := by
  obtain ⟨p, fd, q, v, rfl, hp, hfd⟩ := foldlM_error_iff.mp h
  obtain ⟨rfl, -⟩ := visitAll_ok (fun f hf => hclosed f (by simp [hf])) hp
  exact visitCode_error (hrefused fd (by simp)) hfd

end Visits

/-- On a producing node, a module whose constructs are closed is not refused for its nesting if and
only if, at each `block`, `loop`, `if` or `else` that the validators come to, the constructs that
are open, the `else` instructions of the function and what the functions before it have left on the
counter are together below 1023. -/
theorem closed_nesting_admitted {m : Module}
    (hclosed : ∀ fd ∈ m.functionDefs, ∃ n, fd.Closed n) :
    validate false m ≠ .error nestedDepthExceeded ↔
      ∀ before fd after p i q d, m.functionDefs = before ++ fd :: after → fd.code = p ++ i :: q →
        i.Counts → ((∀ f ∈ before, ∀ j ∈ f.code, ¬j.Refused) ∧ ∀ j ∈ p, ¬j.Refused) →
        openBehind 0 p = some d → carried before + d + elses p + 1 < 1024 := by
  constructor
  · intro hne before fd after p i q d hsplit hcode hi ⟨hbefore, hp⟩ hd
    by_contra hroom
    rw [hsplit] at hclosed
    have hclosed' : ∀ f ∈ before, ∃ n, f.Closed n := fun f hf => hclosed f (by simp [hf])
    apply hne
    unfold validate
    rw [hsplit]
    cases hv : before.foldlM (fun v fd => v.visitCode fd.code) (init false) with
    | error e =>
      obtain rfl := visitAll_error hclosed' hbefore hv
      exact foldlM_error_append hv
    | ok v =>
      obtain ⟨rfl, -⟩ := visitAll_ok hclosed' hv
      refine foldlM_error_iff.mpr ⟨before, fd, after, _, rfl, hv, ?_⟩
      rw [hcode]
      cases hc : visitCode ⟨false, carried before⟩ p with
      | error e =>
        obtain rfl := visitCode_error hp hc
        exact foldlM_error_append hc
      | ok v =>
        obtain ⟨rfl, -⟩ := visitCode_ok hc
        refine foldlM_error_iff.mpr ⟨p, i, q, _, rfl, hc, ?_⟩
        have hcount := foldl_count (c := carried before) hd
        rw [Nat.add_zero] at hcount
        rw [hcount]
        exact visit_exceeds hi (Nat.le_of_not_lt hroom)
  intro hroom herror
  obtain ⟨before, fd, after, v, hsplit, hbefore, hfd⟩ := foldlM_error_iff.mp herror
  rw [hsplit] at hclosed
  obtain ⟨rfl, hrefused⟩ := visitAll_ok (fun f hf => hclosed f (by simp [hf])) hbefore
  obtain ⟨p, i, q, v, hcode, hp, hi⟩ := foldlM_error_iff.mp hfd
  obtain ⟨rfl, hpassed⟩ := visitCode_ok hp
  obtain ⟨n, hn⟩ := hclosed fd (by simp)
  obtain ⟨d, hd⟩ := openBehind_of_closed hn hcode
  have hcount := foldl_count (c := carried before) hd
  rw [Nat.add_zero] at hcount
  have hvisited := visited (p.foldl count (carried before)) i
  rw [hi] at hvisited
  cases hvisited with
  | refused _ _ hne => exact hne rfl
  | exceeded hcounts hfull =>
    have hlt := hroom before fd after p i q d hsplit hcode hcounts ⟨hrefused, hpassed⟩ hd
    omega

def conditionals (k : Nat) : List Instr :=
  (List.replicate k [.word .i32Const 1, .block .if_ 64, .void .else_, .void .end_]).flatten

lemma nested_conditionals (k : Nat) : Nested 1 (conditionals k) := by
  induction k with
  | zero => exact .nil
  | succ k ih => exact .plain id (.ifElse .nil .nil ih)

def branching (k : Nat) : Module :=
  { types := [⟨none, [.i64, .i64, .i64]⟩]
    functionDefs := [⟨0, conditionals k ++ [.void .end_]⟩]
    exports := [⟨"apply", .function, 0⟩] }

lemma closed_branching (k : Nat) : ∀ fd ∈ (branching k).functionDefs, fd.Closed 1 := by
  intro fd hfd
  rw [mem_singleton.mp hfd]
  exact ⟨conditionals k, rfl, nested_conditionals k⟩

/-- Three conditionals are admitted, one deep as they are. -/
theorem closed_nesting_admitted_three :
    validate false (branching 3) ≠ .error nestedDepthExceeded := by
  refine (closed_nesting_admitted fun fd hfd => ⟨1, closed_branching 3 fd hfd⟩).mpr ?_
  intro before fd after p i q d hsplit hcode _ _ hd
  rcases before with - | ⟨first, before⟩
  · cases hsplit
    have hlength : 13 = p.length + (q.length + 1) := by
      rw [← length_cons, ← length_append, ← hcode]
      rfl
    have helses : elses p ≤ p.length := count_le_length
    have hopen := openBehind_le hd
    change 0 + d + elses p + 1 < 1024
    omega
  · simp [branching] at hsplit

/-- The same function is refused when it is long, at the same depth of one. -/
theorem flat_code_refused : (∀ fd ∈ (branching 1024).functionDefs, fd.Closed 1) ∧
    validate false (branching 1024) = .error nestedDepthExceeded :=
  ⟨closed_branching 1024, error_of_thrown (by decide +kernel)⟩

end NestedValidator

end DimensionChain.Wasm
