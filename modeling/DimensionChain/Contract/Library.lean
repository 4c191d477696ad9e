import DimensionChain.Base.FlatMap
import DimensionChain.Base.MachineInt
import DimensionChain.Chain.Names

/-!
# What the contracts use of their library

Assertions, rows of tables, symbols and assets. The amount of an asset is a 64-bit integer: the
operators add and subtract it as the machine does and then check the range of the result, so
that they are exact for operands in that range.
-/

namespace DimensionChain

def eosioAssert (c : Prop) [Decidable c] (message : String) : Result Unit :=
  eosAssert c .eosioAssertMessage message

variable {message : String} {a : Int64} {u : Unit}

@[simp] lemma eosioAssert_ok_iff {c : Prop} [Decidable c] :
    eosioAssert c message = .ok u ↔ c := eosAssert_ok_iff

def getRow {κ ν : Type} [LinearOrder κ] (m : FlatMap κ ν) (k : κ) (message : String) : Result ν :=
  match m.find? k with
  | none => .error ⟨.eosioAssertMessage, message⟩
  | some row => .ok row

@[simp] lemma getRow_ok_iff {κ ν : Type} [LinearOrder κ] {m : FlatMap κ ν} {k : κ}
    {row : ν} : getRow m k message = .ok row ↔ m.find? k = some row := by
  unfold getRow
  cases m.find? k with
  | none => simp
  | some found => simp

def requireAuthOf (auths : List AccountName) (account : AccountName) : Result Unit :=
  eosAssert (account ∈ auths) .missingAuth "missing authority of $\x7baccount\x7d"

@[simp] lemma requireAuthOf_ok_iff {auths : List AccountName} {account : AccountName} :
    requireAuthOf auths account = .ok u ↔ account ∈ auths := eosAssert_ok_iff

namespace Symbol

def zeros : Nat → Nat → Bool
  | 0, _ => true
  | n + 1, value => if value / 256 % 256 ≠ 0 then false else zeros n (value / 256)

def letters : Nat → Nat → Bool
  | 0, _ => true
  | n + 1, value =>
    if ¬(65 ≤ value % 256 ∧ value % 256 ≤ 90) then false
    else if value / 256 % 256 = 0 then zeros (n + 1) (value / 256)
    else letters n (value / 256)

def isValid (value : Nat) : Bool := letters 7 (value / 256)

def name (value : Nat) : Nat := value / 256

end Symbol

def Config.coreSymbol : Nat := 4 + 69 * 2 ^ 8 + 79 * 2 ^ 16 + 78 * 2 ^ 24

lemma coreSymbol_isValid : Symbol.isValid Config.coreSymbol = true := by decide

structure Asset where
  amount : Int64
  symbol : Nat
  deriving DecidableEq, Repr

namespace Asset

def maxAmount : Int64 := 4611686018427387903

def AmountInRange (amount : Int64) : Prop := -maxAmount ≤ amount ∧ amount ≤ maxAmount

instance (amount : Int64) : Decidable (AmountInRange amount) := inferInstanceAs (Decidable (_ ∧ _))

def IsValid (a : Asset) : Prop := AmountInRange a.amount ∧ Symbol.isValid a.symbol = true

instance (a : Asset) : Decidable a.IsValid := inferInstanceAs (Decidable (_ ∧ _))

def make (amount : Int64) (symbol : Nat) : Result Asset := do
  eosioAssert (AmountInRange amount) "magnitude of asset amount must be less than 2^62"
  eosioAssert (Symbol.isValid symbol = true) "invalid symbol name"
  pure ⟨amount, symbol⟩

def addAmount (a b : Int64) : Result Int64 := do
  eosioAssert (-maxAmount ≤ a + b) "addition underflow"
  eosioAssert (a + b ≤ maxAmount) "addition overflow"
  pure (a + b)

def subAmount (a b : Int64) : Result Int64 := do
  eosioAssert (-maxAmount ≤ a - b) "subtraction underflow"
  eosioAssert (a - b ≤ maxAmount) "subtraction overflow"
  pure (a - b)

def add (a b : Asset) : Result Asset := do
  eosioAssert (b.symbol = a.symbol) "attempt to add asset with different symbol"
  let amount ← addAmount a.amount b.amount
  pure ⟨amount, a.symbol⟩

def sub (a b : Asset) : Result Asset := do
  eosioAssert (b.symbol = a.symbol) "attempt to subtract asset with different symbol"
  let amount ← subAmount a.amount b.amount
  pure ⟨amount, a.symbol⟩

def requireCore (a : Asset) : Result Unit :=
  eosioAssert (a.symbol = Config.coreSymbol) "comparison of assets with different symbols is not allowed"

lemma amountInRange_iff : AmountInRange a ↔ -(2 ^ 62 - 1) ≤ a.toInt ∧ a.toInt ≤ 2 ^ 62 - 1 := by
  unfold AmountInRange
  rw [Int64.le_iff_toInt_le, Int64.le_iff_toInt_le]
  rfl

lemma make_ok_iff {amount : Int64} {symbol : Nat} {a : Asset} : make amount symbol = .ok a ↔
      AmountInRange amount ∧ Symbol.isValid symbol = true ∧ ⟨amount, symbol⟩ = a := by
  simp [make, bind_ok_iff, pure, Except.pure]

variable {b c : Int64}

lemma addAmount_ok_iff : addAmount a b = .ok c ↔ AmountInRange (a + b) ∧ a + b = c := by
  simp only [addAmount, AmountInRange, bind_ok_iff, eosioAssert_ok_iff, exists_const, pure,
    Except.pure, Except.ok.injEq, and_assoc]

lemma subAmount_ok_iff : subAmount a b = .ok c ↔ AmountInRange (a - b) ∧ a - b = c := by
  simp only [subAmount, AmountInRange, bind_ok_iff, eosioAssert_ok_iff, exists_const, pure,
    Except.pure, Except.ok.injEq, and_assoc]

lemma add_ok_iff {a b c : Asset} : a.add b = .ok c ↔
    b.symbol = a.symbol ∧ AmountInRange (a.amount + b.amount) ∧
      ⟨a.amount + b.amount, a.symbol⟩ = c := by
  simp [add, bind_ok_iff, addAmount_ok_iff, pure, Except.pure]

lemma sub_ok_iff {a b c : Asset} : a.sub b = .ok c ↔
    b.symbol = a.symbol ∧ AmountInRange (a.amount - b.amount) ∧
      ⟨a.amount - b.amount, a.symbol⟩ = c := by
  simp [sub, bind_ok_iff, subAmount_ok_iff, pure, Except.pure]

lemma toInt_add_of_inRange (ha : AmountInRange a) (hb : AmountInRange b) :
    (a + b).toInt = a.toInt + b.toInt := by
  rw [amountInRange_iff] at ha hb
  exact toInt_add_of_fits (by omega) (by omega)

lemma toInt_sub_of_inRange (ha : AmountInRange a) (hb : AmountInRange b) :
    (a - b).toInt = a.toInt - b.toInt := by
  rw [amountInRange_iff] at ha hb
  exact toInt_sub_of_fits (by omega) (by omega)

lemma toInt_neg_of_inRange (ha : AmountInRange a) : (-a).toInt = -a.toInt := by
  rw [amountInRange_iff] at ha
  exact toInt_neg_of_fits (by omega)

lemma addAmount_exact (ha : AmountInRange a) (hb : AmountInRange b)
    (h : addAmount a b = .ok c) : AmountInRange c ∧ c.toInt = a.toInt + b.toInt := by
  obtain ⟨hrange, rfl⟩ := addAmount_ok_iff.mp h
  exact ⟨hrange, toInt_add_of_inRange ha hb⟩

lemma subAmount_exact (ha : AmountInRange a) (hb : AmountInRange b)
    (h : subAmount a b = .ok c) : AmountInRange c ∧ c.toInt = a.toInt - b.toInt := by
  obtain ⟨hrange, rfl⟩ := subAmount_ok_iff.mp h
  exact ⟨hrange, toInt_sub_of_inRange ha hb⟩

def rangeErrors : List String :=
  ["addition underflow", "addition overflow", "subtraction underflow", "subtraction overflow"]

def NoOverflow {α : Type} (x : Result α) : Prop :=
  ∀ e, x = .error e → e.message ∉ rangeErrors

namespace NoOverflow
variable {α β : Type}

lemma of_ok (a : α) : NoOverflow (.ok a) := by
  intro e h
  cases h

lemma of_error {e : ChainException} (h : e.message ∉ rangeErrors) :
    NoOverflow (.error e : Result α) := by
  intro e' h'
  cases h'
  exact h

lemma bind {x : Result α} {f : α → Result β} (hx : NoOverflow x)
    (hf : ∀ a, x = .ok a → NoOverflow (f a)) : NoOverflow (x >>= f) := by
  cases x with
  | error e => exact of_error (hx e rfl)
  | ok a => exact hf a rfl

lemma assert {c : Prop} [Decidable c] {kind : ExceptionKind} {f : Unit → Result β}
    (h : message ∉ rangeErrors) (hf : c → NoOverflow (f ())) :
    NoOverflow (eosAssert c kind message >>= f) := by
  unfold eosAssert
  split
  · rename_i hc
    exact hf hc
  · exact of_error h

lemma row {κ : Type} [LinearOrder κ] {m : FlatMap κ α} {k : κ} {f : α → Result β}
    (h : message ∉ rangeErrors) (hf : ∀ a, m.find? k = some a → NoOverflow (f a)) :
    NoOverflow (getRow m k message >>= f) := by
  unfold getRow
  split
  · exact of_error h
  · rename_i a ha
    exact hf a ha

end NoOverflow

end Asset

structure Transfer where
  sender : AccountName
  receiver : AccountName
  quantity : Asset
  memo : String
  deriving DecidableEq, Repr

end DimensionChain
