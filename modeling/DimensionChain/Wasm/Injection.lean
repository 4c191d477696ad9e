import DimensionChain.Wasm.Module

/-!
# Instrumentation of contract code

Before a contract runs, its code is rewritten twice. The first pass puts a call depth check around
calls and replaces floating-point instructions by calls of software routines. The functions these
calls name become imports when they are first needed; until the whole module is seen, such a call
carries an index beyond all the functions there are. The second pass resolves these indices, moves
the module's own ones past the new imports and puts the calls of `checktime` in.
-/

namespace DimensionChain.Wasm

def maximumLinearMemory : Nat := 33 * 1024 * 1024

def maximumCallDepth : Nat := 250

def wasmPageSize : Nat := 64 * 1024

def injectedModuleName : String := "eosio_injection"

/-- The static members of the injectors, with the module they work on. `globalIdx` is `none` for
`-1`. -/
structure InjectorState where
  module : Module
  typeSlots : List (FunctionType × Nat) := []
  registeredInjected : List (String × Nat) := []
  injectedIndexMapping : List (Nat × Nat) := []
  nextInjectedIndex : Nat := 0
  chktmIdx : Nat := 0
  globalIdx : Option Nat := none

/-- `emplace` of a map keeps an entry that is there. -/
def emplace {κ ν : Type} [DecidableEq κ] (m : List (κ × ν)) (k : κ) (v : ν) : List (κ × ν) :=
  if (m.lookup k).isSome then m else m ++ [(k, v)]

def buildTypeSlots : List FunctionType → Nat → List (FunctionType × Nat) →
    List (FunctionType × Nat)
  | [], _, slots => slots
  | type :: types, i, slots => buildTypeSlots types (i + 1) (emplace slots type i)

def Export.increment (e : Export) : Export :=
  if e.kind = .function then { e with index := e.index + 1 } else e

def Module.incrementReferences (m : Module) : Module :=
  { m with
    exports := m.exports.map Export.increment
    startFunctionIndex := m.startFunctionIndex.map (· + 1)
    tableSegments := m.tableSegments.map fun indices => indices.map (· + 1) }

namespace InjectorState
variable (s : InjectorState)

def init (m : Module) : InjectorState :=
  { module := m, typeSlots := buildTypeSlots m.types 0 [] }

def addTypeSlot (type : FunctionType) : InjectorState :=
  if (s.typeSlots.lookup type).isNone then
    { s with
      typeSlots := emplace s.typeSlots type s.module.types.length
      module := { s.module with types := s.module.types ++ [type] } }
  else s

def nextFunctionIndex : Nat :=
  u32 (s.module.functionImports.length + s.module.functionDefs.length +
    s.registeredInjected.length)

def insertImport (type : FunctionType) (funcName : String) : InjectorState :=
  let funcTypeIndex := (s.typeSlots.lookup type).getD 0
  let registered := emplace s.registeredInjected funcName s.nextFunctionIndex
  let imports := s.module.functionImports.insertIdx (registered.length - 1)
    ⟨funcTypeIndex, injectedModuleName, funcName⟩
  { s with
    module := { s.module with functionImports := imports }.incrementReferences
    registeredInjected := registered
    injectedIndexMapping :=
      emplace s.injectedIndexMapping s.nextFunctionIndex s.nextInjectedIndex
    nextInjectedIndex := u32 (s.nextInjectedIndex + 1) }

def addImport (type : FunctionType) (funcName : String) : Nat × InjectorState :=
  if s.module.functionImports.length = 0 ∨ (s.registeredInjected.lookup funcName).isNone then
    ((s.addTypeSlot type).nextFunctionIndex, (s.addTypeSlot type).insertImport type funcName)
  else ((s.registeredInjected.lookup funcName).getD 0, s)

end InjectorState

def injectWhichOp : VoidOp → Result String
  | .f32Add => .ok "_eosio_f32_add"
  | .f32Sub => .ok "_eosio_f32_sub"
  | .f32Mul => .ok "_eosio_f32_mul"
  | .f32Div => .ok "_eosio_f32_div"
  | .f32Min => .ok "_eosio_f32_min"
  | .f32Max => .ok "_eosio_f32_max"
  | .f32Copysign => .ok "_eosio_f32_copysign"
  | .f32Abs => .ok "_eosio_f32_abs"
  | .f32Neg => .ok "_eosio_f32_neg"
  | .f32Sqrt => .ok "_eosio_f32_sqrt"
  | .f32Ceil => .ok "_eosio_f32_ceil"
  | .f32Floor => .ok "_eosio_f32_floor"
  | .f32Trunc => .ok "_eosio_f32_trunc"
  | .f32Nearest => .ok "_eosio_f32_nearest"
  | .f32Eq => .ok "_eosio_f32_eq"
  | .f32Ne => .ok "_eosio_f32_ne"
  | .f32Lt => .ok "_eosio_f32_lt"
  | .f32Le => .ok "_eosio_f32_le"
  | .f32Gt => .ok "_eosio_f32_gt"
  | .f32Ge => .ok "_eosio_f32_ge"
  | .f64Add => .ok "_eosio_f64_add"
  | .f64Sub => .ok "_eosio_f64_sub"
  | .f64Mul => .ok "_eosio_f64_mul"
  | .f64Div => .ok "_eosio_f64_div"
  | .f64Min => .ok "_eosio_f64_min"
  | .f64Max => .ok "_eosio_f64_max"
  | .f64Copysign => .ok "_eosio_f64_copysign"
  | .f64Abs => .ok "_eosio_f64_abs"
  | .f64Neg => .ok "_eosio_f64_neg"
  | .f64Sqrt => .ok "_eosio_f64_sqrt"
  | .f64Ceil => .ok "_eosio_f64_ceil"
  | .f64Floor => .ok "_eosio_f64_floor"
  | .f64Trunc => .ok "_eosio_f64_trunc"
  | .f64Nearest => .ok "_eosio_f64_nearest"
  | .f64Eq => .ok "_eosio_f64_eq"
  | .f64Ne => .ok "_eosio_f64_ne"
  | .f64Lt => .ok "_eosio_f64_lt"
  | .f64Le => .ok "_eosio_f64_le"
  | .f64Gt => .ok "_eosio_f64_gt"
  | .f64Ge => .ok "_eosio_f64_ge"
  | .f64PromoteF32 => .ok "_eosio_f32_promote"
  | .f32DemoteF64 => .ok "_eosio_f64_demote"
  | .i32TruncUF32 => .ok "_eosio_f32_trunc_i32u"
  | .i32TruncSF32 => .ok "_eosio_f32_trunc_i32s"
  | .i32TruncUF64 => .ok "_eosio_f64_trunc_i32u"
  | .i32TruncSF64 => .ok "_eosio_f64_trunc_i32s"
  | .i64TruncUF32 => .ok "_eosio_f32_trunc_i64u"
  | .i64TruncSF32 => .ok "_eosio_f32_trunc_i64s"
  | .i64TruncUF64 => .ok "_eosio_f64_trunc_i64u"
  | .i64TruncSF64 => .ok "_eosio_f64_trunc_i64s"
  | .f32ConvertSI32 => .ok "_eosio_i32_to_f32"
  | .f32ConvertUI32 => .ok "_eosio_ui32_to_f32"
  | .f32ConvertSI64 => .ok "_eosio_i64_f32"
  | .f32ConvertUI64 => .ok "_eosio_ui64_to_f32"
  | .f64ConvertSI32 => .ok "_eosio_i32_to_f64"
  | .f64ConvertUI32 => .ok "_eosio_ui32_to_f64"
  | .f64ConvertSI64 => .ok "_eosio_i64_to_f64"
  | .f64ConvertUI64 => .ok "_eosio_ui64_to_f64"
  | _ => .error ⟨.wasmExecution, "Error, unknown opcode in injection $\x7bop\x7d"⟩

inductive Injector where
  | pass | checktimeInjection | fixCallIndex | callDepthCheckAndInsertChecktime
  | f32Binop (opcode : VoidOp) | f32Unop (opcode : VoidOp) | f32Relop (opcode : VoidOp)
  | f64Binop (opcode : VoidOp) | f64Unop (opcode : VoidOp) | f64Relop (opcode : VoidOp)
  | f32TruncI32 (opcode : VoidOp) | f32TruncI64 (opcode : VoidOp)
  | f64TruncI32 (opcode : VoidOp) | f64TruncI64 (opcode : VoidOp)
  | i32ConvertF32 (opcode : VoidOp) | i64ConvertF32 (opcode : VoidOp)
  | i32ConvertF64 (opcode : VoidOp) | i64ConvertF64 (opcode : VoidOp)
  | f32Promote | f64Demote
  deriving DecidableEq, Repr

namespace Injector

def kills : Injector → Bool
  | .pass | .checktimeInjection | .fixCallIndex => false
  | _ => true

def post : Injector → Bool
  | .checktimeInjection => true
  | _ => false

abbrev voidType : FunctionType := ⟨none, []⟩

def depthCheck (globalIdx assertIdx : Nat) : List Instr :=
  [.word .getGlobal globalIdx, .void .i32Eqz, .block .if_ 0x40, .call assertIdx, .void .else_,
    .word .i32Const 4294967295, .word .getGlobal globalIdx, .void .i32Add,
    .word .setGlobal globalIdx, .void .end_]

def depthRestore (globalIdx chktmIdx : Nat) : List Instr :=
  [.word .getGlobal globalIdx, .word .i32Const 1, .void .i32Add, .word .setGlobal globalIdx,
    .call chktmIdx]

def depthGlobal : GlobalDef := ⟨⟨.i32, true⟩, .i32Const maximumCallDepth⟩

def depthModule (s : InjectorState) : Module :=
  if s.globalIdx = none then
    { s.module with globalDefs := s.module.globalDefs ++ [depthGlobal] }
  else s.module

def addDepthGlobal (s : InjectorState) : InjectorState :=
  { s with
    module := depthModule s
    globalIdx :=
      some ((depthModule s).globalImports.length + (depthModule s).globalDefs.length - 1) }

def acceptCall (inst : Instr) (s : InjectorState) : List Instr × InjectorState :=
  let s := addDepthGlobal s
  let globalIdx := s.globalIdx.getD 0
  let added := s.addImport voidType "call_depth_assert"
  (depthCheck globalIdx added.1 ++ [inst] ++ depthRestore globalIdx added.2.chktmIdx, added.2)

def callImport (type : FunctionType) (funcName : Result String) (inst : Instr)
    (s : InjectorState) : Result (Instr × List Instr × InjectorState) := do
  let name ← funcName
  pure (inst, [.call (s.addImport type name).1], (s.addImport type name).2)

/-- `accept`: the instruction as it is left, the instructions put into the new code and the state.
Following an index that is not in the map is undefined. -/
def accept : Injector → Instr → InjectorState →
    Result (Instr × List Instr × InjectorState)
  | .pass, inst, s => .ok (inst, [], s)
  | .checktimeInjection, inst, s =>
    match s.injectedIndexMapping.lookup s.chktmIdx with
    | some index => .ok (inst, [.call index], s)
    | none => .error ⟨.undefined, "end of injected_index_mapping"⟩
  | .fixCallIndex, .word op field, s =>
    match s.injectedIndexMapping.lookup field with
    | some index => .ok (.word op index, [], s)
    | none => .ok (.word op (u32 (field + s.registeredInjected.length)), [], s)
  | .fixCallIndex, _, _ => .error ⟨.undefined, "not a call"⟩
  | .callDepthCheckAndInsertChecktime, inst, s =>
    .ok (inst, (acceptCall inst s).1, (acceptCall inst s).2)
  | .f32Binop opcode, inst, s => callImport ⟨some .f32, [.f32, .f32]⟩ (injectWhichOp opcode) inst s
  | .f32Unop opcode, inst, s => callImport ⟨some .f32, [.f32]⟩ (injectWhichOp opcode) inst s
  | .f32Relop opcode, inst, s => callImport ⟨some .i32, [.f32, .f32]⟩ (injectWhichOp opcode) inst s
  | .f64Binop opcode, inst, s => callImport ⟨some .f64, [.f64, .f64]⟩ (injectWhichOp opcode) inst s
  | .f64Unop opcode, inst, s => callImport ⟨some .f64, [.f64]⟩ (injectWhichOp opcode) inst s
  | .f64Relop opcode, inst, s => callImport ⟨some .i32, [.f64, .f64]⟩ (injectWhichOp opcode) inst s
  | .f32TruncI32 opcode, inst, s => callImport ⟨some .i32, [.f32]⟩ (injectWhichOp opcode) inst s
  | .f32TruncI64 opcode, inst, s => callImport ⟨some .i64, [.f32]⟩ (injectWhichOp opcode) inst s
  | .f64TruncI32 opcode, inst, s => callImport ⟨some .i32, [.f64]⟩ (injectWhichOp opcode) inst s
  | .f64TruncI64 opcode, inst, s => callImport ⟨some .i64, [.f64]⟩ (injectWhichOp opcode) inst s
  | .i32ConvertF32 opcode, inst, s => callImport ⟨some .f32, [.i32]⟩ (injectWhichOp opcode) inst s
  | .i64ConvertF32 opcode, inst, s => callImport ⟨some .f32, [.i64]⟩ (injectWhichOp opcode) inst s
  | .i32ConvertF64 opcode, inst, s => callImport ⟨some .f64, [.i32]⟩ (injectWhichOp opcode) inst s
  | .i64ConvertF64 opcode, inst, s => callImport ⟨some .f64, [.i64]⟩ (injectWhichOp opcode) inst s
  | .f32Promote, inst, s => callImport ⟨some .f64, [.f32]⟩ (.ok "_eosio_f32_promote") inst s
  | .f64Demote, inst, s => callImport ⟨some .f32, [.f64]⟩ (.ok "_eosio_f64_demote") inst s

end Injector

inductive TypeAlias where
  | t (op : Op)
  | bare (op : Op)
  deriving DecidableEq, Repr

/-- The aliases that `pre_op_injectors` declares over those of `op_types<pass_injector>`. -/
def preOpInjectors : List (TypeAlias × Injector) := [
  (.t (.word .call), .callDepthCheckAndInsertChecktime),
  (.t (.word .callIndirect), .callDepthCheckAndInsertChecktime),
  (.t (.void .f32Add), .f32Binop .f32Add), (.t (.void .f32Sub), .f32Binop .f32Sub),
  (.t (.void .f32Div), .f32Binop .f32Div), (.t (.void .f32Mul), .f32Binop .f32Mul),
  (.t (.void .f32Min), .f32Binop .f32Min), (.t (.void .f32Max), .f32Binop .f32Max),
  (.t (.void .f32Copysign), .f32Binop .f32Copysign), (.t (.void .f32Abs), .f32Unop .f32Abs),
  (.t (.void .f32Neg), .f32Unop .f32Neg), (.t (.void .f32Sqrt), .f32Unop .f32Sqrt),
  (.t (.void .f32Floor), .f32Unop .f32Floor), (.t (.void .f32Ceil), .f32Unop .f32Ceil),
  (.t (.void .f32Trunc), .f32Unop .f32Trunc), (.t (.void .f32Nearest), .f32Unop .f32Nearest),
  (.t (.void .f32Eq), .f32Relop .f32Eq), (.t (.void .f32Ne), .f32Relop .f32Ne),
  (.t (.void .f32Lt), .f32Relop .f32Lt), (.t (.void .f32Le), .f32Relop .f32Le),
  (.t (.void .f32Gt), .f32Relop .f32Gt), (.t (.void .f32Ge), .f32Relop .f32Ge),
  (.t (.void .f64Add), .f64Binop .f64Add), (.t (.void .f64Sub), .f64Binop .f64Sub),
  (.t (.void .f64Div), .f64Binop .f64Div), (.t (.void .f64Mul), .f64Binop .f64Mul),
  (.t (.void .f64Min), .f64Binop .f64Min), (.t (.void .f64Max), .f64Binop .f64Max),
  (.t (.void .f64Copysign), .f64Binop .f64Copysign), (.t (.void .f64Abs), .f64Unop .f64Abs),
  (.t (.void .f64Neg), .f64Unop .f64Neg), (.t (.void .f64Sqrt), .f64Unop .f64Sqrt),
  (.t (.void .f64Floor), .f64Unop .f64Floor), (.t (.void .f64Ceil), .f64Unop .f64Ceil),
  (.t (.void .f64Trunc), .f64Unop .f64Trunc), (.t (.void .f64Nearest), .f64Unop .f64Nearest),
  (.t (.void .f64Eq), .f64Relop .f64Eq), (.t (.void .f64Ne), .f64Relop .f64Ne),
  (.t (.void .f64Lt), .f64Relop .f64Lt), (.t (.void .f64Le), .f64Relop .f64Le),
  (.t (.void .f64Gt), .f64Relop .f64Gt), (.t (.void .f64Ge), .f64Relop .f64Ge),
  (.t (.void .f64PromoteF32), .f32Promote), (.t (.void .f32DemoteF64), .f64Demote),
  (.t (.void .i32TruncSF32), .f32TruncI32 .i32TruncSF32),
  (.t (.void .i32TruncUF32), .f32TruncI32 .i32TruncUF32),
  (.t (.void .i32TruncSF64), .f64TruncI32 .i32TruncSF64),
  (.t (.void .i32TruncUF64), .f64TruncI32 .i32TruncUF64),
  (.t (.void .i64TruncSF32), .f32TruncI64 .i64TruncSF32),
  (.t (.void .i64TruncUF32), .f32TruncI64 .i64TruncUF32),
  (.t (.void .i64TruncSF64), .f64TruncI64 .i64TruncSF64),
  (.t (.void .i64TruncUF64), .f64TruncI64 .i64TruncUF64),
  (.bare (.void .f32ConvertSI32), .i32ConvertF32 .f32ConvertSI32),
  (.bare (.void .f32ConvertSI64), .i64ConvertF32 .f32ConvertSI64),
  (.bare (.void .f32ConvertUI32), .i32ConvertF32 .f32ConvertUI32),
  (.bare (.void .f32ConvertUI64), .i64ConvertF32 .f32ConvertUI64),
  (.bare (.void .f64ConvertSI32), .i32ConvertF64 .f64ConvertSI32),
  (.bare (.void .f64ConvertSI64), .i64ConvertF64 .f64ConvertSI64),
  (.bare (.void .f64ConvertUI32), .i32ConvertF64 .f64ConvertUI32),
  (.bare (.void .f64ConvertUI64), .i64ConvertF64 .f64ConvertUI64)]

def postOpInjectors : List (TypeAlias × Injector) := [
  (.t (.block .loop), .checktimeInjection), (.t (.word .call), .fixCallIndex)]

/-- The cached instruction of an operation has the type `op_t`, which is inherited where the class
does not declare it. -/
def cachedOp (opTypes : List (TypeAlias × Injector)) (op : Op) : Injector :=
  (opTypes.lookup (.t op)).getD .pass

def visitOp (opTypes : List (TypeAlias × Injector)) (inst : Instr) (s : InjectorState) :
    Result (List Instr × InjectorState) := do
  let injector := cachedOp opTypes inst.op
  let visited ← injector.accept inst s
  if injector.post then pure (inst :: visited.2.1, visited.2.2)
  else pure (visited.2.1 ++ (if injector.kills then [] else [visited.1]), visited.2.2)

def injectCode (opTypes : List (TypeAlias × Injector)) :
    List Instr → InjectorState → Result (List Instr × InjectorState)
  | [], s => .ok ([], s)
  | inst :: code, s => do
    let first ← visitOp opTypes inst s
    let rest ← injectCode opTypes code first.2
    pure (first.1 ++ rest.1, rest.2)

def injectDefs (opTypes : List (TypeAlias × Injector)) (start : List Instr) :
    List FunctionDef → InjectorState → Result (List FunctionDef × InjectorState)
  | [], s => .ok ([], s)
  | fd :: defs, s => do
    let body ← injectCode opTypes fd.code s
    let rest ← injectDefs opTypes start defs body.2
    pure ({ fd with code := start ++ body.1 } :: rest.1, rest.2)

def maxMemoryInject (m : Module) : Module :=
  match m.memoryDefs with
  | [] => m
  | size :: sizes =>
    if size.max > maximumLinearMemory / wasmPageSize then
      { m with memoryDefs := { size with max := maximumLinearMemory / wasmPageSize } :: sizes }
    else m

def injectChecktime (m : Module) : InjectorState :=
  let s := { InjectorState.init m with module := maxMemoryInject m }
  let added := s.addImport Injector.voidType "checktime"
  { added.2 with chktmIdx := added.1 }

def injectPre (m : Module) : Result InjectorState := do
  let pre ← injectDefs preOpInjectors [] m.functionDefs (injectChecktime m)
  pure { pre.2 with module := { pre.2.module with functionDefs := pre.1 } }

def injectPost (s : InjectorState) : Result Module :=
  match s.injectedIndexMapping.lookup s.chktmIdx with
  | some chktm => do
    let done ← injectDefs postOpInjectors [.call chktm] s.module.functionDefs s
    pure { done.2.module with functionDefs := done.1 }
  | none => .error ⟨.undefined, "end of injected_index_mapping"⟩

def inject (m : Module) : Result Module := do
  let s ← injectPre m
  injectPost s

def softfloatApi : List (String × FunctionType) := [
  ("_eosio_f32_add", ⟨some .f32, [.f32, .f32]⟩), ("_eosio_f32_sub", ⟨some .f32, [.f32, .f32]⟩),
  ("_eosio_f32_mul", ⟨some .f32, [.f32, .f32]⟩), ("_eosio_f32_div", ⟨some .f32, [.f32, .f32]⟩),
  ("_eosio_f32_min", ⟨some .f32, [.f32, .f32]⟩), ("_eosio_f32_max", ⟨some .f32, [.f32, .f32]⟩),
  ("_eosio_f32_copysign", ⟨some .f32, [.f32, .f32]⟩), ("_eosio_f32_abs", ⟨some .f32, [.f32]⟩),
  ("_eosio_f32_neg", ⟨some .f32, [.f32]⟩), ("_eosio_f32_sqrt", ⟨some .f32, [.f32]⟩),
  ("_eosio_f32_ceil", ⟨some .f32, [.f32]⟩), ("_eosio_f32_floor", ⟨some .f32, [.f32]⟩),
  ("_eosio_f32_trunc", ⟨some .f32, [.f32]⟩), ("_eosio_f32_nearest", ⟨some .f32, [.f32]⟩),
  ("_eosio_f32_eq", ⟨some .i32, [.f32, .f32]⟩), ("_eosio_f32_ne", ⟨some .i32, [.f32, .f32]⟩),
  ("_eosio_f32_lt", ⟨some .i32, [.f32, .f32]⟩), ("_eosio_f32_le", ⟨some .i32, [.f32, .f32]⟩),
  ("_eosio_f32_gt", ⟨some .i32, [.f32, .f32]⟩), ("_eosio_f32_ge", ⟨some .i32, [.f32, .f32]⟩),
  ("_eosio_f64_add", ⟨some .f64, [.f64, .f64]⟩), ("_eosio_f64_sub", ⟨some .f64, [.f64, .f64]⟩),
  ("_eosio_f64_mul", ⟨some .f64, [.f64, .f64]⟩), ("_eosio_f64_div", ⟨some .f64, [.f64, .f64]⟩),
  ("_eosio_f64_min", ⟨some .f64, [.f64, .f64]⟩), ("_eosio_f64_max", ⟨some .f64, [.f64, .f64]⟩),
  ("_eosio_f64_copysign", ⟨some .f64, [.f64, .f64]⟩), ("_eosio_f64_abs", ⟨some .f64, [.f64]⟩),
  ("_eosio_f64_neg", ⟨some .f64, [.f64]⟩), ("_eosio_f64_sqrt", ⟨some .f64, [.f64]⟩),
  ("_eosio_f64_ceil", ⟨some .f64, [.f64]⟩), ("_eosio_f64_floor", ⟨some .f64, [.f64]⟩),
  ("_eosio_f64_trunc", ⟨some .f64, [.f64]⟩), ("_eosio_f64_nearest", ⟨some .f64, [.f64]⟩),
  ("_eosio_f64_eq", ⟨some .i32, [.f64, .f64]⟩), ("_eosio_f64_ne", ⟨some .i32, [.f64, .f64]⟩),
  ("_eosio_f64_lt", ⟨some .i32, [.f64, .f64]⟩), ("_eosio_f64_le", ⟨some .i32, [.f64, .f64]⟩),
  ("_eosio_f64_gt", ⟨some .i32, [.f64, .f64]⟩), ("_eosio_f64_ge", ⟨some .i32, [.f64, .f64]⟩),
  ("_eosio_f32_promote", ⟨some .f64, [.f32]⟩), ("_eosio_f64_demote", ⟨some .f32, [.f64]⟩),
  ("_eosio_f32_trunc_i32s", ⟨some .i32, [.f32]⟩), ("_eosio_f64_trunc_i32s", ⟨some .i32, [.f64]⟩),
  ("_eosio_f32_trunc_i32u", ⟨some .i32, [.f32]⟩), ("_eosio_f64_trunc_i32u", ⟨some .i32, [.f64]⟩),
  ("_eosio_f32_trunc_i64s", ⟨some .i64, [.f32]⟩), ("_eosio_f64_trunc_i64s", ⟨some .i64, [.f64]⟩),
  ("_eosio_f32_trunc_i64u", ⟨some .i64, [.f32]⟩), ("_eosio_f64_trunc_i64u", ⟨some .i64, [.f64]⟩),
  ("_eosio_i32_to_f32", ⟨some .f32, [.i32]⟩), ("_eosio_i64_to_f32", ⟨some .f32, [.i64]⟩),
  ("_eosio_ui32_to_f32", ⟨some .f32, [.i32]⟩), ("_eosio_ui64_to_f32", ⟨some .f32, [.i64]⟩),
  ("_eosio_i32_to_f64", ⟨some .f64, [.i32]⟩), ("_eosio_i64_to_f64", ⟨some .f64, [.i64]⟩),
  ("_eosio_ui32_to_f64", ⟨some .f64, [.i32]⟩), ("_eosio_ui64_to_f64", ⟨some .f64, [.i64]⟩)]

end DimensionChain.Wasm
