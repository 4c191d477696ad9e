import DimensionChain.Chain.Types

/-!
# WebAssembly modules

A module as the injectors see it: its types, the functions it imports and defines, its globals,
memories, exports, start function and table segments. The code of a function is the list of its
decoded instructions, grouped as in `WASM_OP_SEQ` by the kind of field they carry.
-/

namespace DimensionChain.Wasm

inductive VoidOp where
  | error | end_ | unreachable | nop | else_ | return_ | drop | select | i32Eqz | i32Eq | i32Ne
  | i32LtS | i32LtU | i32GtS | i32GtU | i32LeS | i32LeU | i32GeS | i32GeU | i64Eqz | i64Eq
  | i64Ne | i64LtS | i64LtU | i64GtS | i64GtU | i64LeS | i64LeU | i64GeS | i64GeU | f32Eq | f32Ne
  | f32Lt | f32Gt | f32Le | f32Ge | f64Eq | f64Ne | f64Lt | f64Gt | f64Le | f64Ge | i32Clz
  | i32Ctz | i32Popcnt | i32Add | i32Sub | i32Mul | i32DivS | i32DivU | i32RemS | i32RemU
  | i32And | i32Or | i32Xor | i32Shl | i32ShrS | i32ShrU | i32Rotl | i32Rotr | i64Clz | i64Ctz
  | i64Popcnt | i64Add | i64Sub | i64Mul | i64DivS | i64DivU | i64RemS | i64RemU | i64And | i64Or
  | i64Xor | i64Shl | i64ShrS | i64ShrU | i64Rotl | i64Rotr | f32Abs | f32Neg | f32Ceil
  | f32Floor | f32Trunc | f32Nearest | f32Sqrt | f32Add | f32Sub | f32Mul | f32Div | f32Min
  | f32Max | f32Copysign | f64Abs | f64Neg | f64Ceil | f64Floor | f64Trunc | f64Nearest | f64Sqrt
  | f64Add | f64Sub | f64Mul | f64Div | f64Min | f64Max | f64Copysign | i32WrapI64 | i32TruncSF32
  | i32TruncUF32 | i32TruncSF64 | i32TruncUF64 | i64ExtendSI32 | i64ExtendUI32 | i64TruncSF32
  | i64TruncUF32 | i64TruncSF64 | i64TruncUF64 | f32ConvertSI32 | f32ConvertUI32 | f32ConvertSI64
  | f32ConvertUI64 | f32DemoteF64 | f64ConvertSI32 | f64ConvertUI32 | f64ConvertSI64
  | f64ConvertUI64 | f64PromoteF32 | i32ReinterpretF32 | i64ReinterpretF64 | f32ReinterpretI32
  | f64ReinterpretI64 | growMemory | currentMemory
  deriving DecidableEq, Repr

inductive BlockOp where
  | block | loop | if_
  deriving DecidableEq, Repr

inductive WordOp where
  | br | brIf | call | callIndirect | getLocal | setLocal | teeLocal | getGlobal | setGlobal
  | i32Const | f32Const
  deriving DecidableEq, Repr

inductive MemoryOp where
  | i32Load | i64Load | f32Load | f64Load | i32Load8S | i32Load8U | i32Load16S | i32Load16U
  | i64Load8S | i64Load8U | i64Load16S | i64Load16U | i64Load32S | i64Load32U | i32Store
  | i64Store | f32Store | f64Store | i32Store8 | i32Store16 | i64Store8 | i64Store16 | i64Store32
  deriving DecidableEq, Repr

inductive LongOp where
  | i64Const | f64Const
  deriving DecidableEq, Repr

inductive Op where
  | void (op : VoidOp)
  | block (op : BlockOp)
  | word (op : WordOp)
  | memory (op : MemoryOp)
  | long (op : LongOp)
  | brTable
  deriving DecidableEq, Repr

/-- An instruction with its field. The result of a block type is the byte of the stream. -/
inductive Instr where
  | void (op : VoidOp)
  | block (op : BlockOp) (result : Nat)
  | word (op : WordOp) (field : Nat)
  | memory (op : MemoryOp) (a o : Nat)
  | long (op : LongOp) (field : Nat)
  | brTable (targetDepth tableIndex : Nat)
  deriving DecidableEq, Repr

def Instr.op : Instr → Op
  | .void op => .void op
  | .block op _ => .block op
  | .word op _ => .word op
  | .memory op _ _ => .memory op
  | .long op _ => .long op
  | .brTable _ _ => .brTable

@[match_pattern] abbrev Instr.call (index : Nat) : Instr := .word .call index

@[match_pattern] abbrev Instr.loop (result : Nat) : Instr := .block .loop result

inductive ValueType where
  | i32 | i64 | f32 | f64
  deriving DecidableEq, Repr

/-- A function type; `ret` is `none` for `ResultType::none`. -/
structure FunctionType where
  ret : Option ValueType
  parameters : List ValueType
  deriving DecidableEq, Repr

structure FunctionImport where
  type : Nat
  moduleName : String
  exportName : String
  deriving DecidableEq, Repr

structure FunctionDef where
  type : Nat
  code : List Instr
  deriving DecidableEq, Repr

structure GlobalType where
  valueType : ValueType
  isMutable : Bool
  deriving DecidableEq, Repr

inductive InitializerExpression where
  | i32Const (value : Int)
  | i64Const (value : Int)
  | f32Const (bits : Nat)
  | f64Const (bits : Nat)
  | getGlobal (index : Nat)
  deriving DecidableEq, Repr

structure GlobalDef where
  type : GlobalType
  initializer : InitializerExpression
  deriving DecidableEq, Repr

inductive ObjectKind where
  | function | table | memory | global
  deriving DecidableEq, Repr

structure Export where
  name : String
  kind : ObjectKind
  index : Nat
  deriving DecidableEq, Repr

structure SizeConstraints where
  min : Nat
  max : Nat
  deriving DecidableEq, Repr

structure Module where
  types : List FunctionType := []
  functionImports : List FunctionImport := []
  functionDefs : List FunctionDef := []
  globalImports : List GlobalType := []
  globalDefs : List GlobalDef := []
  memoryDefs : List SizeConstraints := []
  exports : List Export := []
  startFunctionIndex : Option Nat := none
  tableSegments : List (List Nat) := []
  deriving DecidableEq, Repr

end DimensionChain.Wasm
