/-!
# Operation codes

An operation code names an elementwise operation.  Binary operations read
both operands, all others read the left one only.  The declaration order of
the codes is the order in which they compare.
-/

namespace Elementwise

/-- The elementwise operations. -/
inductive OpCode where
  /-- Pass the operand on; used where a result is itself an input. -/
  | copy
  | add
  | sub
  | mul
  | div
  | pow
  | neg
  | log
  | exp
  /-- The operand where it is positive and zero elsewhere. -/
  | relu
  /-- The logistic function. -/
  | sigmoid
  | tanh
deriving DecidableEq, Repr, Inhabited

namespace OpCode

/-- Every operation code, in declaration order. -/
def all : List OpCode :=
  [copy, add, sub, mul, div, pow, neg, log, exp, relu, sigmoid, tanh]

/-- The position of a code in declaration order. -/
def index (opcode : OpCode) : Nat :=
  opcode.ctorIdx

/-- Codes compare by their position. -/
def less (left right : OpCode) : Bool :=
  left.index < right.index

/-- The number of operands that an operation reads. -/
def arity : OpCode → Nat
  | add | sub | mul | div | pow => 2
  | _ => 1

def isBinary (opcode : OpCode) : Bool :=
  opcode.arity == 2

/-- Whether the order of the operands is immaterial. -/
def isCommutative : OpCode → Bool
  | add | mul => true
  | _ => false

/-- The word for an operation in script listings. -/
def mnemonic : OpCode → String
  | copy => "copy"
  | add => "add"
  | sub => "sub"
  | mul => "mul"
  | div => "div"
  | pow => "pow"
  | neg => "neg"
  | log => "log"
  | exp => "exp"
  | relu => "relu"
  | sigmoid => "sigmoid"
  | tanh => "tanh"

/-- The capitalised name of an operation, as error messages write it. -/
def title (opcode : OpCode) : String :=
  opcode.mnemonic.capitalize

/-- The operation with a given mnemonic. -/
def ofMnemonic? (word : String) : Option OpCode :=
  all.find? (·.mnemonic == word)

theorem all_getElem_index (opcode : OpCode) :
    all[opcode.index]? = some opcode := by
  cases opcode <;> rfl

end OpCode

end Elementwise
