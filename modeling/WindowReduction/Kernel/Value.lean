import WindowReduction.Fault

/-!
# Kernel values

The values that kernel expressions have and the operations on them. Floating-point operations are
those of binary32, rounded to nearest after every step; integer operations are those of an
`IntUnit`, which fixes the width of an `int` and whether leaving it is an error.

Main statements: `IntUnit.settle_of_wrap_eq` (results that fit are exact in every unit).
-/

namespace WindowReduction

/-! ## Integer units -/

/-- An integer unit: the number of values of an `int` and whether arithmetic that leaves their range
is trapped or wraps around. -/
structure IntUnit where
  modulus : Nat
  traps : Bool
  deriving DecidableEq, Repr

namespace IntUnit

/-- The unit of direct execution: 64 bits, leaving the range ends the run. -/
def trapping64 : IntUnit := ⟨0x10000000000000000, true⟩

/-- The unit of a shader: 32 bits, leaving the range wraps around. -/
def wrapping32 : IntUnit := ⟨0x100000000, false⟩

/-- The signed value of the unit that is congruent to a number. -/
def wrap (u : IntUnit) (n : Int) : Int :=
  Int.bmod n u.modulus

/-- What an operation with the exact result `n` gives. -/
def settle (u : IntUnit) (cause : Overflow) (n : Int) : Except Halt Int :=
  if u.traps ∧ u.wrap n ≠ n then .error (.overflow cause) else .ok (u.wrap n)

/-- A result that is a value of the unit is given as it is. -/
theorem settle_of_wrap_eq {u : IntUnit} {n : Int} (cause : Overflow) (h : u.wrap n = n) :
    u.settle cause n = .ok n := by
  simp [settle, h]

/-- The sum of two integers. -/
def add (u : IntUnit) (m n : Int) : Except Halt Int :=
  u.settle .add (m + n)

/-- The product of two integers. -/
def mul (u : IntUnit) (m n : Int) : Except Halt Int :=
  u.settle .mul (m * n)

end IntUnit

/-! ## Vectors -/

/-- Four lanes. -/
structure Vec4 (α : Type) where
  x : α
  y : α
  z : α
  w : α
  deriving DecidableEq, Repr

namespace Vec4

/-- The lanes in order. -/
def toList {α : Type} (v : Vec4 α) : List α :=
  [v.x, v.y, v.z, v.w]

/-- Four equal lanes. -/
def splat {α : Type} (a : α) : Vec4 α :=
  ⟨a, a, a, a⟩

/-- Combines two vectors lane by lane. -/
def zipWith {α β γ : Type} (f : α → β → γ) (v : Vec4 α) (w : Vec4 β) : Vec4 γ :=
  ⟨f v.x w.x, f v.y w.y, f v.z w.z, f v.w w.w⟩

/-- Converts the lanes in order; the first failure ends the conversion. -/
def mapM {ε α β : Type} (f : α → Except ε β) (v : Vec4 α) : Except ε (Vec4 β) := do
  let x ← f v.x
  let y ← f v.y
  let z ← f v.z
  let w ← f v.w
  return ⟨x, y, z, w⟩

end Vec4

/-! ## Floating-point operations -/

/-- The lesser of two numbers; the first one unless the second is less. -/
def lesser (x y : Float32) : Float32 :=
  if y < x then y else x

/-- The greater of two numbers; the first one unless it is less than the second. -/
def greater (x y : Float32) : Float32 :=
  if x < y then y else x

/-- The sum of the products of the lanes, added up from zero in order. -/
def dotProduct (v w : Vec4 Float32) : Float32 :=
  (Vec4.zipWith (· * ·) v w).toList.foldl (· + ·) 0.0

/-- A truth value as a number. -/
def truthValue (b : Bool) : Float32 :=
  if b then 1.0 else 0.0

/-! ## Values -/

/-- The values of kernel expressions. -/
inductive Value where
  | int (n : Int)
  | float (x : Float32)
  | bool (b : Bool)
  | vec4 (v : Vec4 Float32)
  | bvec4 (v : Vec4 Bool)
  deriving DecidableEq

/-- The fault of an operation on values of the wrong types. -/
def mismatch {α : Type} : Except Halt α :=
  .error (.fault .typeMismatch)

namespace Value

/-- The type of a value. -/
def ty : Value → Ty
  | int _ => .int
  | float _ => .float
  | bool _ => .bool
  | vec4 _ => .vec4
  | bvec4 _ => .bvec4

/-- The integer that a value is. -/
def asInt : Value → Except Halt Int
  | int n => .ok n
  | _ => mismatch

/-- The number that a value is. -/
def asFloat : Value → Except Halt Float32
  | float x => .ok x
  | _ => mismatch

/-- The Boolean vector that a value is. -/
def asBoolVector : Value → Except Halt (Vec4 Bool)
  | bvec4 v => .ok v
  | _ => mismatch

/-- A scalar as a number. -/
def toFloat : Value → Except Halt Float32
  | int n => .ok (Float32.ofInt n)
  | float x => .ok x
  | bool b => .ok (truthValue b)
  | _ => mismatch

/-- A scalar as a truth value: everything but zero is true. -/
def toBool : Value → Except Halt Bool
  | int n => .ok (n != 0)
  | float x => .ok (x != 0.0)
  | bool b => .ok b
  | _ => mismatch

/-- One lane of a vector. -/
def lane : Value → Nat → Except Halt Value
  | vec4 v, k => match v.toList[k]? with
    | some x => .ok (float x)
    | none => mismatch
  | bvec4 v, k => match v.toList[k]? with
    | some b => .ok (bool b)
    | none => mismatch
  | _, _ => mismatch

/-- The vector of a type with the given scalars as lanes. -/
def pack (ty : Ty) (lanes : Vec4 Value) : Except Halt Value :=
  match ty with
  | .vec4 => vec4 <$> lanes.mapM toFloat
  | .bvec4 => bvec4 <$> lanes.mapM toBool
  | _ => mismatch

/-- The vector of a type with one scalar in all lanes. -/
def splat (ty : Ty) (value : Value) : Except Halt Value :=
  match ty with
  | .vec4 => (vec4 ∘ Vec4.splat) <$> value.toFloat
  | .bvec4 => (bvec4 ∘ Vec4.splat) <$> value.toBool
  | _ => mismatch

end Value

/-! ## Operators -/

/-- Whether an operator accepts a left operand before the right one is evaluated. Only a conjunction
looks at it that early. -/
def BinaryOp.admit : BinaryOp → Value → Except Halt Unit
  | .and, .bool _ => .ok ()
  | .and, _ => mismatch
  | _, _ => .ok ()

/-- The value of an operator on evaluated operands. -/
def BinaryOp.apply (u : IntUnit) : BinaryOp → Value → Value → Except Halt Value
  | .add, .int m, .int n => .int <$> u.add m n
  | .add, .float x, .float y => .ok (.float (x + y))
  | .add, .vec4 v, .vec4 w => .ok (.vec4 (v.zipWith (· + ·) w))
  | .mul, .int m, .int n => .int <$> u.mul m n
  | .mul, .float x, .float y => .ok (.float (x * y))
  | .mul, .vec4 v, .vec4 w => .ok (.vec4 (v.zipWith (· * ·) w))
  | .atLeast, .int m, .int n => .ok (.bool (n ≤ m))
  | .atLeast, .float x, .float y => .ok (.bool (y ≤ x))
  | .and, .bool p, .bool q => .ok (.bool (p && q))
  | _, _, _ => mismatch

/-- The value of a function on evaluated arguments. -/
def Builtin.apply : Builtin → Value → Value → Except Halt Value
  | .dot, .vec4 v, .vec4 w => .ok (.float (dotProduct v w))
  | .min, .float x, .float y => .ok (.float (lesser x y))
  | .min, .vec4 v, .vec4 w => .ok (.vec4 (v.zipWith lesser w))
  | .max, .float x, .float y => .ok (.float (greater x y))
  | .max, .vec4 v, .vec4 w => .ok (.vec4 (v.zipWith greater w))
  | _, _, _ => mismatch

end WindowReduction
