import RecordLogic.Number.Digits

/-!
# Kinds of numbers

Eight integral kinds by width and sign, two floating ones, and decimals.
-/

namespace RecordLogic

inductive NumericKind where
  | i8 | u8 | i16 | u16 | i32 | u32 | i64 | u64
  | f32 | f64
  | decimal
  deriving DecidableEq, Repr

namespace NumericKind

def all : List NumericKind := [.i8, .u8, .i16, .u16, .i32, .u32, .i64, .u64, .f32, .f64, .decimal]

def name : NumericKind → String
  | .i8 => "i8"
  | .u8 => "u8"
  | .i16 => "i16"
  | .u16 => "u16"
  | .i32 => "i32"
  | .u32 => "u32"
  | .i64 => "i64"
  | .u64 => "u64"
  | .f32 => "f32"
  | .f64 => "f64"
  | .decimal => "decimal"

/-- Width in bits and signedness of an integral kind. -/
def integral? : NumericKind → Option (Nat × Bool)
  | .i8 => some (8, true)
  | .u8 => some (8, false)
  | .i16 => some (16, true)
  | .u16 => some (16, false)
  | .i32 => some (32, true)
  | .u32 => some (32, false)
  | .i64 => some (64, true)
  | .u64 => some (64, false)
  | _ => none

def isIntegral (k : NumericKind) : Bool := k.integral?.isSome

def isFloating : NumericKind → Bool
  | .f32 | .f64 => true
  | _ => false

def bounds (k : NumericKind) : Option (Int × Int) :=
  k.integral?.map fun
    | (w, true) => (-(Number.twoTo (w - 1) : Int), (Number.twoTo (w - 1) : Int) - 1)
    | (w, false) => (0, (Number.twoTo w : Int) - 1)

def fits (k : NumericKind) (n : Int) : Bool :=
  match k.bounds with
  | some (lo, hi) => lo ≤ n && n ≤ hi
  | none => false

/-- The number of an integral kind that agrees with `n` modulo its width. -/
def wrap (k : NumericKind) (n : Int) : Int :=
  match k.integral? with
  | some (w, true) => Int.bmod n (Number.twoTo w)
  | some (w, false) => n % Number.twoTo w
  | none => n

def precision : NumericKind → Nat
  | .i8 => 0
  | .u8 => 1
  | .i16 => 2
  | .u16 => 3
  | .i32 => 4
  | .u32 => 5
  | .i64 => 6
  | .u64 => 7
  | .f32 => 8
  | .f64 => 9
  | .decimal => 10

/-- The kind at which two numbers meet: the more precise of the two. -/
def widen (a b : NumericKind) : NumericKind := if b.precision ≤ a.precision then a else b

/-- The kind in which arithmetic is done: at least 32 bits. -/
def promote : NumericKind → NumericKind
  | .i8 | .u8 | .i16 | .u16 => .i32
  | k => k

/-- The kind of an integral literal: the first of three that holds it. -/
def ofLiteral? (n : Int) : Option NumericKind := [.i32, .i64, .u64].find? (·.fits n)

end NumericKind

end RecordLogic
