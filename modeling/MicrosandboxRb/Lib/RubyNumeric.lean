import MicrosandboxRb.Lib.RubyValue

/-!
# Numeric conversions of Ruby

`Kernel#Integer` on the values of built-in classes. The numeric conversions of other objects, Floats
among them, are given by `Ruby.Numeric`.
-/

namespace Ruby

/-- The numeric methods of the objects in `ω`. -/
class Numeric (ω : Type) where
  -- the implicit conversion `to_int`, and `Integer(o)`
  toInt : ω → Except Exception ℤ
  integer : ω → Except Exception ℤ
  -- `Float(v)`, and `f.finite? && f >= 0` of its result
  float : Value ω → Except Exception ω
  isDuration : ω → Bool

instance : Numeric Unit where
  toInt _ := .error (.typeError "Integer")
  integer _ := .error (.typeError "Integer")
  float _ := .error (.typeError "Float")
  isDuration _ := false

/-- `ISSPACE`. -/
def isSpace (c : Char) : Bool := c == ' ' || (9 ≤ c.toNat && c.toNat ≤ 13)

/-- The digit of a base that a character stands for. -/
def digitOf (base : ℕ) (c : Char) : Option ℕ :=
  let d :=
    if c.isDigit then c.toNat - '0'.toNat
    else if c.isLower then c.toNat - 'a'.toNat + 10
    else if c.isUpper then c.toNat - 'A'.toNat + 10
    else base
  if d < base then some d else none

/-- The number that digits continue, where a single underscore may stand before each of them. -/
def digitsFrom (base : ℕ) : ℕ → List Char → Option ℕ
  | n, [] => some n
  | n, '_' :: c :: cs => do digitsFrom base (n * base + (← digitOf base c)) cs
  | n, c :: cs => do digitsFrom base (n * base + (← digitOf base c)) cs

/-- A number without a sign: it starts with a digit. -/
def digits (base : ℕ) : List Char → Option ℕ
  | [] => none
  | c :: cs => do digitsFrom base (← digitOf base c) cs

/-- A number without a sign, in the base that its prefix names. -/
def unsignedInteger : List Char → Option ℕ
  | '0' :: 'x' :: cs | '0' :: 'X' :: cs => digits 16 cs
  | '0' :: 'b' :: cs | '0' :: 'B' :: cs => digits 2 cs
  | '0' :: 'o' :: cs | '0' :: 'O' :: cs => digits 8 cs
  | '0' :: 'd' :: cs | '0' :: 'D' :: cs => digits 10 cs
  | '0' :: c :: cs => digits 8 ('0' :: c :: cs)
  | cs => digits 10 cs

/-- The integer that a text denotes. White space may stand around it. -/
def parseInteger (s : String) : Option ℤ :=
  match ((s.toList.dropWhile isSpace).reverse.dropWhile isSpace).reverse with
  | '-' :: cs => (unsignedInteger cs).map fun n => -(n : ℤ)
  | '+' :: cs => (unsignedInteger cs).map Int.ofNat
  | cs => (unsignedInteger cs).map Int.ofNat

section Numeric

variable {ω : Type} [Methods ω] [Numeric ω]

/-- `Kernel#Integer`. -/
def integer (v : Value ω) : Except Exception ℤ :=
  match v with
  | .int n => .ok n
  | .obj o => Numeric.integer o
  | .str s =>
    if s.toList.contains '\x00' then .error (.argumentError "string contains null byte")
    else
      match parseInteger s with
      | some n => .ok n
      | none => .error (.argumentError s!"invalid value for Integer(): {v.inspect}")
  | _ => .error (.typeError "Integer")

end Numeric

end Ruby
