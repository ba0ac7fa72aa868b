import MicrosandboxRb.Lib.Binary64

/-!
# The floating-point numbers of Rust

The type `f64` with the operations on it that are rounded once, and the saturating casts to
integers. A zero has no sign here, which only a division by zero could tell.

## Main results

* `F64.ofRat_eq`: an operation whose exact result is representable is exact;
* `F64.Beyond`: what is beyond a bound stays beyond it under rounding, truncation and the cast.
-/

open Binary64 in
/-- A floating-point number of 64 bits. -/
inductive F64 where
  | finite (q : ℚ) (precise : Precise q) (lt : |q| < 2 ^ 1024)
  | infinity (negative : Bool)
  | nan

namespace F64

open Binary64

/-- Toward zero. -/
def truncInt (q : ℚ) : ℤ := if 0 ≤ q then ⌊q⌋ else ⌈q⌉

/-- To the nearest integer, with ties away from zero. -/
def roundAway (q : ℚ) : ℤ := if 0 ≤ q then ⌊q + 1 / 2⌋ else ⌈q - 1 / 2⌉

/-- The exact result of an operation, rounded. -/
def ofRat (q : ℚ) : F64 :=
  if h : |rnd q| < 2 ^ 1024 then .finite (rnd q) (precise_rnd q) h else .infinity (decide (q < 0))

/-- The nearest number to an integer. -/
def ofInt (n : ℤ) : F64 := ofRat n

/-- Subtraction, with one rounding. -/
def sub : F64 → F64 → F64
  | .finite x _ _, .finite y _ _ => ofRat (x - y)
  | .infinity s, .infinity t => if s = t then .nan else .infinity s
  | .infinity s, .finite _ _ _ => .infinity s
  | .finite _ _ _, .infinity t => .infinity (!t)
  | .nan, _ | _, .nan => .nan

/-- Multiplication, with one rounding. -/
def mul : F64 → F64 → F64
  | .finite x _ _, .finite y _ _ => ofRat (x * y)
  | .infinity s, .infinity t => .infinity (s != t)
  | .infinity s, .finite y _ _ => if y = 0 then .nan else .infinity (s != decide (y < 0))
  | .finite x _ _, .infinity t => if x = 0 then .nan else .infinity (decide (x < 0) != t)
  | .nan, _ | _, .nan => .nan

/-- Division, with one rounding. -/
def div : F64 → F64 → F64
  | .finite x _ _, .finite y _ _ =>
    if y = 0 then if x = 0 then .nan else .infinity (decide (x < 0)) else ofRat (x / y)
  | .infinity _, .infinity _ => .nan
  | .infinity s, .finite y _ _ => .infinity (s != decide (y < 0))
  | .finite _ _ _, .infinity _ => ofRat 0
  | .nan, _ | _, .nan => .nan

instance : Sub F64 := ⟨sub⟩

instance : Mul F64 := ⟨mul⟩

instance : Div F64 := ⟨div⟩

/-- `f64::trunc`. -/
def trunc : F64 → F64
  | .finite q _ _ => ofRat (truncInt q)
  | .infinity s => .infinity s
  | .nan => .nan

/-- `f64::round`. -/
def round : F64 → F64
  | .finite q _ _ => ofRat (roundAway q)
  | .infinity s => .infinity s
  | .nan => .nan

/-- The cast to an integer type with these bounds, which saturates. -/
def toInt (low high : ℤ) : F64 → ℤ
  | .finite q _ _ => max low (min high (truncInt q))
  | .infinity s => if s then low else high
  | .nan => 0

/-- `as i64`. -/
def toI64 : F64 → ℤ := toInt (-2 ^ 63) (2 ^ 63 - 1)

/-- `as u32`. -/
def toU32 (x : F64) : ℕ := (toInt 0 (2 ^ 32 - 1) x).toNat

/-! ## Truncation -/

/-- Truncation is symmetric. -/
theorem truncInt_neg (q : ℚ) : truncInt (-q) = -truncInt q := by
  rcases lt_trichotomy q 0 with h | rfl | h
  · rw [truncInt, truncInt, if_pos (by linarith), if_neg (by linarith), Int.floor_neg]
  · rfl
  · rw [truncInt, truncInt, if_neg (by linarith), if_pos h.le, Int.ceil_neg]

/-- An integer is its own truncation. -/
@[simp] theorem truncInt_intCast (n : ℤ) : truncInt n = n := by
  rw [truncInt, Int.floor_intCast, Int.ceil_intCast, ite_self]

/-- Truncation is monotone. -/
theorem truncInt_mono {q r : ℚ} (h : q ≤ r) : truncInt q ≤ truncInt r := by
  rw [truncInt, truncInt]
  split_ifs with hq hr hr
  · exact Int.floor_le_floor h
  · exact absurd (hq.trans h) hr
  · calc ⌈q⌉ ≤ 0 := Int.ceil_le.mpr (by rw [Int.cast_zero]; linarith)
      _ ≤ ⌊r⌋ := Int.floor_nonneg.mpr hr
  · exact Int.ceil_le_ceil h

/-- Rounding moves by half at most. -/
theorem abs_roundAway_sub_le (q : ℚ) : |roundAway q - q| ≤ 1 / 2 := by
  rw [roundAway, abs_le]
  split_ifs
  · have hlow := Int.floor_le (q + 1 / 2)
    have hhigh := Int.lt_floor_add_one (q + 1 / 2)
    constructor <;> linarith
  · have hlow := Int.le_ceil (q - 1 / 2)
    have hhigh := Int.ceil_lt_add_one (q - 1 / 2)
    constructor <;> linarith

/-- Rounding is monotone. -/
theorem roundAway_mono {q r : ℚ} (h : q ≤ r) : roundAway q ≤ roundAway r := by
  rw [roundAway, roundAway]
  split_ifs with hq hr hr
  · exact Int.floor_le_floor (by linarith)
  · exact absurd (hq.trans h) hr
  · calc ⌈q - 1 / 2⌉ ≤ 0 := Int.ceil_le.mpr (by rw [Int.cast_zero]; linarith)
      _ ≤ ⌊r + 1 / 2⌋ := Int.floor_nonneg.mpr (by linarith)
  · exact Int.ceil_le_ceil (by linarith)

/-- An integer is its own rounding. -/
@[simp] theorem roundAway_intCast (n : ℤ) : roundAway n = n := by
  have h := abs_le.mp (abs_roundAway_sub_le n)
  have hlow : (n : ℚ) < roundAway n + 1 := by linarith
  have hhigh : (roundAway n : ℚ) < n + 1 := by linarith
  have hlow' : n < roundAway n + 1 := by exact_mod_cast hlow
  have hhigh' : roundAway n < n + 1 := by exact_mod_cast hhigh
  omega

@[simp] theorem roundAway_zero : roundAway 0 = 0 := by
  rw [← Int.cast_zero, roundAway_intCast]

/-! ## Exact results -/

/-- Numbers up to `2 ^ 53` are finite. -/
theorem lt_overflow_of_abs_le {q : ℚ} (h : |q| ≤ 2 ^ 53) : |q| < 2 ^ 1024 :=
  h.trans_lt (pow_lt_pow_right₀ one_lt_two (by norm_num))

/-- The bound itself fits. -/
theorem precise_two_pow_53 : Precise (2 ^ 53) := ⟨1, 53, by norm_num, by norm_num, by norm_num⟩

/-- Rounding does not cross the bound. -/
theorem abs_rnd_le {q : ℚ} (h : |q| ≤ 2 ^ 53) : |rnd q| ≤ 2 ^ 53 :=
  abs_rnd_le_of_abs_le precise_two_pow_53 h

/-- A result that does not overflow is rounded. -/
theorem ofRat_eq_rnd {q : ℚ} (h : |q| ≤ 2 ^ 53) :
    ofRat q = .finite (rnd q) (precise_rnd q) (lt_overflow_of_abs_le (abs_rnd_le h)) :=
  dif_pos _

/-- A result that is representable is exact. -/
theorem ofRat_eq {q : ℚ} (hp : Precise q) (h : |q| ≤ 2 ^ 53) :
    ofRat q = .finite q hp (lt_overflow_of_abs_le h) := by
  rw [ofRat_eq_rnd h]
  congr 1
  exact rnd_of_precise hp

/-- A small integer is a number. -/
theorem ofInt_eq {n : ℤ} (h : |n| ≤ 2 ^ 53) :
    ofInt n = .finite n (precise_intCast h) (lt_overflow_of_abs_le (by exact_mod_cast h)) :=
  ofRat_eq (precise_intCast h) (by exact_mod_cast h)

section Finite

variable {x y : ℚ} {hx : Precise x} {hx' : |x| < 2 ^ 1024} {hy : Precise y} {hy' : |y| < 2 ^ 1024}

/-- A difference of finite numbers. -/
theorem finite_sub_finite : (F64.finite x hx hx' - F64.finite y hy hy') = ofRat (x - y) := rfl

/-- A product of finite numbers. -/
theorem finite_mul_finite : (F64.finite x hx hx' * F64.finite y hy hy') = ofRat (x * y) := rfl

/-- A quotient of finite numbers. -/
theorem finite_div_finite (h : y ≠ 0) :
    (F64.finite x hx hx' / F64.finite y hy hy') = ofRat (x / y) :=
  if_neg h

/-- The truncation of a finite number. -/
theorem trunc_finite : (F64.finite x hx hx').trunc = ofInt (truncInt x) := rfl

/-- The rounding of a finite number. -/
theorem round_finite : (F64.finite x hx hx').round = ofInt (roundAway x) := rfl

end Finite

/-- An integer in the range is cast to itself. -/
theorem toInt_ofInt {low high n : ℤ} (h : |n| ≤ 2 ^ 53) :
    (ofInt n).toInt low high = max low (min high n) := by
  rw [ofInt_eq h, toInt, truncInt_intCast]

/-! ## Large numbers -/

/-- Whether the absolute value is at least `n`. -/
def Beyond (n : ℤ) : F64 → Prop
  | .finite q _ _ => (n : ℚ) ≤ |q|
  | .infinity _ => True
  | .nan => False

/-- The nearest number does not come below an integer that the rational reaches. -/
theorem beyond_ofRat {n : ℤ} {q : ℚ} (hn : |n| ≤ 2 ^ 53) (h : (n : ℚ) ≤ |q|) :
    Beyond n (ofRat q) := by
  rw [ofRat]
  split
  · exact le_abs_rnd_of_le_abs (precise_intCast hn) h
  · trivial

/-- Nor does the truncation. -/
theorem le_abs_truncInt {n : ℤ} {q : ℚ} (h : (n : ℚ) ≤ |q|) : n ≤ |truncInt q| := by
  rcases le_or_gt 0 q with hq | hq
  · rw [abs_of_nonneg hq] at h
    rw [truncInt, if_pos hq]
    exact (Int.le_floor.mpr h).trans (le_abs_self _)
  · rw [abs_of_neg hq] at h
    rw [truncInt, if_neg (not_le.mpr hq), ← neg_neg ⌈q⌉, ← Int.floor_neg, abs_neg]
    exact (Int.le_floor.mpr h).trans (le_abs_self _)

/-- So truncation stays beyond it. -/
theorem beyond_trunc {n : ℤ} {x : F64} (hn : |n| ≤ 2 ^ 53) (h : Beyond n x) :
    Beyond n x.trunc := by
  cases x with
  | finite q hp hlt =>
    apply beyond_ofRat hn
    exact_mod_cast le_abs_truncInt h
  | infinity s => trivial
  | nan => exact h

/-- The cast of a large number is large. -/
theorem le_abs_toI64 {n : ℤ} {x : F64} (hn : n ≤ 2 ^ 53) (h : Beyond n x) : n ≤ |x.toI64| := by
  cases x with
  | finite q hp hlt =>
    have htrunc := le_abs_truncInt h
    rw [toI64, toInt]
    rcases le_or_gt 0 (truncInt q) with hq | hq
    · rw [abs_of_nonneg hq] at htrunc
      refine le_trans ?_ (le_abs_self _)
      omega
    · rw [abs_of_neg hq] at htrunc
      refine le_trans ?_ (neg_le_abs _)
      omega
  | infinity s =>
    rw [toI64, toInt]
    cases s with
    | true => exact hn.trans (by norm_num)
    | false => exact hn.trans (by norm_num)
  | nan => exact h.elim

end F64
