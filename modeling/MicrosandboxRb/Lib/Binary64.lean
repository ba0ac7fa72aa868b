import Mathlib.Algebra.Order.Ring.Rat
import Mathlib.Data.Int.Log
import Mathlib.Data.Rat.Floor
import Mathlib.Tactic.Linarith

/-!
# Rounding to binary64

Rational numbers with a significand of 53 bits, and the rounding to the nearest one of them, with
ties to even. The range of the exponent is bounded below only: the overflow is left to the type of
floating-point numbers that is built on the rounding.

## Main results

* `Binary64.precise_rnd`: what is rounded has the precision of the format;
* `Binary64.rnd_nearest`: nothing of that precision is nearer;
* `Binary64.rnd_mono`: rounding keeps the order.
-/

namespace Binary64

/-! ## Rounding to an integer -/

/-- The nearest integer, with ties to even. -/
def roundEven (q : ℚ) : ℤ :=
  if q - ⌊q⌋ < 1 / 2 then ⌊q⌋
  else if 1 / 2 < q - ⌊q⌋ then ⌊q⌋ + 1
  else if ⌊q⌋ % 2 = 0 then ⌊q⌋ else ⌊q⌋ + 1

/-- No integer is nearer. -/
theorem abs_sub_roundEven_le (q : ℚ) (z : ℤ) : |q - roundEven q| ≤ |q - z| := by
  have hlow : (⌊q⌋ : ℚ) ≤ q := Int.floor_le q
  have hhigh : q < ⌊q⌋ + 1 := Int.lt_floor_add_one q
  have hfloor : |q - (⌊q⌋ : ℤ)| = q - ⌊q⌋ := abs_of_nonneg (by linarith)
  have hceil : |q - ((⌊q⌋ + 1 : ℤ) : ℚ)| = ⌊q⌋ + 1 - q := by
    rw [abs_of_nonpos (by push_cast; linarith)]
    push_cast
    ring
  -- `z` is below `q` by at least the fractional part, or above it by at least the rest
  have hz : q - ⌊q⌋ ≤ |q - z| ∨ ⌊q⌋ + 1 - q ≤ |q - z| := by
    rcases le_or_gt z ⌊q⌋ with hle | hlt
    · have : (z : ℚ) ≤ ⌊q⌋ := by exact_mod_cast hle
      exact Or.inl (le_trans (by linarith) (le_abs_self _))
    · have : (⌊q⌋ : ℚ) + 1 ≤ z := by exact_mod_cast hlt
      exact Or.inr (le_trans (by linarith) (neg_le_abs _))
  rw [roundEven]
  split_ifs with h₁ h₂ h₃
  · rw [hfloor]
    rcases hz with hz | hz <;> linarith
  · rw [hceil]
    rcases hz with hz | hz <;> linarith
  · rw [hfloor]
    rcases hz with hz | hz <;> linarith
  · rw [hceil]
    rcases hz with hz | hz <;> linarith

/-- Rounding to even is symmetric. -/
theorem roundEven_neg (q : ℚ) : roundEven (-q) = -roundEven q := by
  have hlow : (⌊q⌋ : ℚ) ≤ q := Int.floor_le q
  have hhigh : q < ⌊q⌋ + 1 := Int.lt_floor_add_one q
  rcases hlow.eq_or_lt with heq | hlt
  · -- an integer
    have hneg : ⌊-q⌋ = -⌊q⌋ := by
      rw [Int.floor_eq_iff, Int.cast_neg, heq]
      constructor <;> linarith
    rw [roundEven, roundEven, hneg, if_pos (by rw [Int.cast_neg, heq]; norm_num),
      if_pos (by rw [heq]; norm_num)]
  · have hneg : ⌊-q⌋ = -⌊q⌋ - 1 := by
      rw [Int.floor_eq_iff]
      push_cast
      constructor <;> linarith
    rw [roundEven, roundEven, hneg]
    push_cast
    -- a fraction below one half becomes one above it, and a tie stays a tie
    split_ifs <;> first | omega | (exfalso; linarith)

/-! ## The precision of the format -/

/-- The numbers with a significand of 53 bits, in multiples of the least subnormal number. A
significand of `2 ^ 53` is one of `2 ^ 52` with the next exponent. -/
def Precise (q : ℚ) : Prop :=
  ∃ m e : ℤ, |m| ≤ 2 ^ 53 ∧ -1074 ≤ e ∧ q = m * 2 ^ e

/-- Negation needs no rounding. -/
theorem Precise.neg {q : ℚ} (h : Precise q) : Precise (-q) := by
  obtain ⟨m, e, hm, he, rfl⟩ := h
  refine ⟨-m, e, by rwa [abs_neg], he, ?_⟩
  push_cast
  ring

/-- The integers up to `2 ^ 53` need no rounding. -/
theorem precise_intCast {n : ℤ} (h : |n| ≤ 2 ^ 53) : Precise n :=
  ⟨n, 0, h, by norm_num, by rw [zpow_zero, mul_one]⟩

/-- The exponent of the last place of a number. -/
def lastPlace (q : ℚ) : ℤ := max (Int.log 2 |q| - 52) (-1074)

/-- The nearest number of the precision of the format, with ties to even. -/
def rnd (q : ℚ) : ℚ := roundEven (q / 2 ^ lastPlace q) * 2 ^ lastPlace q

/-- The last place of the subnormal numbers is the smallest. -/
theorem lastPlace_ge (q : ℚ) : -1074 ≤ lastPlace q := le_max_right _ _

/-- The unit in the last place is positive. -/
theorem zpow_lastPlace_pos (q : ℚ) : (0 : ℚ) < 2 ^ lastPlace q := zpow_pos two_pos _

/-- The significand has 53 bits. -/
theorem abs_div_zpow_lastPlace_le (q : ℚ) : |q / 2 ^ lastPlace q| ≤ 2 ^ 53 := by
  have hlog : |q| < 2 ^ (Int.log 2 |q| + 1) := by
    exact_mod_cast Int.lt_zpow_succ_log_self (by norm_num : 1 < 2) |q|
  have hplace : Int.log 2 |q| + 1 ≤ lastPlace q + 53 := by
    have := le_max_left (Int.log 2 |q| - 52) (-1074)
    rw [lastPlace]
    omega
  have hpow : (2 : ℚ) ^ (Int.log 2 |q| + 1) ≤ 2 ^ (lastPlace q + 53) :=
    zpow_le_zpow_right₀ one_le_two hplace
  rw [abs_div, abs_of_pos (zpow_lastPlace_pos q), div_le_iff₀ (zpow_lastPlace_pos q)]
  calc |q| ≤ 2 ^ (lastPlace q + 53) := (hlog.trans_le hpow).le
    _ = 2 ^ 53 * 2 ^ lastPlace q := by
      rw [zpow_add₀ two_ne_zero, mul_comm]
      rfl

/-- What is rounded has the precision of the format. -/
theorem precise_rnd (q : ℚ) : Precise (rnd q) := by
  refine ⟨roundEven (q / 2 ^ lastPlace q), lastPlace q, ?_, lastPlace_ge q, rfl⟩
  have hz := abs_le.mp (abs_div_zpow_lastPlace_le q)
  generalize q / 2 ^ lastPlace q = z at hz
  -- an integer beyond `2 ^ 53` is further from `z` than `2 ^ 53` is
  obtain ⟨N, hN⟩ : ∃ N : ℤ, N = 2 ^ 53 := ⟨_, rfl⟩
  have hcast : (N : ℚ) = 2 ^ 53 := by exact_mod_cast congrArg (Int.cast : ℤ → ℚ) hN
  rw [← hcast] at hz
  have hhigh := abs_sub_roundEven_le z N
  have hlow := abs_sub_roundEven_le z (-N)
  rw [Int.cast_neg] at hlow
  rw [(abs_of_nonpos (by linarith [hz.2]) : |z - N| = -(z - N))] at hhigh
  rw [(abs_of_nonneg (by linarith [hz.1]) : |z - -(N : ℚ)| = z - -(N : ℚ))] at hlow
  rw [← hN, abs_le]
  constructor
  · have := (abs_le.mp hlow).2
    exact_mod_cast (by push_cast; linarith : ((-N : ℤ) : ℚ) ≤ roundEven z)
  · have := (abs_le.mp hhigh).1
    exact_mod_cast (by linarith : (roundEven z : ℚ) ≤ N)

/-- A multiple of the last place of `q` is no nearer to `q` than what `q` is rounded to. -/
theorem abs_sub_rnd_le_of_multiple (q : ℚ) (n : ℤ) :
    |q - rnd q| ≤ |q - n * 2 ^ lastPlace q| := by
  have hpos := zpow_lastPlace_pos q
  have hscale (z : ℤ) : |q - z * 2 ^ lastPlace q| =
      |q / 2 ^ lastPlace q - z| * 2 ^ lastPlace q := by
    rw [← abs_of_pos hpos, ← abs_mul, abs_of_pos hpos, sub_mul, div_mul_cancel₀ _ hpos.ne']
  rw [rnd, hscale, hscale]
  exact mul_le_mul_of_nonneg_right (abs_sub_roundEven_le _ n) hpos.le

/-- A number that is more precise than the last place of `q` is smaller than `q`. -/
theorem exists_multiple_or_le {q r : ℚ} (hq : q ≠ 0) (hr : Precise r) :
    (∃ n : ℤ, r = n * 2 ^ lastPlace q) ∨
      |r| ≤ 2 ^ (lastPlace q + 52) ∧ (2 : ℚ) ^ (lastPlace q + 52) ≤ |q| := by
  obtain ⟨m, e, hm, he, rfl⟩ := hr
  rcases le_or_gt (lastPlace q) e with hle | hlt
  · refine Or.inl ⟨m * 2 ^ (e - lastPlace q).toNat, ?_⟩
    -- a place at or above the last one of `q` is a multiple of it
    have hsplit : (2 : ℚ) ^ e = 2 ^ (e - lastPlace q).toNat * 2 ^ lastPlace q := by
      rw [← zpow_natCast, Int.toNat_of_nonneg (by omega), ← zpow_add₀ two_ne_zero]
      congr 1
      ring
    rw [hsplit]
    push_cast
    ring
  · have hplace : lastPlace q = Int.log 2 |q| - 52 := by
      rw [lastPlace]
      refine max_eq_left ?_
      rw [lastPlace] at hlt
      omega
    refine Or.inr ⟨?_, ?_⟩
    · -- below it, the 53 digits of `r` end before the first digit of `q`
      have hpow : (2 : ℚ) ^ e ≤ 2 ^ (lastPlace q - 1) := zpow_le_zpow_right₀ one_le_two (by omega)
      have hmq : |(m : ℚ)| ≤ 2 ^ 53 := by exact_mod_cast hm
      calc |(m : ℚ) * 2 ^ e| = |(m : ℚ)| * 2 ^ e := by
            rw [abs_mul, abs_of_pos (zpow_pos two_pos e : (0 : ℚ) < 2 ^ e)]
        _ ≤ 2 ^ 53 * 2 ^ (lastPlace q - 1) :=
            mul_le_mul hmq hpow (zpow_pos two_pos e).le (by positivity)
        _ = 2 ^ (lastPlace q + 52) := by
            rw [← zpow_natCast, ← zpow_add₀ two_ne_zero]
            congr 1
            push_cast
            ring
    · rw [hplace, sub_add_cancel]
      exact_mod_cast Int.zpow_log_le_self (by norm_num : 1 < 2) (abs_pos.mpr hq)

@[simp] theorem rnd_zero : rnd 0 = 0 := by
  rw [rnd, zero_div]
  norm_num [roundEven]

/-- Nothing of the precision of the format is nearer to `q` than what `q` is rounded to. -/
theorem rnd_nearest (q : ℚ) {r : ℚ} (hr : Precise r) : |q - rnd q| ≤ |q - r| := by
  by_cases hq : q = 0
  · rw [hq, rnd_zero, sub_zero, abs_zero]
    exact abs_nonneg _
  rcases exists_multiple_or_le hq hr with ⟨n, rfl⟩ | ⟨hsmall, hlarge⟩
  · exact abs_sub_rnd_le_of_multiple q n
  · -- the power of two between `r` and `q` is a multiple of the last place of `q`
    have hpow : (2 : ℚ) ^ (lastPlace q + 52) = 2 ^ 52 * 2 ^ lastPlace q := by
      rw [zpow_add₀ two_ne_zero, mul_comm]
      rfl
    obtain ⟨hlow, hhigh⟩ := abs_le.mp hsmall
    rcases le_or_gt 0 q with hnonneg | hneg
    · rw [abs_of_nonneg hnonneg] at hlarge
      have hmultiple := abs_sub_rnd_le_of_multiple q (2 ^ 52)
      rw [Int.cast_pow, Int.cast_ofNat, ← hpow] at hmultiple
      calc |q - rnd q| ≤ |q - 2 ^ (lastPlace q + 52)| := hmultiple
        _ = q - 2 ^ (lastPlace q + 52) := abs_of_nonneg (by linarith)
        _ ≤ q - r := by linarith
        _ ≤ |q - r| := le_abs_self _
    · rw [abs_of_neg hneg] at hlarge
      have hmultiple := abs_sub_rnd_le_of_multiple q (-2 ^ 52)
      rw [Int.cast_neg, Int.cast_pow, Int.cast_ofNat, neg_mul, ← hpow] at hmultiple
      calc |q - rnd q| ≤ |q - -2 ^ (lastPlace q + 52)| := hmultiple
        _ = -(q - -2 ^ (lastPlace q + 52)) := abs_of_nonpos (by linarith)
        _ ≤ -(q - r) := by linarith
        _ ≤ |q - r| := neg_le_abs _

/-- Rounding is symmetric. -/
theorem rnd_neg (q : ℚ) : rnd (-q) = -rnd q := by
  rw [rnd, rnd, lastPlace, abs_neg, ← lastPlace, neg_div, roundEven_neg]
  push_cast
  ring

/-- A number that fits is kept. -/
theorem rnd_of_precise {q : ℚ} (h : Precise q) : rnd q = q := by
  have hnearest := rnd_nearest q h
  rw [sub_self, abs_zero] at hnearest
  exact (sub_eq_zero.mp (abs_eq_zero.mp (le_antisymm hnearest (abs_nonneg _)))).symm

/-- Rounding keeps the order. -/
theorem rnd_mono {q r : ℚ} (h : q ≤ r) : rnd q ≤ rnd r := by
  rcases h.eq_or_lt with rfl | hlt
  · exact le_rfl
  by_contra hgt
  rw [not_le] at hgt
  -- each of `q` and `r` is at least as near to its own rounding as to that of the other
  have hq := rnd_nearest q (precise_rnd r)
  have hr := rnd_nearest r (precise_rnd q)
  rw [← sq_le_sq] at hq hr
  nlinarith

/-- Rounding does not cross a number that fits, from below. -/
theorem rnd_le_of_le {q r : ℚ} (hr : Precise r) (h : q ≤ r) : rnd q ≤ r := by
  rw [← rnd_of_precise hr]
  exact rnd_mono h

/-- Nor from above. -/
theorem le_rnd_of_le {q r : ℚ} (hr : Precise r) (h : r ≤ q) : r ≤ rnd q := by
  rw [← rnd_of_precise hr]
  exact rnd_mono h

/-- Nor away from zero. -/
theorem abs_rnd_le_of_abs_le {q r : ℚ} (hr : Precise r) (h : |q| ≤ r) : |rnd q| ≤ r := by
  obtain ⟨hlow, hhigh⟩ := abs_le.mp h
  exact abs_le.mpr ⟨le_rnd_of_le hr.neg hlow, rnd_le_of_le hr hhigh⟩

/-- Nor towards zero. -/
theorem le_abs_rnd_of_le_abs {q r : ℚ} (hr : Precise r) (h : r ≤ |q|) : r ≤ |rnd q| := by
  rcases abs_choice q with habs | habs
  · rw [habs] at h
    exact (le_rnd_of_le hr h).trans (le_abs_self _)
  · rw [habs] at h
    have := le_rnd_of_le hr h
    rw [rnd_neg] at this
    exact this.trans (neg_le_abs _)

/-- The error is at most half of a last place. -/
theorem abs_sub_rnd_le {q : ℚ} {e : ℤ} (he : -1074 ≤ e) (h : |q| ≤ 2 ^ (e + 53)) :
    |q - rnd q| ≤ 2 ^ e / 2 := by
  have hpos : (0 : ℚ) < 2 ^ e := zpow_pos two_pos e
  have hscale : |q / 2 ^ e| ≤ 2 ^ 53 := by
    rw [abs_div, abs_of_pos hpos, div_le_iff₀ hpos]
    rw [zpow_add₀ two_ne_zero, mul_comm] at h
    exact h
  have hround := abs_sub_round (q / 2 ^ e)
  have hmultiple : Precise (round (q / 2 ^ e) * 2 ^ e) := by
    refine ⟨round (q / 2 ^ e), e, ?_, he, rfl⟩
    rw [abs_le] at hscale hround ⊢
    constructor
    · have hlt : ((-2 ^ 53 - 1 : ℤ) : ℚ) < round (q / 2 ^ e) := by push_cast; linarith
      have hlt' : -2 ^ 53 - 1 < round (q / 2 ^ e) := by exact_mod_cast hlt
      omega
    · have hlt : (round (q / 2 ^ e) : ℚ) < ((2 ^ 53 + 1 : ℤ) : ℚ) := by push_cast; linarith
      have hlt' : round (q / 2 ^ e) < 2 ^ 53 + 1 := by exact_mod_cast hlt
      omega
  calc |q - rnd q| ≤ |q - round (q / 2 ^ e) * 2 ^ e| := rnd_nearest q hmultiple
    _ = |q / 2 ^ e - round (q / 2 ^ e)| * 2 ^ e := by
        rw [← abs_of_pos hpos, ← abs_mul, abs_of_pos hpos, sub_mul, div_mul_cancel₀ _ hpos.ne']
    _ ≤ 1 / 2 * 2 ^ e := mul_le_mul_of_nonneg_right hround hpos.le
    _ = 2 ^ e / 2 := by ring

/-- The difference to an integer is exact, unless it is larger. -/
theorem Precise.sub_intCast {q : ℚ} {n : ℤ} (h : Precise q) (hq : |q| ≤ 2 ^ 53)
    (hle : |q - n| ≤ |q|) : Precise (q - n) := by
  obtain ⟨m, e, hm, he, rfl⟩ := h
  rcases le_or_gt 0 e with hnonneg | hneg
  · have hint : (m : ℚ) * 2 ^ e - n = ((m * 2 ^ e.toNat - n : ℤ) : ℚ) := by
      push_cast
      rw [← zpow_natCast, Int.toNat_of_nonneg hnonneg]
    rw [hint] at hle ⊢
    apply precise_intCast
    exact_mod_cast hle.trans hq
  · have hscale : (m : ℚ) * 2 ^ e - n = ((m - n * 2 ^ (-e).toNat : ℤ) : ℚ) * 2 ^ e := by
      push_cast
      rw [sub_mul, mul_assoc, ← zpow_natCast, Int.toNat_of_nonneg (by omega),
        ← zpow_add₀ two_ne_zero, neg_add_cancel, zpow_zero, mul_one]
    refine ⟨m - n * 2 ^ (-e).toNat, e, ?_, he, hscale⟩
    have hpos : (0 : ℚ) < 2 ^ e := zpow_pos two_pos e
    rw [hscale, abs_mul, abs_mul] at hle
    have hsmaller := le_of_mul_le_mul_right hle (abs_pos.mpr hpos.ne')
    exact (by exact_mod_cast hsmaller : |m - n * 2 ^ (-e).toNat| ≤ |m|).trans hm

/-- A large number below an integer is below it by a power of two. -/
theorem le_sub_of_precise {q : ℚ} {n : ℤ} {e : ℤ} (hq : Precise q) (he : e ≤ 0)
    (hlarge : 2 ^ (e + 52) < q) (hlt : q < n) : 2 ^ e ≤ n - q := by
  obtain ⟨m, f, hm, -, rfl⟩ := hq
  -- with a finer last place, 53 digits would not reach beyond the bound
  have hf : e ≤ f := by
    by_contra hnot
    have hmq : (m : ℚ) ≤ 2 ^ 53 := by exact_mod_cast (le_abs_self m).trans hm
    have hpow : (2 : ℚ) ^ f ≤ 2 ^ (e - 1) := zpow_le_zpow_right₀ one_le_two (by omega)
    have hpos : (0 : ℚ) < 2 ^ f := zpow_pos two_pos f
    have hle : (m : ℚ) * 2 ^ f ≤ 2 ^ (e + 52) := by
      calc (m : ℚ) * 2 ^ f ≤ 2 ^ 53 * 2 ^ (e - 1) :=
            mul_le_mul hmq hpow hpos.le (by positivity)
        _ = 2 ^ (e + 52) := by
            rw [← zpow_natCast, ← zpow_add₀ two_ne_zero]
            congr 1
            push_cast
            ring
    linarith
  have hscale : n - (m : ℚ) * 2 ^ f =
      ((n * 2 ^ (-e).toNat - m * 2 ^ (f - e).toNat : ℤ) : ℚ) * 2 ^ e := by
    push_cast
    rw [sub_mul, mul_assoc, mul_assoc, ← zpow_natCast, ← zpow_natCast,
      Int.toNat_of_nonneg (by omega), Int.toNat_of_nonneg (by omega), ← zpow_add₀ two_ne_zero,
      ← zpow_add₀ two_ne_zero, neg_add_cancel, zpow_zero, mul_one, sub_add_cancel]
  have hpos : (0 : ℚ) < 2 ^ e := zpow_pos two_pos e
  have hgap : 0 < n - (m : ℚ) * 2 ^ f := by linarith
  rw [hscale] at hgap ⊢
  -- the gap is a positive number of such units, so at least one
  have hone : 0 < n * 2 ^ (-e).toNat - m * 2 ^ (f - e).toNat := by
    exact_mod_cast (mul_pos_iff_of_pos_right hpos).mp hgap
  have hcast : (1 : ℚ) ≤ (n * 2 ^ (-e).toNat - m * 2 ^ (f - e).toNat : ℤ) := by exact_mod_cast hone
  exact le_mul_of_one_le_left hpos.le hcast

end Binary64
