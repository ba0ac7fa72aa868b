import MicrosandboxRb.Lib.F64

/-!
# Times of log filters

The conversion of a time in milliseconds into a `DateTime` of chrono (`ms_to_datetime`,
`sandbox.rs`). The range of chrono is given.

## Main definitions

* `msToDatetime`: the conversion;
* `InTime`: the times that are converted to the nearest nanosecond.

## Main results

* `msToDatetime_exact_iff`: the other times are lost, or are off by more than a nanosecond;
* `msToDatetime_mono`: a later time never gives an earlier one.
-/

namespace MicrosandboxRb.Logs

open F64 Binary64

/-- The range of chrono, whose years lie within 262144 of the epoch's era. -/
structure Chrono where
  minSecs : ℤ
  maxSecs : ℤ
  lt_minSecs : -9007199254740 < minSecs
  maxSecs_lt : maxSecs < 9007199254740

/-- A time of chrono. A leap second, with which a minute ends, has a billion nanoseconds more. -/
structure DateTime where
  secs : ℤ
  nsecs : ℕ
  nsecs_lt : nsecs < 2000000000
  leap : 1000000000 ≤ nsecs → secs % 60 = 59

namespace DateTime

/-- The instant, in seconds. -/
def instant (t : DateTime) : ℚ := t.secs + t.nsecs / 10 ^ 9

/-- The order of chrono. -/
def Le (t t' : DateTime) : Prop := t.secs < t'.secs ∨ t.secs = t'.secs ∧ t.nsecs ≤ t'.nsecs

end DateTime

/-- `DateTime::from_timestamp`. -/
def Chrono.fromTimestamp (c : Chrono) (secs : ℤ) (nsecs : ℕ) : Option DateTime :=
  if h : c.minSecs ≤ secs ∧ secs ≤ c.maxSecs ∧ nsecs < 2000000000 ∧
      (1000000000 ≤ nsecs → secs % 60 = 59) then
    some { secs, nsecs, nsecs_lt := h.2.2.1, leap := h.2.2.2 }
  else none

/-- `ms_to_datetime`, over the floats of Ruby. -/
def msToDatetime (c : Chrono) (ms : F64) : Option DateTime :=
  let secs := (ms / ofInt 1000).trunc.toI64
  let nsecs := ((ms - ofInt secs * ofInt 1000) * ofInt 1000000).round.toU32
  c.fromTimestamp secs nsecs

/-! ## The seconds -/

/-- The whole seconds of a time, toward zero. -/
def secsOf (ms : ℚ) : ℤ := truncInt (ms / 1000)

/-- The nanoseconds after the whole seconds. -/
def nanosOf (ms : ℚ) : ℚ := (ms - 1000 * secsOf ms) * 10 ^ 6

/-- Seconds are truncated towards zero. -/
theorem secsOf_neg (ms : ℚ) : secsOf (-ms) = -secsOf ms := by
  rw [secsOf, neg_div, truncInt_neg, secsOf]

/-- So the rest has the sign of the time. -/
theorem nanosOf_neg (ms : ℚ) : nanosOf (-ms) = -nanosOf ms := by
  rw [nanosOf, nanosOf, secsOf_neg]
  push_cast
  ring

/-- A later time has no fewer seconds. -/
theorem secsOf_mono {ms ms' : ℚ} (h : ms ≤ ms') : secsOf ms ≤ secsOf ms' :=
  truncInt_mono (by linarith)

/-- The seconds leave less than a second, of the sign of the time. -/
theorem nanosOf_bounds_of_nonneg {ms : ℚ} (h : 0 ≤ ms) :
    0 ≤ secsOf ms ∧ 0 ≤ nanosOf ms ∧ nanosOf ms < 10 ^ 9 := by
  have hdiv : 0 ≤ ms / 1000 := by positivity
  have hlow := Int.floor_le (ms / 1000)
  have hhigh := Int.lt_floor_add_one (ms / 1000)
  rw [nanosOf, secsOf, truncInt, if_pos hdiv]
  refine ⟨Int.floor_nonneg.mpr hdiv, ?_, ?_⟩
  · linarith
  · linarith

/-- A quotient below a whole number of seconds is rounded to less than it. -/
theorem rnd_div_lt {ms : ℚ} {k : ℕ} (hp : Precise ms) (hk : k < 2 ^ 44) (hpos : 0 < k)
    (hlt : ms < 1000 * k) : rnd (ms / 1000) < k := by
  -- the last place of `k` is a multiple of `u`
  obtain ⟨E, hE⟩ : ∃ E : ℕ, Nat.log 2 k = E := ⟨_, rfl⟩
  have hlow : 2 ^ E ≤ k := by rw [← hE]; exact Nat.pow_log_le_self 2 hpos.ne'
  have hhigh : k < 2 ^ (E + 1) := by rw [← hE]; exact Nat.lt_pow_succ_log_self one_lt_two k
  have hE43 : E ≤ 43 := by
    rw [← Nat.lt_succ_iff, ← hE]
    exact Nat.log_lt_of_lt_pow hpos.ne' hk
  obtain ⟨u, hu⟩ : ∃ u : ℚ, u = 2 ^ ((E : ℤ) - 52) := ⟨_, rfl⟩
  have hu0 : 0 < u := by rw [hu]; exact zpow_pos two_pos _
  have hpow : (2 : ℚ) ^ E = 2 ^ 52 * u := by
    rw [hu, ← zpow_natCast, ← zpow_natCast, ← zpow_add₀ two_ne_zero]
    congr 1
    push_cast
    ring
  have hklow : 2 ^ 52 * u ≤ k := by
    rw [← hpow]
    exact_mod_cast hlow
  -- below `1000 * k` the next number is at least 512 last places away
  have hgap : 512 * u ≤ 1000 * k - ms := by
    have h512 : 512 * u = 2 ^ ((E : ℤ) - 43) := by
      rw [hu, show (512 : ℚ) = 2 ^ (9 : ℤ) by norm_num, ← zpow_add₀ two_ne_zero]
      congr 1
      ring
    rcases le_or_gt ms (2 ^ 61 * u) with hsmall | hlarge
    · nlinarith
    · have hlarge' : (2 : ℚ) ^ ((E : ℤ) - 43 + 52) < ms := by
        refine lt_of_eq_of_lt ?_ hlarge
        rw [hu, ← zpow_natCast, ← zpow_add₀ two_ne_zero]
        congr 1
        push_cast
        ring
      have := le_sub_of_precise (n := 1000 * k) hp (by omega) hlarge' (by push_cast; exact hlt)
      rw [← h512] at this
      exact_mod_cast this
  -- the number before `k` is nearer
  have hbefore : Precise (k - u) := by
    refine ⟨k * 2 ^ (52 - E) - 1, (E : ℤ) - 52, ?_, by omega, ?_⟩
    · have hup : k * 2 ^ (52 - E) < 2 ^ 53 := by
        calc k * 2 ^ (52 - E) < 2 ^ (E + 1) * 2 ^ (52 - E) :=
              Nat.mul_lt_mul_of_pos_right hhigh (by positivity)
          _ = 2 ^ 53 := by rw [← pow_add]; congr 1; omega
      have hdown : 1 ≤ k * 2 ^ (52 - E) := Nat.mul_pos hpos (by positivity)
      have hup' : (k : ℤ) * 2 ^ (52 - E) < 2 ^ 53 := by exact_mod_cast hup
      have hdown' : 1 ≤ (k : ℤ) * 2 ^ (52 - E) := by exact_mod_cast hdown
      rw [abs_of_nonneg (by linarith)]
      linarith
    · have hone : (2 : ℚ) ^ (52 - E) * u = 1 := by
        rw [hu, ← zpow_natCast, ← zpow_add₀ two_ne_zero, Nat.cast_sub (by omega)]
        norm_num
      push_cast
      rw [← hu, sub_mul, one_mul, mul_assoc, hone, mul_one]
  -- were it rounded up to `k`, the number before would have been nearer
  by_contra hnot
  rw [not_lt] at hnot
  have hnearest := rnd_nearest (ms / 1000) hbefore
  rw [abs_of_nonpos (by linarith : ms / 1000 - rnd (ms / 1000) ≤ 0)] at hnearest
  rcases abs_cases (ms / 1000 - (k - u)) with ⟨habs, -⟩ | ⟨habs, -⟩
  · linarith
  · linarith

/-- Dividing does not change the whole seconds. -/
theorem truncInt_rnd_div {ms : ℚ} (hp : Precise ms) (h : |ms| < 2 ^ 53) :
    truncInt (rnd (ms / 1000)) = secsOf ms := by
  have hnonneg {ms : ℚ} (hp : Precise ms) (h : |ms| < 2 ^ 53) (h0 : 0 ≤ ms) :
      truncInt (rnd (ms / 1000)) = secsOf ms := by
    obtain ⟨k, hk⟩ : ∃ k : ℕ, ⌊ms / 1000⌋ = k :=
      Int.eq_ofNat_of_zero_le (Int.floor_nonneg.mpr (by positivity))
    have hlow : (k : ℚ) ≤ ms / 1000 := by exact_mod_cast hk ▸ Int.floor_le (ms / 1000)
    have hhigh : ms / 1000 < k + 1 := by exact_mod_cast hk ▸ Int.lt_floor_add_one (ms / 1000)
    rw [abs_of_nonneg h0] at h
    have hk44 : k + 1 < 2 ^ 44 := by
      have : (k : ℚ) + 1 < 2 ^ 44 := by linarith
      exact_mod_cast this
    have hprecise : Precise (k : ℚ) := by
      exact_mod_cast precise_intCast (n := k) (by rw [abs_of_nonneg] <;> omega)
    have hrlow : (k : ℚ) ≤ rnd (ms / 1000) := le_rnd_of_le hprecise hlow
    have hrhigh : rnd (ms / 1000) < k + 1 := by
      have := rnd_div_lt (k := k + 1) hp hk44 k.succ_pos (by push_cast; linarith)
      exact_mod_cast this
    have hfloor : ⌊rnd (ms / 1000)⌋ = k := by
      rw [Int.floor_eq_iff]
      exact ⟨by exact_mod_cast hrlow, by exact_mod_cast hrhigh⟩
    rw [secsOf, truncInt, truncInt, if_pos (le_trans k.cast_nonneg hrlow), if_pos (by positivity),
      hfloor, hk]
  rcases le_or_gt 0 ms with h0 | h0
  · exact hnonneg hp h h0
  · have hneg := hnonneg hp.neg (by rwa [abs_neg]) (neg_nonneg.mpr h0.le)
    rw [neg_div, rnd_neg, truncInt_neg, secsOf_neg, neg_inj] at hneg
    exact hneg

/-- The whole seconds and the rest are no larger than the time. -/
structure Splits (ms : ℚ) : Prop where
  secs : |1000 * (secsOf ms : ℚ)| ≤ |ms|
  rest : |ms - 1000 * secsOf ms| ≤ |ms|
  nanos : |nanosOf ms| < 10 ^ 9

/-- A time is its seconds and its nanoseconds. -/
theorem splits (ms : ℚ) : Splits ms := by
  have hnonneg {ms : ℚ} (h : 0 ≤ ms) : Splits ms := by
    obtain ⟨hsecs, hnanos, hlt⟩ := nanosOf_bounds_of_nonneg h
    have hsecs' : (0 : ℚ) ≤ secsOf ms := by exact_mod_cast hsecs
    rw [nanosOf] at hnanos
    constructor
    · rw [abs_of_nonneg h, abs_of_nonneg (by linarith)]
      linarith
    · rw [abs_of_nonneg h, abs_of_nonneg (by linarith)]
      linarith
    · rw [nanosOf, abs_of_nonneg (by linarith)]
      rw [nanosOf] at hlt
      exact hlt
  rcases le_or_gt 0 ms with h | h
  · exact hnonneg h
  · obtain ⟨hsecs, hrest, hnanos⟩ := hnonneg (neg_nonneg.mpr h.le)
    rw [secsOf_neg, Int.cast_neg, abs_neg, mul_neg, abs_neg] at hsecs
    rw [secsOf_neg, Int.cast_neg, abs_neg, mul_neg, sub_neg_eq_add, ← abs_neg, neg_add,
      neg_neg, ← sub_eq_add_neg] at hrest
    rw [nanosOf_neg, abs_neg] at hnanos
    exact ⟨hsecs, hrest, hnanos⟩

/-- The nanoseconds that are handed to chrono. -/
def nsecsOf (ms : ℚ) : ℕ := (max 0 (min (2 ^ 32 - 1) (roundAway (rnd (nanosOf ms))))).toNat

/-- Rounding does not leave a second. -/
theorem abs_roundAway_rnd_le {y : ℚ} (h : |y| ≤ 10 ^ 9) : |roundAway (rnd y)| ≤ 10 ^ 9 := by
  have hrnd : |rnd y| ≤ 10 ^ 9 := by
    have hprecise := precise_intCast (n := 10 ^ 9) (by norm_num)
    push_cast at hprecise
    exact abs_rnd_le_of_abs_le hprecise h
  have hcast : ((10 ^ 9 : ℤ) : ℚ) = 10 ^ 9 := by norm_num
  rw [abs_le] at hrnd ⊢
  constructor
  · rw [← roundAway_intCast (-10 ^ 9)]
    exact roundAway_mono (by rw [Int.cast_neg, hcast]; exact hrnd.1)
  · rw [← roundAway_intCast (10 ^ 9)]
    exact roundAway_mono (by rw [hcast]; exact hrnd.2)

/-- The seconds of a precise time are small. -/
theorem abs_secsOf_le {ms : ℚ} (h : |ms| < 2 ^ 53) : |secsOf ms| ≤ 2 ^ 53 / 1000 := by
  have hsecs := (splits ms).secs
  rw [abs_mul, abs_of_pos (by norm_num : (0 : ℚ) < 1000)] at hsecs
  have : (1000 * |secsOf ms| : ℤ) < 2 ^ 53 := by exact_mod_cast hsecs.trans_lt h
  omega

/-- Below 2^53 the conversion is exact up to the rounding of the nanoseconds. -/
theorem msToDatetime_eq (c : Chrono) {ms : ℚ} {hp : Precise ms} {hlt : |ms| < 2 ^ 1024}
    (h : |ms| < 2 ^ 53) :
    msToDatetime c (.finite ms hp hlt) = c.fromTimestamp (secsOf ms) (nsecsOf ms) := by
  obtain ⟨hsecs, hrest, hnanos⟩ := splits ms
  have hsecsLe := abs_secsOf_le h
  have h1000 : (1000 : ℤ) = (1000 : ℚ) := by norm_num
  have hdiv : F64.finite ms hp hlt / ofInt 1000 = ofRat (ms / 1000) := by
    rw [ofInt_eq (by norm_num), finite_div_finite (by norm_num)]
    norm_num
  have hms1000 : |ms / 1000| ≤ 2 ^ 53 := by
    rw [abs_div, abs_of_pos (by norm_num : (0 : ℚ) < 1000)]
    linarith [abs_nonneg ms]
  have hsecs53 : |secsOf ms| ≤ 2 ^ 53 := hsecsLe.trans (by norm_num)
  -- the seconds are exact, in spite of the rounded quotient
  have hcast : (F64.finite ms hp hlt / ofInt 1000).trunc.toI64 = secsOf ms := by
    rw [hdiv, ofRat_eq_rnd hms1000, trunc_finite, truncInt_rnd_div hp h, toI64,
      toInt_ofInt hsecs53]
    have := abs_le.mp hsecsLe
    omega
  have hproduct : ofInt (secsOf ms) * ofInt 1000 = ofInt (secsOf ms * 1000) := by
    rw [ofInt_eq hsecs53, ofInt_eq (n := 1000) (by norm_num), finite_mul_finite, ofInt]
    push_cast
    rfl
  have hproductLe : |secsOf ms * 1000| ≤ 2 ^ 53 := by
    rw [abs_mul]
    norm_num
    omega
  -- the rest needs no rounding either, so only the nanoseconds are rounded
  have hrestPrecise : Precise (ms - (secsOf ms * 1000 : ℤ)) :=
    hp.sub_intCast h.le (by push_cast; rw [mul_comm]; exact hrest)
  have hrestLe : |ms - (secsOf ms * 1000 : ℤ)| ≤ 2 ^ 53 := by
    push_cast
    rw [mul_comm]
    exact hrest.trans h.le
  have hnanosEq : (ms - (secsOf ms * 1000 : ℤ)) * (1000000 : ℤ) = nanosOf ms := by
    rw [nanosOf]
    push_cast
    ring
  have hround : |roundAway (rnd (nanosOf ms))| ≤ 2 ^ 53 :=
    (abs_roundAway_rnd_le hnanos.le).trans (by norm_num)
  rw [msToDatetime, hcast, hproduct, ofInt_eq hproductLe, finite_sub_finite,
    ofRat_eq hrestPrecise hrestLe, ofInt_eq (n := 1000000) (by norm_num), finite_mul_finite,
    hnanosEq, ofRat_eq_rnd (hnanos.le.trans (by norm_num)), round_finite, toU32,
    toInt_ofInt hround, nsecsOf]

/-! ## The nanoseconds -/

/-- A time before the epoch loses the nanoseconds: the cast of a negative number is zero. -/
theorem nsecsOf_of_neg {ms : ℚ} (h : ms < 0) : nsecsOf ms = 0 := by
  have hnanos : nanosOf ms ≤ 0 := by
    obtain ⟨-, hneg, -⟩ := nanosOf_bounds_of_nonneg (neg_nonneg.mpr h.le)
    rw [nanosOf_neg] at hneg
    linarith
  have hround : roundAway (rnd (nanosOf ms)) ≤ 0 := by
    have hmono := roundAway_mono (rnd_mono hnanos)
    rw [rnd_zero, roundAway_zero] at hmono
    exact hmono
  rw [nsecsOf]
  omega

/-- From the epoch on, the nanoseconds are rounded to the nearest. -/
theorem nsecsOf_of_nonneg {ms : ℚ} (h : 0 ≤ ms) :
    (nsecsOf ms : ℤ) = roundAway (rnd (nanosOf ms)) ∧ nsecsOf ms ≤ 10 ^ 9 := by
  obtain ⟨-, hnanos, hlt⟩ := nanosOf_bounds_of_nonneg h
  have hround := abs_roundAway_rnd_le (abs_of_nonneg hnanos ▸ hlt.le)
  have hround0 : 0 ≤ roundAway (rnd (nanosOf ms)) := by
    have hmono := roundAway_mono (rnd_mono hnanos)
    rw [rnd_zero, roundAway_zero] at hmono
    exact hmono
  rw [abs_of_nonneg hround0] at hround
  rw [nsecsOf]
  omega

/-- Half a nanosecond before a full second. -/
def halfBefore : ℚ := 1999999999 / 2

/-- From here on the rounding reaches half a nanosecond before a full second. -/
def roundsUpFrom : ℚ := halfBefore - 1 / 2 ^ 24

/-- The least rest that is rounded up to a second. -/
theorem rnd_roundsUpFrom : rnd roundsUpFrom = halfBefore := by
  have hlog : Int.log 2 |roundsUpFrom| = 29 := by
    have hval : |roundsUpFrom| = 1999999999 / 2 - 1 / 2 ^ 24 := by
      rw [roundsUpFrom, halfBefore]
      norm_num
    have hpos : 0 < |roundsUpFrom| := by rw [hval]; norm_num
    apply le_antisymm
    · rw [← Int.lt_add_one_iff, ← Int.lt_zpow_iff_log_lt one_lt_two hpos, hval]
      norm_num
    · rw [← Int.zpow_le_iff_le_log one_lt_two hpos, hval]
      norm_num
  have hplace : lastPlace roundsUpFrom = -23 := by
    rw [lastPlace, hlog]
    norm_num
  rw [rnd, hplace]
  -- a tie, which goes to the even significand
  have hfloor : ⌊roundsUpFrom / 2 ^ (-23 : ℤ)⌋ = 1999999999 * 2 ^ 22 - 1 := by
    rw [Int.floor_eq_iff, roundsUpFrom, halfBefore]
    norm_num
  have hround : roundEven (roundsUpFrom / 2 ^ (-23 : ℤ)) = 1999999999 * 2 ^ 22 := by
    rw [roundEven, hfloor, roundsUpFrom, halfBefore]
    norm_num
  rw [hround]
  norm_num [halfBefore]

/-- A smaller one is not. -/
theorem rnd_lt_halfBefore_iff {y : ℚ} : rnd y < halfBefore ↔ y < roundsUpFrom := by
  constructor
  · intro h
    by_contra hnot
    have hmono := rnd_mono (not_lt.mp hnot)
    rw [rnd_roundsUpFrom] at hmono
    linarith
  · intro h
    by_contra hnot
    -- the number before `halfBefore` is nearer
    have hbefore : Precise (halfBefore - 1 / 2 ^ 23) :=
      ⟨1999999999 * 2 ^ 22 - 1, -23, by norm_num, by norm_num, by norm_num [halfBefore]⟩
    have hnearest := rnd_nearest y hbefore
    rw [roundsUpFrom] at h
    rw [not_lt] at hnot
    rw [abs_of_nonpos (by linarith : y - rnd y ≤ 0)] at hnearest
    rcases abs_cases (y - (halfBefore - 1 / 2 ^ 23)) with ⟨habs, -⟩ | ⟨habs, -⟩
    · linarith
    · linarith

/-- The rounding of the nanoseconds stays within one nanosecond. -/
theorem abs_nsecsOf_sub_le {ms : ℚ} (h : 0 ≤ ms) : |(nsecsOf ms : ℚ) - nanosOf ms| ≤ 1 := by
  obtain ⟨-, hnanos, hlt⟩ := nanosOf_bounds_of_nonneg h
  have hround := abs_roundAway_sub_le (rnd (nanosOf ms))
  have hrnd : |nanosOf ms - rnd (nanosOf ms)| ≤ 2 ^ (-23 : ℤ) / 2 := by
    apply abs_sub_rnd_le (by norm_num)
    rw [abs_of_nonneg hnanos]
    norm_num
    linarith
  norm_num at hrnd
  have hcast : (nsecsOf ms : ℚ) = roundAway (rnd (nanosOf ms)) := by
    exact_mod_cast (nsecsOf_of_nonneg h).1
  rw [hcast]
  rw [abs_le] at hround hrnd ⊢
  constructor <;> linarith

/-- A rest stays below a second exactly up to there. -/
theorem nsecsOf_lt_iff {ms : ℚ} (h : 0 ≤ ms) :
    nsecsOf ms < 1000000000 ↔ nanosOf ms < roundsUpFrom := by
  have hrnd : 0 ≤ rnd (nanosOf ms) := by
    rw [← rnd_zero]
    exact rnd_mono (nanosOf_bounds_of_nonneg h).2.1
  rw [← rnd_lt_halfBefore_iff, ← Int.ofNat_lt, (nsecsOf_of_nonneg h).1, roundAway, if_pos hrnd,
    Int.floor_lt, halfBefore]
  push_cast
  constructor <;> intro h <;> linarith

/-! ## Exact times -/

/-- Whether a time is that of some milliseconds, up to a nanosecond. -/
def DateTime.Denotes (t : DateTime) (ms : ℚ) : Prop := |t.instant - ms / 1000| ≤ 1 / 10 ^ 9

/-- The times that are kept. Their seconds are in the range of chrono, a time before the epoch has
no part of a second, and a time from the epoch on does not round up to a full second, unless a leap
second may stand for it. -/
def InTime (c : Chrono) (ms : ℚ) : Prop :=
  c.minSecs ≤ secsOf ms ∧ secsOf ms ≤ c.maxSecs ∧
    if ms < 0 then -1 ≤ nanosOf ms else nanosOf ms < roundsUpFrom ∨ secsOf ms % 60 = 59

variable {c : Chrono}

/-- Which seconds and nanoseconds are a time. -/
theorem Chrono.fromTimestamp_eq_some_iff {secs : ℤ} {nsecs : ℕ} {t : DateTime} :
    c.fromTimestamp secs nsecs = some t ↔
      (c.minSecs ≤ secs ∧ secs ≤ c.maxSecs) ∧ t.secs = secs ∧ t.nsecs = nsecs := by
  rw [fromTimestamp]
  constructor
  · intro h
    split at h
    · rename_i hin
      obtain rfl := Option.some.inj h
      exact ⟨⟨hin.1, hin.2.1⟩, rfl, rfl⟩
    · cases h
  · rintro ⟨⟨hmin, hmax⟩, rfl, rfl⟩
    exact dif_pos ⟨hmin, hmax, t.nsecs_lt, t.leap⟩

/-- A time beyond the integers of a floating-point number is out of the range of chrono. -/
theorem not_inRange_of_large {secs : ℤ} (h : 9007199254740 ≤ |secs|) :
    ¬(c.minSecs ≤ secs ∧ secs ≤ c.maxSecs) := by
  rintro ⟨hmin, hmax⟩
  have hlow := c.lt_minSecs
  have hhigh := c.maxSecs_lt
  rcases abs_cases secs with ⟨habs, -⟩ | ⟨habs, -⟩ <;> omega

/-- From 2^53 on there is no such time. -/
theorem msToDatetime_of_large {ms : ℚ} {hp : Precise ms} {hlt : |ms| < 2 ^ 1024}
    (h : 2 ^ 53 ≤ |ms|) : msToDatetime c (.finite ms hp hlt) = none ∧
      ¬(c.minSecs ≤ secsOf ms ∧ secsOf ms ≤ c.maxSecs) := by
  have hdivLe : ((9007199254740 : ℤ) : ℚ) ≤ |ms / 1000| := by
    rw [abs_div, abs_of_pos (by norm_num : (0 : ℚ) < 1000)]
    push_cast
    linarith
  refine ⟨?_, not_inRange_of_large (le_abs_truncInt hdivLe)⟩
  have hdiv : F64.finite ms hp hlt / ofInt 1000 = ofRat (ms / 1000) := by
    rw [ofInt_eq (by norm_num), finite_div_finite (by norm_num)]
    norm_num
  have hbeyond : Beyond 9007199254740 (F64.finite ms hp hlt / ofInt 1000).trunc := by
    rw [hdiv]
    exact beyond_trunc (by norm_num) (beyond_ofRat (by norm_num) hdivLe)
  have hsecs := le_abs_toI64 (by norm_num) hbeyond
  rw [msToDatetime, Option.eq_none_iff_forall_ne_some]
  intro t ht
  exact not_inRange_of_large hsecs (Chrono.fromTimestamp_eq_some_iff.mp ht).1

/-- A time with these seconds denotes what it is a nanosecond away from. -/
theorem denotes_iff {t : DateTime} {ms : ℚ} (h : t.secs = secsOf ms) :
    t.Denotes ms ↔ |(t.nsecs : ℚ) - nanosOf ms| ≤ 1 := by
  have hdiff : t.instant - ms / 1000 = ((t.nsecs : ℚ) - nanosOf ms) / 10 ^ 9 := by
    rw [DateTime.instant, h, nanosOf]
    ring
  rw [DateTime.Denotes, hdiff, abs_div, abs_of_pos (by norm_num : (0 : ℚ) < 10 ^ 9),
    div_le_div_iff_of_pos_right (by norm_num)]

/-- A time is converted to the nearest nanosecond exactly when it is one that is kept. -/
theorem msToDatetime_exact_iff {ms : ℚ} {hp : Precise ms} {hlt : |ms| < 2 ^ 1024} :
    (∃ t, msToDatetime c (.finite ms hp hlt) = some t ∧ t.Denotes ms) ↔ InTime c ms := by
  rcases le_or_gt (2 ^ 53) |ms| with hlarge | hsmall
  · -- out of the range of chrono
    obtain ⟨hnone, hrange⟩ : msToDatetime c (.finite ms hp hlt) = none ∧ _ :=
      msToDatetime_of_large hlarge
    rw [hnone]
    constructor
    · rintro ⟨t, ⟨⟩, -⟩
    · rintro ⟨hmin, hmax, -⟩
      exact absurd ⟨hmin, hmax⟩ hrange
  rw [msToDatetime_eq c hsmall]
  constructor
  · rintro ⟨t, ht, hdenotes⟩
    obtain ⟨⟨hmin, hmax⟩, hsecs, hnsecs⟩ := Chrono.fromTimestamp_eq_some_iff.mp ht
    refine ⟨hmin, hmax, ?_⟩
    split
    · rename_i hneg
      rw [denotes_iff hsecs, hnsecs, nsecsOf_of_neg hneg, Nat.cast_zero, zero_sub,
        abs_neg] at hdenotes
      exact (abs_le.mp hdenotes).1
    · rename_i hnonneg
      rw [← nsecsOf_lt_iff (not_lt.mp hnonneg), ← hnsecs, ← hsecs]
      rcases Nat.lt_or_ge t.nsecs 1000000000 with h | h
      · exact Or.inl h
      · exact Or.inr (t.leap h)
  · rintro ⟨hmin, hmax, hkept⟩
    -- before the epoch the cast to `u32` leaves no nanoseconds
    rcases lt_or_ge ms 0 with hneg | hnonneg
    · rw [if_pos hneg] at hkept
      have hnanos : nanosOf ms ≤ 0 := by
        obtain ⟨-, h, -⟩ := nanosOf_bounds_of_nonneg (neg_nonneg.mpr hneg.le)
        rw [nanosOf_neg] at h
        linarith
      rw [nsecsOf_of_neg hneg]
      refine ⟨⟨secsOf ms, 0, by norm_num, by norm_num⟩,
        Chrono.fromTimestamp_eq_some_iff.mpr ⟨⟨hmin, hmax⟩, rfl, rfl⟩, ?_⟩
      rw [denotes_iff rfl, Nat.cast_zero, zero_sub, abs_neg, abs_of_nonpos hnanos]
      linarith
    · rw [if_neg (not_lt.mpr hnonneg), ← nsecsOf_lt_iff hnonneg] at hkept
      have hle := (nsecsOf_of_nonneg hnonneg).2
      refine ⟨⟨secsOf ms, nsecsOf ms, by omega, fun h => hkept.resolve_left (not_lt.mpr h)⟩,
        Chrono.fromTimestamp_eq_some_iff.mpr ⟨⟨hmin, hmax⟩, rfl, rfl⟩, ?_⟩
      rw [denotes_iff rfl]
      exact abs_nsecsOf_sub_le hnonneg

/-- The parts of a time that was converted. -/
theorem secs_of_msToDatetime {ms : ℚ} {hp : Precise ms} {hlt : |ms| < 2 ^ 1024} {t : DateTime}
    (h : msToDatetime c (.finite ms hp hlt) = some t) :
    t.secs = secsOf ms ∧ t.nsecs = nsecsOf ms := by
  rcases le_or_gt (2 ^ 53) |ms| with hlarge | hsmall
  · rw [(msToDatetime_of_large hlarge).1] at h
    cases h
  · rw [msToDatetime_eq c hsmall] at h
    exact (Chrono.fromTimestamp_eq_some_iff.mp h).2

/-- Within a second, a later time has no fewer nanoseconds. -/
theorem nsecsOf_mono {ms ms' : ℚ} (h : ms ≤ ms') (hsecs : secsOf ms = secsOf ms') :
    nsecsOf ms ≤ nsecsOf ms' := by
  have hnanos : nanosOf ms ≤ nanosOf ms' := by
    rw [nanosOf, nanosOf, hsecs]
    linarith
  have hround := roundAway_mono (rnd_mono hnanos)
  rw [nsecsOf, nsecsOf]
  omega

/-- A later time never gives an earlier one. -/
theorem msToDatetime_mono {ms ms' : ℚ} {hp : Precise ms} {hlt : |ms| < 2 ^ 1024} {hp' : Precise ms'}
    {hlt' : |ms'| < 2 ^ 1024} {t t' : DateTime} (hle : ms ≤ ms')
    (h : msToDatetime c (.finite ms hp hlt) = some t)
    (h' : msToDatetime c (.finite ms' hp' hlt') = some t') : t.Le t' := by
  obtain ⟨hsecs, hnsecs⟩ := secs_of_msToDatetime h
  obtain ⟨hsecs', hnsecs'⟩ := secs_of_msToDatetime h'
  rw [DateTime.Le, hsecs, hsecs', hnsecs, hnsecs']
  rcases (secsOf_mono hle).lt_or_eq with hlt | heq
  · exact Or.inl hlt
  · exact Or.inr ⟨heq, nsecsOf_mono hle heq⟩

end MicrosandboxRb.Logs
