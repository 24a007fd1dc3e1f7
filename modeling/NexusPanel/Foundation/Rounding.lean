import Mathlib.Algebra.Order.Field.Power
import Mathlib.Data.Int.Log
import Mathlib.Data.Rat.Floor
import Mathlib.Tactic.Linarith
import Mathlib.Tactic.Positivity

/-!
# Rounding to a binary floating-point format

A rational is rounded to the nearest multiple of a power of two, ties to the even one; the power
is the least that leaves `precision` binary digits, and never below `minExponent`. The exponent
has no upper bound here. What matters to those who compare rounded numbers: rounding is odd, it
keeps the order, and it leaves alone the integers that have few enough digits.
-/

namespace Rounding

/-! ## To an integer -/

/-- The nearest integer, and the even one of two. -/
def nearestEven (x : ℚ) : ℤ :=
  if x - ⌊x⌋ < 1 / 2 then ⌊x⌋
  else if 1 / 2 < x - ⌊x⌋ then ⌊x⌋ + 1
  else if ⌊x⌋ % 2 = 0 then ⌊x⌋ else ⌊x⌋ + 1

/-- `n` is nearest to `x`, or even and as near as any. -/
def IsNearestEven (x : ℚ) (n : ℤ) : Prop :=
  |x - n| < 1 / 2 ∨ |x - n| = 1 / 2 ∧ n % 2 = 0

theorem nearestEven_spec (x : ℚ) : IsNearestEven x (nearestEven x) := by
  have hfloor : 0 ≤ x - ⌊x⌋ := sub_nonneg.mpr (Int.floor_le x)
  have hceil : x - ⌊x⌋ < 1 := by linarith [Int.lt_floor_add_one x]
  have hbelow : |x - ⌊x⌋| = x - ⌊x⌋ := abs_of_nonneg hfloor
  have habove : |x - ((⌊x⌋ + 1 : ℤ) : ℚ)| = 1 - (x - ⌊x⌋) := by
    rw [abs_of_nonpos (by push_cast; linarith)]
    push_cast
    ring
  unfold nearestEven IsNearestEven
  split
  next h =>
    rw [hbelow]
    exact .inl h
  next hge =>
    split
    next h =>
      rw [habove]
      exact .inl (by linarith)
    next hle =>
      have hhalf : x - ⌊x⌋ = 1 / 2 := le_antisymm (not_lt.mp hle) (not_lt.mp hge)
      split
      next heven =>
        rw [hbelow]
        exact .inr ⟨hhalf, heven⟩
      next hodd =>
        rw [habove, hhalf]
        exact .inr ⟨by norm_num, by omega⟩

/-- Nearest integers are in the order of what they are nearest to: where the numbers meet in the
middle between two integers, both go to the even one. -/
theorem IsNearestEven.le {x y : ℚ} {m n : ℤ} (hm : IsNearestEven x m) (hn : IsNearestEven y n)
    (h : x ≤ y) : m ≤ n := by
  by_contra hlt
  have hcast : (n : ℚ) + 1 ≤ m := by exact_mod_cast not_le.mp hlt
  have hleft : (m : ℚ) - 1 / 2 ≤ x := by
    have habs : |x - m| ≤ 1 / 2 := hm.elim le_of_lt fun h => h.1.le
    linarith [neg_le_of_abs_le habs]
  have hright : y ≤ (n : ℚ) + 1 / 2 := by
    have habs : |y - n| ≤ 1 / 2 := hn.elim le_of_lt fun h => h.1.le
    linarith [le_of_abs_le habs]
  have hsucc : m = n + 1 := by exact_mod_cast (by linarith : (m : ℚ) = n + 1)
  have htie : |x - m| = 1 / 2 := by
    rw [abs_of_nonpos (by linarith)]
    linarith
  have htie' : |y - n| = 1 / 2 := by
    rw [abs_of_nonneg (by linarith)]
    linarith
  have heven : m % 2 = 0 := hm.elim (fun h => absurd htie h.ne) And.right
  have heven' : n % 2 = 0 := hn.elim (fun h => absurd htie' h.ne) And.right
  omega

theorem IsNearestEven.eq {x : ℚ} {n : ℤ} (h : IsNearestEven x n) : nearestEven x = n :=
  le_antisymm ((nearestEven_spec x).le h le_rfl) (h.le (nearestEven_spec x) le_rfl)

theorem nearestEven_mono {x y : ℚ} (h : x ≤ y) : nearestEven x ≤ nearestEven y :=
  (nearestEven_spec x).le (nearestEven_spec y) h

@[simp] theorem nearestEven_intCast (n : ℤ) : nearestEven n = n :=
  IsNearestEven.eq (.inl (by norm_num))

theorem nearestEven_neg (x : ℚ) : nearestEven (-x) = -nearestEven x := by
  apply IsNearestEven.eq
  have habs : |-x - ((-nearestEven x : ℤ) : ℚ)| = |x - nearestEven x| := by
    rw [← abs_neg]
    push_cast
    congr 1
    ring
  unfold IsNearestEven
  rw [habs]
  exact (nearestEven_spec x).imp_right fun h => ⟨h.1, by omega⟩

/-! ## To a format -/

section Format

variable (precision : ℕ) (minExponent : ℤ)

/-- The exponent of the last digit. -/
def lastExponent (x : ℚ) : ℤ := max (Int.log 2 |x| + 1 - precision) minExponent

/-- Rounding to the nearest number of the format. -/
def roundTo (x : ℚ) : ℚ :=
  nearestEven (x / 2 ^ lastExponent precision minExponent x) *
    2 ^ lastExponent precision minExponent x

variable {precision minExponent} {x y : ℚ}

theorem lastExponent_neg :
    lastExponent precision minExponent (-x) = lastExponent precision minExponent x := by
  unfold lastExponent
  rw [abs_neg]

theorem roundTo_neg : roundTo precision minExponent (-x) = -roundTo precision minExponent x := by
  unfold roundTo
  rw [lastExponent_neg, neg_div, nearestEven_neg]
  push_cast
  ring

theorem roundTo_zero : roundTo precision minExponent 0 = 0 := by
  unfold roundTo
  rw [zero_div]
  norm_num [nearestEven]

variable (precision minExponent) in
theorem roundTo_nonneg (h : 0 ≤ x) : 0 ≤ roundTo precision minExponent x := by
  have hpos : (0 : ℚ) < 2 ^ lastExponent precision minExponent x := by positivity
  have hround : nearestEven ((0 : ℤ) : ℚ) ≤
      nearestEven (x / 2 ^ lastExponent precision minExponent x) :=
    nearestEven_mono (by simpa using div_nonneg h hpos.le)
  rw [nearestEven_intCast] at hround
  exact mul_nonneg (by exact_mod_cast hround) hpos.le

/-- A number has no more digits before its last one than the format has. -/
theorem roundTo_le (h : 0 ≤ x) :
    roundTo precision minExponent x ≤ 2 ^ (lastExponent precision minExponent x + precision) := by
  generalize he : lastExponent precision minExponent x = e
  have hlog : Int.log 2 |x| + 1 ≤ e + precision := by
    have hmax := le_max_left (Int.log 2 |x| + 1 - precision) minExponent
    unfold lastExponent at he
    omega
  have hx : x ≤ 2 ^ (e + precision) := by
    have hlt := Int.lt_zpow_succ_log_self (b := 2) one_lt_two |x|
    rw [abs_of_nonneg h] at hlt hlog
    exact hlt.le.trans (zpow_le_zpow_right₀ one_le_two hlog)
  have hquotient : x / 2 ^ e ≤ ((2 ^ precision : ℤ) : ℚ) := by
    rw [div_le_iff₀ (by positivity)]
    push_cast
    rw [← zpow_natCast, ← zpow_add₀ two_ne_zero, add_comm]
    exact hx
  have hround := nearestEven_mono hquotient
  rw [nearestEven_intCast] at hround
  unfold roundTo
  rw [he, add_comm, zpow_add₀ two_ne_zero, zpow_natCast]
  exact mul_le_mul_of_nonneg_right (by exact_mod_cast hround) (by positivity)

/-- Above the least exponent the first digit is not zero. -/
theorem le_roundTo (h : 0 < x) (hmin : minExponent < lastExponent precision minExponent x)
    (hprecision : 0 < precision) :
    2 ^ (lastExponent precision minExponent x + precision - 1) ≤
      roundTo precision minExponent x := by
  generalize he : lastExponent precision minExponent x = e at hmin
  have hlog : Int.log 2 |x| = e + precision - 1 := by
    unfold lastExponent at he
    omega
  have hx : 2 ^ (e + precision - 1) ≤ x := by
    have hle := Int.zpow_log_le_self (b := 2) one_lt_two (abs_pos.mpr h.ne')
    rw [hlog, abs_of_pos h] at hle
    exact_mod_cast hle
  have hsplit : (2 : ℚ) ^ (e + precision - 1) = 2 ^ (precision - 1) * 2 ^ e := by
    rw [← zpow_natCast, ← zpow_add₀ two_ne_zero]
    congr 1
    omega
  have hquotient : ((2 ^ (precision - 1) : ℤ) : ℚ) ≤ x / 2 ^ e := by
    rw [le_div_iff₀ (by positivity)]
    push_cast
    rw [← hsplit]
    exact hx
  have hround := nearestEven_mono hquotient
  rw [nearestEven_intCast] at hround
  unfold roundTo
  rw [he, hsplit]
  exact mul_le_mul_of_nonneg_right (by exact_mod_cast hround) (by positivity)

variable (precision minExponent) in
theorem lastExponent_mono (hx : 0 < x) (h : x ≤ y) :
    lastExponent precision minExponent x ≤ lastExponent precision minExponent y := by
  have hlog : Int.log 2 |x| ≤ Int.log 2 |y| :=
    Int.log_mono_right (abs_pos.mpr hx.ne') (abs_le_abs_of_nonneg hx.le h)
  unfold lastExponent
  omega

variable (minExponent) in
theorem roundTo_mono_of_nonneg (hprecision : 0 < precision) (hx : 0 ≤ x) (h : x ≤ y) :
    roundTo precision minExponent x ≤ roundTo precision minExponent y := by
  rcases hx.eq_or_lt with rfl | hpos
  · rw [roundTo_zero]
    exact roundTo_nonneg precision minExponent h
  rcases (lastExponent_mono precision minExponent hpos h).eq_or_lt with heq | hlt
  · -- the same grid
    unfold roundTo
    rw [heq]
    have hround := nearestEven_mono (div_le_div_of_nonneg_right h
      (show (0 : ℚ) ≤ 2 ^ lastExponent precision minExponent y by positivity))
    exact mul_le_mul_of_nonneg_right (by exact_mod_cast hround) (by positivity)
  · -- a power of two lies between the two
    have hmin : minExponent < lastExponent precision minExponent y :=
      (le_max_right _ _).trans_lt hlt
    calc roundTo precision minExponent x
        ≤ 2 ^ (lastExponent precision minExponent x + precision) := roundTo_le hx
      _ ≤ 2 ^ (lastExponent precision minExponent y + precision - 1) :=
          zpow_le_zpow_right₀ one_le_two (by omega)
      _ ≤ roundTo precision minExponent y := le_roundTo (hpos.trans_le h) hmin hprecision

variable (minExponent) in
/-- Rounding keeps the order. -/
theorem roundTo_mono (hprecision : 0 < precision) (h : x ≤ y) :
    roundTo precision minExponent x ≤ roundTo precision minExponent y := by
  rcases le_total 0 x with hx | hx
  · exact roundTo_mono_of_nonneg minExponent hprecision hx h
  rcases le_total 0 y with hy | hy
  · have hneg := roundTo_nonneg precision minExponent (neg_nonneg.mpr hx)
    rw [roundTo_neg] at hneg
    linarith [roundTo_nonneg precision minExponent hy]
  · have hneg := roundTo_mono_of_nonneg minExponent hprecision (neg_nonneg.mpr hy) (neg_le_neg h)
    rw [roundTo_neg, roundTo_neg] at hneg
    linarith

/-- Where the last digit is not an integer one, integers stay what they are. -/
theorem roundTo_of_lastExponent_nonpos {n : ℤ}
    (h : lastExponent precision minExponent (n : ℚ) ≤ 0) :
    roundTo precision minExponent n = n := by
  obtain ⟨k, hk⟩ := Int.eq_ofNat_of_zero_le (neg_nonneg.mpr h)
  have hexponent : lastExponent precision minExponent (n : ℚ) = -k := by omega
  have hinteger : (n : ℚ) / 2 ^ (-(k : ℤ)) = ((n * 2 ^ k : ℤ) : ℚ) := by
    rw [zpow_neg, zpow_natCast, div_inv_eq_mul]
    push_cast
    rfl
  unfold roundTo
  rw [hexponent, hinteger, nearestEven_intCast, ← hinteger]
  exact div_mul_cancel₀ _ (zpow_ne_zero _ two_ne_zero)

/-- An integer with few enough digits is in the format. -/
theorem roundTo_intCast (hmin : minExponent ≤ 0) {n : ℤ} (h : |n| < 2 ^ precision) :
    roundTo precision minExponent n = n := by
  rcases eq_or_ne n 0 with rfl | hn
  · rw [Int.cast_zero, roundTo_zero]
  have hlog : Int.log 2 |(n : ℚ)| < precision := by
    rw [← Int.lt_zpow_iff_log_lt one_lt_two (abs_pos.mpr (by exact_mod_cast hn)), zpow_natCast]
    exact_mod_cast h
  apply roundTo_of_lastExponent_nonpos
  unfold lastExponent
  omega

variable (precision minExponent) in
/-- An integer is rounded to an integer. -/
theorem exists_roundTo_intCast (n : ℤ) : ∃ m : ℤ, roundTo precision minExponent n = m := by
  rcases le_total (lastExponent precision minExponent (n : ℚ)) 0 with h | h
  · exact ⟨n, roundTo_of_lastExponent_nonpos h⟩
  · obtain ⟨k, hk⟩ := Int.eq_ofNat_of_zero_le h
    refine ⟨nearestEven (n / 2 ^ lastExponent precision minExponent (n : ℚ)) * 2 ^ k, ?_⟩
    unfold roundTo
    rw [hk]
    push_cast
    rw [zpow_natCast]

end Format

/-! ## Doubles -/

/-- The double next to a number, where it is not beyond them all. -/
def double (x : ℚ) : ℚ := roundTo 53 (-1074) x

theorem double_intCast {n : ℤ} (h : |n| < 2 ^ 53) : double n = n :=
  roundTo_intCast (by decide) h

end Rounding
