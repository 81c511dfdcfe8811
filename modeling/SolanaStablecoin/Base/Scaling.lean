import Mathlib.Algebra.Order.Field.Basic
import Mathlib.Algebra.Order.Floor.Semifield
import Mathlib.Algebra.Order.Ring.Abs
import Mathlib.Data.Nat.Cast.Order.Field
import Mathlib.Tactic.Linarith
import Mathlib.Tactic.Ring

/-! Numbers scaled by powers of a base `b`, rounded down. A number with an exponent `z` stands for
its product with `b ^ z`. -/

namespace Scaling

variable {K : Type*} [Field K] [LinearOrder K] [IsStrictOrderedRing K] [FloorSemiring K]
  {b : ℕ} {z : ℤ}

/-- With a negative exponent both scales divide. -/
theorem floor_of_nonpos (hz : z ≤ 0) (a d : ℕ) :
    ⌊(a : K) * (b : K) ^ z / (b : K) ^ d⌋₊ = a / b ^ z.natAbs / b ^ d := by
  have hpow : (b : K) ^ z = ((b ^ z.natAbs : ℕ) : K)⁻¹ := by
    obtain ⟨n, rfl⟩ := Int.exists_eq_neg_ofNat hz
    rw [zpow_neg, zpow_natCast, Int.natAbs_neg, Int.natAbs_natCast, Nat.cast_pow]
  rw [hpow, ← div_eq_mul_inv, ← Nat.cast_pow, Nat.floor_div_natCast, Nat.floor_div_eq_div]

/-- With a positive one the exponent multiplies. -/
theorem floor_of_nonneg (hz : 0 ≤ z) (a d : ℕ) :
    ⌊(a : K) * (b : K) ^ z / (b : K) ^ d⌋₊ = a * b ^ z.natAbs / b ^ d := by
  have hpow : (b : K) ^ z = ((b ^ z.natAbs : ℕ) : K) := by
    obtain ⟨n, rfl⟩ := Int.eq_ofNat_of_zero_le hz
    rw [zpow_natCast, Int.natAbs_natCast, Nat.cast_pow]
  rw [hpow, ← Nat.cast_mul, ← Nat.cast_pow, Nat.floor_div_eq_div]

/-- To divide where one should multiply gives the same only if both give nothing. -/
theorem div_eq_mul_div_iff {p q : ℕ} (hp : 2 ≤ p) (hq : 0 < q) (a : ℕ) :
    a / p / q = a * p / q ↔ a * p < q := by
  constructor
  · intro heq
    by_contra hge
    have hpos : 0 < a * p / q := Nat.div_pos (not_lt.mp hge) hq
    have hback : a * p / q * q * p ≤ a := by
      rw [← heq]
      exact (Nat.mul_le_mul_right p (Nat.div_mul_le_self ..)).trans (Nat.div_mul_le_self ..)
    have hnext : a * p < (a * p / q + 1) * q := Nat.lt_mul_of_div_lt (Nat.lt_succ_self _) hq
    generalize a * p / q = x at hpos hback hnext
    have hgrow : x + 1 ≤ x * p := (by omega : x + 1 ≤ x * 2).trans (Nat.mul_le_mul_left x hp)
    apply hnext.not_ge
    calc (x + 1) * q ≤ x * p * q := Nat.mul_le_mul_right q hgrow
      _ = x * q * p := Nat.mul_right_comm ..
      _ ≤ a := hback
      _ ≤ a * p := Nat.le_mul_of_pos_right a (by omega)
  · intro hlt
    have ha : a / p / q = 0 := by
      refine Nat.div_eq_of_lt ((Nat.div_le_self a p).trans_lt (lt_of_le_of_lt ?_ hlt))
      exact Nat.le_mul_of_pos_right a (by omega)
    rw [ha, Nat.div_eq_of_lt hlt]

/-- What rounding down loses is less than what it leaves, if it leaves anything. -/
theorem lt_two_mul_div {m d : ℕ} (h : 0 < m / d) : m < 2 * (m / d * d) := by
  have hd : 0 < d := Nat.pos_of_ne_zero fun hd => by simp [hd] at h
  calc m < (m / d + 1) * d := Nat.lt_mul_of_div_lt (Nat.lt_succ_self _) hd
    _ ≤ 2 * (m / d) * d := Nat.mul_le_mul_right d (by omega)
    _ = 2 * (m / d * d) := Nat.mul_assoc ..

omit [FloorSemiring K] in
/-- A quotient rounded down, times one of its divisors. -/
theorem div_mul_bounds {m p d : ℕ} (hd : 0 < d) :
    ((m / (p * d) : ℕ) * p : K) ≤ m / d ∧
      (0 < m / (p * d) → (m / d : K) < 2 * ((m / (p * d) : ℕ) * p)) := by
  have hd : (0 : K) < d := Nat.cast_pos.mpr hd
  constructor
  · rw [le_div_iff₀ hd, mul_assoc]
    exact_mod_cast Nat.div_mul_le_self m (p * d)
  · intro hpos
    rw [div_lt_iff₀ hd, mul_assoc, mul_assoc]
    exact_mod_cast lt_two_mul_div hpos

/-- Dividing by the size of the exponent, whatever its sign, is right unless there is something to
lose. -/
theorem div_eq_floor_iff (hb : 2 ≤ b) (a d : ℕ) :
    a / b ^ z.natAbs / b ^ d = ⌊(a : K) * (b : K) ^ z / (b : K) ^ d⌋₊ ↔
      z ≤ 0 ∨ (a : K) * (b : K) ^ z / (b : K) ^ d < 1 := by
  rcases le_or_gt z 0 with hz | hz
  · rw [floor_of_nonpos hz]
    exact iff_of_true rfl (.inl hz)
  · have hp : 2 ≤ b ^ z.natAbs := hb.trans (Nat.le_self_pow (Int.natAbs_pos.mpr hz.ne').ne' b)
    have hq : 0 < b ^ d := Nat.pow_pos (by omega)
    rw [floor_of_nonneg hz.le, div_eq_mul_div_iff hp hq, ← Nat.floor_eq_zero (R := K),
      floor_of_nonneg hz.le, Nat.div_eq_zero_iff_lt hq]
    exact ⟨.inr, fun h => h.resolve_left hz.not_ge⟩

omit [FloorSemiring K] in
/-- What is bought for `w`, at a price of `p` per `c` units whose exponent is taken to be negative,
is really worth no more than `w` or the little that `w` was rounded from: unless the exponent is
positive and anything is bought. -/
theorem bought_le_iff {w bound : K} {n p c : ℕ} (hb : 3 ≤ b) (hc : 0 < c) (hw : 0 ≤ w)
    (hbought : (n * p : K) ≤ w * (c * b ^ z.natAbs))
    (hnext : 0 < n → w * (c * b ^ z.natAbs) < 2 * (n * p)) (hle : w ≤ bound)
    (hlt : 0 < n → bound < 4 * w) :
    (n * p * (b : K) ^ z / c : K) ≤ bound ↔ z ≤ 0 ∨ n = 0 := by
  have hc : (0 : K) < c := Nat.cast_pos.mpr hc
  have hpow : (0 : K) < (b : K) ^ z.natAbs := pow_pos (Nat.cast_pos.mpr (by omega)) _
  rcases le_or_gt z 0 with hz | hz
  · refine iff_of_true ?_ (.inl hz)
    have hzpow : (b : K) ^ z = ((b : K) ^ z.natAbs)⁻¹ := by
      rw [← zpow_natCast, ← zpow_neg, Int.natCast_natAbs, abs_of_nonpos hz, neg_neg]
    rw [hzpow, ← div_eq_mul_inv, div_div, div_le_iff₀ (mul_pos hpow hc), mul_comm _ (c : K)]
    exact hbought.trans (mul_le_mul_of_nonneg_right hle (mul_pos hc hpow).le)
  · rw [or_iff_right hz.not_ge]
    refine ⟨fun h => ?_, fun h => ?_⟩
    · by_contra hne
      have hpos : 0 < n := Nat.pos_of_ne_zero hne
      have hzpow : (b : K) ^ z = (b : K) ^ z.natAbs := by
        rw [← zpow_natCast, Int.natCast_natAbs, abs_of_pos hz]
      have hthree : (3 : K) ≤ (b : K) ^ z.natAbs :=
        calc (3 : K) ≤ b := by exact_mod_cast hb
          _ ≤ (b : K) ^ z.natAbs :=
            le_self_pow₀ (by exact_mod_cast (by omega : 1 ≤ b)) (Int.natAbs_ne_zero.mpr hz.ne')
      rw [hzpow, div_le_iff₀ hc] at h
      have hnext := hnext hpos
      have hlt := hlt hpos
      have hnine : 9 * (w * c) ≤ w * (c * (b : K) ^ z.natAbs) * (b : K) ^ z.natAbs :=
        calc 9 * (w * c) = w * c * (3 * 3) := by ring
          _ ≤ w * c * ((b : K) ^ z.natAbs * (b : K) ^ z.natAbs) :=
            mul_le_mul_of_nonneg_left (mul_le_mul hthree hthree (by norm_num) hpow.le)
              (mul_nonneg hw hc.le)
          _ = _ := by ring
      have hworth : w * (c * (b : K) ^ z.natAbs) * (b : K) ^ z.natAbs <
          2 * (n * p) * (b : K) ^ z.natAbs := mul_lt_mul_of_pos_right hnext hpow
      have hbound : bound * c < 4 * w * c := mul_lt_mul_of_pos_right hlt hc
      have hworthless : 0 ≤ w * c := mul_nonneg hw hc.le
      linarith
    · rw [h, Nat.cast_zero, zero_mul, zero_mul, zero_div]
      exact hw.trans hle

end Scaling
