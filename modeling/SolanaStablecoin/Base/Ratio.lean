import Mathlib.Algebra.Order.Field.Basic
import Mathlib.Data.Nat.Cast.Order.Field
import Mathlib.Data.Rat.Cast.Order

/-! A debt `d` against a value `v`, both natural numbers, compared in parts of `unit`. The debt is
*over* `t` when it is more than `t` parts of the value; the value is *under* `t` when it is less
than `t` parts of the debt. The first reads `t` as debt to value, the second as value to debt. -/

namespace Ratio

variable {unit t t' v v' d d' : ℕ}

def Over (unit t v d : ℕ) : Prop := t * v < unit * d

def Under (unit t v d : ℕ) : Prop := unit * v < t * d

instance : Decidable (Over unit t v d) := inferInstanceAs (Decidable (_ < _))

instance : Decidable (Under unit t v d) := inferInstanceAs (Decidable (_ < _))

/-- The quotient rounded down falls short of `t` exactly when the exact one does. -/
theorem div_lt_iff (hd : 0 < d) : v * unit / d < t ↔ Under unit t v d := by
  rw [Nat.div_lt_iff_lt_mul hd, Under, Nat.mul_comm v]

theorem Under.debt_pos (h : Under unit t v d) : 0 < d :=
  Nat.pos_of_mul_pos_left (Nat.zero_lt_of_lt h)

theorem Under.mono (h : Under unit t v d) (ht : t ≤ t') (hv : v' ≤ v) (hd : d ≤ d') :
    Under unit t' v' d' :=
  calc unit * v' ≤ unit * v := Nat.mul_le_mul_left unit hv
    _ < t * d := h
    _ ≤ t' * d' := Nat.mul_le_mul ht hd

/-- From `unit` on, whatever is over `t` is under `t`. -/
theorem Over.under (ht : unit ≤ t) (h : Over unit t v d) : Under unit t v d :=
  calc unit * v ≤ t * v := Nat.mul_le_mul_right v ht
    _ < unit * d := h
    _ ≤ t * d := Nat.mul_le_mul_right d ht

/-- A value that is under `t'` of the debt leaves a debt over every `t` up to the reciprocal. -/
theorem Under.over (ht : t * t' ≤ unit * unit) (hunit : 0 < unit) (h : Under unit t' v d) :
    Over unit t v d := by
  rcases Nat.eq_zero_or_pos t with rfl | hpos
  · rw [Over, Nat.zero_mul]
    exact Nat.mul_pos hunit h.debt_pos
  · apply Nat.lt_of_mul_lt_mul_left (a := unit)
    calc unit * (t * v) = t * (unit * v) := Nat.mul_left_comm ..
      _ < t * (t' * d) := Nat.mul_lt_mul_of_pos_left h hpos
      _ = t * t' * d := (Nat.mul_assoc ..).symm
      _ ≤ unit * unit * d := Nat.mul_le_mul_right d ht
      _ = unit * (unit * d) := Nat.mul_assoc ..

/-- Below `unit` there is a band of debts that are over `t` while the value is not under `t`: the
debt that equals the value lies in it. -/
theorem band_of_lt (ht : t < unit) (hv : 0 < v) : Over unit t v v ∧ ¬Under unit t v v :=
  have hlt : t * v < unit * v := Nat.mul_lt_mul_of_pos_right ht hv
  ⟨hlt, hlt.not_gt⟩

/-! ## Rounding down on the way -/

/-- What may be owed against `v` is the part `unit / t` of it, converted at `scale / micro` and
rounded down at both steps. Converted back it is not over the exact part. -/
theorem not_under_of_le {scale micro D : ℕ} (h : D ≤ v * unit / t * scale / micro) :
    ¬Under unit t v (D * micro / scale) := by
  have h₁ : D * micro ≤ v * unit / t * scale :=
    (Nat.mul_le_mul_right micro h).trans (Nat.div_mul_le_self ..)
  have h₂ : D * micro / scale ≤ v * unit / t :=
    Nat.div_le_of_le_mul (h₁.trans_eq (Nat.mul_comm ..))
  apply Nat.not_lt.mpr
  calc t * (D * micro / scale) ≤ t * (v * unit / t) := Nat.mul_le_mul_left t h₂
    _ ≤ v * unit := Nat.mul_div_le ..
    _ = unit * v := Nat.mul_comm ..

/-- The same bound without rounding. -/
theorem cast_le_of_le {K : Type*} [Field K] [LinearOrder K] [IsStrictOrderedRing K]
    {scale micro D : ℕ} (h : D ≤ v * unit / t * scale / micro) :
    (D : K) ≤ v * unit / t * scale / micro := by
  calc (D : K) ≤ ((v * unit / t * scale / micro : ℕ) : K) := Nat.cast_le.mpr h
    _ ≤ ((v * unit / t * scale : ℕ) : K) / micro := Nat.cast_div_le
    _ ≤ v * unit / t * scale / micro := by
      have hpart : ((v * unit / t : ℕ) : K) ≤ v * unit / t := by
        simpa using Nat.cast_div_le (α := K) (m := v * unit) (n := t)
      rw [Nat.cast_mul]
      exact div_le_div_of_nonneg_right
        (mul_le_mul_of_nonneg_right hpart (Nat.cast_nonneg _)) (Nat.cast_nonneg _)

end Ratio
