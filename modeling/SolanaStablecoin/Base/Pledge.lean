import Mathlib.Algebra.BigOperators.Group.List.Basic
import Mathlib.Algebra.Order.Field.Basic
import Mathlib.Data.Nat.Cast.Order.Field
import Mathlib.Tactic.Positivity

/-! A deposit that is pledged for a debt. Who repays a part of the debt gets the same part of the
deposit back, rounded down. -/

/-- What is deposited, and what is owed. -/
@[ext]
structure Pledge where
  deposit : ℕ
  debt : ℕ

namespace Pledge

variable {p q : Pledge} {n : ℕ} {rs : List ℕ}

/-- What a repayment of `n` releases. -/
def release (p : Pledge) (n : ℕ) : ℕ := p.deposit * n / p.debt

def repay (p : Pledge) (n : ℕ) : Pledge where
  deposit := p.deposit - p.release n
  debt := p.debt - n

theorem release_le (h : n ≤ p.debt) : p.release n ≤ p.deposit :=
  Nat.div_le_of_le_mul ((Nat.mul_le_mul_left _ h).trans_eq (Nat.mul_comm ..))

/-- No more than the exact part. -/
theorem release_le_part {K : Type*} [Field K] [LinearOrder K] [IsStrictOrderedRing K] (p : Pledge)
    (n : ℕ) : (p.release n : K) ≤ p.deposit * n / p.debt := by
  rw [← Nat.cast_mul]
  exact Nat.cast_div_le

/-- Who repays everything gets everything. -/
theorem release_all (h : 0 < p.debt) : p.release p.debt = p.deposit := Nat.mul_div_cancel _ h

/-- The deposit per unit of debt does not fall. -/
theorem repay_ratio (p : Pledge) (n : ℕ) :
    p.deposit * (p.repay n).debt ≤ (p.repay n).deposit * p.debt := by
  have hrelease : p.release n * p.debt ≤ p.deposit * n := Nat.div_mul_le_self ..
  calc p.deposit * (p.debt - n) = p.deposit * p.debt - p.deposit * n := Nat.mul_sub ..
    _ ≤ p.deposit * p.debt - p.release n * p.debt := Nat.sub_le_sub_left hrelease _
    _ = (p.deposit - p.release n) * p.debt := (Nat.sub_mul ..).symm

/-- Nor does it with fees `f` on top of the debt that the repayment settles. -/
theorem repay_ratio_add (p : Pledge) (n f : ℕ) :
    p.deposit * (p.repay n).debt ≤ (p.repay n).deposit * (p.debt + f) :=
  (p.repay_ratio n).trans (Nat.mul_le_mul_left _ (Nat.le_add_right ..))

/-- A repayment, with what it releases, or more debt. -/
inductive Step : Pledge → List ℕ → Pledge → Prop where
  | stay {p : Pledge} : Step p [] p
  | borrow {p : Pledge} {n : ℕ} (more : 0 < n) : Step p [] { p with debt := p.debt + n }
  | repay {p : Pledge} {n : ℕ} (positive : 0 < n) (le_debt : n ≤ p.debt) :
    Step p [p.release n] (p.repay n)

/-- Since the deposit was `d`, everything that left it was released, and nothing is left without a
debt. -/
structure Covers (d : ℕ) (p : Pledge) (rs : List ℕ) : Prop where
  sum_eq : p.deposit + rs.sum = d
  settled : p.debt = 0 → p.deposit = 0

theorem covers_init (h : p.debt ≠ 0) : Covers p.deposit p [] where
  sum_eq := by rw [List.sum_nil, Nat.add_zero]
  settled hzero := absurd hzero h

theorem Covers.step {d : ℕ} {ss : List ℕ} (h : Covers d p rs) (hstep : Step p ss q) :
    Covers d q (rs ++ ss) := by
  obtain ⟨hsum, hsettled⟩ := h
  cases hstep with
  | stay =>
    rw [List.append_nil]
    exact ⟨hsum, hsettled⟩
  | borrow hmore =>
    rw [List.append_nil]
    exact ⟨hsum, fun hzero => absurd hzero (by simp only; omega)⟩
  | @repay n hpos hle =>
    have hrelease := release_le hle
    refine ⟨?_, fun hzero => ?_⟩
    · rw [List.sum_append, List.sum_singleton]
      change p.deposit - p.release n + _ = d
      omega
    · have hall : n = p.debt := hle.antisymm (Nat.sub_eq_zero_iff_le.mp hzero)
      subst hall
      change p.deposit - p.release p.debt = 0
      rw [release_all hpos, Nat.sub_self]

/-- Once the debt is settled, all of the deposit has been released. -/
theorem Covers.sum_of_settled {d : ℕ} (h : Covers d p rs) (hzero : p.debt = 0) : rs.sum = d := by
  rw [← h.sum_eq, h.settled hzero, Nat.zero_add]

end Pledge
