import Mathlib.Data.Nat.Dist
import Mathlib.Logic.Function.Iterate

/-! A running average of natural numbers: an old value of weight `m` and a new one of weight 1,
rounded down. Rounding helps on the way down and hinders on the way up, so under a constant input
the average falls to it, but rises to within `m` of it only. -/

namespace Smoothing

variable {m p x y z : ℕ}

def next (m p x : ℕ) : ℕ := (m * x + p) / (m + 1)

/-- `y` lies between `x` and `p`. -/
def Toward (p x y : ℕ) : Prop := x ≤ y ∧ y ≤ p ∨ p ≤ y ∧ y ≤ x

theorem Toward.refl (p x : ℕ) : Toward p x x := by
  rcases Nat.le_total x p with h | h
  · exact .inl ⟨Nat.le_refl x, h⟩
  · exact .inr ⟨h, Nat.le_refl x⟩

theorem Toward.trans (h : Toward p x y) (h' : Toward p y z) : Toward p x z := by
  rw [Toward] at h h' ⊢
  omega

/-- The average lies between the old value and the new one. -/
theorem toward_next (m p x : ℕ) : Toward p x (next m p x) := by
  have hsucc (y : ℕ) : y * (m + 1) = m * y + y := by rw [Nat.mul_comm, Nat.succ_mul]
  rw [Toward, next, Nat.le_div_iff_mul_le m.succ_pos, Nat.le_div_iff_mul_le m.succ_pos, hsucc,
    hsucc]
  rcases Nat.le_total x p with hxp | hpx
  · have hle : m * x ≤ m * p := Nat.mul_le_mul_left m hxp
    refine .inl ⟨Nat.add_le_add_left hxp _, Nat.div_le_of_le_mul ?_⟩
    rw [Nat.succ_mul]
    exact Nat.add_le_add_right hle p
  · have hle : m * p ≤ m * x := Nat.mul_le_mul_left m hpx
    refine .inr ⟨Nat.add_le_add_right hle p, Nat.div_le_of_le_mul ?_⟩
    rw [Nat.succ_mul]
    exact Nat.add_le_add_left hpx _

theorem next_pos (hx : 0 < x) (hp : 0 < p) : 0 < next m p x := by
  rcases toward_next m p x with h | h
  · exact hx.trans_le h.1
  · exact hp.trans_le h.1

theorem next_lt (h : p < x) : next m p x < x := by
  rw [next, Nat.div_lt_iff_lt_mul m.succ_pos, Nat.mul_succ, Nat.mul_comm x m]
  exact Nat.add_lt_add_left h _

theorem lt_next (h : x + m < p) : x < next m p x := by
  rw [next, ← Nat.succ_le_iff, Nat.le_div_iff_mul_le m.succ_pos, Nat.succ_mul, Nat.mul_succ,
    Nat.mul_comm x m]
  omega

/-- Where the average stays under the constant input `p`. -/
def Settled (m p x : ℕ) : Prop := x ≤ p ∧ p ≤ x + m

theorem next_eq_self_iff : next m p x = x ↔ Settled m p x := by
  constructor
  · intro h
    refine ⟨Nat.not_lt.mp fun hlt => ?_, Nat.not_lt.mp fun hlt => ?_⟩
    · exact Nat.ne_of_lt (next_lt hlt) h
    · exact Nat.ne_of_gt (lt_next hlt) h
  · rintro ⟨hxp, hpx⟩
    rw [next]
    refine Nat.div_eq_of_lt_le ?_ ?_
    · rw [Nat.mul_succ, Nat.mul_comm x m]
      exact Nat.add_le_add_left hxp _
    · rw [Nat.succ_mul, Nat.mul_succ, Nat.mul_comm x m]
      omega

/-! ## Constant input -/

/-- More steps only bring it nearer, and never past the input. -/
theorem toward_iterate (m p x : ℕ) {i j : ℕ} (h : i ≤ j) :
    Toward p ((next m p)^[i] x) ((next m p)^[j] x) := by
  induction j, h using Nat.le_induction with
  | base => exact .refl p _
  | succ j hij ih =>
    rw [Function.iterate_succ_apply']
    exact ih.trans (toward_next m p _)

/-- Every step that does not leave the average where it is brings it nearer to the input. -/
theorem next_nearer (h : ¬ Settled m p x) : Nat.dist (next m p x) p < Nat.dist x p := by
  rw [Nat.dist, Nat.dist]
  have hbetween := toward_next m p x
  rw [Toward] at hbetween
  rcases Nat.lt_or_ge p x with hlt | hge
  · have hnext := @next_lt m p x hlt
    omega
  · have hnext := @lt_next m p x (Nat.not_le.mp fun hle => h ⟨hge, hle⟩)
    omega

/-- The average settles after as many steps as the distance to the input, at most. -/
theorem settled_iterate {n : ℕ} (h : Nat.dist x p ≤ n) : Settled m p ((next m p)^[n] x) := by
  induction n generalizing x with
  | zero =>
    rw [Function.iterate_zero_apply, Nat.eq_of_dist_eq_zero (Nat.le_zero.mp h)]
    exact ⟨Nat.le_refl p, Nat.le_add_right p m⟩
  | succ n ih =>
    by_cases hx : Settled m p x
    · rw [Function.iterate_fixed (next_eq_self_iff.mpr hx)]
      exact hx
    · rw [Function.iterate_succ_apply]
      exact ih (Nat.le_of_lt_succ ((next_nearer hx).trans_le h))

end Smoothing
