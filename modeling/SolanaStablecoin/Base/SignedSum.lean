import Mathlib.Algebra.Order.BigOperators.Group.List
import Mathlib.Tactic.Ring

/-! Unsigned words that are kept as signed words of the same width, and sums of them in a signed
arithmetic that fails where it overflows. There are `half` nonnegative signed words, and twice as
many unsigned ones. -/

namespace SignedSum

variable (half : ℕ)

/-- The word as a signed one. -/
def signed (n : ℕ) : ℤ := if n < half then n else n - 2 * half

/-- The signed word as an unsigned one. -/
def unsigned (z : ℤ) : ℕ := (z % (2 * half)).toNat

/-- The running total, which has to stay a signed word. -/
def accumulate (z : ℤ) : List ℤ → Option ℤ
  | [] => some z
  | x :: xs => if -half ≤ z + x ∧ z + x < half then accumulate (z + x) xs else none

/-- The sum is a nonnegative signed word, or one of the words alone takes it past these. -/
def Fits (ns : List ℕ) : Prop := ns.sum < half ∨ ns.sum < 2 * half ∧ ∃ n ∈ ns, half ≤ n

variable {half}

instance (ns : List ℕ) : Decidable (Fits half ns) := inferInstanceAs (Decidable (_ ∨ _ ∧ _))

/-- A cast of 64 bits. -/
theorem toInt_toInt64 (n : UInt64) : n.toInt64.toInt = signed (2 ^ 63) n.toNat := by
  change n.toBitVec.toInt = _
  rw [BitVec.toInt_eq_toNat_cond, signed, UInt64.toNat_toBitVec]
  have hlt := n.toNat_lt
  split <;> split <;> omega

theorem Fits.sum_lt {ns : List ℕ} (h : Fits half ns) : ns.sum < 2 * half := by
  rcases h with h | h
  · omega
  · exact h.1

theorem Fits.sublist {ns ms : List ℕ} (h : Fits half ms) (hsub : ns.Sublist ms) :
    Fits half ns := by
  obtain ⟨rest, hperm⟩ := hsub.exists_perm_append
  have hsum : ms.sum = ns.sum + rest.sum := by rw [hperm.sum_eq, List.sum_append]
  rcases h with h | ⟨h, n, hn, hhalf⟩
  · exact .inl (by omega)
  · rcases List.mem_append.mp (hperm.mem_iff.mp hn) with hn | hn
    · exact .inr ⟨by omega, n, hn, hhalf⟩
    · have hle : n ≤ rest.sum := List.le_sum_of_mem hn
      exact .inl (by omega)

/-- Every word past the nonnegative ones is short by as many as there are. -/
theorem sum_signed (ns : List ℕ) :
    (ns.map (signed half)).sum = ns.sum - 2 * half * (ns.countP (half ≤ ·) : ℕ) := by
  induction ns with
  | nil => simp
  | cons n ns ih =>
    rw [List.map_cons, List.sum_cons, ih, List.sum_cons, List.countP_cons, signed]
    rcases Nat.lt_or_ge n half with hn | hn
    · rw [if_pos hn, if_neg (by simpa using hn)]
      push_cast
      ring
    · rw [if_neg (Nat.not_lt.mpr hn), if_pos (by simpa using hn)]
      push_cast
      ring

theorem mul_countP_le (half : ℕ) (ns : List ℕ) : half * ns.countP (half ≤ ·) ≤ ns.sum := by
  induction ns with
  | nil => exact Nat.le_refl 0
  | cons n ns ih =>
    rw [List.countP_cons, List.sum_cons]
    rcases Nat.lt_or_ge n half with hn | hn
    · rw [if_neg (by simpa using hn), Nat.add_zero]
      omega
    · rw [if_pos (by simpa using hn), Nat.mul_add]
      omega

theorem Fits.signed_sum {ns : List ℕ} (h : Fits half ns) :
    -(half : ℤ) ≤ (ns.map (signed half)).sum ∧ (ns.map (signed half)).sum < half := by
  have hcount := mul_countP_le half ns
  rw [sum_signed]
  rcases h with h | ⟨h, n, hn, hhalf⟩
  · have hzero : ns.countP (half ≤ ·) = 0 := by
      by_contra hne
      have := Nat.le_mul_of_pos_right half (Nat.pos_of_ne_zero hne)
      omega
    rw [hzero]
    omega
  · have hone : ns.countP (half ≤ ·) = 1 := by
      have hpos : 0 < ns.countP (half ≤ ·) := List.countP_pos_iff.mpr ⟨n, hn, by simpa using hhalf⟩
      have hlt : ns.countP (half ≤ ·) < 2 := by
        by_contra hle
        have := Nat.mul_le_mul_left half (Nat.not_lt.mp hle)
        omega
      omega
    rw [hone] at hcount ⊢
    omega

theorem accumulate_eq_some {z t : ℤ} {xs : List ℤ} (h : accumulate half z xs = some t) :
    t = z + xs.sum ∧ (z < half → t < half) := by
  induction xs generalizing z with
  | nil =>
    cases h
    exact ⟨(add_zero _).symm, id⟩
  | cons x xs ih =>
    rw [accumulate] at h
    split at h
    · next hrange =>
      obtain ⟨hsum, hlt⟩ := ih h
      rw [List.sum_cons, ← add_assoc]
      exact ⟨hsum, fun _ => hlt hrange.2⟩
    · cases h

/-- By induction on the words that are still to come. -/
theorem Fits.accumulate_append (init ns : List ℕ) (h : Fits half (init ++ ns)) :
    accumulate half (init.map (signed half)).sum (ns.map (signed half)) =
      some ((init ++ ns).map (signed half)).sum := by
  induction ns generalizing init with
  | nil => rw [List.append_nil, List.map_nil, accumulate]
  | cons n ns ih =>
    rw [List.append_cons] at h ⊢
    have hrange := (h.sublist (List.sublist_append_left _ ns)).signed_sum
    rw [← ih _ h, List.map_cons, accumulate]
    rw [List.map_append, List.sum_append, List.map_singleton, List.sum_singleton] at hrange ⊢
    exact if_pos hrange

theorem Fits.accumulate {ns : List ℕ} (h : Fits half ns) :
    accumulate half 0 (ns.map (signed half)) = some (ns.map (signed half)).sum :=
  accumulate_append [] ns h

/-- A sum that fits is read back as it is. -/
theorem Fits.unsigned_sum {ns : List ℕ} (h : Fits half ns) :
    unsigned half (ns.map (signed half)).sum = ns.sum := by
  have hlt := h.sum_lt
  rw [sum_signed, unsigned, Int.sub_mul_emod_self_left, Int.emod_eq_of_lt (by omega) (by omega)]
  exact Int.toNat_natCast _

/-- The sum comes out right exactly if it fits. -/
theorem accumulate_eq_sum_iff (hhalf : 0 < half) (ns : List ℕ) :
    (accumulate half 0 (ns.map (signed half))).map (unsigned half) = some ns.sum ↔
      Fits half ns := by
  constructor
  · intro h
    obtain ⟨t, ht, hsum⟩ := Option.map_eq_some_iff.mp h
    obtain ⟨rfl, hlt⟩ := accumulate_eq_some ht
    rw [zero_add] at hsum hlt
    have htotal : ns.sum < 2 * half := by
      have := Int.emod_lt_of_pos (ns.map (signed half)).sum (b := 2 * half) (by omega)
      rw [unsigned] at hsum
      omega
    rcases Nat.eq_zero_or_pos (ns.countP (half ≤ ·)) with hzero | hpos
    · have := hlt (by omega)
      rw [sum_signed, hzero] at this
      exact .inl (by omega)
    · obtain ⟨n, hn, hle⟩ := List.countP_pos_iff.mp hpos
      exact .inr ⟨htotal, n, hn, by simpa using hle⟩
  · intro h
    rw [h.accumulate, Option.map_some, h.unsigned_sum]

end SignedSum
