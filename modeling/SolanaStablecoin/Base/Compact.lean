import Mathlib.Algebra.GroupWithZero.Nat
import Mathlib.Data.List.Basic

/-! Numbers in bytes of seven bits each, the lowest first: every byte but the last has its high bit
set. One number has many codes, of which `encode` is the shortest. -/

namespace Compact

variable {b : UInt8} {p q r s : List UInt8} {m n : ℕ}

inductive Code : List UInt8 → Prop
  | last {b : UInt8} (hb : b.toNat < 128) : Code [b]
  | more {b : UInt8} {p : List UInt8} (hb : 128 ≤ b.toNat) (hp : Code p) : Code (b :: p)

def value : List UInt8 → ℕ
  | [] => 0
  | b :: p => b.toNat % 128 + 128 * value p

/-- The code of `n` in at most `m + 1` bytes. -/
def encode : ℕ → ℕ → List UInt8
  | 0, n => [.ofNat n]
  | m + 1, n => if n < 128 then [.ofNat n] else .ofNat (n % 128 + 128) :: encode m (n / 128)

theorem Code.ne_nil (h : Code p) : p ≠ [] := by
  cases h with
  | last => exact List.cons_ne_nil _ _
  | more => exact List.cons_ne_nil _ _

theorem value_append (p q : List UInt8) :
    value (p ++ q) = value p + 128 ^ p.length * value q := by
  induction p with
  | nil => rw [List.nil_append, List.length_nil, Nat.pow_zero, Nat.one_mul, value, Nat.zero_add]
  | cons b p ih =>
    rw [List.cons_append, value, value, ih, List.length_cons, Nat.pow_succ', Nat.mul_add,
      Nat.mul_assoc, Nat.add_assoc]

theorem value_lt (p : List UInt8) : value p < 128 ^ p.length := by
  induction p with
  | nil => exact Nat.one_pos
  | cons b p ih =>
    have hb : b.toNat % 128 < 128 := Nat.mod_lt _ (by decide)
    rw [value, List.length_cons, Nat.pow_succ']
    omega

/-- A code shows where it ends. -/
theorem Code.append_inj (hp : Code p) (hq : Code q) (h : p ++ r = q ++ s) : p = q ∧ r = s := by
  induction hp generalizing q with
  | @last b hb =>
    cases hq with
    | last =>
      rw [List.singleton_append, List.singleton_append, List.cons.injEq] at h
      exact ⟨by rw [h.1], h.2⟩
    | more hb' =>
      rw [List.singleton_append, List.cons_append, List.cons.injEq] at h
      rw [← h.1] at hb'
      omega
  | @more b p hb hp ih =>
    cases hq with
    | last hb' =>
      rw [List.singleton_append, List.cons_append, List.cons.injEq] at h
      rw [← h.1] at hb'
      omega
    | more _ hq =>
      rw [List.cons_append, List.cons_append, List.cons.injEq] at h
      obtain ⟨rfl, rfl⟩ := ih hq h.2
      exact ⟨by rw [h.1], rfl⟩

/-- A code that starts with a byte that is not the last. -/
theorem Code.of_cons (hp : Code p) (hb : 128 ≤ b.toNat) (h : b :: r = p ++ s) :
    ∃ p', p = b :: p' ∧ r = p' ++ s ∧ Code p' := by
  cases hp with
  | last hb' =>
    rw [List.singleton_append, List.cons.injEq] at h
    rw [← h.1] at hb'
    omega
  | @more b' p' _ hp' =>
    rw [List.cons_append, List.cons.injEq] at h
    exact ⟨p', by rw [h.1], h.2, hp'⟩

theorem toNat_ofNat (h : n < 256) : (UInt8.ofNat n).toNat = n := UInt8.toNat_ofNat_of_lt' h

/-- What is encoded can be read. -/
theorem encode_spec (h : n < 128 ^ (m + 1)) :
    Code (encode m n) ∧ value (encode m n) = n ∧ (encode m n).length ≤ m + 1 := by
  induction m generalizing n with
  | zero =>
    rw [Nat.zero_add, Nat.pow_one] at h
    have hn : (UInt8.ofNat n).toNat = n := toNat_ofNat (by omega)
    refine ⟨.last (by rwa [hn]), ?_, Nat.le_refl 1⟩
    rw [encode, value, value, hn, Nat.mod_eq_of_lt h, Nat.mul_zero, Nat.add_zero]
  | succ m ih =>
    rw [encode]
    split
    next hlt =>
      have hn : (UInt8.ofNat n).toNat = n := toNat_ofNat (by omega)
      refine ⟨.last (by rwa [hn]), ?_, Nat.succ_le_succ (Nat.zero_le _)⟩
      rw [value, value, hn, Nat.mod_eq_of_lt hlt, Nat.mul_zero, Nat.add_zero]
    next hge =>
      have hrest : n / 128 < 128 ^ (m + 1) := by
        rw [Nat.div_lt_iff_lt_mul (by decide), ← Nat.pow_succ]
        exact h
      obtain ⟨hcode, hvalue, hlength⟩ := ih hrest
      have hb : (UInt8.ofNat (n % 128 + 128)).toNat = n % 128 + 128 := toNat_ofNat (by omega)
      refine ⟨.more (by omega) hcode, ?_, Nat.succ_le_succ hlength⟩
      rw [value, hvalue, hb]
      omega

end Compact
