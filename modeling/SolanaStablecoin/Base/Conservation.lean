import Mathlib.Algebra.BigOperators.Group.Finset.Piecewise
import Mathlib.Algebra.Order.BigOperators.Group.Finset
import Mathlib.Algebra.Ring.Nat

/-! Balances over an unbounded set of holders. The total of the balances is at most `N` when no
finite set of holders has more than `N` together; this is kept by everything that creates or
destroys on both sides alike. Where only finitely many hold anything, the total can also be said
exactly. -/

namespace Conservation

variable {κ : Type*}

/-- No finite set of holders has more than `N` together. -/
def Bounded (f : κ → ℕ) (N : ℕ) : Prop := ∀ S : Finset κ, ∑ k ∈ S, f k ≤ N

variable {f : κ → ℕ} {N : ℕ}

theorem Bounded.le (h : Bounded f N) (k : κ) : f k ≤ N := by
  simpa using h {k}

theorem Bounded.mono {f' : κ → ℕ} {N' : ℕ} (h : Bounded f N) (hf : ∀ k, f' k ≤ f k)
    (hN : N ≤ N') : Bounded f' N' := fun S =>
  ((Finset.sum_le_sum fun k _ => hf k).trans (h S)).trans hN

theorem bounded_zero (h : ∀ k, f k = 0) : Bounded f 0 := fun _ =>
  (Finset.sum_eq_zero fun k _ => h k).le

section
variable [DecidableEq κ]

/-- The total over a set that contains `k`, after the balance of `k` is replaced. -/
theorem sum_update (S : Finset κ) {k : κ} (hk : k ∈ S) (x : ℕ) :
    ∑ i ∈ S, Function.update f k x i + f k = ∑ i ∈ S, f i + x := by
  rw [Finset.sum_update_of_mem hk, ← Finset.add_sum_erase S f hk, Finset.sdiff_singleton_eq_erase]
  omega

/-- Extending a set of holders to contain `k`. -/
theorem sum_le_insert (S : Finset κ) (g : κ → ℕ) (k : κ) :
    ∑ i ∈ S, g i ≤ ∑ i ∈ insert k S, g i :=
  Finset.sum_le_sum_of_subset (Finset.subset_insert k S)

/-- A holder gets `n` more, and so does the total. -/
theorem Bounded.add (h : Bounded f N) (k : κ) (n : ℕ) :
    Bounded (Function.update f k (f k + n)) (N + n) := by
  intro S
  have hle := sum_le_insert S (Function.update f k (f k + n)) k
  have heq := sum_update (f := f) (insert k S) (Finset.mem_insert_self k S) (f k + n)
  have := h (insert k S)
  omega

/-- A holder gives up `n`, and so does the total. -/
theorem Bounded.sub (h : Bounded f N) {k : κ} {n : ℕ} (hn : n ≤ f k) :
    Bounded (Function.update f k (f k - n)) (N - n) := by
  intro S
  have hle := sum_le_insert S (Function.update f k (f k - n)) k
  have heq := sum_update (f := f) (insert k S) (Finset.mem_insert_self k S) (f k - n)
  have := h (insert k S)
  omega

/-- One holder gives up `n` and another gets at most as much. -/
theorem Bounded.move (h : Bounded f N) {k k' : κ} {n m : ℕ} (hn : n ≤ f k) (hm : m ≤ n)
    (hk : k' ≠ k) :
    Bounded (Function.update (Function.update f k (f k - n)) k' (f k' + m)) N := by
  have h₁ := (h.sub hn).add k' m
  rw [Function.update_of_ne hk] at h₁
  have : n ≤ N := hn.trans (h.le k)
  exact h₁.mono (fun _ => le_rfl) (by omega)

end

/-- Finitely many hold anything, and together they have `N`. -/
def SumsTo (f : κ → ℕ) (N : ℕ) : Prop :=
  ∃ S : Finset κ, (∀ k ∉ S, f k = 0) ∧ ∑ k ∈ S, f k = N

theorem sumsTo_zero (h : ∀ k, f k = 0) : SumsTo f 0 := ⟨∅, fun k _ => h k, rfl⟩

theorem SumsTo.le (h : SumsTo f N) (k : κ) : f k ≤ N := by
  obtain ⟨S, hzero, rfl⟩ := h
  by_cases hk : k ∈ S
  · exact Finset.single_le_sum (fun _ _ => Nat.zero_le _) hk
  · rw [hzero k hk]
    exact Nat.zero_le _

/-- The balance of `k` is replaced, and the total moves by the difference. -/
theorem SumsTo.update [DecidableEq κ] {N' x : ℕ} (h : SumsTo f N) (k : κ)
    (hN : N' + f k = N + x) : SumsTo (Function.update f k x) N' := by
  obtain ⟨S, hzero, rfl⟩ := h
  have hsum : ∑ i ∈ insert k S, f i = ∑ i ∈ S, f i :=
    (Finset.sum_subset (Finset.subset_insert k S) fun i _ hi => hzero i hi).symm
  refine ⟨insert k S, fun i hi => ?_, ?_⟩
  · obtain ⟨hne, hi⟩ := not_or.mp (Finset.mem_insert.not.mp hi)
    rw [Function.update_of_ne hne, hzero i hi]
  · have heq := sum_update (f := f) (insert k S) (Finset.mem_insert_self k S) x
    omega

/-- Where each has no more, all together have no more. -/
theorem SumsTo.mono {f' : κ → ℕ} {N' : ℕ} (h : SumsTo f N) (h' : SumsTo f' N')
    (hf : ∀ k, f k ≤ f' k) : N ≤ N' := by
  classical
  obtain ⟨S, -, rfl⟩ := h
  obtain ⟨S', hzero, rfl⟩ := h'
  calc
    ∑ k ∈ S, f k ≤ ∑ k ∈ S ∪ S', f k := Finset.sum_le_sum_of_subset Finset.subset_union_left
    _ ≤ ∑ k ∈ S ∪ S', f' k := Finset.sum_le_sum fun k _ => hf k
    _ = ∑ k ∈ S', f' k :=
      (Finset.sum_subset Finset.subset_union_right fun k _ hk => hzero k hk).symm

/-! ## Balances in a book -/

section
variable [DecidableEq κ]

/-- What the entries of `k` add up to. -/
def balance (entries : List (κ × ℕ)) (k : κ) : ℕ :=
  ((entries.filter fun e => k = e.1).map Prod.snd).sum

theorem balance_cons (e : κ × ℕ) (entries : List (κ × ℕ)) :
    balance (e :: entries) =
      Function.update (balance entries) e.1 (balance entries e.1 + e.2) := by
  funext k
  rcases eq_or_ne k e.1 with rfl | hk
  · rw [Function.update_self, balance, List.filter_cons_of_pos (by simp), List.map_cons,
      List.sum_cons, Nat.add_comm, balance]
  · rw [Function.update_of_ne hk, balance, List.filter_cons_of_neg (by simpa using hk), balance]

theorem sumsTo_balance (entries : List (κ × ℕ)) :
    SumsTo (balance entries) (entries.map Prod.snd).sum := by
  induction entries with
  | nil => exact sumsTo_zero fun _ => rfl
  | cons e entries ih =>
    rw [balance_cons, List.map_cons, List.sum_cons]
    exact ih.update e.1 (by omega)

end

end Conservation
