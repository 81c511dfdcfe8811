import Mathlib.Data.List.Sort

/-! What a majority of a list shares, the middle of the list has in sorted order: whatever the
others are, they cannot push it out of an interval in which more than half of the elements lie. -/

namespace List

variable {α : Type*} {l : List α} {P : α → Bool}

/-- More than half of the elements satisfy `P`. -/
def Majority (P : α → Bool) (l : List α) : Prop := l.length < 2 * l.countP P

theorem Majority.mono {Q : α → Bool} (h : l.Majority P) (hPQ : ∀ x ∈ l, P x → Q x) :
    l.Majority Q :=
  Nat.lt_of_lt_of_le h (Nat.mul_le_mul_left 2 (countP_mono_left hPQ))

theorem Majority.perm {l' : List α} (h : l.Majority P) (hl : l'.Perm l) : l'.Majority P := by
  rw [Majority, hl.length_eq, hl.countP_eq]
  exact h

theorem Majority.length_pos (h : l.Majority P) : 0 < l.length :=
  Nat.pos_of_ne_zero fun hnil => by simp [Majority, length_eq_zero_iff.mp hnil] at h

/-- Elements outside of the majority may be left out. -/
theorem Majority.filter {Q : α → Bool} (h : l.Majority P) (hPQ : ∀ x ∈ l, P x → Q x) :
    (l.filter Q).Majority P := by
  have hcount : (l.filter Q).countP P = l.countP P := by
    rw [countP_filter]
    refine countP_congr fun x hx => ?_
    simpa using hPQ x hx
  rw [Majority, hcount]
  exact Nat.lt_of_le_of_lt (length_filter_le ..) h

theorem majority_of_forall (hl : l ≠ []) (h : ∀ x ∈ l, P x) : l.Majority P := by
  have hpos := length_pos_iff.mpr hl
  rw [Majority, countP_eq_length.mpr h]
  omega

theorem exists_least {r : α → α → Prop} (total : ∀ x y, r x y ∨ r y x)
    (trans : ∀ x y z, r x y → r y z → r x z) (hl : l ≠ []) : ∃ x ∈ l, ∀ y ∈ l, r x y := by
  induction l with
  | nil => exact absurd rfl hl
  | cons a l ih =>
    by_cases hnil : l = []
    · subst hnil
      refine ⟨a, mem_cons_self, fun y hy => ?_⟩
      rw [mem_singleton.mp hy]
      exact (total a a).elim id id
    · obtain ⟨x, hx, hleast⟩ := ih hnil
      rcases total a x with hax | hxa
      · refine ⟨a, mem_cons_self, fun y hy => ?_⟩
        rcases mem_cons.mp hy with rfl | hy
        · exact (total y y).elim id id
        · exact trans a x y hax (hleast y hy)
      · refine ⟨x, mem_cons_of_mem a hx, fun y hy => ?_⟩
        rcases mem_cons.mp hy with rfl | hy
        · exact hxa
        · exact hleast y hy

variable [LE α] {i : Nat}

/-- What holds of a majority and from there on upwards, holds in the middle and behind it. -/
theorem Majority.upper (h : l.Majority P) (hl : l.Pairwise (· ≤ ·))
    (hP : ∀ x y, x ≤ y → P x → P y) (hi : i < l.length) (hmiddle : l.length ≤ 2 * (i + 1)) :
    P l[i] := by
  by_contra hnot
  have hbefore : (l.take (i + 1)).countP P = 0 := by
    refine countP_eq_zero.mpr fun x hx hPx => hnot ?_
    obtain ⟨j, hj, rfl⟩ := mem_take_iff_getElem.mp hx
    rcases Nat.lt_or_ge j i with hlt | hge
    · exact hP _ _ (pairwise_iff_getElem.mp hl j i (by omega) hi hlt) hPx
    · obtain rfl : j = i := by omega
      exact hPx
  have hsplit : l.countP P = (l.take (i + 1)).countP P + (l.drop (i + 1)).countP P := by
    rw [← countP_append, take_append_drop]
  have hafter : (l.drop (i + 1)).countP P ≤ l.length - (i + 1) := by
    simpa using countP_le_length (p := P) (l := l.drop (i + 1))
  rw [Majority] at h
  omega

/-- What holds of a majority and from there on downwards, holds in the middle and before it. -/
theorem Majority.lower (h : l.Majority P) (hl : l.Pairwise (· ≤ ·))
    (hP : ∀ x y, x ≤ y → P y → P x) (hi : i < l.length) (hmiddle : 2 * i ≤ l.length) :
    P l[i] := by
  by_contra hnot
  have hafter : (l.drop i).countP P = 0 := by
    refine countP_eq_zero.mpr fun x hx hPx => hnot ?_
    obtain ⟨j, hj, rfl⟩ := mem_drop_iff_getElem.mp hx
    rcases Nat.eq_zero_or_pos j with rfl | hpos
    · exact hPx
    · exact hP _ _ (pairwise_iff_getElem.mp hl i (i + j) hi (by omega) (by omega)) hPx
  have hsplit : l.countP P = (l.take i).countP P + (l.drop i).countP P := by
    rw [← countP_append, take_append_drop]
  have hbefore : (l.take i).countP P ≤ i := by
    refine Nat.le_trans countP_le_length ?_
    rw [length_take]
    exact Nat.min_le_left ..
  rw [Majority] at h
  omega

end List
