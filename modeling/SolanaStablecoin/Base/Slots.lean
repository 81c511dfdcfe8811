import Mathlib.Data.Finset.Dedup
import Mathlib.Data.Finset.Card
import Mathlib.Data.Finset.Insert

/-! A bounded set in a vector of slots, where an empty slot holds a placeholder. An element comes in
by overwriting a placeholder and leaves by being overwritten with one, so that the vector keeps its
length. -/

universe u

namespace Slots

variable {α : Type u} {e x y : α} {v v' : List α}

/-- One slot is overwritten. -/
def Overwrites (x y : α) (v v' : List α) : Prop :=
  ∃ l r, v = l ++ x :: r ∧ v' = l ++ y :: r

theorem Overwrites.symm (h : Overwrites x y v v') : Overwrites y x v' v := by
  obtain ⟨l, r, hv, hv'⟩ := h
  exact ⟨l, r, hv', hv⟩

theorem Overwrites.length_eq (h : Overwrites x y v v') : v'.length = v.length := by
  obtain ⟨l, r, rfl, rfl⟩ := h
  rw [List.length_append, List.length_append, List.length_cons, List.length_cons]

theorem Overwrites.eq_of_self (h : Overwrites x x v v') : v' = v := by
  obtain ⟨l, r, rfl, rfl⟩ := h
  rfl

variable [DecidableEq α]

/-- The slots that are taken. -/
def members (e : α) (v : List α) : Finset α := (v.filter (· ≠ e)).toFinset

/-- No element has two slots. -/
def Distinct (e : α) (v : List α) : Prop := (v.filter (· ≠ e)).Nodup

theorem mem_members : x ∈ members e v ↔ x ∈ v ∧ x ≠ e := by
  simp [members]

theorem card_members (h : Distinct e v) : (members e v).card = (v.filter (· ≠ e)).length :=
  List.toFinset_card_of_nodup h

theorem card_members_le (h : Distinct e v) : (members e v).card ≤ v.length :=
  card_members h ▸ List.length_filter_le ..

/-- There is room as long as there are fewer elements than slots. -/
theorem card_members_lt_iff (h : Distinct e v) : (members e v).card < v.length ↔ e ∈ v := by
  rw [card_members h, List.length_filter_lt_length_iff_exists]
  constructor
  · rintro ⟨z, hz, hne⟩
    simp only [ne_eq, decide_not, Bool.not_eq_true', decide_eq_false_iff_not, not_not] at hne
    exact hne ▸ hz
  · intro he
    exact ⟨e, he, by simp⟩

namespace Overwrites

theorem filter_perm (h : Overwrites e x v v') (hx : x ≠ e) :
    (v'.filter (· ≠ e)).Perm (x :: v.filter (· ≠ e)) := by
  obtain ⟨l, r, rfl, rfl⟩ := h
  simp only [List.filter_append, List.filter_cons, hx, ne_eq, not_true_eq_false, not_false_eq_true,
    decide_true, decide_false, if_true, Bool.false_eq_true, if_false]
  exact List.perm_middle

/-- Filling a slot adds an element. -/
theorem members_insert (h : Overwrites e x v v') (hx : x ≠ e) :
    members e v' = insert x (members e v) := by
  rw [members, members, List.toFinset_eq_of_perm _ _ (h.filter_perm hx), List.toFinset_cons]

theorem distinct_iff (h : Overwrites e x v v') (hx : x ≠ e) :
    Distinct e v' ↔ x ∉ members e v ∧ Distinct e v := by
  rw [Distinct, (h.filter_perm hx).nodup_iff, List.nodup_cons, members, List.mem_toFinset, Distinct]

/-- Clearing one takes it away. -/
theorem members_erase (h : Overwrites x e v v') (hx : x ≠ e) (hv : Distinct e v) :
    members e v' = (members e v).erase x := by
  obtain ⟨hnew, -⟩ := (h.symm.distinct_iff hx).mp hv
  rw [h.symm.members_insert hx, Finset.erase_insert hnew]

end Overwrites

end Slots
