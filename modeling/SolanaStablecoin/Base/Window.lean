import Mathlib.Algebra.BigOperators.Group.List.Basic
import Mathlib.Algebra.Ring.Nat
import Mathlib.Data.List.DropRight

/-! A meter of what is spent over time. Now and then it starts again from nothing, and what was
spent since then is its current window. Where a window is only left once it is over, a span of its
length meets two windows at most. -/

namespace Window

/-- What a meter shows. -/
inductive Mark where
  | reset
  | spent (time amount : Nat)
deriving DecidableEq

/-- What is spent, if the time meets `p`. -/
def Mark.amount (p : Nat → Prop) [DecidablePred p] : Mark → Nat
  | reset => 0
  | spent time n => if p time then n else 0

def Mark.counts : Mark → Bool
  | reset => false
  | spent .. => true

section Sums

variable {p q : Nat → Prop} [DecidablePred p] [DecidablePred q] {h h' : List Mark} {t n : Nat}

/-- What was spent at the times that meet `p`. -/
def spentWhen (p : Nat → Prop) [DecidablePred p] (h : List Mark) : Nat :=
  (h.map (Mark.amount p)).sum

@[simp] theorem spentWhen_nil : spentWhen p [] = 0 := rfl

theorem spentWhen_append (h h' : List Mark) :
    spentWhen p (h ++ h') = spentWhen p h + spentWhen p h' := by
  rw [spentWhen, List.map_append, List.sum_append, spentWhen, spentWhen]

@[simp] theorem spentWhen_reset (h : List Mark) : spentWhen p (h ++ [.reset]) = spentWhen p h :=
  spentWhen_append h [.reset]

theorem spentWhen_spent (h : List Mark) (t n : Nat) :
    spentWhen p (h ++ [.spent t n]) = spentWhen p h + if p t then n else 0 :=
  spentWhen_append h [.spent t n]

theorem spentWhen_mono (H : ∀ t n, .spent t n ∈ h → p t → q t) :
    spentWhen p h ≤ spentWhen q h := by
  induction h using List.reverseRecOn with
  | nil => exact Nat.le_refl _
  | append_singleton h m ih =>
    have hle := ih fun t n ht => H t n (List.mem_append_left _ ht)
    cases m with
    | reset => rwa [spentWhen_reset, spentWhen_reset]
    | spent t n =>
      rw [spentWhen_spent, spentWhen_spent]
      refine Nat.add_le_add hle ?_
      by_cases hp : p t
      · rw [if_pos hp, if_pos (H t n (List.mem_append_right _ (List.mem_singleton_self _)) hp)]
      · rw [if_neg hp]
        exact Nat.zero_le _

theorem spentWhen_congr (H : ∀ t n, .spent t n ∈ h → (p t ↔ q t)) :
    spentWhen p h = spentWhen q h :=
  Nat.le_antisymm (spentWhen_mono fun t n ht => (H t n ht).mp)
    (spentWhen_mono fun t n ht => (H t n ht).mpr)

theorem spentWhen_eq_zero (H : ∀ t n, .spent t n ∈ h → ¬ p t) : spentWhen p h = 0 := by
  refine Nat.le_zero.mp ((spentWhen_mono (q := fun _ => False) H).trans (Nat.le_of_eq ?_))
  induction h using List.reverseRecOn with
  | nil => rfl
  | append_singleton h m ih =>
    have hzero := ih fun t n ht => H t n (List.mem_append_left _ ht)
    cases m with
    | reset => rwa [spentWhen_reset]
    | spent t n => rw [spentWhen_spent, hzero, if_neg not_false]

end Sums

variable {len limit start now t n : Nat} {h : List Mark}

def total (h : List Mark) : Nat := spentWhen (fun _ => True) h

/-- What was spent in the `len` times from `t` on. -/
def spentIn (t len : Nat) (h : List Mark) : Nat := spentWhen (fun x => t ≤ x ∧ x < t + len) h

/-- What was spent in the last `len` times up to `now`. -/
def recent (len now : Nat) (h : List Mark) : Nat := spentWhen (fun x => now < x + len) h

/-- What the meter shows since it last started again. -/
def current (h : List Mark) : List Mark := h.rtakeWhile Mark.counts

/-- What it has shown before. -/
def earlier (h : List Mark) : List Mark := h.rdropWhile Mark.counts

theorem earlier_append_current (h : List Mark) : earlier h ++ current h = h :=
  List.rdropWhile_append_rtakeWhile

@[simp] theorem current_nil : current [] = [] := rfl

@[simp] theorem current_reset (h : List Mark) : current (h ++ [.reset]) = [] :=
  List.rtakeWhile_concat_neg _ _ _ Bool.false_ne_true

@[simp] theorem earlier_reset (h : List Mark) : earlier (h ++ [.reset]) = h ++ [.reset] :=
  List.rdropWhile_concat_neg _ _ _ Bool.false_ne_true

@[simp] theorem current_spent (h : List Mark) (t n : Nat) :
    current (h ++ [.spent t n]) = current h ++ [.spent t n] :=
  List.rtakeWhile_concat_pos _ _ _ rfl

@[simp] theorem earlier_spent (h : List Mark) (t n : Nat) :
    earlier (h ++ [.spent t n]) = earlier h :=
  List.rdropWhile_concat_pos _ _ _ rfl

theorem total_spent (h : List Mark) (t n : Nat) : total (h ++ [.spent t n]) = total h + n := by
  rw [total, spentWhen_spent, if_pos trivial, total]

theorem spentIn_le_total (t len : Nat) (h : List Mark) : spentIn t len h ≤ total h :=
  spentWhen_mono fun _ _ _ _ => trivial

/-! ## Every span -/

/-- An amount that comes last takes no span over the limit if the last times have room for it. -/
theorem spans_spend (H : ∀ t, spentIn t len h ≤ limit) (hlast : recent len now h + n ≤ limit)
    (t : Nat) : spentIn t len (h ++ [.spent now n]) ≤ limit := by
  rw [spentIn, spentWhen_spent]
  split
  next hnow =>
    refine Nat.le_trans (Nat.add_le_add_right (spentWhen_mono fun x n hx hspan => ?_) n) hlast
    omega
  next => exact H t

/-- What has been counted lately, if the current window is no older than `len`. -/
theorem recent_eq (hstart : ∀ t n, .spent t n ∈ current h → start ≤ t) (hnow : now < start + len) :
    recent len now h = recent len now (earlier h) + total (current h) := by
  conv_lhs => rw [← earlier_append_current h]
  rw [recent, spentWhen_append]
  refine congrArg _ (spentWhen_congr fun t n ht => iff_of_true ?_ trivial)
  have hle := hstart t n ht
  omega

/-! ## A counter for one time -/

/-- What was spent at `time`, after which nothing was. -/
structure Counts (time count : Nat) (h : List Mark) : Prop where
  past : ∀ t n, .spent t n ∈ h → t ≤ time
  total : spentWhen (· = time) h = count

namespace Counts

variable {time count : Nat}

theorem nil : Counts time 0 [] where
  past _ _ hmem := absurd hmem List.not_mem_nil
  total := rfl

/-- At a later time the counter is out of date, and nothing has been spent. -/
theorem spent_eq (H : Counts time count h) (hnow : time ≤ now) :
    spentWhen (· = now) h = if now ≠ time then 0 else count := by
  split
  next hnew =>
    refine spentWhen_eq_zero fun t n ht heq => ?_
    have hle := H.past t n ht
    omega
  next hsame =>
    rw [Classical.not_not.mp hsame]
    exact H.total

theorem spend (H : Counts time count h) (hnow : time ≤ now) :
    Counts now ((if now ≠ time then 0 else count) + n) (h ++ [.spent now n]) where
  past t k ht := by
    rw [List.mem_append, List.mem_singleton] at ht
    rcases ht with ht | ht
    · exact (H.past t k ht).trans hnow
    · cases ht
      exact Nat.le_refl _
  total := by rw [spentWhen_spent, if_pos rfl, H.spent_eq hnow]

/-- No time is taken over the limit if the counter is not. -/
theorem spend_le (H : Counts time count h) (hnow : time ≤ now)
    (hle : (if now ≠ time then 0 else count) + n ≤ limit)
    (hlimit : ∀ t, spentWhen (· = t) h ≤ limit) (t : Nat) :
    spentWhen (· = t) (h ++ [.spent now n]) ≤ limit := by
  rw [spentWhen_spent]
  split
  next heq => rwa [← heq, H.spent_eq hnow]
  next => exact hlimit t

end Counts

/-! ## Windows that are left once they are over -/

/-- The current window began at `start`, and no window has spent more than `limit`. -/
structure Tumbles (len limit start : Nat) (h : List Mark) : Prop where
  within : total (current h) ≤ limit
  inside : ∀ t n, .spent t n ∈ current h → start ≤ t ∧ t < start + len
  before : ∀ t n, .spent t n ∈ earlier h → t < start
  /-- Of the earlier windows only the last one is met by a span that also meets the current one. -/
  overlap : ∀ t, start < t + len → spentIn t len (earlier h) ≤ limit
  spans : ∀ t, spentIn t len (earlier h) ≤ 2 * limit

namespace Tumbles

theorem nil : Tumbles len limit start [] where
  within := Nat.zero_le _
  inside _ _ hmem := absurd hmem List.not_mem_nil
  before _ _ hmem := absurd hmem List.not_mem_nil
  overlap _ _ := Nat.zero_le _
  spans _ := Nat.zero_le _

theorem spentIn_le (H : Tumbles len limit start h) (t : Nat) :
    spentIn t len h ≤ 2 * limit := by
  rw [← earlier_append_current h, spentIn, spentWhen_append]
  by_cases ht : start < t + len
  · have hearlier := H.overlap t ht
    have hcurrent := (spentIn_le_total t len (current h)).trans H.within
    rw [spentIn] at hearlier hcurrent
    omega
  · have hnone : spentWhen (fun x => t ≤ x ∧ x < t + len) (current h) = 0 := by
      refine spentWhen_eq_zero fun x n hx => ?_
      have hle := (H.inside x n hx).1
      omega
    rw [hnone]
    exact H.spans t

theorem spend (H : Tumbles len limit start h) (hstart : start ≤ now) (hnow : now < start + len)
    (hle : total (current h) + n ≤ limit) : Tumbles len limit start (h ++ [.spent now n]) where
  within := by rwa [current_spent, total_spent]
  inside t k ht := by
    rw [current_spent, List.mem_append, List.mem_singleton] at ht
    rcases ht with ht | ht
    · exact H.inside t k ht
    · cases ht
      exact ⟨hstart, hnow⟩
  before := by
    rw [earlier_spent]
    exact H.before
  overlap := by
    rw [earlier_spent]
    exact H.overlap
  spans := by
    rw [earlier_spent]
    exact H.spans

theorem reset (H : Tumbles len limit start h) (hnow : start + len ≤ now) :
    Tumbles len limit now (h ++ [.reset]) where
  within := by
    rw [current_reset]
    exact Nat.zero_le _
  inside t n ht := by
    rw [current_reset] at ht
    cases ht
  before t n ht := by
    rw [earlier_reset, List.mem_append, List.mem_singleton, or_iff_left Mark.noConfusion,
      ← earlier_append_current h, List.mem_append] at ht
    rcases ht with ht | ht
    · have hlt := H.before t n ht
      omega
    · have hlt := (H.inside t n ht).2
      omega
  overlap t ht := by
    -- the span begins after the window that is left has begun
    rw [earlier_reset, spentIn, spentWhen_reset, ← earlier_append_current h, spentWhen_append,
      spentWhen_eq_zero fun x n hx => ?_, Nat.zero_add]
    · exact (spentIn_le_total t len (current h)).trans H.within
    · have hlt := H.before x n hx
      omega
  spans t := by
    rw [earlier_reset, spentIn, spentWhen_reset]
    exact H.spentIn_le t

end Tumbles

end Window
