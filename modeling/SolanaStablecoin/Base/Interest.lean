import Mathlib.Data.List.Induction
import Mathlib.Tactic.Linarith
import Mathlib.Tactic.Ring

/-! Interest that is computed lazily. A loan records when it last accrued; an operation on it
charges the interest of the time since then, rounded down, or leaves that for later. Over a history
of operations, what was charged is compared with the interest of every single interval. -/

namespace Interest

/-- What is owed, the interest that was computed and not charged yet, and when. -/
structure Loan where
  debt : ℕ
  accrued : ℕ
  last : ℤ

/-- An operation: its time, what was owed before it, and the interest that it charges. -/
structure Event where
  time : ℤ
  debt : ℕ
  charged : ℕ
deriving DecidableEq

def charged (es : List Event) : ℕ := (es.map (·.charged)).sum

/-- The interest of the intervals between the operations, in units of `1 / D`. -/
def due (rate : ℕ) : List Event → ℤ
  | e :: f :: es => f.debt * rate * (f.time - e.time) + due rate (f :: es)
  | _ => 0

/-- The interest of a loan since it last accrued, in units of `1 / D`. -/
def Loan.pending (l : Loan) (rate : ℕ) (t : ℤ) : ℤ := l.debt * rate * (t - l.last)

/-- One operation on a loan. Interest is `rate / D` a second. -/
inductive Step (rate D : ℕ) : Option Loan → Event → Option Loan → Prop where
  | opened {t : ℤ} {n : ℕ} :
    Step rate D none { time := t, debt := 0, charged := 0 }
      (some { debt := n, accrued := 0, last := t })
  /-- The interest is computed, and some of it is charged. -/
  | accrued {l : Loan} {t : ℤ} {debt paid rest fee : ℕ} (fee_eq : (fee : ℤ) = l.pending rate t / D)
    (whole : paid + rest = l.accrued + fee) (owed : debt = 0 → rest = 0) :
    Step rate D (some l) { time := t, debt := l.debt, charged := paid }
      (some { debt, accrued := rest, last := t })
  | idle {l : Loan} {t : ℤ} (early : t ≤ l.last) :
    Step rate D (some l) { time := t, debt := l.debt, charged := 0 } (some l)
  /-- The debt goes down and what was computed is charged, but nothing is computed. What is lost is
  at most one unit. -/
  | repaid {l : Loan} {t : ℤ} {n rest : ℕ} (split : n + rest = l.debt)
    (lost : n * rate * (t - l.last) ≤ D) :
    Step rate D (some l) { time := t, debt := l.debt, charged := l.accrued }
      (some { debt := rest, accrued := 0, last := l.last })

/-- What was charged, together with what is still to be charged, is the interest of the intervals
up to one unit for each operation. -/
structure Fair (rate D : ℕ) (l : Loan) (es : List Event) (t : ℤ) : Prop where
  last_le : l.last ≤ t
  settled : l.debt = 0 → l.accrued = 0
  atMost : D * (charged es + l.accrued) + l.pending rate t ≤ due rate es
  atLeast : due rate es ≤ D * (charged es + l.accrued + es.length) + l.pending rate t

/-- A loan after a history of operations, the last of them at time `t`. -/
inductive Accounted (rate D : ℕ) : Option Loan → List Event → Prop where
  | absent : Accounted rate D none []
  | stands {l : Loan} {es : List Event} {e : Event} (fair : Fair rate D l (es ++ [e]) e.time) :
    Accounted rate D (some l) (es ++ [e])

variable {rate D : ℕ} {l : Loan} {es : List Event} {e f : Event}

theorem charged_concat (es : List Event) (e : Event) :
    charged (es ++ [e]) = charged es + e.charged := by
  rw [charged, List.map_append, List.sum_append, List.map_singleton, List.sum_singleton]
  rfl

theorem due_concat (rate : ℕ) (es : List Event) (e f : Event) :
    due rate (es ++ [e] ++ [f]) = due rate (es ++ [e]) + f.debt * rate * (f.time - e.time) := by
  induction es with
  | nil =>
    change (f.debt : ℤ) * rate * (f.time - e.time) + 0 = 0 + _
    ring
  | cons g es ih =>
    cases es with
    | nil =>
      change _ + (_ + (0 : ℤ)) = _ + (0 : ℤ) + _
      ring
    | cons h es =>
      change _ + due rate (h :: es ++ [e] ++ [f]) = _ + due rate (h :: es ++ [e]) + _
      rw [ih]
      ring

theorem Loan.pending_add (l : Loan) (rate : ℕ) (t t' : ℤ) :
    l.pending rate t + l.debt * rate * (t' - t) = l.pending rate t' := by
  unfold Loan.pending
  ring

section Steps

variable (h : Fair rate D l es f.time)
include h

theorem Fair.accrue (hD : 0 < D) {fee paid rest debt : ℕ}
    (hdue : due rate (es ++ [e]) = due rate es + l.debt * rate * (e.time - f.time))
    (hcharged : e.charged = paid) (hfee : (fee : ℤ) = l.pending rate e.time / D)
    (hwhole : paid + rest = l.accrued + fee) (howed : debt = 0 → rest = 0) :
    Fair rate D { debt, accrued := rest, last := e.time } (es ++ [e]) e.time := by
  have hpos : (0 : ℤ) < D := by exact_mod_cast hD
  have hpending := l.pending_add rate f.time e.time
  have hle : D * (fee : ℤ) ≤ l.pending rate e.time := by
    rw [hfee]
    exact Int.mul_ediv_self_le hpos.ne'
  have hlt : l.pending rate e.time < D * (fee : ℤ) + D := by
    rw [hfee]
    exact Int.lt_mul_ediv_self_add hpos
  have hwhole' : (D : ℤ) * (paid + rest) = D * (l.accrued + fee) := by
    congr 1
    exact_mod_cast hwhole
  have hzero : Loan.pending { debt, accrued := rest, last := e.time } rate e.time = 0 := by
    unfold Loan.pending
    ring
  have hnew : (charged (es ++ [e]) : ℤ) = charged es + paid := by
    rw [charged_concat, hcharged, Nat.cast_add]
  have hlength : ((es ++ [e]).length : ℤ) = es.length + 1 := by simp
  refine ⟨le_refl _, howed, ?_, ?_⟩
  · rw [hzero, hdue, hnew]
    have := h.atMost
    linarith
  · rw [hzero, hdue, hnew, hlength]
    have := h.atLeast
    linarith

/-- Nothing happens in no time. -/
theorem Fair.idle (hdue : due rate (es ++ [e]) = due rate es + l.debt * rate * (e.time - f.time))
    (hcharged : e.charged = 0) (hle : f.time ≤ e.time) (hearly : e.time ≤ l.last) :
    Fair rate D l (es ++ [e]) e.time := by
  have htime : e.time = f.time := le_antisymm (hearly.trans h.last_le) hle
  have hnew : (charged (es ++ [e]) : ℤ) = charged es := by
    rw [charged_concat, hcharged, Nat.add_zero]
  have hlength : ((es ++ [e]).length : ℤ) = es.length + 1 := by simp
  rw [htime, sub_self, mul_zero, add_zero] at hdue
  refine ⟨htime ▸ h.last_le, h.settled, ?_, ?_⟩
  · rw [hdue, hnew, htime]
    exact h.atMost
  · rw [hdue, hnew, htime, hlength]
    have := h.atLeast
    have hD : (0 : ℤ) ≤ D := Int.natCast_nonneg D
    linarith

/-- What a repayment loses is within its own unit. -/
theorem Fair.repay {n rest : ℕ}
    (hdue : due rate (es ++ [e]) = due rate es + l.debt * rate * (e.time - f.time))
    (hcharged : e.charged = l.accrued) (hle : f.time ≤ e.time) (hsplit : n + rest = l.debt)
    (hlost : (n : ℤ) * rate * (e.time - l.last) ≤ D) :
    Fair rate D { debt := rest, accrued := 0, last := l.last } (es ++ [e]) e.time := by
  have hnew : (charged (es ++ [e]) : ℤ) = charged es + l.accrued := by
    rw [charged_concat, hcharged, Nat.cast_add]
  have hlength : ((es ++ [e]).length : ℤ) = es.length + 1 := by simp
  have hpending := l.pending_add rate f.time e.time
  have hrest : l.pending rate e.time =
      n * rate * (e.time - l.last) +
        Loan.pending { debt := rest, accrued := 0, last := l.last } rate e.time := by
    unfold Loan.pending
    rw [← hsplit]
    push_cast
    ring
  have hn : 0 ≤ (n : ℤ) * rate * (e.time - l.last) := by
    have : 0 ≤ e.time - l.last := sub_nonneg.mpr (h.last_le.trans hle)
    positivity
  refine ⟨h.last_le.trans hle, fun _ => rfl, ?_, ?_⟩
  · rw [hdue, hnew]
    have := h.atMost
    push_cast
    linarith
  · rw [hdue, hnew, hlength]
    have := h.atLeast
    push_cast
    linarith

end Steps

theorem Accounted.step {x x' : Option Loan} (hD : 0 < D) (hx : Accounted rate D x es)
    (h : Step rate D x e x') (hsorted : (es ++ [e]).Pairwise (·.time ≤ ·.time)) :
    Accounted rate D x' (es ++ [e]) := by
  cases hx with
  | absent =>
    cases h with
    | opened =>
      refine .stands ⟨le_refl _, fun _ => rfl, ?_, ?_⟩
      · simp [charged, due, Loan.pending]
      · simp [charged, due, Loan.pending]
  | @stands l es f fair =>
    have hle : f.time ≤ e.time := by
      rw [List.pairwise_append] at hsorted
      exact hsorted.2.2 f (List.mem_append_right _ (List.mem_singleton_self _)) e
        (List.mem_singleton_self _)
    have hdue := due_concat rate es f e
    cases h with
    | accrued hfee hwhole howed => exact .stands (fair.accrue hD hdue rfl hfee hwhole howed)
    | idle hearly => exact .stands (fair.idle hdue rfl hle hearly)
    | repaid hsplit hlost => exact .stands (fair.repay hdue rfl hle hsplit hlost)

theorem Accounted.last_le (hx : Accounted rate D (some l) es)
    (hsorted : (es ++ [e]).Pairwise (·.time ≤ ·.time)) : l.last ≤ e.time := by
  cases hx with
  | @stands l es f fair =>
    rw [List.pairwise_append] at hsorted
    exact fair.last_le.trans <| hsorted.2.2 f (List.mem_append_right _ (List.mem_singleton_self _))
      e (List.mem_singleton_self _)

/-- When nothing is owed, all interest has been charged, up to one unit for each operation. -/
theorem Accounted.charged_of_settled (hx : Accounted rate D (some l) es) (hdebt : l.debt = 0) :
    (D * charged es : ℤ) ≤ due rate es ∧ due rate es ≤ D * (charged es + es.length) := by
  cases hx with
  | stands fair =>
    have hpending : l.pending rate = fun _ => 0 := by
      funext t
      unfold Loan.pending
      rw [hdebt]
      ring
    have hmost := fair.atMost
    have hleast := fair.atLeast
    rw [fair.settled hdebt, hpending] at hmost hleast
    push_cast at hmost hleast
    exact ⟨by linarith, by linarith⟩

/-! ## A rate that changes -/

/-- A moment of a history: the rate from then on, and whether the loan was asked for its
interest. -/
structure Tick where
  time : ℤ
  rate : ℕ
  asked : Bool

/-- The rate in force at `x`, which is `rate` before the history. -/
def rateAt (rate : ℕ) (ts : List Tick) (x : ℤ) : ℕ :=
  ts.foldl (fun r t => if t.time ≤ x then t.rate else r) rate

variable {ts us : List Tick} {t : Tick} {l' : Loan} {r₀ : ℕ} {x : ℤ}

theorem rateAt_concat :
    rateAt r₀ (ts ++ [t]) x = if t.time ≤ x then t.rate else rateAt r₀ ts x := by
  rw [rateAt, List.foldl_append]
  rfl

/-- The future does not change the present. -/
theorem rateAt_append (h : ∀ t ∈ us, x < t.time) : rateAt r₀ (ts ++ us) x = rateAt r₀ ts x := by
  induction us using List.reverseRecOn with
  | nil => rw [List.append_nil]
  | append_singleton us t ih =>
    rw [← List.append_assoc, rateAt_concat, if_neg (not_le.mpr (h t (by simp)))]
    exact ih fun u hu => h u (List.mem_append_left _ hu)

/-- A loan after a history. What it has not accrued yet falls under the rate in force now, and so
does what it had not when it was asked. -/
structure Current (r₀ rate : ℕ) (l : Loan) (ts : List Tick) : Prop where
  past : ∃ t ∈ ts, l.last ≤ t.time
  current : l.debt = 0 ∨ ∀ x, l.last ≤ x → rateAt r₀ ts x = rate
  asked : ∀ t ∈ ts, t.asked = true → l.debt = 0 ∨ rate = 0 ∨ t.time ≤ l.last

/-- A loan that accrues is current. -/
theorem Current.renewed (hlast : l.last = t.time) (hsorted : ∀ u ∈ ts, u.time ≤ t.time) :
    Current r₀ t.rate l (ts ++ [t]) where
  past := ⟨t, List.mem_append_right _ (List.mem_singleton_self t), hlast.le⟩
  current := by
    refine .inr fun x hx => ?_
    rw [rateAt_concat, if_pos (hlast.symm.le.trans hx)]
  asked u hu _ := by
    rw [hlast]
    rcases List.mem_append.mp hu with hu | hu
    · exact .inr (.inr (hsorted u hu))
    · rw [List.mem_singleton.mp hu]
      exact .inr (.inr (le_refl _))

/-- A loan that does not accrue stays current, if it owes nothing when the rate changes or has
accrued right then. -/
theorem Current.kept (h : Current r₀ rate l ts) (hlast : l'.last = l.last)
    (hdebt : l.debt = 0 → l'.debt = 0) (hsorted : ∀ u ∈ ts, u.time ≤ t.time)
    (hasked : t.asked = true → l.debt = 0 ∨ t.rate = 0 ∨ t.time ≤ l.last)
    (hchange : t.rate ≠ rate → l.debt = 0 ∨ t.time ≤ l.last) :
    Current r₀ t.rate l' (ts ++ [t]) := by
  refine ⟨?_, ?_, ?_⟩
  · obtain ⟨u, hu, hle⟩ := h.past
    exact ⟨u, List.mem_append_left _ hu, hlast ▸ hle⟩
  · rw [hlast]
    by_cases hrate : t.rate = rate
    · refine h.current.imp hdebt fun hcurrent x hx => ?_
      rw [rateAt_concat, hcurrent x hx, hrate, ite_self]
    · refine (hchange hrate).imp hdebt fun hle x hx => ?_
      rw [rateAt_concat, if_pos (hle.trans hx)]
  · rw [hlast]
    intro u hu husked
    rcases List.mem_append.mp hu with hu | hu
    · by_cases hrate : t.rate = rate
      · rw [hrate]
        exact (h.asked u hu husked).imp_left hdebt
      · refine (hchange hrate).imp hdebt fun hle => ?_
        exact .inr ((hsorted u hu).trans hle)
    · rw [List.mem_singleton.mp hu] at husked ⊢
      exact (hasked husked).imp_left hdebt

end Interest
