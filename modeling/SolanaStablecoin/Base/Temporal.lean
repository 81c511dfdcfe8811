import Mathlib.Data.Nat.Basic
import Mathlib.Logic.Relation
import Mathlib.Tactic.Push

/-! Behaviours of a transition relation: endless sequences of states in which each step is one of
the relation or changes nothing. What holds always, what leads to what, and what a fair scheduler
must do. -/

universe u

namespace Temporal

variable {σ : Type u}

/-- A behaviour of the specification that starts with `init` and goes on with `next`. -/
structure Behaviour (init : σ → Prop) (next : σ → σ → Prop) where
  state : ℕ → σ
  start : init (state 0)
  step : ∀ n, next (state n) (state (n + 1)) ∨ state (n + 1) = state n

/-- The states that finitely many steps lead to. -/
def Reachable (init : σ → Prop) (next : σ → σ → Prop) (s : σ) : Prop :=
  ∃ s₀, init s₀ ∧ Relation.ReflTransGen next s₀ s

/-- Whenever `P` holds, `Q` holds then or later. -/
def LeadsTo (state : ℕ → σ) (P Q : σ → Prop) : Prop :=
  ∀ n, P (state n) → ∃ m, n ≤ m ∧ Q (state m)

def Enabled (A : σ → σ → Prop) (s : σ) : Prop := ∃ s', A s s'

/-- An action that stays enabled is taken in the end (weak fairness). -/
def Fair (A : σ → σ → Prop) (state : ℕ → σ) : Prop :=
  ∀ n, (∀ m, n ≤ m → Enabled A (state m)) → ∃ m, n ≤ m ∧ A (state m) (state (m + 1))

/-- What `next` does not leave. -/
def Trap (next : σ → σ → Prop) (T : σ → Prop) : Prop := ∀ {s s'}, T s → next s s' → T s'

variable {init : σ → Prop} {next : σ → σ → Prop} {I P Q T : σ → Prop} {A : σ → σ → Prop} {s s' : σ}

namespace Trap

theorem steps (hT : Trap next T) (h : Relation.ReflTransGen next s s') (hs : T s) : T s' := by
  induction h with
  | refl => exact hs
  | tail _ hstep ih => exact hT ih hstep

theorem reachable (hT : Trap next T) (hinit : ∀ s, init s → T s) (h : Reachable init next s) :
    T s := by
  obtain ⟨s₀, hs₀, hsteps⟩ := h
  exact hT.steps hsteps (hinit s₀ hs₀)

end Trap

namespace Behaviour

theorem reachable (b : Behaviour init next) (n : ℕ) : Reachable init next (b.state n) := by
  induction n with
  | zero => exact ⟨_, b.start, .refl⟩
  | succ n ih =>
    obtain ⟨s₀, hs₀, hsteps⟩ := ih
    rcases b.step n with hnext | hstutter
    · exact ⟨s₀, hs₀, hsteps.tail hnext⟩
    · rw [hstutter]
      exact ⟨s₀, hs₀, hsteps⟩

/-- The invariant rule. -/
theorem always (b : Behaviour init next) (hinit : ∀ s, init s → I s) (hI : Trap next I) (n : ℕ) :
    I (b.state n) := hI.reachable hinit (b.reachable n)

/-- Lamport's rule: if `P` lasts until `Q`, and the fair action `A` is enabled under `P` and brings
`Q` about, then `P` leads to `Q`. -/
theorem leadsTo_of_fair (b : Behaviour init next)
    (hstep : ∀ s s', P s → next s s' → P s' ∨ Q s') (hA : ∀ s s', P s → A s s' → Q s')
    (henabled : ∀ s, P s → Enabled A s) (hfair : Fair A b.state) : LeadsTo b.state P Q := by
  intro n hn
  by_contra hnever
  push Not at hnever
  have hlasts : ∀ m, n ≤ m → P (b.state m) := by
    intro m hle
    induction m, hle using Nat.le_induction with
    | base => exact hn
    | succ m hle ih =>
      rcases b.step m with hnext | hstutter
      · exact (hstep _ _ ih hnext).resolve_right (hnever _ (Nat.le_succ_of_le hle))
      · rwa [hstutter]
  obtain ⟨m, hle, htaken⟩ := hfair n fun m hle => henabled _ (hlasts m hle)
  exact hnever (m + 1) (Nat.le_succ_of_le hle) (hA _ _ (hlasts m hle) htaken)

/-- Every state that is reachable is one of a behaviour, which stays there. -/
theorem exists_of_reachable (h : Reachable init next s) :
    ∃ (b : Behaviour init next) (n : ℕ), ∀ m, n ≤ m → b.state m = s := by
  obtain ⟨s₀, hs₀, hsteps⟩ := h
  induction hsteps with
  | refl => exact ⟨⟨fun _ => s₀, hs₀, fun _ => .inr rfl⟩, 0, fun _ _ => rfl⟩
  | @tail s s' _ hnext ih =>
    obtain ⟨b, n, hstays⟩ := ih
    refine ⟨⟨fun m => if m ≤ n then b.state m else s', ?_, fun m => ?_⟩, n + 1, fun m hle => ?_⟩
    · rw [if_pos (Nat.zero_le n)]
      exact b.start
    · rcases Nat.lt_trichotomy m n with hlt | rfl | hgt
      · rw [if_pos (Nat.le_of_lt hlt), if_pos (Nat.succ_le_of_lt hlt)]
        exact b.step m
      · rw [if_pos (Nat.le_refl m), if_neg (Nat.not_succ_le_self m), hstays m (Nat.le_refl m)]
        exact .inl hnext
      · rw [if_neg (Nat.not_le_of_lt hgt), if_neg (Nat.not_le_of_lt (Nat.lt_succ_of_lt hgt))]
        exact .inr rfl
    · exact if_neg (Nat.not_le_of_lt hle)

end Behaviour

end Temporal
