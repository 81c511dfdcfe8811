import Mathlib.Algebra.GroupWithZero.Nat
import SolanaStablecoin.Base.Transition

/-! Accounts that are paid out once. Such an account appears open, keeps its terms, and closes in
one step that pays what it holds; closed, it stays as it is. -/

namespace Transition

/-- What there is to know of such an account: whether it is closed, its terms, and how much it
holds by them. An open account may have to keep a property on the way. -/
structure Payout (τ κ β : Type*) where
  closed : τ → Bool
  terms : τ → κ
  held : κ → Nat
  amount : β → Nat
  intact : τ → Prop

namespace Payout

variable {σ α ε τ κ β : Type*} {exec : σ → α → Except ε σ} (p : Payout τ κ β)

def total (ps : List β) : Nat := (ps.map p.amount).sum

/-- One step of an account, with the payments it makes. -/
inductive Step : Option τ → List β → Option τ → Prop where
  | absent : Step none [] none
  | opened {v : τ} (live : p.closed v = false) (intact : p.intact v) : Step none [] (some v)
  | kept {v v' : τ} (live : p.closed v = false) (live' : p.closed v' = false)
    (intact : p.intact v → p.intact v') (terms : p.terms v' = p.terms v) :
    Step (some v) [] (some v')
  | paid {v v' : τ} {ps : List β} (live : p.closed v = false) (closed : p.closed v' = true)
    (all : p.intact v → p.total ps = p.held (p.terms v)) (terms : p.terms v' = p.terms v) :
    Step (some v) ps (some v')
  | stuck {v : τ} (closed : p.closed v = true) : Step (some v) [] (some v)

/-- Every successful action is a step of the account. -/
def Models (exec : σ → α → Except ε σ) (view : σ → Option τ) (obs : σ → α → List β) : Prop :=
  ∀ s s' a, exec s a = .ok s' → p.Step (view s) (obs s a) (view s')

/-- Nothing is paid out of an open account, and a closed one has paid everything. -/
inductive Balanced : Option τ → List β → Prop where
  | absent : Balanced none []
  | live {v : τ} (live : p.closed v = false) (intact : p.intact v) : Balanced (some v) []
  | paid {v : τ} {ps : List β} (closed : p.closed v = true)
    (all : p.total ps = p.held (p.terms v)) : Balanced (some v) ps

variable {p}

theorem Balanced.step {x x' : Option τ} {ps qs : List β} (h : p.Balanced x ps)
    (hstep : p.Step x qs x') : p.Balanced x' (ps ++ qs) := by
  cases hstep with
  | absent =>
    cases h
    exact .absent
  | opened hlive hintact =>
    cases h
    exact .live hlive hintact
  | kept hlive hlive' hintact _ =>
    cases h with
    | live _ h => exact .live hlive' (hintact h)
    | paid hclosed =>
      rw [hlive] at hclosed
      cases hclosed
  | paid hlive hclosed' hall hterms =>
    cases h with
    | live _ h =>
      rw [List.nil_append]
      refine .paid hclosed' ?_
      rw [hterms]
      exact hall h
    | paid hclosed =>
      rw [hlive] at hclosed
      cases hclosed
  | stuck hclosed =>
    rw [List.append_nil]
    exact h

theorem Balanced.total_le {v : τ} {ps : List β} (h : p.Balanced (some v) ps) :
    p.total ps ≤ p.held (p.terms v) := by
  cases h with
  | live => exact Nat.zero_le _
  | paid _ hall => exact Nat.le_of_eq hall

theorem Balanced.total_eq {v : τ} {ps : List β} (h : p.Balanced (some v) ps)
    (hclosed : p.closed v = true) : p.total ps = p.held (p.terms v) := by
  cases h with
  | live hlive =>
    rw [hlive] at hclosed
    cases hclosed
  | paid _ hall => exact hall

theorem Balanced.intact {v : τ} {ps : List β} (h : p.Balanced (some v) ps)
    (hlive : p.closed v = false) : p.intact v := by
  cases h with
  | live _ hintact => exact hintact
  | paid hclosed =>
    rw [hlive] at hclosed
    cases hclosed

theorem Balanced.eq_nil {v : τ} {ps : List β} (h : p.Balanced (some v) ps)
    (hlive : p.closed v = false) : ps = [] := by
  cases h with
  | live => rfl
  | paid hclosed =>
    rw [hlive] at hclosed
    cases hclosed

/-- A step that leaves the account alone. -/
theorem Step.refl (x : Option τ) : p.Step x [] x := by
  cases x with
  | none => exact .absent
  | some v =>
    cases hclosed : p.closed v with
    | true => exact .stuck hclosed
    | false => exact .kept hclosed hclosed id rfl

theorem Step.terms {v : τ} {ps : List β} {x' : Option τ} (h : p.Step (some v) ps x') :
    ∃ v', x' = some v' ∧ p.terms v' = p.terms v := by
  cases h with
  | kept _ _ _ hterms => exact ⟨_, rfl, hterms⟩
  | paid _ _ _ hterms => exact ⟨_, rfl, hterms⟩
  | stuck => exact ⟨_, rfl, rfl⟩

theorem Step.closed {v : τ} {ps : List β} {x' : Option τ} (h : p.Step (some v) ps x')
    (hclosed : p.closed v = true) : x' = some v ∧ ps = [] := by
  cases h with
  | kept hlive | paid hlive =>
    rw [hclosed] at hlive
    cases hlive
  | stuck => exact ⟨rfl, rfl⟩

/-- Only the step that closes an account pays. -/
theorem Step.pays {x x' : Option τ} {ps : List β} (h : p.Step x ps x') (hps : ps ≠ []) :
    ∃ v v', x = some v ∧ x' = some v' ∧ p.closed v = false ∧ p.closed v' = true := by
  cases h with
  | paid hlive hclosed => exact ⟨_, _, rfl, rfl, hlive, hclosed⟩
  | absent | opened | kept | stuck => exact absurd rfl hps

section Runs

variable {view : σ → Option τ} {obs : σ → α → List β} (h : p.Models exec view obs)
include h

theorem balanced_run {s : σ} (as : List α) (hs : view s = none) :
    p.Balanced (view (run exec s as)) (history exec obs s as) := by
  have hbalanced : p.Balanced (view s) [] := by
    rw [hs]
    exact .absent
  rw [← List.nil_append (history exec obs s as)]
  apply invariant_history (I := fun s h => p.Balanced (view s) h) (P := fun _ _ => True) _
    hbalanced (along_of_forall fun _ _ _ => trivial)
  intro s s' a ps hi _ hexec
  exact hi.step (h _ _ _ hexec)

/-- The terms of an account stay. -/
theorem terms_run {s : σ} {v : τ} (as : List α) (hs : view s = some v) :
    ∃ v', view (run exec s as) = some v' ∧ p.terms v' = p.terms v := by
  apply invariant_run_of_forall (I := fun s => ∃ v', view s = some v' ∧ p.terms v' = p.terms v)
    _ as ⟨v, hs, rfl⟩
  rintro s s' a ⟨v₁, hv₁, hterms₁⟩ hexec
  have hstep := h _ _ _ hexec
  rw [hv₁] at hstep
  obtain ⟨v₂, hv₂, hterms₂⟩ := hstep.terms
  exact ⟨v₂, hv₂, hterms₂.trans hterms₁⟩

/-- A closed account stays, and pays nothing more. -/
theorem closed_run {s : σ} {v : τ} (as : List α) (hs : view s = some v)
    (hclosed : p.closed v = true) :
    view (run exec s as) = some v ∧ history exec obs s as = [] := by
  induction as generalizing s with
  | nil => exact ⟨hs, rfl⟩
  | cons a as ih =>
    rw [run_cons, history]
    cases hexec : exec s a with
    | ok s' =>
      have hstep := h _ _ _ hexec
      rw [hs] at hstep
      obtain ⟨hs', hobs⟩ := hstep.closed hclosed
      obtain ⟨hrun, hhistory⟩ := ih hs'
      rw [next_of_ok hexec, hrun, hhistory, hobs]
      exact ⟨rfl, rfl⟩
    | error e =>
      obtain ⟨hrun, hhistory⟩ := ih hs
      rw [next_of_error hexec, hrun, hhistory]
      exact ⟨rfl, rfl⟩

/-- A closed account was paid out by one action. -/
theorem closed_by {s : σ} {v : τ} {as : List α}
    (hlive : ∀ v₀, view s = some v₀ → p.closed v₀ = false)
    (hv : view (run exec s as) = some v) (hclosed : p.closed v = true) :
    ∃ init a tail s', as = init ++ a :: tail ∧ exec (run exec s init) a = .ok s' ∧
      history exec obs s as = obs (run exec s init) a := by
  induction as generalizing s with
  | nil =>
    rw [hlive v hv] at hclosed
    cases hclosed
  | cons a as ih =>
    rw [run_cons] at hv
    cases hexec : exec s a with
    | error e =>
      rw [next_of_error hexec] at hv
      obtain ⟨init, b, tail, s', rfl, hb, hhistory⟩ := ih hlive hv
      refine ⟨a :: init, b, tail, s', rfl, ?_, ?_⟩
      · rwa [run_cons, next_of_error hexec]
      · rw [history, hexec, run_cons, next_of_error hexec]
        exact hhistory
    | ok s' =>
      rw [next_of_ok hexec] at hv
      have hstep := h _ _ _ hexec
      by_cases hnow : ∃ v', view s' = some v' ∧ p.closed v' = true
      · obtain ⟨v', hv', hclosed'⟩ := hnow
        obtain ⟨-, hrest⟩ := closed_run h as hv' hclosed'
        refine ⟨[], a, as, s', rfl, hexec, ?_⟩
        rw [history, hexec, next_of_ok hexec, hrest]
        exact List.append_nil _
      · have hlive' : ∀ v₀, view s' = some v₀ → p.closed v₀ = false := by
          intro v₀ hv₀
          rw [← Bool.not_eq_true]
          intro hclosed₀
          exact hnow ⟨v₀, hv₀, hclosed₀⟩
        have hnone : obs s a = [] := by
          apply Classical.byContradiction
          intro hpays
          obtain ⟨_, v', _, hv', _, hclosed'⟩ := hstep.pays hpays
          exact hnow ⟨v', hv', hclosed'⟩
        obtain ⟨init, b, tail, s₁, rfl, hb, hhistory⟩ := ih hlive' hv
        refine ⟨a :: init, b, tail, s₁, rfl, ?_, ?_⟩
        · rwa [run_cons, next_of_ok hexec]
        · rw [history, hexec, hnone, run_cons, next_of_ok hexec]
          exact hhistory

/-- Whoever pays does so out of an open account, by the terms that it still has in the end. -/
theorem paid_along {s s' : σ} {v : τ} {init tail : List α} {a : α} (hs : view s = none)
    (hexec : exec (run exec s init) a = .ok s') (hpays : obs (run exec s init) a ≠ [])
    (hv : view (run exec s (init ++ a :: tail)) = some v) :
    ∃ v₀, view (run exec s init) = some v₀ ∧ p.intact v₀ ∧ p.terms v = p.terms v₀ := by
  obtain ⟨v₀, -, hv₀, -, hlive, -⟩ := (h _ _ _ hexec).pays hpays
  have hbalanced := balanced_run h init hs
  rw [hv₀] at hbalanced
  obtain ⟨v', hv', hterms⟩ := terms_run h (a :: tail) hv₀
  rw [run_append, hv'] at hv
  cases hv
  exact ⟨v₀, hv₀, hbalanced.intact hlive, hterms⟩

end Runs

end Payout

end Transition
