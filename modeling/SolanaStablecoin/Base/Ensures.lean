import SolanaStablecoin.Base.Checked

/-! What a computation ensures of its result, if it succeeds. The rules follow the program, and
keep at hand what earlier parts of it returned. -/

universe u v w

/-- Every result satisfies `P`. -/
def Ensures {ε : Type u} {α : Type v} (x : Except ε α) (P : α → Prop) : Prop :=
  ∀ a, x = .ok a → P a

namespace Ensures

variable {ε : Type u} {α β : Type v} {x y : Except ε α} {P Q : α → Prop}

instance decidable [DecidablePred P] : Decidable (Ensures x P) :=
  match x with
  | .ok a => decidable_of_iff (P a) ⟨fun h _ ha => Except.ok.inj ha ▸ h, fun h => h a rfl⟩
  | .error _ => isTrue fun _ ha => by cases ha

theorem pure {a : α} (h : P a) : Ensures (pure a : Except ε α) P := by
  intro b hb
  cases hb
  exact h

theorem error {e : ε} : Ensures (.error e : Except ε α) P := by
  intro a ha
  cases ha

theorem bind {f : α → Except ε β} {R : β → Prop} (h : ∀ a, x = .ok a → Ensures (f a) R) :
    Ensures (x >>= f) R := by
  intro b hb
  rw [bind_eq_ok] at hb
  obtain ⟨a, ha, hb⟩ := hb
  exact h a ha b hb

theorem ite {p : Prop} [Decidable p] (hx : p → Ensures x P) (hy : ¬p → Ensures y P) :
    Ensures (if p then x else y) P := by
  intro a ha
  exact ite_ok_cases (fun hp h => hx hp a h) (fun hp h => hy hp a h) ha

theorem onlyWhen {p : Prop} [Decidable p] {a : α} (ha : ¬p → P a) (hx : p → Ensures x P) :
    Ensures (onlyWhen p a x) P :=
  ite hx fun hp => pure (ha hp)

theorem mono (h : Ensures x P) (hPQ : ∀ a, P a → Q a) : Ensures x Q :=
  fun a ha => hPQ a (h a ha)

end Ensures

/-- If it fails, then with an error that satisfies `P`. -/
def FailsOnly {ε : Type u} {α : Type v} (x : Except ε α) (P : ε → Prop) : Prop :=
  ∀ e, x = .error e → P e

namespace FailsOnly

variable {ε : Type u} {α β : Type v} {x : Except ε α} {P : ε → Prop}

theorem ok {a : α} : FailsOnly (.ok a : Except ε α) P := by
  intro e he
  cases he

theorem pure {a : α} : FailsOnly (pure a : Except ε α) P := ok

theorem error_iff {e : ε} : FailsOnly (.error e : Except ε α) P ↔ P e := by
  constructor
  · intro h
    exact h e rfl
  · intro he e' heq
    cases heq
    exact he

theorem bind_of_ok {f : α → Except ε β} (hx : FailsOnly x P)
    (hf : ∀ a, x = .ok a → FailsOnly (f a) P) : FailsOnly (x >>= f) P := by
  cases x with
  | ok a => exact hf a rfl
  | error e => exact error_iff.mpr (hx e rfl)

theorem bind {f : α → Except ε β} (hx : FailsOnly x P) (hf : ∀ a, FailsOnly (f a) P) :
    FailsOnly (x >>= f) P :=
  hx.bind_of_ok fun a _ => hf a

theorem okOr {o : Option α} {e : ε} (he : P e) : FailsOnly (o.okOr e) P := by
  cases o with
  | none => exact error_iff.mpr he
  | some a => exact ok

theorem guard {p : Prop} [Decidable p] {e : ε} (he : P e) : FailsOnly (require p e) P := by
  by_cases hp : p
  · rw [require_pos hp]
    exact ok
  · rw [require_neg hp]
    exact error_iff.mpr he

theorem when {p : Prop} [Decidable p] {x : Except ε Unit} (hx : p → FailsOnly x P) :
    FailsOnly (requireWhen p x) P := by
  by_cases hp : p
  · rw [requireWhen, if_pos hp]
    exact hx hp
  · rw [requireWhen, if_neg hp]
    exact ok

theorem mapM {γ : Type w} {f : γ → Except ε α} {l : List γ} (h : ∀ c ∈ l, FailsOnly (f c) P) :
    FailsOnly (l.mapM f) P := by
  induction l with
  | nil => exact pure
  | cons c l ih =>
    rw [List.mapM_cons]
    refine (h c List.mem_cons_self).bind fun _ => ?_
    exact (ih fun d hd => h d (List.mem_cons_of_mem c hd)).bind fun _ => pure

theorem mapError {ε' : Type w} {Q : ε' → Prop} {f : ε → ε'} (hx : FailsOnly x P)
    (hf : ∀ e, P e → Q (f e)) : FailsOnly (x.mapError f) Q := by
  cases x with
  | ok a => exact ok
  | error e => exact error_iff.mpr (hf e (hx e rfl))

/-- An error that `x` does not have comes from what follows. -/
theorem of_bind {f : α → Except ε β} {e : ε} (hx : FailsOnly x (· ≠ e))
    (h : x >>= f = .error e) : ∃ a, x = .ok a ∧ f a = .error e := by
  cases x with
  | ok a => exact ⟨a, rfl, h⟩
  | error e' =>
    cases h
    exact absurd rfl (hx e rfl)

end FailsOnly
