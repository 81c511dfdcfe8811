import Mathlib.Algebra.Group.Int.Defs
import Mathlib.Algebra.Group.Nat.Defs

/-! Guards of a fallible computation and the checked arithmetic of machine integers.

Every operation comes with the lemma that inverts its success, so that the success of a long
handler unfolds into the conjunction of its guards and intermediate values. -/

universe u v

/-! ## Guards -/

@[simp] theorem bind_eq_ok {ε : Type u} {α β : Type v} {x : Except ε α} {f : α → Except ε β}
    {b : β} : (x >>= f) = .ok b ↔ ∃ a, x = .ok a ∧ f a = .ok b := by
  cases x <;> simp [bind, Except.bind]

theorem ok_bind {ε : Type u} {α β : Type v} (a : α) (f : α → Except ε β) :
    (.ok a >>= f) = f a := rfl

@[simp] theorem pure_eq_ok {ε : Type u} {α : Type v} {a b : α} :
    (pure a : Except ε α) = .ok b ↔ a = b := by
  simp [pure, Except.pure]

@[simp] theorem map_eq_ok {ε : Type u} {α β : Type v} {x : Except ε α} {f : α → β} {b : β} :
    (f <$> x) = .ok b ↔ ∃ a, x = .ok a ∧ f a = b := by
  cases x <;> simp [Functor.map, Except.map]

@[simp] theorem mapError_eq_ok {ε ε' : Type u} {α : Type v} {x : Except ε α} {f : ε → ε'} {a : α} :
    x.mapError f = .ok a ↔ x = .ok a := by
  cases x with
  | error e => constructor <;> intro h <;> cases h
  | ok b =>
    constructor
    all_goals
      intro h
      cases h
      rfl

theorem isOk_iff {ε : Type u} {α : Type v} {x : Except ε α} :
    x.isOk = true ↔ ∃ a, x = .ok a := by
  cases x <;> simp [Except.isOk, Except.toBool]

/-- Computations that accept the same with the same value differ in their errors at most. -/
theorem toOption_congr {ε : Type u} {α : Type v} {x y : Except ε α}
    (h : ∀ a, x = .ok a ↔ y = .ok a) : x.toOption = y.toOption := by
  cases hx : x with
  | ok a => rw [(h a).mp hx]
  | error e =>
    cases hy : y with
    | ok a =>
      rw [(h a).mpr hy] at hx
      cases hx
    | error e' => rfl

theorem toOption_eq_some {ε : Type u} {α : Type v} {x : Except ε α} {a : α} :
    x.toOption = some a ↔ x = .ok a := by
  cases x <;> simp [Except.toOption]

theorem toOption_map_eq_some {ε : Type u} {α β : Type v} {x : Except ε α} {f : α → β} {b : β} :
    (x.map f).toOption = some b ↔ ∃ a, x = .ok a ∧ f a = b := by
  cases x <;> simp [Except.map, Except.toOption]

/-- A choice between computations ends well only if the chosen one does. -/
theorem ite_ok_cases {ε : Type u} {α : Type v} {p : Prop} [Decidable p] {x y : Except ε α} {a : α}
    {P : Prop} (hx : p → x = .ok a → P) (hy : ¬ p → y = .ok a → P)
    (h : (if p then x else y) = .ok a) : P := by
  by_cases hp : p
  · exact hx hp (by rwa [if_pos hp] at h)
  · exact hy hp (by rwa [if_neg hp] at h)

/-- Go on only when `p` holds. -/
def require {ε : Type u} (p : Prop) [Decidable p] (e : ε) : Except ε Unit :=
  if p then .ok () else .error e

@[simp] theorem require_eq_ok {ε : Type u} {p : Prop} [Decidable p] {e : ε} {x : Unit} :
    require p e = .ok x ↔ p := by
  by_cases h : p <;> simp [require, h]

theorem require_pos {ε : Type u} {p : Prop} [Decidable p] {e : ε} (h : p) :
    require p e = .ok () := require_eq_ok.mpr h

theorem require_neg {ε : Type u} {p : Prop} [Decidable p] {e : ε} (h : ¬ p) :
    require p e = .error e := if_neg h

/-- A value that is handed on after a check of it. -/
theorem checked_eq_ok {ε : Type u} {α : Type} {x : Except ε α} {p : α → Prop} [DecidablePred p]
    {e : ε} {a : α} :
    (do let b ← x; require (p b) e; pure b) = .ok a ↔ x = .ok a ∧ p a := by
  simp only [bind_eq_ok, require_eq_ok, pure_eq_ok]
  constructor
  · intro h
    obtain ⟨_, hx, _, hp, rfl⟩ := h
    exact ⟨hx, hp⟩
  · intro h
    obtain ⟨hx, hp⟩ := h
    exact ⟨a, hx, (), hp, rfl⟩

/-- And after two checks. -/
theorem checked_twice_eq_ok {ε : Type u} {α : Type} {x : Except ε α} {p q : α → Prop}
    [DecidablePred p] [DecidablePred q] {e e' : ε} {a : α} :
    (do let b ← x; require (p b) e; require (q b) e'; pure b) = .ok a ↔
      x = .ok a ∧ p a ∧ q a := by
  simp only [bind_eq_ok, require_eq_ok, pure_eq_ok]
  constructor
  · intro h
    obtain ⟨_, hx, _, hp, _, hq, rfl⟩ := h
    exact ⟨hx, hp, hq⟩
  · intro h
    obtain ⟨hx, hp, hq⟩ := h
    exact ⟨a, hx, (), hp, (), hq, rfl⟩

/-- Run the check `x` only when `p` holds. -/
def requireWhen {ε : Type u} (p : Prop) [Decidable p] (x : Except ε Unit) : Except ε Unit :=
  if p then x else .ok ()

@[simp] theorem requireWhen_eq_ok {ε : Type u} {p : Prop} [Decidable p] {x : Except ε Unit}
    {y : Unit} : requireWhen p x = .ok y ↔ (p → x = .ok ()) := by
  by_cases h : p <;> simp [requireWhen, h]

/-- Run `x` only when `p` holds, and keep the value `a` otherwise. -/
def onlyWhen {ε : Type u} {α : Type v} (p : Prop) [Decidable p] (a : α) (x : Except ε α) :
    Except ε α :=
  if p then x else .ok a

@[simp] theorem onlyWhen_eq_ok {ε : Type u} {α : Type v} {p : Prop} [Decidable p] {a b : α}
    {x : Except ε α} : onlyWhen p a x = .ok b ↔ (p ∧ x = .ok b) ∨ (¬p ∧ a = b) := by
  by_cases h : p <;> simp [onlyWhen, h]

/-- The content of an option, or the error `e`. -/
def Option.okOr {ε : Type u} {α : Type v} (o : Option α) (e : ε) : Except ε α :=
  match o with
  | some a => .ok a
  | none => .error e

@[simp] theorem Option.okOr_eq_ok {ε : Type u} {α : Type v} {o : Option α} {e : ε} {a : α} :
    o.okOr e = .ok a ↔ o = some a := by
  cases o <;> simp [Option.okOr]

/-! ## Unsigned 64-bit arithmetic -/

namespace UInt64

def checkedAdd (a b : UInt64) : Option UInt64 :=
  if a.toNat + b.toNat < 2 ^ 64 then some (a + b) else none

def checkedSub (a b : UInt64) : Option UInt64 :=
  if b.toNat ≤ a.toNat then some (a - b) else none

def saturatingAdd (a b : UInt64) : UInt64 := (a.checkedAdd b).getD (.ofNat (2 ^ 64 - 1))

def saturatingSub (a b : UInt64) : UInt64 := (a.checkedSub b).getD 0

def saturatingMul (a b : UInt64) : UInt64 :=
  if a.toNat * b.toNat < 2 ^ 64 then a * b else .ofNat (2 ^ 64 - 1)

theorem checkedAdd_eq_some {a b c : UInt64} :
    a.checkedAdd b = some c ↔ c.toNat = a.toNat + b.toNat := by
  unfold checkedAdd
  split
  next h =>
    rw [Option.some.injEq, ← UInt64.toNat_inj, UInt64.toNat_add, Nat.mod_eq_of_lt h, eq_comm]
  next h =>
    have := c.toNat_lt
    simp only [reduceCtorEq, false_iff]
    omega

theorem checkedSub_eq_some {a b c : UInt64} :
    a.checkedSub b = some c ↔ a.toNat = c.toNat + b.toNat := by
  unfold checkedSub
  split
  next h =>
    have hle : b ≤ a := UInt64.le_iff_toNat_le.mpr h
    rw [Option.some.injEq, ← UInt64.toNat_inj, UInt64.toNat_sub_of_le _ _ hle]
    omega
  next h =>
    simp only [reduceCtorEq, false_iff]
    omega

theorem sub_eq_of_checkedSub {a b c : UInt64} (h : a.checkedSub b = some c) : a - b = c := by
  rw [checkedSub] at h
  split at h
  · exact Option.some.inj h
  · cases h

theorem toNat_saturatingAdd (a b : UInt64) :
    (a.saturatingAdd b).toNat = min (a.toNat + b.toNat) (2 ^ 64 - 1) := by
  unfold saturatingAdd
  cases h : a.checkedAdd b with
  | some c =>
    rw [checkedAdd_eq_some] at h
    have := c.toNat_lt
    rw [Option.getD_some]
    omega
  | none =>
    have hge : ¬ a.toNat + b.toNat < 2 ^ 64 := by
      intro hlt
      have hc : a.checkedAdd b = some (.ofNat (a.toNat + b.toNat)) := by
        rw [checkedAdd_eq_some, UInt64.toNat_ofNat_of_lt' hlt]
      rw [h] at hc
      cases hc
    rw [Option.getD_none, UInt64.toNat_ofNat_of_lt' (by decide)]
    omega

theorem toNat_saturatingMul (a b : UInt64) :
    (a.saturatingMul b).toNat = min (a.toNat * b.toNat) (2 ^ 64 - 1) := by
  unfold saturatingMul
  split
  next h =>
    rw [UInt64.toNat_mul, Nat.mod_eq_of_lt h]
    omega
  next h =>
    rw [UInt64.toNat_ofNat_of_lt' (by decide)]
    omega

theorem toNat_saturatingSub (a b : UInt64) : (a.saturatingSub b).toNat = a.toNat - b.toNat := by
  unfold saturatingSub checkedSub
  split
  next h => simpa using UInt64.toNat_sub_of_le _ _ (UInt64.le_iff_toNat_le.mpr h)
  next h => simp; omega

end UInt64

/-! ## Unsigned 128-bit intermediates and powers of ten

A 128-bit intermediate is a natural number; the operation that could leave the range is
checked. -/

namespace U128

def checkedMul (a b : Nat) : Option Nat := if a * b < 2 ^ 128 then some (a * b) else none

def checkedAdd (a b : Nat) : Option Nat := if a + b < 2 ^ 128 then some (a + b) else none

def saturatingMul (a b : Nat) : Nat := min (a * b) (2 ^ 128 - 1)

def saturatingAdd (a b : Nat) : Nat := min (a + b) (2 ^ 128 - 1)

/-- `10 ^ e`, when it fits. -/
def pow10 (e : Nat) : Option Nat := if e ≤ 38 then some (10 ^ e) else none

/-- The quotient, when the divisor is not zero. -/
def checkedDiv (a b : Nat) : Option Nat := if b = 0 then none else some (a / b)

theorem checkedMul_eq_some {a b c : Nat} :
    checkedMul a b = some c ↔ c = a * b ∧ a * b < 2 ^ 128 := by
  unfold checkedMul
  split <;> simp_all [eq_comm]

theorem checkedAdd_eq_some {a b c : Nat} :
    checkedAdd a b = some c ↔ c = a + b ∧ a + b < 2 ^ 128 := by
  unfold checkedAdd
  split <;> simp_all [eq_comm]

theorem pow10_eq_some {e c : Nat} : pow10 e = some c ↔ c = 10 ^ e ∧ e ≤ 38 := by
  unfold pow10
  split <;> simp_all [eq_comm]

theorem checkedDiv_eq_some {a b c : Nat} : checkedDiv a b = some c ↔ c = a / b ∧ b ≠ 0 := by
  unfold checkedDiv
  split <;> simp_all [eq_comm]

end U128

/-! ## Signed 64-bit arithmetic -/

/-- The signed 64-bit value nearest to `x`. -/
def Int.clamp64 (x : Int) : Int := max (-2 ^ 63) (min x (2 ^ 63 - 1))

namespace Int64

def saturatingSub (a b : Int64) : Int := Int.clamp64 (a.toInt - b.toInt)

def checkedAdd (a b : Int64) : Option Int64 :=
  if -2 ^ 63 ≤ a.toInt + b.toInt ∧ a.toInt + b.toInt < 2 ^ 63 then some (a + b) else none

/-- The cast of a signed value to 128 unsigned bits. -/
def toU128 (a : Int64) : Nat := (a.toInt % 2 ^ 128).toNat

end Int64
