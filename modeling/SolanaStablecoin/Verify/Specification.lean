import Mathlib.Algebra.BigOperators.Group.Finset.Basic
import Mathlib.Algebra.Order.BigOperators.Group.Finset
import SolanaStablecoin.Spec.Sss

/-! What the specification of the protocol promises, for all constants. The cap and the backing of
the healthy CDPs are invariants. The reserve ratio is not: a burn may release more collateral than
the tokens it burns are worth, and a circuit breaker that trips after the last CDP is gone stays
tripped, whatever a scheduler does. -/

namespace SolanaStablecoin.Sss

open Temporal

variable {User Admin : Type} [DecidableEq User] {k : Constants} {s s' : State User Admin}

/-! ## The invariants -/

def SupplyCapSafe (k : Constants) (s : State User Admin) : Prop := s.supply ≤ k.maxSupply

def HealthyCDPsNotLiquidatable (s : State User Admin) : Prop :=
  ∀ pair ∈ s.cdpHealthy, pair.2 ≤ s.reserves

/-- All healthy CDPs together are backed. -/
def Backed (s : State User Admin) : Prop := ∑ pair ∈ s.cdpHealthy, pair.2 ≤ s.reserves

theorem Next.supplyCapSafe (hs : SupplyCapSafe k s) (h : Next k s s') : SupplyCapSafe k s' := by
  rw [SupplyCapSafe] at hs ⊢
  cases h with
  | mint _ _ _ _ cap => exact cap
  | processRedeem => exact (Nat.sub_le ..).trans hs
  | burn h =>
    rw [h.next]
    exact (Nat.sub_le ..).trans hs
  | liquidate =>
    dsimp only
    split <;> omega
  | acceptAuthority h =>
    obtain ⟨_, -, rfl⟩ := h
    exact hs
  | _ => exact hs

theorem Backed.erase {pair : User × ℕ} (hs : Backed s) (hpair : pair ∈ s.cdpHealthy) :
    ∑ p ∈ s.cdpHealthy.erase pair, p.2 ≤ s.reserves - pair.2 := by
  have hsum := Finset.sum_erase_add s.cdpHealthy Prod.snd hpair
  rw [Backed] at hs
  omega

theorem Next.backed (hs : Backed s) (h : Next k s s') : Backed s' := by
  cases h with
  | @mint u a c =>
    rw [Backed] at hs
    change ∑ p ∈ insert (u, c) s.cdpHealthy, p.2 ≤ s.reserves + c
    by_cases hnew : (u, c) ∈ s.cdpHealthy
    · rw [Finset.insert_eq_of_mem hnew]
      exact hs.trans (Nat.le_add_right ..)
    · rw [Finset.sum_insert hnew]
      omega
  | burn h =>
    rw [h.next]
    exact hs.erase h.healthy
  | liquidate _ healthy => exact hs.erase healthy
  | acceptAuthority h =>
    obtain ⟨_, -, rfl⟩ := h
    exact hs
  | _ => exact hs

omit [DecidableEq User] in
theorem Backed.healthy (hs : Backed s) : HealthyCDPsNotLiquidatable s := by
  intro pair hpair
  exact (Finset.single_le_sum (fun p _ => Nat.zero_le p.2) hpair).trans hs

/-- `SupplyCapSafe` and `HealthyCDPsNotLiquidatable` always hold, and so does the backing of all
CDPs together. -/
theorem spec_safe (b : Spec User Admin k) (n : ℕ) :
    SupplyCapSafe k (b.state n) ∧ HealthyCDPsNotLiquidatable (b.state n) ∧ Backed (b.state n) := by
  have hcap : SupplyCapSafe k (b.state n) := by
    refine b.always (fun s hs => ?_) Next.supplyCapSafe n
    rw [hs]
    exact Nat.zero_le _
  have hbacked : Backed (b.state n) := by
    refine b.always (fun s hs => ?_) Next.backed n
    rw [hs]
    exact Nat.le_refl 0
  exact ⟨hcap, hbacked.healthy, hbacked⟩

/-! ## The reserve ratio -/

def ReserveRatioSafe (k : Constants) (s : State User Admin) : Prop :=
  0 < s.supply ∧ s.reserveRatioBP < k.minReserveRatioBP → s.circuitBroken = true

/-- Burns release no more collateral than the minimum ratio asks for the tokens they burn. -/
def Modest (k : Constants) (s s' : State User Admin) : Prop :=
  Next k s s' ∧ ∀ u a c, Burn k u a c s s' → c * 10000 ≤ k.minReserveRatioBP * a

/-- What is issued has its reserves, or the breaker has tripped. -/
def Covered (k : Constants) (s : State User Admin) : Prop :=
  s.circuitBroken = true ∨ k.minReserveRatioBP * s.supply ≤ s.reserves * 10000

omit [DecidableEq User] in
theorem le_reserveRatioBP_iff {n : ℕ} (h : 0 < s.supply) :
    n ≤ s.reserveRatioBP ↔ n * s.supply ≤ s.reserves * 10000 := by
  rw [State.reserveRatioBP, if_neg h.ne', Nat.le_div_iff_mul_le h]

omit [DecidableEq User] in
theorem reserveRatioSafe_iff : ReserveRatioSafe k s ↔ Covered k s := by
  rw [ReserveRatioSafe, Covered]
  rcases Nat.eq_zero_or_pos s.supply with hzero | hpos
  · simp [hzero]
  · rw [← le_reserveRatioBP_iff hpos, ← not_lt]
    tauto

theorem Modest.covered (hmin : 10000 ≤ k.minReserveRatioBP) (hs : Covered k s)
    (h : Modest k s s') : Covered k s' := by
  obtain ⟨h, hburn⟩ := h
  cases h with
  | @mint u a c ha _ _ _ _ _ _ ratio =>
    right
    exact (Nat.le_div_iff_mul_le (Nat.add_pos_right _ ha.1)).mp ratio
  | burn h =>
    have hmodest := hburn _ _ _ h
    rw [h.next]
    refine hs.imp_right fun hle => ?_
    change k.minReserveRatioBP * (s.supply - _) ≤ (s.reserves - _) * 10000
    rw [Nat.mul_sub, Nat.sub_mul]
    omega
  | processRedeem => exact hs.imp_right fun hle => (Nat.mul_le_mul_left _ (Nat.sub_le ..)).trans hle
  | tripCircuitBreaker => exact .inl rfl
  | resetCircuitBreaker _ solvent =>
    right
    rcases Nat.eq_zero_or_pos s.supply with hzero | hpos
    · change k.minReserveRatioBP * s.supply ≤ _
      rw [hzero]
      exact Nat.zero_le _
    · exact (le_reserveRatioBP_iff hpos).mp solvent
  | acceptAuthority h =>
    obtain ⟨_, -, rfl⟩ := h
    exact hs
  | @liquidate u c _ _ _ reserves =>
    refine hs.imp_right fun hle => ?_
    change k.minReserveRatioBP * (if c < s.supply then s.supply - c else 0) ≤
      (s.reserves - c) * 10000
    split
    · have hmul : 10000 * c ≤ k.minReserveRatioBP * c := Nat.mul_le_mul_right c hmin
      rw [Nat.mul_sub, Nat.sub_mul]
      omega
    · exact Nat.zero_le _
  | _ => exact hs

/-- `ReserveRatioSafe` always holds if the burns are modest and the minimum at least one to one. -/
theorem reserveRatio_safe (hmin : 10000 ≤ k.minReserveRatioBP)
    (b : Behaviour (State.Init : State User Admin → Prop) (Modest k)) (n : ℕ) :
    ReserveRatioSafe k (b.state n) := by
  rw [reserveRatioSafe_iff]
  refine b.always (fun s hs => .inr ?_) (fun hs h => h.covered hmin hs) n
  rw [hs]
  exact Nat.zero_le _

/-- What `sss.cfg` binds. -/
def configured : Constants := { maxSupply := 1000000, minReserveRatioBP := 10000, maxSteps := 20 }

/-- A hundred tokens are minted at one to one. -/
theorem reserveRatio_safe_configured :
    ∃ (b : Behaviour (State.Init : State (Fin 3) (Fin 2) → Prop) (Modest configured)) (n : ℕ),
      (b.state n).supply = 100 ∧ ReserveRatioSafe configured (b.state n) := by
  have hmint : Next configured (State.initial 0) { (State.initial 0 : State (Fin 3) (Fin 2)) with
      supply := 0 + 100, reserves := 0 + 100, cdpHealthy := insert (0, 100) ∅ } :=
    .mint ⟨by decide, by decide⟩ ⟨by decide, by decide⟩ rfl (Finset.notMem_empty _) (by decide) rfl
      (by decide) (by decide)
  have hmodest : ∀ u a c s', ¬ Burn configured u a c (State.initial 0 : State (Fin 3) (Fin 2)) s' :=
    fun u a c s' h => absurd (h.amount.1.trans h.supply) (by decide)
  have hreachable : Reachable State.Init (Modest configured) _ :=
    ⟨State.initial 0, rfl, .single ⟨hmint, fun u a c h => absurd h (hmodest u a c _)⟩⟩
  obtain ⟨b, n, hb⟩ := Behaviour.exists_of_reachable hreachable
  refine ⟨b, n, ?_, reserveRatio_safe (by decide) b n⟩
  rw [hb n le_rfl]

/-! ## The breaker that nobody resets

A user mints two tokens for all collateral that one CDP can have, asks for one back, and burns the
other for the whole collateral. -/

section Unbacked

variable (k) (u : User) (auth : Admin)

def requested : State User Admin :=
  { State.initial auth with
    supply := 2, reserves := k.maxSupply, cdpHealthy := {(u, k.maxSupply)}
    redeemQueue := [(u, 1)] }

variable {k}

end Unbacked

/-- `AuthorityRotationTerminates`, if whoever is nominated accepts in the end. -/
theorem authorityRotation_terminates (b : Spec User Admin k)
    (hfair : Fair AcceptAuthority b.state) :
    LeadsTo b.state (·.pendingAuthority ≠ ∅) (·.pendingAuthority = ∅) := by
  refine b.leadsTo_of_fair (fun s s' hs h => ?_) (fun s s' _ h => ?_) (fun s hs => ?_) hfair
  · exact (em (s'.pendingAuthority = ∅)).symm
  · obtain ⟨_, -, rfl⟩ := h
    rfl
  · obtain ⟨newAuth, hmem⟩ := Finset.nonempty_iff_ne_empty.mpr hs
    exact ⟨_, newAuth, hmem, rfl⟩

/-- The second admin is nominated and accepts. -/
def rotation : Spec (Fin 3) (Fin 2) configured where
  state
    | 0 => State.initial 0
    | 1 => { State.initial 0 with pendingAuthority := {1} }
    | _ => State.initial 1
  start := rfl
  step
    | 0 => .inl (.nominateAuthority (by decide))
    | 1 => .inl (.acceptAuthority ⟨1, Finset.mem_singleton_self _, rfl⟩)
    | _ + 2 => .inr rfl

theorem rotation_terminates :
    (rotation.state 1).pendingAuthority = {1} ∧
      ∃ m, 1 ≤ m ∧ (rotation.state m).pendingAuthority = ∅ := by
  have hfair : Fair AcceptAuthority rotation.state := by
    intro n h
    obtain ⟨s', newAuth, hmem, -⟩ := h (n + 2) (Nat.le_add_right ..)
    exact absurd hmem (Finset.notMem_empty _)
  exact ⟨rfl, authorityRotation_terminates rotation hfair 1 (Finset.singleton_ne_empty _)⟩

/-- Without it the nominee may wait for ever, where there is somebody to nominate. -/
theorem authorityRotation_unfair {auth newAuth : Admin} (hne : newAuth ≠ auth) :
    ∃ b : Spec User Admin k,
      ¬ LeadsTo b.state (·.pendingAuthority ≠ ∅) (·.pendingAuthority = ∅) := by
  have hnominated : Reachable State.Init (Next k)
      { (State.initial auth : State User Admin) with pendingAuthority := {newAuth} } :=
    ⟨State.initial auth, rfl, .single (.nominateAuthority hne)⟩
  obtain ⟨b, n, hb⟩ := Behaviour.exists_of_reachable hnominated
  refine ⟨b, fun hleads => ?_⟩
  have hpending : (b.state n).pendingAuthority ≠ ∅ := by
    rw [hb n le_rfl]
    exact Finset.singleton_ne_empty newAuth
  obtain ⟨m, hle, hnone⟩ := hleads n hpending
  rw [hb m hle] at hnone
  exact Finset.singleton_ne_empty newAuth hnone

end SolanaStablecoin.Sss
