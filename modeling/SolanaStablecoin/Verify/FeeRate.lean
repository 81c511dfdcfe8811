import Mathlib.Algebra.BigOperators.Group.Finset.Basic
import Mathlib.Data.Int.ConditionallyCompleteOrder
import Mathlib.Data.Int.Interval
import SolanaStablecoin.Verify.Accrual
import SolanaStablecoin.Verify.Administration

/-! The stability fee as it changes: which rate the interest of an interval is computed at, and how
high the rate can be set. -/

namespace SolanaStablecoin

open Transition

section Rate

variable {rt : Runtime} {clock : Clock} {s s' : State} {a : Action} {mint user : Pubkey}
  {p p' : CdpPosition} {now : Int64} {r : UInt16}

/-! ## The rate in force -/

/-- The instruction asks the position for its fees. -/
def Instruction.asks (mint user : Pubkey) : Instruction → Bool
  | .collectStabilityFee b => b.sssMint = mint ∧ b.debtor = user
  | _ => false

/-- When a call was made that ended in `s'`, and the fee from then on. -/
def Instruction.tick (i : Instruction) (clock : Clock) (s' : State) (mint user : Pubkey) :
    Interest.Tick :=
  { time := clock.unixTimestamp.toInt, rate := (s'.stabilityFeeBps mint).toNat
    asked := i.asks mint user }

def rateTicks (rt : Runtime) (mint user : Pubkey) (s : State) : Action → List Interest.Tick
  | .call clock i => [i.tick clock (next (Action.exec rt) s (.call clock i)) mint user]
  | .world _ => []

/-- The fee in force at `x` in a run. -/
def rateInForce (rt : Runtime) (s : State) (as : List Action) (mint user : Pubkey) : ℤ → ℕ :=
  Interest.rateAt (s.stabilityFeeBps mint).toNat
    (history (Action.exec rt) (rateTicks rt mint user) s as)

def callTimes (_ : State) : Action → List ℤ
  | .call clock _ => [clock.unixTimestamp.toInt]
  | .world _ => []

/-- The clocks of successful calls do not go back. -/
def InClockOrder (rt : Runtime) (s : State) (as : List Action) : Prop :=
  (history (Action.exec rt) callTimes s as).Pairwise (· ≤ ·)

/-- A successful call of the run that changes the fee under the position `p`. -/
structure FeeChange (rt : Runtime) (s : State) (as : List Action) (mint user : Pubkey)
    (init : List Action) (clock : Clock) (p : CdpPosition) : Prop where
  split : ∃ i tail, as = init ++ .call clock i :: tail ∧ ∃ s',
    i.exec rt clock (run rt s init) = .ok s' ∧
      s'.stabilityFeeBps mint ≠ (run rt s init).stabilityFeeBps mint
  position : (run rt s init).cdpPositions (.cdpPosition mint user) = some p

/-- The fees of the position were collected before, in the same slot. -/
def CollectedBefore (rt : Runtime) (s : State) (init : List Action) (clock : Clock)
    (mint user : Pubkey) : Prop :=
  ∃ pre b mid, init = pre ++ .call clock (.collectStabilityFee b) :: mid ∧ b.sssMint = mint ∧
    b.debtor = user ∧ (collectStabilityFeeHandler rt clock (run rt s pre) b).isOk = true

theorem history_callTimes (mint user : Pubkey) (s : State) (as : List Action) :
    history (Action.exec rt) callTimes s as =
      (history (Action.exec rt) (rateTicks rt mint user) s as).map (·.time) := by
  refine history_map (fun {s s' a} hexec => ?_) s as
  cases a with
  | world => rfl
  | call => rfl

theorem rateTicks_of_ok {i : Instruction} (h : i.exec rt clock s = .ok s') :
    rateTicks rt mint user s (.call clock i) = [i.tick clock s' mint user] := by
  have hexec : Action.exec rt s (.call clock i) = .ok s' := h
  rw [rateTicks, next_of_ok hexec]

/-- What comes after a successful call comes no earlier. -/
theorem InClockOrder.split {init tail : List Action} {i : Instruction} (mint user : Pubkey)
    (h : InClockOrder rt s (init ++ .call clock i :: tail))
    (hok : i.exec rt clock (run rt s init) = .ok s') :
    (∀ t ∈ history (Action.exec rt) (rateTicks rt mint user) s init,
        t.time ≤ clock.unixTimestamp.toInt) ∧
      ∀ t ∈ history (Action.exec rt) (rateTicks rt mint user) (run rt s init)
        (.call clock i :: tail), clock.unixTimestamp.toInt ≤ t.time := by
  have hexec : Action.exec rt (run rt s init) (.call clock i) = .ok s' := hok
  rw [InClockOrder, history_callTimes mint user, List.pairwise_map,
    history_append, List.pairwise_append] at h
  obtain ⟨-, hlater, hacross⟩ := h
  have hhead : history (Action.exec rt) (rateTicks rt mint user) (run rt s init)
      (.call clock i :: tail) = i.tick clock s' mint user ::
        history (Action.exec rt) (rateTicks rt mint user) s' tail := by
    rw [history_of_ok hexec, rateTicks_of_ok hok]
    rfl
  have hmem : i.tick clock s' mint user ∈ history (Action.exec rt) (rateTicks rt mint user)
      (run rt s init) (.call clock i :: tail) := hhead ▸ List.mem_cons_self
  refine ⟨fun t ht => hacross t ht _ hmem, fun t ht => ?_⟩
  change List.Pairwise _ (history _ _ (run rt s init) _) at hlater
  rw [hhead] at hlater ht
  rcases List.mem_cons.mp ht with rfl | ht
  · exact le_refl _
  · exact (List.pairwise_cons.mp hlater).1 t ht

/-- A collection is a moment at which the position was asked for its fees. -/
theorem CollectedBefore.asked {init : List Action} (h : CollectedBefore rt s init clock mint user) :
    ∃ t ∈ history (Action.exec rt) (rateTicks rt mint user) s init, t.asked = true ∧
      t.time = clock.unixTimestamp.toInt := by
  obtain ⟨pre, b, mid, rfl, hmint, huser, hok⟩ := h
  obtain ⟨s₁, hok⟩ := isOk_iff.mp hok
  have hexec : Action.exec rt (run rt s pre) (.call clock (.collectStabilityFee b)) = .ok s₁ := hok
  refine ⟨(Instruction.collectStabilityFee b).tick clock s₁ mint user, ?_, ?_, rfl⟩
  · rw [history_append]
    refine List.mem_append_right _ ?_
    change _ ∈ history _ _ (run rt s pre) _
    rw [history_of_ok hexec, rateTicks_of_ok (i := .collectStabilityFee b) hok]
    exact List.mem_cons_self
  · exact decide_eq_true ⟨hmint, huser⟩

/-! ## What an operation adds -/

/-- The fee that an operation adds to the stored ones: a borrow stores it, a collection burns it
with them, and a repayment adds nothing. -/
inductive Adds (s : State) (p : CdpPosition) (fee : ℕ) : Instruction → State → Prop where
  | borrow {b : CdpBorrowStable} {n : UInt64} {s' : State} {p' : CdpPosition}
    (stored : s'.cdpPositions (.cdpPosition b.sssMint b.user.key) = some p')
    (accruedFees : p'.accruedFees.toNat = p.accruedFees.toNat + fee) :
    Adds s p fee (.cdpBorrowStable b n) s'
  | repay {b : CdpRepayStable} {n : UInt64} {s' : State} (free : fee = 0)
    (burned : Burned s p.accruedFees.toNat (.cdpRepayStable b n) s') :
    Adds s p fee (.cdpRepayStable b n) s'
  | collect {b : CollectStabilityFee} {s' : State}
    (burned : Burned s (p.accruedFees.toNat + fee) (.collectStabilityFee b) s') :
    Adds s p fee (.collectStabilityFee b) s'
  | nothing {b : CollectStabilityFee} {s' : State} (free : fee = 0) (same : s' = s) :
    Adds s p fee (.collectStabilityFee b) s'

/-- A fee is at most the interest at the rate `r` since the last accrual. -/
def WithinRate (p : CdpPosition) (r : UInt16) (now : Int64) (fee : ℕ) : Prop :=
  10000 * secsPerYear * fee ≤ p.debtAmount.toNat * r.toNat * p.elapsedSecs now

theorem WithinRate.zero : WithinRate p r now 0 := Nat.zero_le _

theorem U128.checkedMul_le {x y z : ℕ} (h : U128.checkedMul x y = some z) : z ≤ x * y :=
  (U128.checkedMul_eq_some.mp h).1 ▸ le_refl _

theorem U128.getD_checkedMul_le (x y : ℕ) : (U128.checkedMul x y).getD 0 ≤ x * y := by
  cases h : U128.checkedMul x y with
  | none => exact Nat.zero_le _
  | some z => exact U128.checkedMul_le h

/-- The quotient that both handlers cap. -/
theorem WithinRate.capped {v : ℕ} (h : v ≤ p.debtAmount.toNat * r.toNat * p.elapsedSecs now) :
    WithinRate p r now
      (UInt64.ofNat (min (v / (10000 * secsPerYear)) (2 ^ 64 - 1))).toNat := by
  rw [UInt64.toNat_ofNat_of_lt' ((min_le_right _ _).trans_lt (by decide))]
  exact (Nat.mul_le_mul_left _ (min_le_left _ _)).trans ((Nat.mul_div_le _ _).trans h)

theorem CdpPosition.pendingFees_within (c : StablecoinConfig) :
    WithinRate p c.stabilityFeeBps now (p.pendingFees c now).toNat := by
  unfold CdpPosition.pendingFees
  split
  · refine .capped ((U128.getD_checkedMul_le _ _).trans ?_)
    exact Nat.mul_le_mul_right _ (U128.getD_checkedMul_le _ _)
  · exact .zero

/-- An addition that overflows stores no fee. -/
theorem CdpPosition.totalAccrued_within (p : CdpPosition) (c : StablecoinConfig) (now : Int64) :
    ∃ fee, (p.totalAccrued c now).toNat = p.accruedFees.toNat + fee ∧
      WithinRate p c.stabilityFeeBps now fee := by
  unfold CdpPosition.totalAccrued
  cases h : p.accruedFees.checkedAdd (p.pendingFees c now) with
  | none => exact ⟨0, rfl, .zero⟩
  | some total => exact ⟨_, UInt64.checkedAdd_eq_some.mp h, p.pendingFees_within c⟩

theorem CdpPosition.toCollect_within {total : UInt64} (h : p.toCollect r now = some total) :
    ∃ fee, total.toNat = p.accruedFees.toNat + fee ∧ WithinRate p r now fee := by
  obtain ⟨fee, hfee, hadd⟩ := Option.bind_eq_some_iff.mp h
  refine ⟨fee.toNat, UInt64.checkedAdd_eq_some.mp hadd, ?_⟩
  cases hnew : p.newFee r now with
  | error e =>
    rw [hnew] at hfee
    cases hfee
  | ok fee' =>
    rw [hnew] at hfee
    cases hfee
    simp only [CdpPosition.newFee, bind_eq_ok, Option.okOr_eq_ok, pure_eq_ok] at hnew
    obtain ⟨v, hv, w, hw, rfl⟩ := hnew
    exact .capped ((U128.checkedMul_le hw).trans (Nat.mul_le_mul_right _ (U128.checkedMul_le hv)))

/-- An operation on an open position adds a fee at the rate of the state it is made in. -/
theorem PositionStep.adds {i : Instruction} (h : PositionStep s mint user (.call clock i) s')
    (hop : i.operates mint user = true)
    (hp : s.cdpPositions (.cdpPosition mint user) = some p) :
    ∃ fee, Adds s p fee i s' ∧
      WithinRate p (s.stabilityFeeBps mint) clock.unixTimestamp fee := by
  cases h with
  | other idle =>
    rw [idle _ _ rfl] at hop
    cases hop
  | liquidated liquidates =>
    obtain ⟨_, b, x, y, -, -, -, heq | heq⟩ := liquidates
    · cases heq
      cases hop
    · cases heq
      cases hop
  | opened _ _ free =>
    rw [hp] at free
    cases free
  | @borrowed _ b n _ c _ p' hmint huser hconfig hp' stored _ hfees =>
    cases hp.symm.trans hp'
    obtain ⟨fee, htotal, hwithin⟩ := p.totalAccrued_within c clock.unixTimestamp
    rw [State.stabilityFeeBps_of hconfig]
    subst hmint huser
    exact ⟨fee, .borrow stored (by rw [hfees, htotal]), hwithin⟩
  | repaid _ _ hp' _ _ _ _ burned =>
    cases hp.symm.trans hp'
    exact ⟨0, .repay rfl burned, .zero⟩
  | skipped _ _ _ _ _ same => exact ⟨0, .nothing rfl same, .zero⟩
  | collected _ _ hconfig hp' _ _ _ htotal burned =>
    cases hp.symm.trans hp'
    obtain ⟨fee, hsum, hwithin⟩ := CdpPosition.toCollect_within htotal
    rw [State.stabilityFeeBps_of hconfig]
    exact ⟨fee, .collect (hsum ▸ burned), hwithin⟩

/-! ## Runs in which the fee changes -/

theorem CdpPosition.elapsedSecs_eq_zero :
    p.elapsedSecs now = 0 ↔ now.toInt ≤ p.lastFeeAccrual.toInt := by
  unfold CdpPosition.elapsedSecs Int64.saturatingSub Int.clamp64
  omega

theorem CdpPosition.elapsedSecs_le (p : CdpPosition) (now : Int64) :
    p.elapsedSecs now ≤ (now.toInt - p.lastFeeAccrual.toInt).toNat := by
  unfold CdpPosition.elapsedSecs Int64.saturatingSub Int.clamp64
  omega

/-- A position that does not accrue: when it is asked for its fees, there is none or it has just
accrued. -/
structure Waits (mint user : Pubkey) (s s' : State) (clock : Clock) (i : Instruction)
    (p p' : CdpPosition) : Prop where
  position : s.cdpPositions (.cdpPosition mint user) = some p
  accrual : p'.lastFeeAccrual = p.lastFeeAccrual
  settled : p.debtAmount = 0 → p'.debtAmount = 0
  asked : i.asks mint user = true → s'.stabilityFeeBps mint = 0 ∨
    clock.unixTimestamp.toInt ≤ p.lastFeeAccrual.toInt

theorem PositionStep.accrues_or_waits {i : Instruction}
    (h : PositionStep s mint user (.call clock i) s')
    (hp' : s'.cdpPositions (.cdpPosition mint user) = some p') :
    p'.lastFeeAccrual = clock.unixTimestamp ∨ ∃ p, Waits mint user s s' clock i p p' := by
  have notAsked (hoperates : i.operates mint user = false) : i.asks mint user ≠ true := by
    cases i with
    | collectStabilityFee =>
      intro hasks
      exact absurd hasks (by rw [Instruction.asks]; exact Bool.eq_false_iff.mp hoperates)
    | _ => exact Bool.false_ne_true
  cases h with
  | other idle same =>
    rw [same] at hp'
    exact .inr ⟨p', hp', rfl, id, fun hasked => absurd hasked (notAsked (idle _ _ rfl))⟩
  | opened _ _ _ stored _ haccrual | borrowed _ _ _ _ stored _ _ haccrual =>
    cases stored.symm.trans hp'
    exact .inl haccrual
  | collected _ _ _ _ stored =>
    cases stored.symm.trans hp'
    exact .inl rfl
  | repaid _ _ hp stored hdebt _ haccrual =>
    cases stored.symm.trans hp'
    refine .inr ⟨_, hp, haccrual, fun hzero => ?_, fun hasked => by cases hasked⟩
    rw [hzero] at hdebt
    exact UInt64.toNat_inj.mp (Nat.eq_zero_of_add_eq_zero hdebt.symm).1
  | skipped _ _ hconfig hp early same =>
    rw [same, hp] at hp'
    cases hp'
    refine .inr ⟨_, hp, rfl, id, fun _ => ?_⟩
    rw [same, State.stabilityFeeBps_of hconfig]
    exact early.imp_right CdpPosition.elapsedSecs_eq_zero.mp
  | liquidated liquidates hp stored haccrual hdebt =>
    cases stored.symm.trans hp'
    refine .inr ⟨_, hp, haccrual, fun hzero => ?_, ?_⟩
    · rw [hzero] at hdebt
      exact UInt64.le_zero_iff.mp hdebt
    · obtain ⟨_, b, x, y, -, -, -, heq | heq⟩ := liquidates
      · cases heq
        exact fun hasked => by cases hasked
      · cases heq
        exact fun hasked => by cases hasked

/-- What a run keeps true of a position as the fee changes. -/
structure Rated (r₀ : ℕ) (mint user : Pubkey) (s : State) (ts : List Interest.Tick) : Prop where
  owned : Owned s
  current : ∀ p, s.cdpPositions (.cdpPosition mint user) = some p →
    Interest.Current r₀ (s.stabilityFeeBps mint).toNat p.loan ts

theorem CdpPosition.loan_debt : p.loan.debt = 0 ↔ p.debtAmount = 0 := by
  rw [CdpPosition.loan, ← UInt64.toNat_inj]
  rfl

theorem State.stabilityFeeBps_congr (h : SameSettings s s') :
    s'.stabilityFeeBps mint = s.stabilityFeeBps mint := by
  have heq := h (.stablecoinConfig mint)
  cases hc : s.configs (.stablecoinConfig mint) with
  | none =>
    rw [hc, Option.map_none, Option.map_eq_none_iff] at heq
    rw [State.stabilityFeeBps, State.stabilityFeeBps, hc, heq]
  | some c =>
    rw [hc, Option.map_some, Option.map_eq_some_iff] at heq
    obtain ⟨c', hc', hsettings⟩ := heq
    rw [State.stabilityFeeBps_of hc, State.stabilityFeeBps_of hc']
    exact congrArg Settings.stabilityFeeBps hsettings

theorem Rated.world {r₀ : ℕ} {ts : List Interest.Tick} {w : World} (h : Rated r₀ mint user s ts)
    (hok : w.exec rt s = .ok s') : Rated r₀ mint user s' ts := by
  have hexec : Action.exec rt s (.world w) = .ok s' := hok
  refine ⟨h.owned.step (exec_step hexec), fun p hp => ?_⟩
  rw [(exec_step hexec).positions_eq rfl] at hp
  rw [State.stabilityFeeBps_congr (.of_eq (World.exec_configs hok))]
  exact h.current p hp

theorem Rated.call {r₀ : ℕ} {ts : List Interest.Tick} {i : Instruction}
    (h : Rated r₀ mint user s ts) (hok : i.exec rt clock s = .ok s')
    (hsorted : ∀ t ∈ ts, t.time ≤ clock.unixTimestamp.toInt)
    (hchange : s'.stabilityFeeBps mint ≠ s.stabilityFeeBps mint →
      ∀ p, s.cdpPositions (.cdpPosition mint user) = some p →
        p.debtAmount = 0 ∨ clock.unixTimestamp.toInt ≤ p.lastFeeAccrual.toInt) :
    Rated r₀ mint user s' (ts ++ [i.tick clock s' mint user]) := by
  have hexec : Action.exec rt s (.call clock i) = .ok s' := hok
  refine ⟨h.owned.step (exec_step hexec), fun p' hp' => ?_⟩
  rcases (exec_position h.owned hexec).accrues_or_waits hp' with hlast | ⟨p, hwaits⟩
  · exact .renewed (t := i.tick clock s' mint user) (congrArg Int64.toInt hlast) hsorted
  · refine (h.current p hwaits.position).kept (t := i.tick clock s' mint user) ?_ ?_ hsorted ?_ ?_
    · exact congrArg Int64.toInt hwaits.accrual
    · exact fun hdebt => CdpPosition.loan_debt.mpr <|
        hwaits.settled (CdpPosition.loan_debt.mp hdebt)
    · intro hasked
      refine .inr ((hwaits.asked hasked).imp_left fun hzero => ?_)
      rw [Instruction.tick, hzero]
      rfl
    · intro hne
      refine (hchange (fun heq => hne ?_) p hwaits.position).imp_left CdpPosition.loan_debt.mpr
      rw [Instruction.tick, heq]

/-- What the position owes for the time since it last accrued falls under one rate, and the fee is
within it. -/
structure NotRetroactive (p : CdpPosition) (now : Int64) (rate : ℤ → ℕ) (r : UInt16) (fee : ℕ) :
    Prop where
  inForce : p.debtAmount ≠ 0 →
    ∀ x, p.lastFeeAccrual.toInt ≤ x → x < now.toInt → rate x = r.toNat
  fee_le : 10000 * secsPerYear * fee ≤
    ∑ x ∈ Finset.Ico p.lastFeeAccrual.toInt now.toInt, p.debtAmount.toNat * rate x
  free : (∃ x, p.lastFeeAccrual.toInt ≤ x ∧ x < now.toInt ∧ rate x = 0) → fee = 0

theorem NotRetroactive.of_within {rate : ℤ → ℕ} {fee : ℕ} (h : WithinRate p r now fee)
    (hrate : p.debtAmount = 0 ∨
      ∀ x, p.lastFeeAccrual.toInt ≤ x → x < now.toInt → rate x = r.toNat) :
    NotRetroactive p now rate r fee := by
  have eq_zero (hprod : p.debtAmount.toNat * r.toNat = 0) : fee = 0 := by
    unfold WithinRate at h
    rw [hprod, Nat.zero_mul, Nat.le_zero, Nat.mul_eq_zero] at h
    exact h.resolve_left (by decide)
  refine ⟨fun hne => hrate.resolve_left hne, ?_, ?_⟩
  · rcases hrate with hzero | hrate
    · rw [eq_zero (by rw [hzero]; exact Nat.zero_mul _), Nat.mul_zero]
      exact Nat.zero_le _
    · have hsum : ∑ x ∈ Finset.Ico p.lastFeeAccrual.toInt now.toInt, p.debtAmount.toNat * rate x =
          (now.toInt - p.lastFeeAccrual.toInt).toNat * (p.debtAmount.toNat * r.toNat) := by
        rw [← Int.card_Ico]
        refine Finset.sum_const_nat fun x hx => ?_
        obtain ⟨hle, hlt⟩ := Finset.mem_Ico.mp hx
        rw [hrate x hle hlt]
      rw [hsum, Nat.mul_comm _ (_ * _)]
      exact h.trans (Nat.mul_le_mul_left _ (p.elapsedSecs_le now))
  · rintro ⟨x, hle, hlt, hzero⟩
    rcases hrate with hdebt | hrate
    · exact eq_zero (by rw [hdebt]; exact Nat.zero_mul _)
    · exact eq_zero (by rw [← hrate x hle hlt, hzero, Nat.mul_zero])

/-- If the fees of the position are collected right before each change of the rate, and were not
free until then while it had a debt, then no fee is computed at a rate that came later. -/
theorem fee_not_retroactive {as : List Action} (hs : Genesis s) (hsorted : InClockOrder rt s as)
    (hcollected : ∀ init clock p, FeeChange rt s as mint user init clock p →
      CollectedBefore rt s init clock mint user)
    (hcharged : ∀ init clock p, FeeChange rt s as mint user init clock p →
      (run rt s init).stabilityFeeBps mint ≠ 0 ∨ p.debtAmount = 0 ∨
        p.elapsedSecs clock.unixTimestamp = 0)
    {init tail : List Action} {i : Instruction} (has : as = init ++ .call clock i :: tail)
    (hok : i.exec rt clock (run rt s init) = .ok s') (hop : i.operates mint user = true)
    (hp : (run rt s init).cdpPositions (.cdpPosition mint user) = some p) :
    ∃ fee, Adds (run rt s init) p fee i s' ∧
      NotRetroactive p clock.unixTimestamp (rateInForce rt s as mint user)
        ((run rt s init).stabilityFeeBps mint) fee := by
  have hrated : Rated (s.stabilityFeeBps mint).toNat mint user (run rt s init)
      (history (Action.exec rt) (rateTicks rt mint user) s init) := by
    refine invariant_prefix (I := Rated (s.stabilityFeeBps mint).toNat mint user) ?_ ?_ has
    · refine ⟨hs.owned, fun p hp => ?_⟩
      rw [hs.cdpPositions] at hp
      cases hp
    · intro init a tail s₁ has hexec hrated
      cases a with
      | world w =>
        rw [rateTicks, List.append_nil]
        exact hrated.world hexec
      | call clock i =>
        rw [rateTicks_of_ok hexec]
        obtain ⟨hbefore, -⟩ := (has ▸ hsorted).split mint user hexec
        refine hrated.call hexec hbefore fun hne p hp => ?_
        have hchanges : FeeChange rt s as mint user init clock p :=
          ⟨⟨i, tail, has, s₁, hexec, hne⟩, hp⟩
        rcases hcharged init clock p hchanges with hrate | hdebt | helapsed
        · obtain ⟨t, ht, hasked, htime⟩ := (hcollected init clock p hchanges).asked
          have hrate' : ((run rt s init).stabilityFeeBps mint).toNat ≠ 0 :=
            fun hzero => hrate (UInt16.toNat_inj.mp hzero)
          rcases (hrated.current p hp).asked t ht hasked with hdebt | hzero | hle
          · exact .inl (CdpPosition.loan_debt.mp hdebt)
          · exact absurd hzero hrate'
          · exact .inr (htime ▸ hle)
        · exact .inl hdebt
        · exact .inr (CdpPosition.elapsedSecs_eq_zero.mp helapsed)
  obtain ⟨fee, hadds, hwithin⟩ :=
    (exec_position (a := .call clock i) hrated.owned hok).adds hop hp
  refine ⟨fee, hadds, .of_within hwithin ?_⟩
  subst has
  obtain ⟨-, hafter⟩ := hsorted.split mint user hok
  refine (hrated.current p hp).current.imp CdpPosition.loan_debt.mp fun hcurrent x hle hlt => ?_
  rw [rateInForce, history_append, Interest.rateAt_append]
  · exact hcurrent x hle
  · exact fun t ht => hlt.trans_le (hafter t ht)

/-- Where only the call at `k` changes the fee under a position, every change is that call. -/
theorem FeeChange.eq_take {as init : List Action} {k : ℕ} {clock' : Clock} {j : Instruction}
    (h : FeeChange rt s as mint user init clock p) (hk : as[k]? = some (.call clock' j))
    (hsame : ∀ n < as.length, n ≠ k →
      (run rt s (as.take n)).cdpPositions (.cdpPosition mint user) = none ∨
        (run rt s (as.take (n + 1))).stabilityFeeBps mint =
          (run rt s (as.take n)).stabilityFeeBps mint) : init = as.take k ∧ clock = clock' := by
  obtain ⟨i, tail, rfl, s', hok, hne⟩ := h.split
  have hexec : Action.exec rt (run rt s init) (.call clock i) = .ok s' := hok
  have htake :
      (init ++ .call clock i :: tail).take (init.length + 1) = init ++ [.call clock i] := by
    rw [← List.singleton_append, ← List.append_assoc, List.take_left' (by simp)]
  have hn : init.length = k := by
    by_contra hn
    rcases hsame init.length (by simp) hn with hnone | heq
    · rw [List.take_left, h.position] at hnone
      cases hnone
    · apply hne
      rw [htake, List.take_left, run, run_append] at heq
      change (next (Action.exec rt) (run rt s init) _).stabilityFeeBps mint = _ at heq
      rwa [next_of_ok hexec] at heq
  subst hn
  rw [List.getElem?_append_right (le_refl _), Nat.sub_self] at hk
  cases hk
  exact ⟨List.take_left.symm, rfl⟩

end Rate

namespace Market

/-- On day 368 the fee is collected and then set to another one. -/
def refee (fee : UInt64) : List Action :=
  [ .call (day 367) (.proposeTimelockedOp asAuthority adminOpSetStabilityFee fee .default),
    .call (day 368) (.collectStabilityFee collect),
    .call (day 368) (.executeTimelockedOp asAuthority), publish 1 733 ]

/-- The fee is raised to 20% a year after the loan. -/
def raisedLate : List Action :=
  deposited 1000 ++ [publish 1 3, borrow 100 3] ++ refee 2000

/-- The fee is lowered to 10% in the same way. -/
def loweredLate : List Action := priced ++ [borrow 100 3] ++ savings ++ refee 1000

end Market

open Market in
/-- Nothing is collected while there is no fee, and the next loan is charged for the free year. -/
theorem fee_retroactive :
    ∃ p s', Genesis genesis ∧
      InClockOrder localRuntime genesis (raisedLate ++ [borrow 1 733]) ∧
      (∀ init clock q,
        FeeChange localRuntime genesis (raisedLate ++ [borrow 1 733]) mint.key user.key init clock
          q →
        CollectedBefore localRuntime genesis init clock mint.key user.key) ∧
      Action.exec localRuntime (run localRuntime genesis raisedLate) (borrow 1 733) = .ok s' ∧
      (run localRuntime genesis raisedLate).cdpPositions (.cdpPosition mint.key user.key) =
        some p ∧
      ∀ fee, Adds (run localRuntime genesis raisedLate) p fee (.cdpBorrowStable borrower 1) s' →
        fee = 40 ∧
        rateInForce localRuntime genesis (raisedLate ++ [borrow 1 733]) mint.key user.key
          p.lastFeeAccrual.toInt = 0 ∧
        ¬NotRetroactive p (day 733).unixTimestamp
          (rateInForce localRuntime genesis (raisedLate ++ [borrow 1 733]) mint.key user.key)
          ((run localRuntime genesis raisedLate).stabilityFeeBps mint.key) fee := by
  obtain ⟨p, hp, hfacts⟩ := Option.map_eq_some_iff.mp
    (show ((run localRuntime genesis raisedLate).cdpPositions
        (.cdpPosition mint.key user.key)).map (fun p => (p.accruedFees, p.lastFeeAccrual)) =
      some (0, (day 3).unixTimestamp) by decide +kernel)
  obtain ⟨hfees, hlast⟩ := Prod.mk.inj hfacts
  obtain ⟨s', hok⟩ := isOk_iff.mp (show (Action.exec localRuntime
    (run localRuntime genesis raisedLate) (borrow 1 733)).isOk = true by decide +kernel)
  have hrate : rateInForce localRuntime genesis (raisedLate ++ [borrow 1 733]) mint.key user.key
      p.lastFeeAccrual.toInt = 0 := by
    rw [hlast]
    decide +kernel
  refine ⟨p, s', genesis_genesis, ?_, ?_, hok, hp, fun fee hadds => ?_⟩
  · unfold InClockOrder
    decide +kernel
  · intro init clock q hchanges
    obtain ⟨rfl, rfl⟩ := hchanges.eq_take (k := 14) (j := .executeTimelockedOp asAuthority) rfl
      (by decide +kernel)
    exact ⟨raisedLate.take 13, collect, [], rfl, rfl, rfl, by decide +kernel⟩
  · have hfee : fee = 40 := by
      cases hadds with
      | borrow stored haccrued =>
        obtain ⟨p', hp', hforty⟩ := Option.map_eq_some_iff.mp
          (show ((run localRuntime genesis (raisedLate ++ [borrow 1 733])).cdpPositions
            (.cdpPosition mint.key user.key)).map (·.accruedFees) = some 40 by decide +kernel)
        have hs' : run localRuntime genesis (raisedLate ++ [borrow 1 733]) = s' := by
          rw [run, run_append]
          exact next_of_ok hok
        rw [hs'] at hp'
        cases stored.symm.trans hp'
        rw [hforty, hfees] at haccrued
        exact (haccrued.trans (Nat.zero_add _)).symm
    refine ⟨hfee, hrate, fun h => ?_⟩
    have hzero := h.free ⟨_, le_refl _, by rw [hlast]; decide, hrate⟩
    rw [hfee] at hzero
    cases hzero

open Market in
/-- The year at 20% is collected, and the next loan is charged for the year at 10%. -/
theorem lowered_fee_not_retroactive :
    ∃ p s' fee, Action.exec localRuntime (run localRuntime genesis loweredLate) (borrow 1 733) =
        .ok s' ∧
      (run localRuntime genesis loweredLate).cdpPositions (.cdpPosition mint.key user.key) =
        some p ∧
      Adds (run localRuntime genesis loweredLate) p fee (.cdpBorrowStable borrower 1) s' ∧
      NotRetroactive p (day 733).unixTimestamp
        (rateInForce localRuntime genesis (loweredLate ++ [borrow 1 733]) mint.key user.key)
        ((run localRuntime genesis loweredLate).stabilityFeeBps mint.key) fee := by
  obtain ⟨p, hp⟩ := Option.isSome_iff_exists.mp
    (show ((run localRuntime genesis loweredLate).cdpPositions
      (.cdpPosition mint.key user.key)).isSome = true by decide +kernel)
  obtain ⟨s', hok⟩ := isOk_iff.mp (show (Action.exec localRuntime
    (run localRuntime genesis loweredLate) (borrow 1 733)).isOk = true by decide +kernel)
  have hchange (init : List Action) (clock : Clock) (q : CdpPosition)
      (h : FeeChange localRuntime genesis (loweredLate ++ [borrow 1 733]) mint.key user.key init
        clock q) : init = (loweredLate ++ [borrow 1 733]).take 19 ∧ clock = day 368 :=
    h.eq_take (k := 19) (j := .executeTimelockedOp asAuthority) rfl (by decide +kernel)
  obtain ⟨fee, hadds, hfee⟩ := fee_not_retroactive genesis_genesis
    (show InClockOrder localRuntime genesis (loweredLate ++ [borrow 1 733]) by
      unfold InClockOrder
      decide +kernel)
    (fun init clock q h => by
      obtain ⟨rfl, rfl⟩ := hchange init clock q h
      exact ⟨loweredLate.take 18, collect, [], rfl, rfl, rfl, by decide +kernel⟩)
    (fun init clock q h => by
      obtain ⟨rfl, rfl⟩ := hchange init clock q h
      exact .inl (by decide +kernel))
    rfl hok rfl hp
  exact ⟨p, s', fee, hok, hp, hadds, hfee⟩

section Bound

variable {rt : Runtime} {clock : Clock} {s s' : State} {a : Action} {c c' : StablecoinConfig}

/-! ## How high the fee is set -/

/-- An operation of the timelock that sets the fee, and a controller that corrects it, keep to the
bound of the direct setter. -/
def WithinFeeBound (s : State) : Action → Prop
  | .call _ (.executeTimelockedOp b) => ∀ c, s.configs b.config = some c →
    c.adminOpKind = adminOpSetStabilityFee → c.adminOpParam ≤ 2000
  | .call _ (.updateStabilityFeePid b _) => ∀ c pid, s.configs b.config = some c →
    s.pidConfigs (.pidConfig c.mint) = some pid → pid.maxFeeBps ≤ maxStabilityFeeBps
  | _ => True

def FeesBounded (s : State) : Prop :=
  ∀ k c, s.configs k = some c → c.stabilityFeeBps ≤ maxStabilityFeeBps

theorem setStabilityFeeHandler_le {b : AuthorityAndConfig} {fee : UInt16}
    (h : setStabilityFeeHandler s b fee = .ok s') : fee ≤ maxStabilityFeeBps := by
  simp only [setStabilityFeeHandler, bind_eq_ok, require_eq_ok] at h
  obtain ⟨-, -, -, -, -, -, -, hle, -⟩ := h
  exact hle

/-- The controller stays in its own range. -/
theorem PidConfig.newBps_le {pid : PidConfig} (h : pid.minFeeBps ≤ pid.maxFeeBps) (bps : UInt16)
    (error : Int) : pid.newBps bps error ≤ pid.maxFeeBps := by
  have hle := UInt16.le_iff_toNat_le.mp h
  have hlt := pid.maxFeeBps.toNat_lt
  have hclamp (x : Int) : (max (pid.minFeeBps.toNat : Int) (min x pid.maxFeeBps.toNat)).toNat ≤
      pid.maxFeeBps.toNat := by omega
  rw [UInt16.le_iff_toNat_le, PidConfig.newBps, UInt16.toNat_ofNat_of_lt' ((hclamp _).trans_lt hlt)]
  exact hclamp _

theorem Instruction.directly_stabilityFeeBps {i : Instruction} (h : i.directly c = some c') :
    c'.stabilityFeeBps = c.stabilityFeeBps ∨ ∃ b, i = .setStabilityFee b c'.stabilityFeeBps := by
  cases i with
  | setStabilityFee b fee =>
    cases h
    exact .inr ⟨b, rfl⟩
  | _ =>
    cases h
    try exact .inl rfl

theorem StablecoinConfig.enact_stabilityFeeBps {param : UInt64} {x : ProposalAction}
    (h : c.enact param x = .ok c') : c'.stabilityFeeBps = c.stabilityFeeBps := by
  cases x with
  | clearFeatureFlag =>
    simp only [StablecoinConfig.enact, bind_eq_ok, pure_eq_ok] at h
    obtain ⟨-, -, -, -, rfl⟩ := h
    rfl
  | _ =>
    cases h
    rfl

/-- The other ways to write settings keep the bound. -/
theorem Resets.fee_le {k : Pubkey} {i : Instruction} (h : Resets clock s k c i c')
    (hok : i.exec rt clock s = .ok s') (hle : c.stabilityFeeBps ≤ maxStabilityFeeBps)
    (hcontrol : ∀ b n, i ≠ .updateStabilityFeePid b n)
    (hexecute : ∀ b, i ≠ .executeTimelockedOp b) : c'.stabilityFeeBps ≤ maxStabilityFeeBps := by
  cases h with
  | direct sets =>
    rcases Instruction.directly_stabilityFeeBps sets with heq | ⟨b, rfl⟩
    · exact heq ▸ hle
    · exact setStabilityFeeHandler_le hok
  | own _ settings =>
    have heq : c'.stabilityFeeBps = c.stabilityFeeBps := congrArg Settings.stabilityFeeBps settings
    exact heq ▸ hle
  | control => exact absurd rfl (hcontrol _ _)
  | enact _ _ enacts => exact StablecoinConfig.enact_stabilityFeeBps enacts ▸ hle
  | clear => exact hle
  | execute => exact absurd rfl (hexecute _)

theorem FeesBounded.of_put {k : Pubkey} (h : FeesBounded s)
    (hput : s'.configs = put s.configs k c') (hle : c'.stabilityFeeBps ≤ maxStabilityFeeBps) :
    FeesBounded s' := by
  intro k' c hc
  rw [hput] at hc
  rcases put_eq_some.mp hc with ⟨-, rfl⟩ | ⟨-, hc⟩
  · exact hle
  · exact h k' c hc

theorem executeTimelockedOpHandler_feesBounded {b : AuthorityAndMint} (hs : FeesBounded s)
    (hbound : WithinFeeBound s (.call clock (.executeTimelockedOp b)))
    (h : executeTimelockedOpHandler clock s b = .ok s') : FeesBounded s' := by
  simp only [executeTimelockedOpHandler, bind_eq_ok, AuthorityAndMint.loadConfig_eq_ok,
    pure_eq_ok] at h
  obtain ⟨c, ⟨hc, -⟩, -, -, -, -, -, -, c', hc', rfl⟩ := h
  refine hs.of_put rfl ?_
  cases StablecoinConfig.applyTimelockedOp_operates hc' with
  | setStabilityFee kind =>
    have hle := hbound c hc kind
    exact (toUInt16_le_iff (UInt64.lt_of_le_of_lt hle (by decide))).mpr hle
  | _ => exact hs _ c hc

theorem updateStabilityFeePidHandler_feesBounded {b : UpdateStabilityFeePid} {price : UInt64}
    (hs : FeesBounded s) (hbound : WithinFeeBound s (.call clock (.updateStabilityFeePid b price)))
    (h : updateStabilityFeePidHandler clock s b price = .ok s') : FeesBounded s' := by
  simp [updateStabilityFeePidHandler] at h
  obtain ⟨c, ⟨hc, -⟩, pid, hpid, -, -, -, hrange, rfl⟩ := h
  exact hs.of_put rfl (UInt16.le_trans (PidConfig.newBps_le hrange ..) (hbound c pid hc hpid))

theorem exec_feesBounded (hs : FeesBounded s) (hbound : WithinFeeBound s a)
    (h : Action.exec rt s a = .ok s') : FeesBounded s' := by
  have of_change (hother : ∀ clock i, a = .call clock i →
      (∀ b n, i ≠ .updateStabilityFeePid b n) ∧ ∀ b, i ≠ .executeTimelockedOp b) :
      FeesBounded s' := by
    cases exec_settings h with
    | same hsame =>
      intro k c' hc'
      obtain ⟨c, hc, hsettings⟩ := hsame.config hc'
      have heq : c'.stabilityFeeBps = c.stabilityFeeBps :=
        congrArg Settings.stabilityFeeBps hsettings
      exact heq ▸ hs k c hc
    | @reset clock i _ hreset =>
      obtain ⟨k, c, c', hc, hput, hresets⟩ := hreset
      obtain ⟨hcontrol, hexecute⟩ := hother clock i rfl
      exact hs.of_put hput (hresets.fee_le h (hs k c hc) hcontrol hexecute)
    | initialized hinit =>
      obtain ⟨c, hput, -, -, -, hfresh⟩ := hinit.config
      refine hs.of_put hput ?_
      rw [hfresh.stabilityFeeBps]
      decide
  cases a with
  | world w => exact of_change fun _ _ heq => by cases heq
  | call clock i =>
    by_cases hexecute : ∃ b, i = .executeTimelockedOp b
    · obtain ⟨b, rfl⟩ := hexecute
      exact executeTimelockedOpHandler_feesBounded hs hbound h
    by_cases hcontrol : ∃ b n, i = .updateStabilityFeePid b n
    · obtain ⟨b, n, rfl⟩ := hcontrol
      exact updateStabilityFeePidHandler_feesBounded hs hbound h
    refine of_change fun _ _ heq => ?_
    cases heq
    exact ⟨fun b n heq => hcontrol ⟨b, n, heq⟩, fun b heq => hexecute ⟨b, heq⟩⟩

/-- While the timelock and the controller keep to the bound, every fee does. -/
theorem stability_fee_bounded {as : List Action} {k : Pubkey} (hs : Genesis s)
    (hbound : Along (Action.exec rt) (fun s a => (Action.exec rt s a).isOk = true →
      WithinFeeBound s a) s as) (hc : (run rt s as).configs k = some c) :
    c.stabilityFeeBps ≤ maxStabilityFeeBps := by
  have hstart : FeesBounded s := fun k c hc => by
    rw [hs.configs] at hc
    cases hc
  exact invariant_run (fun h hP hok => exec_feesBounded h (hP (isOk_iff.mpr ⟨_, hok⟩)) hok) hstart
    hbound k c hc

/-- The transaction is one of the two that set the fee without regard to the bound. -/
def Action.setsAnyFee : Action → Bool
  | .call _ (.executeTimelockedOp _) | .call _ (.updateStabilityFeePid ..) => true
  | _ => false

theorem WithinFeeBound.of_other (h : a.setsAnyFee = false) : WithinFeeBound s a := by
  cases a with
  | world => trivial
  | call clock i =>
    cases i with
    | executeTimelockedOp | updateStabilityFeePid => cases h
    | _ => trivial

end Bound

open Market in
/-- The timelock accepts 100% a year. -/
theorem stability_fee_over_bound :
    ∃ c, Genesis genesis ∧
      (run localRuntime genesis (opening 1000 ++
        timelocked adminOpSetStabilityFee 10000 1)).configs config = some c ∧
      maxStabilityFeeBps < c.stabilityFeeBps := by
  obtain ⟨c, hc, hfee⟩ := Option.map_eq_some_iff.mp
    (show ((run localRuntime genesis (opening 1000 ++
      timelocked adminOpSetStabilityFee 10000 1)).configs config).map (·.stabilityFeeBps) =
        some 10000 by decide +kernel)
  exact ⟨c, genesis_genesis, hc, by rw [hfee]; decide⟩

open Market in
/-- At 20% the bound is met. -/
theorem stability_fee_at_bound :
    ∃ c, (run localRuntime genesis (opening 1000 ++
        timelocked adminOpSetStabilityFee 2000 1)).configs config = some c ∧
      c.stabilityFeeBps = maxStabilityFeeBps ∧ c.stabilityFeeBps ≤ maxStabilityFeeBps := by
  obtain ⟨c, hc, hfee⟩ := Option.map_eq_some_iff.mp
    (show ((run localRuntime genesis (opening 1000 ++
      timelocked adminOpSetStabilityFee 2000 1)).configs config).map (·.stabilityFeeBps) =
        some 2000 by decide +kernel)
  refine ⟨c, hc, hfee, stability_fee_bounded genesis_genesis ?_ hc⟩
  refine along_append.mpr ⟨along_of_forall fun a ha s _ => .of_other ?_, ?_, ?_, trivial⟩
  · exact (show ∀ a ∈ opening 1000, a.setsAnyFee = false by decide) a ha
  · exact fun _ => .of_other rfl
  · intro _ c' hc' _
    have hparam : ((run localRuntime genesis (opening 1000 ++
        [.call (day 1) (.proposeTimelockedOp asAuthority adminOpSetStabilityFee 2000
          .default)])).configs config).map (·.adminOpParam) = some 2000 := by
      decide +kernel
    obtain ⟨c₁, hc₁, hparam⟩ := Option.map_eq_some_iff.mp hparam
    rw [run, run_append] at hc₁
    cases hc₁.symm.trans hc'
    exact hparam ▸ UInt64.le_refl _

end SolanaStablecoin
