import SolanaStablecoin.Base.Interest
import SolanaStablecoin.Verify.Fees
import SolanaStablecoin.Verify.Health
import SolanaStablecoin.Verify.Lock

/-! Stability fees over whole runs: what an operation on a position computes, charges and leaves for
later, and for which interval. -/

namespace SolanaStablecoin

open Transition

section Positions

variable {rt : Runtime} {clock : Clock} {s s' : State} {a : Action} {mint user : Pubkey}
  {n : UInt64}

/-! ## Operations on a position -/

/-- The annual fee of a stablecoin. -/
def State.stabilityFeeBps (s : State) (mint : Pubkey) : UInt16 :=
  (s.configs (.stablecoinConfig mint)).elim 0 (·.stabilityFeeBps)

/-- The position of a user, blank before the first borrow. -/
def State.position (s : State) (mint user : Pubkey) : CdpPosition :=
  (s.cdpPositions (.cdpPosition mint user)).getD {}

/-- The instruction borrows on the position, repays its debt or collects its fees. -/
def Instruction.operates (mint user : Pubkey) : Instruction → Bool
  | .cdpBorrowStable b _ => b.sssMint = mint ∧ b.user.key = user
  | .cdpRepayStable b _ => b.sssMint = mint ∧ b.user.key = user
  | .collectStabilityFee b => b.sssMint = mint ∧ b.debtor = user
  | _ => false

/-- The fee that a successful operation burns: a borrow only stores it, a repayment burns what is
stored, and a collection also what it computes. -/
def State.feeCharged (s : State) (mint user : Pubkey) (now : Int64) : Instruction → Nat
  | .cdpRepayStable .. => (s.position mint user).accruedFees.toNat
  | .collectStabilityFee _ =>
    if s.stabilityFeeBps mint = 0 ∨ (s.position mint user).elapsedSecs now = 0 then 0
    else (s.position mint user).due (s.stabilityFeeBps mint) now
  | _ => 0

/-- The stored fees as `collect_stability_fee` leaves them to be burned. -/
def CdpPosition.toCollect (p : CdpPosition) (feeBps : UInt16) (now : Int64) : Option UInt64 :=
  (p.newFee feeBps now).toOption.bind p.accruedFees.checkedAdd

/-- Who burns the fee of an operation, with the principal in a repayment. -/
inductive Burned (s : State) (fee : Nat) : Instruction → State → Prop where
  | borrow {b : CdpBorrowStable} {n : UInt64} {s' : State} (free : fee = 0) :
    Burned s fee (.cdpBorrowStable b n) s'
  | repay {b : CdpRepayStable} {n total : UInt64} {t : Tokens} {s' : State}
    (total_eq : total.toNat = n.toNat + fee)
    (burned : s.tokens.Burns b.sssMint b.userSssAccount b.user.key total t) :
    Burned s fee (.cdpRepayStable b n) s'
  | collect {b : CollectStabilityFee} {total : UInt64} {s' : State} (total_eq : total.toNat = fee)
    (burned : s.tokens.Burns b.sssMint b.debtorSssAccount (.stablecoinConfig b.sssMint) total
      s'.tokens) : Burned s fee (.collectStabilityFee b) s'
  | nothing {b : CollectStabilityFee} {s' : State} (free : fee = 0) (same : s'.tokens = s.tokens) :
    Burned s fee (.collectStabilityFee b) s'

/-- What a successful transaction does to one position. -/
inductive PositionStep (s : State) (mint user : Pubkey) : Action → State → Prop where
  | other {a : Action} {s' : State}
    (idle : ∀ clock i, a = .call clock i → i.operates mint user = false)
    (same : s'.cdpPositions (.cdpPosition mint user) = s.cdpPositions (.cdpPosition mint user)) :
    PositionStep s mint user a s'
  | opened {clock : Clock} {b : CdpBorrowStable} {n : UInt64} {s' : State} {p' : CdpPosition}
    (mint_eq : b.sssMint = mint) (user_eq : b.user.key = user)
    (free : s.cdpPositions (.cdpPosition mint user) = none)
    (stored : s'.cdpPositions (.cdpPosition mint user) = some p')
    (accruedFees : p'.accruedFees = 0) (accrual : p'.lastFeeAccrual = clock.unixTimestamp) :
    PositionStep s mint user (.call clock (.cdpBorrowStable b n)) s'
  | borrowed {clock : Clock} {b : CdpBorrowStable} {n : UInt64} {s' : State} {c : StablecoinConfig}
    {p p' : CdpPosition} (mint_eq : b.sssMint = mint) (user_eq : b.user.key = user)
    (config : s.configs (.stablecoinConfig mint) = some c)
    (position : s.cdpPositions (.cdpPosition mint user) = some p)
    (stored : s'.cdpPositions (.cdpPosition mint user) = some p')
    (positive : p'.debtAmount ≠ 0)
    (accruedFees : p'.accruedFees = p.totalAccrued c clock.unixTimestamp)
    (accrual : p'.lastFeeAccrual = clock.unixTimestamp) :
    PositionStep s mint user (.call clock (.cdpBorrowStable b n)) s'
  | repaid {clock : Clock} {b : CdpRepayStable} {n : UInt64} {s' : State} {p p' : CdpPosition}
    (mint_eq : b.sssMint = mint) (user_eq : b.user.key = user)
    (position : s.cdpPositions (.cdpPosition mint user) = some p)
    (stored : s'.cdpPositions (.cdpPosition mint user) = some p')
    (debtAmount : p.debtAmount.toNat = p'.debtAmount.toNat + n.toNat)
    (accruedFees : p'.accruedFees = 0) (accrual : p'.lastFeeAccrual = p.lastFeeAccrual)
    (burned : Burned s p.accruedFees.toNat (.cdpRepayStable b n) s') :
    PositionStep s mint user (.call clock (.cdpRepayStable b n)) s'
  | skipped {clock : Clock} {b : CollectStabilityFee} {s' : State} {c : StablecoinConfig}
    {p : CdpPosition} (mint_eq : b.sssMint = mint) (user_eq : b.debtor = user)
    (config : s.configs (.stablecoinConfig mint) = some c)
    (position : s.cdpPositions (.cdpPosition mint user) = some p)
    (early : c.stabilityFeeBps = 0 ∨ p.elapsedSecs clock.unixTimestamp = 0) (same : s' = s) :
    PositionStep s mint user (.call clock (.collectStabilityFee b)) s'
  | collected {clock : Clock} {b : CollectStabilityFee} {s' : State} {c : StablecoinConfig}
    {p : CdpPosition} {total : UInt64} (mint_eq : b.sssMint = mint) (user_eq : b.debtor = user)
    (config : s.configs (.stablecoinConfig mint) = some c)
    (position : s.cdpPositions (.cdpPosition mint user) = some p)
    (stored : s'.cdpPositions (.cdpPosition mint user) = some (p.settled clock.unixTimestamp))
    (fee : c.stabilityFeeBps ≠ 0) (elapsed : p.elapsedSecs clock.unixTimestamp ≠ 0)
    (total_eq : p.toCollect c.stabilityFeeBps clock.unixTimestamp = some total)
    (burned : Burned s total.toNat (.collectStabilityFee b) s') :
    PositionStep s mint user (.call clock (.collectStabilityFee b)) s'
  | liquidated {a : Action} {s' : State} {collateral : Pubkey} {p p' : CdpPosition}
    (liquidates : a.Liquidates mint user collateral)
    (position : s.cdpPositions (.cdpPosition mint user) = some p)
    (stored : s'.cdpPositions (.cdpPosition mint user) = some p')
    (accrual : p'.lastFeeAccrual = p.lastFeeAccrual)
    (debtAmount : p'.debtAmount ≤ p.debtAmount) : PositionStep s mint user a s'

/-! ## Every transaction is a step -/

/-- The transaction is one of the five that write positions. -/
def Action.writesPosition : Action → Bool
  | .call _ (.cdpBorrowStable ..) | .call _ (.cdpRepayStable ..) | .call _ (.cdpLiquidate ..)
  | .call _ (.cdpLiquidateV2 ..) | .call _ (.collectStabilityFee _) => true
  | _ => false

theorem Step.positions_eq (h : Step rt s a s') (hother : a.writesPosition = false) :
    s'.cdpPositions = s.cdpPositions := by
  cases h with
  | quiet h => exact h.positions
  | aside h => exact h.loose.positions
  | process _ h => exact h.positions
  | createMint _ _ frame | mintElsewhere _ _ frame | issue _ _ frame | retire _ frame
  | redeemInstantly _ _ _ _ _ frame => exact frame.positions
  | initializeStablecoin h => exact h.positions
  | deposit h => exact h.positions
  | borrow | repay | collect => cases hother
  | liquidate kind =>
    obtain ⟨x, y, rfl | rfl⟩ := kind
    · cases hother
    · cases hother

namespace PositionStep

/-- A call on one position leaves the others alone. -/
theorem of_put {i : Instruction} {mint' user' : Pubkey} {p : CdpPosition}
    (hput : s'.cdpPositions = put s.cdpPositions (.cdpPosition mint' user') p)
    (hkey : i.operates mint user = true → mint' = mint ∧ user' = user)
    (h : mint' = mint → user' = user → s'.cdpPositions (.cdpPosition mint user) = some p →
      PositionStep s mint user (.call clock i) s') :
    PositionStep s mint user (.call clock i) s' := by
  by_cases hk : Pubkey.cdpPosition mint' user' = .cdpPosition mint user
  · cases hk
    exact h rfl rfl (by rw [hput, put_self])
  · refine .other (fun clock' i' heq => ?_) ?_
    · cases heq
      by_contra hoperates
      obtain ⟨rfl, rfl⟩ := hkey (by simpa using hoperates)
      exact hk rfl
    · rw [hput, put_of_ne _ _ (Ne.symm hk)]

theorem of_borrowed {b : CdpBorrowStable} {c : StablecoinConfig} {v : CollateralVault}
    (ho : Owned s) (h : Borrowed clock s b n s' c v) :
    PositionStep s mint user (.call clock (.cdpBorrowStable b n)) s' := by
  obtain ⟨q, x, htouch, hx, hput⟩ := h.positions
  refine of_put hput (fun hoperates => by simpa [Instruction.operates] using hoperates) ?_
  rintro rfl rfl hstored
  cases hp : s.cdpPositions (.cdpPosition b.sssMint b.user.key) with
  | none =>
    rw [CdpBorrowStable.position, hp, Option.getD_none, CdpPosition.touch, if_pos rfl] at htouch
    cases htouch
    exact .opened rfl rfl hp hstored rfl rfl
  | some p =>
    rw [CdpBorrowStable.position, hp, Option.getD_some, CdpPosition.touch, if_neg (ho _ _ hp),
      bind_eq_ok] at htouch
    obtain ⟨-, -, htouch⟩ := htouch
    cases htouch
    refine .borrowed rfl rfl h.config hp hstored (fun hzero => ?_) rfl rfl
    have hpos := UInt64.lt_iff_toNat_lt.mp h.positive
    change x = 0 at hzero
    rw [hzero] at hx
    change 0 = _ at hx
    omega

theorem of_repaid {b : CdpRepayStable} {c : StablecoinConfig} {p : CdpPosition}
    {v : CollateralVault} {released : UInt64} (h : Repaid rt s b n s' c p v released) :
    PositionStep s mint user (.call clock (.cdpRepayStable b n)) s' := by
  obtain ⟨x, hx, hput⟩ := h.positions
  refine of_put hput (fun hoperates => by simpa [Instruction.operates] using hoperates) ?_
  rintro rfl rfl hstored
  obtain ⟨total, t, htotal, -, hburns, -⟩ := h.burned
  exact .repaid rfl rfl h.position hstored hx rfl rfl (.repay htotal hburns)

theorem of_liquidated {i : Instruction} {b : CdpLiquidate} {c : StablecoinConfig}
    {p p' : CdpPosition} {v : CollateralVault} {burned seized x y : UInt64}
    (kind : i = .cdpLiquidate b x y ∨ i = .cdpLiquidateV2 b x y)
    (h : Liquidated rt s b s' c p p' v burned seized) :
    PositionStep s mint user (.call clock i) s' := by
  refine of_put h.positions (fun hoperates => ?_) ?_
  · rcases kind with rfl | rfl
    · cases hoperates
    · cases hoperates
  · rintro rfl rfl hstored
    refine .liquidated ⟨clock, b, x, y, rfl, rfl, rfl, ?_⟩ h.position hstored h.accrual h.debt_le
    rcases kind with rfl | rfl
    · exact .inl rfl
    · exact .inr rfl

theorem of_collect {b : CollectStabilityFee}
    (h : collectStabilityFeeHandler rt clock s b = .ok s') :
    PositionStep s mint user (.call clock (.collectStabilityFee b)) s' := by
  simp only [collectStabilityFeeHandler, bind_eq_ok, loadSss3OfMint_eq_ok, Prod.exists,
    load_eq_ok] at h
  obtain ⟨c, m, ⟨hc, -⟩, -, -, p, hp, -, -, -, -, -, -, -, -, h⟩ := h
  have skip (hearly : c.stabilityFeeBps = 0 ∨ p.elapsedSecs clock.unixTimestamp = 0)
      (hsame : s' = s) : PositionStep s mint user (.call clock (.collectStabilityFee b)) s' := by
    by_cases hk : b.sssMint = mint ∧ b.debtor = user
    · obtain ⟨rfl, rfl⟩ := hk
      exact .skipped rfl rfl hc hp hearly hsame
    · refine .other (fun clock' i heq => ?_) (by rw [hsame])
      cases heq
      simpa [Instruction.operates] using hk
  split at h
  next hfee =>
    cases h
    exact skip (.inl hfee) rfl
  split at h
  next helapsed =>
    cases h
    exact skip (.inr helapsed) rfl
  next hfee helapsed =>
    simp only [bind_eq_ok, Option.okOr_eq_ok] at h
    obtain ⟨fee, hnew, total, htotal, h⟩ := h
    have hcollect : p.toCollect c.stabilityFeeBps clock.unixTimestamp = some total := by
      rw [CdpPosition.toCollect, hnew]
      exact htotal
    have hkey (hoperates : (Instruction.collectStabilityFee b).operates mint user = true) :
        b.sssMint = mint ∧ b.debtor = user := by
      simpa [Instruction.operates] using hoperates
    split at h
    next hzero =>
      cases h
      refine of_put rfl hkey ?_
      rintro rfl rfl hstored
      exact .collected rfl rfl hc hp hstored hfee helapsed hcollect
        (.nothing (by rw [hzero]; rfl) rfl)
    next =>
      simp only [bind_eq_ok, Option.okOr_eq_ok, StablecoinConfig.addBurned_eq_ok, pure_eq_ok] at h
      obtain ⟨t, ht, c', -, rfl⟩ := h
      refine of_put rfl hkey ?_
      rintro rfl rfl hstored
      exact .collected rfl rfl hc hp hstored hfee helapsed hcollect
        (.collect rfl (rt.token.burn_ok ht))

end PositionStep

theorem exec_position (ho : Owned s) (h : Action.exec rt s a = .ok s') :
    PositionStep s mint user a s' := by
  cases a with
  | world w =>
    refine .other (fun clock i heq => by cases heq) ?_
    rw [(exec_step h).positions_eq rfl]
  | call clock i =>
    cases i with
    | cdpBorrowStable =>
      obtain ⟨c, v, price, m, m', hborrowed, -⟩ := cdpBorrowStableHandler_ok h
      exact .of_borrowed ho hborrowed
    | cdpRepayStable =>
      obtain ⟨c, p, v, released, hrepaid⟩ := cdpRepayStableHandler_ok h
      exact .of_repaid hrepaid
    | cdpLiquidate =>
      obtain ⟨l, cc, oc, price, debt, p', burned, seized, -, -, -, -, -, hliquidated⟩ :=
        cdpLiquidateHandler_ok h
      exact .of_liquidated (.inl rfl) hliquidated
    | cdpLiquidateV2 =>
      obtain ⟨l, cc, price, debt, p', burned, seized, -, -, -, -, -, hliquidated⟩ :=
        cdpLiquidateV2Handler_ok h
      exact .of_liquidated (.inr rfl) hliquidated
    | collectStabilityFee => exact .of_collect h
    | _ =>
      refine .other (fun clock i heq => ?_) (by rw [(exec_step h).positions_eq rfl])
      cases heq
      rfl

/-! ## A constant rate -/

/-- The operations on a position, and the fee that each burns. -/
def feeEvents (mint user : Pubkey) (s : State) : Action → List Interest.Event
  | .call clock i =>
    if i.operates mint user then
      [{ time := clock.unixTimestamp.toInt, debt := (s.position mint user).debtAmount.toNat
         charged := s.feeCharged mint user clock.unixTimestamp i }]
    else []
  | .world _ => []

/-- A successful operation is at the rate `r`, and nobody liquidates. -/
structure AtRate (rt : Runtime) (r : UInt16) (mint user : Pubkey) (s : State) (a : Action) :
    Prop where
  rate : ∀ clock i, a = .call clock i → i.operates mint user = true →
    (i.exec rt clock s).isOk = true → s.stabilityFeeBps mint = r
  spared : ∀ collateral, ¬a.Liquidates mint user collateral

/-- The fee of an operation fits, and what a repayment takes off the debt owes at most one base
unit since the last accrual. -/
inductive Timely (r : UInt16) (p : CdpPosition) (now : Int64) : Instruction → Prop where
  | borrow {b : CdpBorrowStable} {n : UInt64} (fits : p.due r now < 2 ^ 64) :
    Timely r p now (.cdpBorrowStable b n)
  | collect {b : CollectStabilityFee} (fits : p.due r now < 2 ^ 64) :
    Timely r p now (.collectStabilityFee b)
  | repay {b : CdpRepayStable} {n : UInt64}
    (lost : n.toNat * r.toNat * p.elapsedSecs now ≤ 10000 * secsPerYear) :
    Timely r p now (.cdpRepayStable b n)

/-- A successful operation comes in time. -/
def InTime (rt : Runtime) (r : UInt16) (mint user : Pubkey) (s : State) (a : Action) : Prop :=
  ∀ clock i, a = .call clock i → i.operates mint user = true → (i.exec rt clock s).isOk = true →
    0 < clock.unixTimestamp.toInt ∧ Timely r (s.position mint user) clock.unixTimestamp i

def CdpPosition.loan (p : CdpPosition) : Interest.Loan :=
  { debt := p.debtAmount.toNat, accrued := p.accruedFees.toNat, last := p.lastFeeAccrual.toInt }

def State.loan (s : State) (mint user : Pubkey) : Option Interest.Loan :=
  (s.cdpPositions (.cdpPosition mint user)).map CdpPosition.loan

variable {p : CdpPosition} {c : StablecoinConfig} {now : Int64} {r : UInt16}

theorem State.position_of (h : s.cdpPositions (.cdpPosition mint user) = some p) :
    s.position mint user = p := by
  rw [State.position, h, Option.getD_some]

theorem State.loan_of (h : s.cdpPositions (.cdpPosition mint user) = some p) :
    s.loan mint user = some p.loan := by
  rw [State.loan, h, Option.map_some]

theorem State.stabilityFeeBps_of (h : s.configs (.stablecoinConfig mint) = some c) :
    s.stabilityFeeBps mint = c.stabilityFeeBps := by
  rw [State.stabilityFeeBps, h]
  rfl

theorem CdpPosition.elapsedSecs_eq (hlast : 0 < p.lastFeeAccrual.toInt)
    (hle : p.lastFeeAccrual.toInt ≤ now.toInt) :
    (p.elapsedSecs now : ℤ) = now.toInt - p.lastFeeAccrual.toInt := by
  have hnow := now.toInt_lt
  have hclamp : now.saturatingSub p.lastFeeAccrual = now.toInt - p.lastFeeAccrual.toInt := by
    unfold Int64.saturatingSub Int.clamp64
    omega
  rw [CdpPosition.elapsedSecs, hclamp]
  omega

/-- What is due is what is stored and the interest since the last accrual. -/
theorem CdpPosition.exists_fee (hlast : 0 < p.lastFeeAccrual.toInt)
    (hle : p.lastFeeAccrual.toInt ≤ now.toInt) :
    ∃ fee : Nat, p.due r now = p.accruedFees.toNat + fee ∧
      (fee : ℤ) = p.loan.pending r.toNat now.toInt / (10000 * secsPerYear : Nat) := by
  have hpending : ((p.debtAmount.toNat * r.toNat * p.elapsedSecs now : Nat) : ℤ) =
      p.loan.pending r.toNat now.toInt := by
    rw [Nat.cast_mul, Nat.cast_mul, CdpPosition.elapsedSecs_eq hlast hle]
    rfl
  exact ⟨_, rfl, by rw [Int.natCast_div, hpending]⟩

theorem CdpPosition.totalAccrued_eq (hlast : 0 < p.lastFeeAccrual.toInt)
    (hfits : p.due c.stabilityFeeBps now < 2 ^ 64) :
    (p.totalAccrued c now).toNat = p.due c.stabilityFeeBps now := by
  obtain ⟨fee, total, hfee, hadd, htotal⟩ := CdpPosition.total_of_due hfits
  rw [CdpPosition.totalAccrued, ← newFee_eq_pendingFees hlast hfee, hadd, Option.getD_some, htotal]

theorem CdpPosition.toCollect_eq {total : UInt64} (hfits : p.due r now < 2 ^ 64)
    (h : p.toCollect r now = some total) : total.toNat = p.due r now := by
  obtain ⟨fee, total', hfee, hadd, htotal⟩ := CdpPosition.total_of_due hfits
  rw [CdpPosition.toCollect, hfee] at h
  cases hadd.symm.trans h
  exact htotal

/-- Under these conditions an operation is a step of a loan. -/
theorem PositionStep.interest {i : Instruction} (h : PositionStep s mint user (.call clock i) s')
    (hop : i.operates mint user = true) (hr : r ≠ 0) (hrate : s.stabilityFeeBps mint = r)
    (hspared : ∀ collateral, ¬(Action.call clock i).Liquidates mint user collateral)
    (htimely : Timely r (s.position mint user) clock.unixTimestamp i)
    (hlast : ∀ p, s.cdpPositions (.cdpPosition mint user) = some p →
      0 < p.lastFeeAccrual.toInt ∧ p.lastFeeAccrual.toInt ≤ clock.unixTimestamp.toInt) :
    Interest.Step r.toNat (10000 * secsPerYear) (s.loan mint user)
      { time := clock.unixTimestamp.toInt, debt := (s.position mint user).debtAmount.toNat
        charged := s.feeCharged mint user clock.unixTimestamp i } (s'.loan mint user) := by
  cases h with
  | other idle =>
    rw [idle _ _ rfl] at hop
    cases hop
  | liquidated liquidates => exact absurd liquidates (hspared _)
  | opened _ _ free stored hfees haccrual =>
    rw [State.loan_of stored, State.loan, State.position, free, CdpPosition.loan, hfees, haccrual]
    exact .opened
  | @borrowed _ b n _ c p p' _ _ hconfig hp stored positive hfees haccrual =>
    rw [State.position_of hp] at htimely ⊢
    rw [State.loan_of hp, State.loan_of stored]
    rw [State.stabilityFeeBps_of hconfig] at hrate
    subst hrate
    obtain ⟨hpos, hle⟩ := hlast p hp
    obtain ⟨fits⟩ := htimely
    obtain ⟨fee, hdue, hfee⟩ := p.exists_fee (r := c.stabilityFeeBps) hpos hle
    have htotal := CdpPosition.totalAccrued_eq hpos fits
    rw [CdpPosition.loan, CdpPosition.loan, hfees, haccrual, htotal, hdue]
    refine .accrued hfee (Nat.zero_add _) fun hzero => ?_
    exact absurd (UInt64.toNat_inj.mp hzero) positive
  | @repaid _ b n _ p p' _ _ hp stored hdebt hfees haccrual =>
    rw [State.position_of hp] at htimely ⊢
    rw [State.loan_of hp, State.loan_of stored]
    obtain ⟨hpos, hle⟩ := hlast p hp
    obtain - | - | hlost := htimely
    have hcharged : s.feeCharged mint user clock.unixTimestamp (.cdpRepayStable b n) =
        p.loan.accrued := by
      rw [State.feeCharged, State.position_of hp]
      rfl
    rw [hcharged, CdpPosition.loan, CdpPosition.loan, hfees, haccrual]
    refine .repaid (n := n.toNat) (by rw [hdebt, Nat.add_comm]) ?_
    have helapsed := CdpPosition.elapsedSecs_eq hpos hle
    rw [← helapsed]
    exact_mod_cast hlost
  | @skipped _ b _ c p _ _ hconfig hp early same =>
    rw [State.stabilityFeeBps_of hconfig] at hrate
    obtain ⟨hpos, hle⟩ := hlast p hp
    have helapsed := early.resolve_left (hrate ▸ hr)
    have hcharged : s.feeCharged mint user clock.unixTimestamp (.collectStabilityFee b) = 0 := by
      rw [State.feeCharged, State.position_of hp, if_pos (.inr helapsed)]
    rw [hcharged, same, State.loan_of hp, State.position_of hp]
    refine .idle ?_
    have := CdpPosition.elapsedSecs_eq hpos hle
    change clock.unixTimestamp.toInt ≤ p.lastFeeAccrual.toInt
    omega
  | @collected _ b _ c p total _ _ hconfig hp stored hfee helapsed htotal =>
    rw [State.position_of hp] at htimely ⊢
    rw [State.loan_of hp, State.loan_of stored]
    have hrate' := State.stabilityFeeBps_of hconfig
    rw [hrate] at hrate'
    subst hrate'
    obtain ⟨hpos, hle⟩ := hlast p hp
    obtain - | fits := htimely
    obtain ⟨fee, hdue, hfee⟩ := p.exists_fee (r := c.stabilityFeeBps) hpos hle
    have hcharged : s.feeCharged mint user clock.unixTimestamp (.collectStabilityFee b) =
        p.due c.stabilityFeeBps clock.unixTimestamp := by
      rw [State.feeCharged, hrate, State.position_of hp, if_neg (not_or.mpr ⟨hr, helapsed⟩)]
    rw [hcharged, hdue]
    exact .accrued hfee rfl fun _ => rfl

/-- What is charged before the end is the interest of all intervals, up to one base unit for each
operation, and it is burned. -/
structure FeesCharged (rt : Runtime) (s : State) (as : List Action) (mint user : Pubkey)
    (r : UInt16) : Prop where
  atMost : ((10000 * secsPerYear : Nat) * Interest.charged
      (history (Action.exec rt) (feeEvents mint user) s as) : ℤ) ≤
    Interest.due r.toNat (history (Action.exec rt) (feeEvents mint user) s as)
  atLeast : Interest.due r.toNat (history (Action.exec rt) (feeEvents mint user) s as) ≤
    (10000 * secsPerYear : Nat) *
      (Interest.charged (history (Action.exec rt) (feeEvents mint user) s as) +
        (history (Action.exec rt) (feeEvents mint user) s as).length)
  burned : ∀ init clock i tail s', as = init ++ .call clock i :: tail →
    i.exec rt clock (run rt s init) = .ok s' → i.operates mint user = true →
    Burned (run rt s init) ((run rt s init).feeCharged mint user clock.unixTimestamp i) i s'

/-- What a run keeps true of a position. -/
structure Serviced (r : UInt16) (mint user : Pubkey) (s : State) (es : List Interest.Event) :
    Prop where
  owned : Owned s
  accounted : es.Pairwise (·.time ≤ ·.time) →
    Interest.Accounted r.toNat (10000 * secsPerYear) (s.loan mint user) es ∧
      ∀ p, s.cdpPositions (.cdpPosition mint user) = some p → 0 < p.lastFeeAccrual.toInt

theorem Serviced.exec {es : List Interest.Event} (h : Serviced r mint user s es) (hr : r ≠ 0)
    (hrate : AtRate rt r mint user s a) (htime : InTime rt r mint user s a)
    (hok : Action.exec rt s a = .ok s') :
    Serviced r mint user s' (es ++ feeEvents mint user s a) := by
  refine ⟨h.owned.step (exec_step hok), fun hsorted => ?_⟩
  have hstep : PositionStep s mint user a s' := exec_position h.owned hok
  obtain ⟨haccounted, hpos⟩ := h.accounted (hsorted.sublist (List.sublist_append_left ..))
  have same (heq : s'.cdpPositions (.cdpPosition mint user) =
      s.cdpPositions (.cdpPosition mint user)) (hnone : feeEvents mint user s a = []) :
      Interest.Accounted r.toNat (10000 * secsPerYear) (s'.loan mint user)
          (es ++ feeEvents mint user s a) ∧
        ∀ p, s'.cdpPositions (.cdpPosition mint user) = some p → 0 < p.lastFeeAccrual.toInt := by
    rw [hnone, List.append_nil, State.loan, heq]
    exact ⟨haccounted, hpos⟩
  cases a with
  | world w =>
    cases hstep with
    | other _ heq => exact same heq rfl
    | liquidated liquidates => exact absurd liquidates (hrate.spared _)
  | call clock i =>
    cases hop : i.operates mint user with
    | false =>
      have hnone : feeEvents mint user s (.call clock i) = [] := by
        rw [feeEvents, hop]
        rfl
      cases hstep with
      | other _ heq => exact same heq hnone
      | liquidated liquidates => exact absurd liquidates (hrate.spared _)
      | opened hm hu | borrowed hm hu | repaid hm hu | skipped hm hu | collected hm hu =>
        simp [Instruction.operates, hm, hu] at hop
    | true =>
      have hone : feeEvents mint user s (.call clock i) =
          [{ time := clock.unixTimestamp.toInt
             debt := (s.position mint user).debtAmount.toNat
             charged := s.feeCharged mint user clock.unixTimestamp i }] := by
        rw [feeEvents, hop]
        rfl
      have hisOk : (i.exec rt clock s).isOk = true := isOk_iff.mpr ⟨s', hok⟩
      obtain ⟨hclock, htimely⟩ := htime clock i rfl hop hisOk
      rw [hone] at hsorted ⊢
      have hlast (p : CdpPosition) (hp : s.cdpPositions (.cdpPosition mint user) = some p) :
          0 < p.lastFeeAccrual.toInt ∧ p.lastFeeAccrual.toInt ≤ clock.unixTimestamp.toInt := by
        rw [State.loan_of hp] at haccounted
        exact ⟨hpos p hp, haccounted.last_le hsorted⟩
      have hinterest := hstep.interest hop hr (hrate.rate clock i rfl hop hisOk) hrate.spared
        htimely hlast
      refine ⟨haccounted.step (by decide) hinterest hsorted, fun p' hp' => ?_⟩
      cases hstep with
      | other _ heq => exact hpos p' (heq ▸ hp')
      | liquidated liquidates => exact absurd liquidates (hrate.spared _)
      | opened _ _ _ stored _ haccrual =>
        cases stored.symm.trans hp'
        rwa [haccrual]
      | borrowed _ _ _ _ stored _ _ haccrual =>
        cases stored.symm.trans hp'
        rwa [haccrual]
      | repaid _ _ hp stored _ _ haccrual =>
        cases stored.symm.trans hp'
        rw [haccrual]
        exact hpos _ hp
      | skipped _ _ _ _ _ heq => exact hpos p' (heq ▸ hp')
      | collected _ _ _ _ stored =>
        cases stored.symm.trans hp'
        exact hclock

/-- The fee that an operation charges is burned. -/
theorem PositionStep.burned {i : Instruction} (h : PositionStep s mint user (.call clock i) s')
    (hop : i.operates mint user = true)
    (hspared : ∀ collateral, ¬(Action.call clock i).Liquidates mint user collateral)
    (htimely : Timely (s.stabilityFeeBps mint) (s.position mint user) clock.unixTimestamp i) :
    Burned s (s.feeCharged mint user clock.unixTimestamp i) i s' := by
  cases h with
  | other idle =>
    rw [idle _ _ rfl] at hop
    cases hop
  | liquidated liquidates => exact absurd liquidates (hspared _)
  | opened | borrowed => exact .borrow rfl
  | repaid _ _ hp _ _ _ _ burned =>
    rw [State.feeCharged, State.position_of hp]
    exact burned
  | skipped _ _ hconfig hp early same =>
    refine .nothing ?_ (by rw [same])
    rw [State.feeCharged, State.stabilityFeeBps_of hconfig, State.position_of hp, if_pos early]
  | collected _ _ hconfig hp _ hfee helapsed htotal burned =>
    rw [State.stabilityFeeBps_of hconfig, State.position_of hp] at htimely
    obtain - | fits := htimely
    rw [State.feeCharged, State.stabilityFeeBps_of hconfig, State.position_of hp,
      if_neg (not_or.mpr ⟨hfee, helapsed⟩), ← CdpPosition.toCollect_eq fits htotal]
    exact burned

theorem Genesis.owned (h : Genesis s) : Owned s := by
  intro k p hp
  rw [h.cdpPositions] at hp
  cases hp

/-- At a constant rate, where every operation comes in time, what is charged until the debt is
repaid is the interest on it. -/
theorem fees_charged {as : List Action} (hs : Genesis s) (hr : r ≠ 0)
    (hrate : Along (Action.exec rt) (AtRate rt r mint user) s as)
    (hsorted : (history (Action.exec rt) (feeEvents mint user) s as).Pairwise (·.time ≤ ·.time))
    (htime : Along (Action.exec rt) (InTime rt r mint user) s as)
    (hp : (run rt s as).cdpPositions (.cdpPosition mint user) = some p)
    (hdebt : p.debtAmount = 0) : FeesCharged rt s as mint user r := by
  have hstart : Serviced r mint user s [] := by
    refine ⟨hs.owned, fun _ => ?_⟩
    rw [State.loan, hs.cdpPositions]
    exact ⟨.absent, fun p hp => by cases hp⟩
  have hserviced : Serviced r mint user (run rt s as)
      ([] ++ history (Action.exec rt) (feeEvents mint user) s as) :=
    invariant_history (P := fun s a => AtRate rt r mint user s a ∧ InTime rt r mint user s a)
      (fun h hP hok => h.exec hr hP.1 hP.2 hok) hstart (hrate.and htime)
  obtain ⟨haccounted, -⟩ := hserviced.accounted hsorted
  rw [State.loan_of hp] at haccounted
  have hsettled : p.loan.debt = 0 := by
    rw [CdpPosition.loan, hdebt]
    rfl
  obtain ⟨hmost, hleast⟩ := haccounted.charged_of_settled hsettled
  refine ⟨hmost, hleast, ?_⟩
  rintro init clock i tail s' rfl hok hop
  have howned : Owned (run rt s init) :=
    invariant_run_of_forall (fun h hok => h.step (exec_step hok)) init hs.owned
  have hisOk : (i.exec rt clock (run rt s init)).isOk = true := isOk_iff.mpr ⟨s', hok⟩
  have hrate := (along_append.mp hrate).2.1
  obtain ⟨-, htimely⟩ := (along_append.mp htime).2.1 clock i rfl hop hisOk
  rw [← hrate.rate clock i rfl hop hisOk] at htimely
  exact (exec_position (a := .call clock i) howned hok).burned hop hrate.spared htimely

/-! ## A loan of a year -/

theorem Instruction.operates_of_writesPosition {i : Instruction}
    (h : (Action.call clock i).writesPosition = false) : i.operates mint user = false := by
  cases i with
  | cdpBorrowStable | cdpRepayStable | collectStabilityFee => cases h
  | _ => rfl

/-- Transactions on no position meet all conditions. -/
theorem AtRate.of_other (h : a.writesPosition = false) : AtRate rt r mint user s a := by
  refine ⟨?_, ?_⟩
  · rintro clock i rfl hop
    rw [Instruction.operates_of_writesPosition h] at hop
    cases hop
  · rintro collateral ⟨clock, b, x, y, -, -, -, rfl | rfl⟩
    · cases h
    · cases h

theorem InTime.of_other (h : a.writesPosition = false) : InTime rt r mint user s a := by
  rintro clock i rfl hop
  rw [Instruction.operates_of_writesPosition h] at hop
  cases hop

theorem AtRate.of_rate {i : Instruction} (hrate : s.stabilityFeeBps mint = r)
    (hop : i.operates mint user = true) : AtRate rt r mint user s (.call clock i) := by
  refine ⟨?_, ?_⟩
  · rintro _ _ ⟨⟩ - -
    exact hrate
  · rintro collateral ⟨clock, b, x, y, -, -, -, heq | heq⟩
    · cases heq
      cases hop
    · cases heq
      cases hop

theorem InTime.of_timely {i : Instruction} (hclock : 0 < clock.unixTimestamp.toInt)
    (htimely : Timely r (s.position mint user) clock.unixTimestamp i) :
    InTime rt r mint user s (.call clock i) := by
  rintro _ _ ⟨⟩ - -
  exact ⟨hclock, htimely⟩

end Positions

namespace Market

/-- Before the loan: gold is in the vault, and the fee is 20% a year. -/
def priced : List Action :=
  deposited 1000 ++ timelocked adminOpSetStabilityFee 2000 1 ++ [publish 1 3]

def repayOn (amount : UInt64) (n : Nat) : Action :=
  .call (day n) (.cdpRepayStable
    { user, sssMint := mint.key, userSssAccount := userStable.key, collateralMint := gold.key
      vaultTokenAccount := goldAccount.key, userCollateralAccount := userGold.key } amount)

theorem priced_other : ∀ a ∈ priced, a.writesPosition = false := by
  decide

/-- The user gets 20 more, and lets the config burn them. -/
def savings : List Action :=
  [ .call (day 4) (.updateMinter { asAuthority with minter := authority.key } 20),
    .call (day 4) (.mint
      { minter := authority, mint := mint.key, recipientTokenAccount := userStable.key } 20),
    .world (.approve user userStable.key config 20) ]

theorem savings_other : ∀ a ∈ savings, a.writesPosition = false := by
  decide

/-- 100 are repaid a year later, and nothing was collected. -/
def repaidLate : List Action := priced ++ [borrow 100 3, repayOn 100 368]

/-- The fee is collected in the second in which the debt is repaid. -/
def collectedLate : List Action :=
  priced ++ ([borrow 100 3] ++ (savings ++
    [.call (day 368) (.collectStabilityFee collect), repayOn 100 368]))

end Market

open Market in
/-- A repayment charges nothing for the year before it. -/
theorem fees_lost_in_repayment :
    Genesis genesis ∧
      Along (Action.exec localRuntime) (AtRate localRuntime 2000 mint.key user.key) genesis
        repaidLate ∧
      (history (Action.exec localRuntime) (feeEvents mint.key user.key) genesis
        repaidLate).Pairwise (·.time ≤ ·.time) ∧
      ((run localRuntime genesis repaidLate).position mint.key user.key).debtAmount = 0 ∧
      ((10000 * secsPerYear : Nat) *
          (Interest.charged (history (Action.exec localRuntime) (feeEvents mint.key user.key)
              genesis repaidLate) +
            (history (Action.exec localRuntime) (feeEvents mint.key user.key) genesis
              repaidLate).length) : ℤ) <
        Interest.due 2000 (history (Action.exec localRuntime) (feeEvents mint.key user.key)
          genesis repaidLate) := by
  refine ⟨genesis_genesis, along_append.mpr ⟨?_, ?_, ?_, trivial⟩, ?_⟩
  · exact along_of_forall fun a ha s => .of_other (priced_other a ha)
  · exact .of_rate (by decide +kernel) rfl
  · exact .of_rate (by decide +kernel) rfl
  · decide +kernel

open Market in
/-- What is collected in time is the whole interest. -/
theorem collected_fees_charged :
    FeesCharged localRuntime genesis collectedLate mint.key user.key 2000 ∧
      Interest.charged (history (Action.exec localRuntime) (feeEvents mint.key user.key) genesis
        collectedLate) = 20 := by
  obtain ⟨p, hp, hdebt⟩ := Option.map_eq_some_iff.mp
    (show ((run localRuntime genesis collectedLate).cdpPositions
      (.cdpPosition mint.key user.key)).map (·.debtAmount) = some 0 by decide +kernel)
  refine ⟨fees_charged genesis_genesis (by decide) ?_ (by decide +kernel) ?_ hp hdebt,
    by decide +kernel⟩
  · refine along_append.mpr ⟨along_of_forall fun a ha s => .of_other (priced_other a ha), ?_⟩
    refine along_append.mpr ⟨⟨.of_rate (by decide +kernel) rfl, trivial⟩, along_append.mpr ⟨?_, ?_⟩⟩
    · exact along_of_forall fun a ha s => .of_other (savings_other a ha)
    · exact ⟨.of_rate (by decide +kernel) rfl, .of_rate (by decide +kernel) rfl, trivial⟩
  · refine along_append.mpr ⟨along_of_forall fun a ha s => .of_other (priced_other a ha), ?_⟩
    refine along_append.mpr ⟨⟨.of_timely (by decide) (.borrow (by decide +kernel)), trivial⟩,
      along_append.mpr ⟨?_, ?_⟩⟩
    · exact along_of_forall fun a ha s => .of_other (savings_other a ha)
    · exact ⟨.of_timely (by decide) (.collect (by decide +kernel)),
        .of_timely (by decide) (.repay (by decide +kernel)), trivial⟩

end SolanaStablecoin
