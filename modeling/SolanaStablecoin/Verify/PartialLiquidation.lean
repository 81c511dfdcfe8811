import SolanaStablecoin.Base.Scaling
import SolanaStablecoin.Verify.Liquidation
import SolanaStablecoin.Verify.Valuation

/-! What a partial liquidation leaves of a position. It heals it, unless it repays the principal and
only some of the fees, of which the rest is forgiven, or the price has a positive exponent, which
the engines take to be negative. -/

namespace SolanaStablecoin

open Ratio

variable {rt : Runtime} {clock : Clock} {s s' : State} {a : CdpLiquidate} {i : Instruction}
  {least repay : UInt64} {l : LiquidationAccounts} {price : OraclePrice} {burned seized : UInt64}
  {t : Nat}

namespace Liquidation

/-- The accounts with what `s'` stores of the position and of its vault. -/
def accountsIn (x : Liquidation) (s' : State) : LiquidationAccounts :=
  { x.accounts with
    position := (s'.cdpPositions (.cdpPosition x.sssMint x.cdpOwner)).getD x.accounts.position
    vault := (s'.collateralVaults (.collateralVault x.sssMint x.cdpOwner x.collateralMint)).getD
      x.accounts.vault }

/-- The position cannot be liquidated again, its debt has fallen by what was burned, and no more
was seized than there was, nor than is due for what was burned. -/
structure Heals (x : Liquidation) (s' : State) (burned seized : UInt64) : Prop where
  healthy : (checkLiquidatable (x.accountsIn s') x.price x.engine.threshold).isOk = false
  debt : (x.accountsIn s').debt + burned.toNat = x.accounts.debt
  seized_le : seized ≤ x.accounts.vault.depositedAmount
  value_le : x.price.usd seized x.accounts.collateralDecimals ≤
    burned.toNat / 10 ^ x.accounts.sssDecimals.toNat * (1 + x.engine.bonusBps.toNat / 10000)

/-- What is repaid, with the bonus on it, is less than one unit of the collateral when the exponent
of the price is taken to be negative. -/
def Dust (x : Liquidation) : Prop :=
  match x.engine with
  | .cdpLiquidate cc =>
    debtE6 x.repay.toNat x.accounts.sssDecimals * (10000 + (liquidationParams cc).2.toNat) *
      10 ^ x.accounts.collateralDecimals.toNat * 10 ^ x.price.expoAbs <
        x.price.price.toU128 * 10000000000
  | .cdpLiquidateV2 cc =>
    debtE6 x.repay.toNat x.accounts.sssDecimals * (10000 + cc.liquidationBonusBps.toNat) / 10000 *
      10 ^ x.accounts.collateralDecimals.toNat * 10 ^ x.price.expoAbs <
        x.price.price.toU128 * 1000000

end Liquidation

/-! ## What remains -/

theorem checkRemaining_ok {collateral debt : UInt64} {e : SssError} {u : Unit}
    (h : checkRemaining l price collateral debt t e = .ok u) (hdebt : 0 < debt) :
    0 < debtE6 debt.toNat l.sssDecimals ∧
      ¬Under 10000 t (valueE6 collateral price l.collateralDecimals)
        (debtE6 debt.toNat l.sssDecimals) := by
  simp only [checkRemaining, requireWhen_eq_ok, bind_eq_ok, collateralValueUsdE6_eq_ok,
    debtUsdE6_eq_ok, ratioBps_eq_ok, require_eq_ok] at h
  obtain ⟨_, ⟨-, rfl⟩, _, ⟨-, rfl⟩, _, ⟨-, hpos, rfl⟩, hratio⟩ := h hdebt
  exact ⟨hpos, fun hunder => absurd ((div_lt_iff hpos).mpr hunder) hratio.not_gt⟩

/-- A part of the debt is burned, and the collateral that is left covers the rest. -/
structure Remains (l : LiquidationAccounts) (price : OraclePrice) (burned seized : UInt64)
    (t : Nat) : Prop where
  partly : burned.toNat < l.debt
  rest_pos : 0 < debtE6 (l.debt - burned.toNat) l.sssDecimals
  covered : ¬Under 10000 t
    (valueE6 (l.vault.depositedAmount.saturatingSub seized) price l.collateralDecimals)
    (debtE6 (l.debt - burned.toNat) l.sssDecimals)

/-- So something is left, and it has a price. -/
theorem Remains.value_pos (h : Remains l price burned seized t) (ht : 0 < t) :
    0 < valueE6 (l.vault.depositedAmount.saturatingSub seized) price l.collateralDecimals := by
  by_contra hzero
  apply h.covered
  rw [Nat.eq_zero_of_not_pos hzero, Under, Nat.mul_zero]
  exact Nat.mul_pos ht h.rest_pos

theorem Remains.seized_lt (h : Remains l price burned seized t) (ht : 0 < t) :
    seized < l.vault.depositedAmount := by
  have hpos := h.value_pos ht
  by_contra hge
  rw [UInt64.lt_iff_toNat_lt, not_lt] at hge
  have hnothing : (l.vault.depositedAmount.saturatingSub seized).toNat = 0 := by
    rw [UInt64.toNat_saturatingSub]
    omega
  rw [valueE6, hnothing, Nat.zero_mul, Nat.zero_mul, Nat.zero_div, Nat.zero_div] at hpos
  exact hpos.false

theorem Remains.price_ne_zero (h : Remains l price burned seized t) (ht : 0 < t) :
    price.price.toU128 ≠ 0 := by
  intro hzero
  have hpos := h.value_pos ht
  rw [valueE6, hzero, Nat.mul_zero, Nat.zero_mul, Nat.zero_div, Nat.zero_div] at hpos
  exact hpos.false

/-- The same accounts once the debt has fallen and the collateral has been seized. -/
theorem Remains.not_liquidatable {p : CdpPosition} {v : CollateralVault} {t' : Nat}
    (h : Remains l price burned seized t) (ht : t' ≤ t)
    (hdebt : p.debtAmount.toNat + p.accruedFees.toNat = l.debt - burned.toNat)
    (hv : v.depositedAmount = l.vault.depositedAmount.saturatingSub seized) :
    (checkLiquidatable { l with position := p, vault := v } price t').isOk = false := by
  rw [Bool.eq_false_iff, Ne, checkLiquidatable_isOk]
  rintro ⟨-, -, hunder⟩
  rw [LiquidationAccounts.value, LiquidationAccounts.debtValue, LiquidationAccounts.debt, hdebt,
    hv] at hunder
  exact h.covered (hunder.mono ht le_rfl le_rfl)

theorem seizePartial_remains {e : UInt16}
    (h : seizePartial l price repay t e = .ok (burned, seized))
    (hless : repay < l.position.debtAmount) :
    burned = repay ∧ Remains l price burned seized t := by
  simp only [seizePartial, bind_eq_ok, pure_eq_ok, Prod.mk.injEq, Option.okOr_eq_ok,
    UInt64.checkedAdd_eq_some] at h
  obtain ⟨_, -, _, -, _, -, _, -, _, -, _, -, _, -, rest, hrest, _, hcheck, rfl, rfl⟩ := h
  have hlt := UInt64.lt_iff_toNat_lt.mp hless
  rw [UInt64.toNat_saturatingSub] at hrest
  have hdebt : l.debt - repay.toNat = rest.toNat := by
    rw [LiquidationAccounts.debt]
    omega
  have hpos : 0 < rest := by
    rw [UInt64.lt_iff_toNat_lt, UInt64.toNat_zero]
    omega
  obtain ⟨hrest, hcovered⟩ := checkRemaining_ok hcheck hpos
  rw [← hdebt] at hrest hcovered
  refine ⟨rfl, ?_, hrest, hcovered⟩
  rw [LiquidationAccounts.debt]
  omega

/-! ## What is seized for it -/

namespace Liquidation

/-- What is due for what is repaid, in dollars. -/
def due (x : Liquidation) : ℚ :=
  x.repay.toNat / 10 ^ x.accounts.sssDecimals.toNat * (1 + x.engine.bonusBps.toNat / 10000)

/-- The same once the repaid amount is rounded to millionths of a dollar. -/
def roundedDue (x : Liquidation) : ℚ :=
  debtE6 x.repay.toNat x.accounts.sssDecimals * (10000 + x.engine.bonusBps.toNat) / 10000000000

/-- The dollars that the engine turns into collateral; the second version rounds them once more. -/
def spent (x : Liquidation) : ℚ :=
  match x.engine with
  | .cdpLiquidate _ => x.roundedDue
  | .cdpLiquidateV2 cc =>
    (debtE6 x.repay.toNat x.accounts.sssDecimals * (10000 + cc.liquidationBonusBps.toNat) / 10000 :
      ℕ) / 1000000

theorem roundedDue_le (x : Liquidation) : x.roundedDue ≤ x.due := by
  have hle : (debtE6 x.repay.toNat x.accounts.sssDecimals : ℚ) ≤
      x.repay.toNat / 10 ^ x.accounts.sssDecimals.toNat * 1000000 := by
    rw [debtE6]
    refine Nat.cast_div_le.trans_eq ?_
    push_cast
    ring
  calc x.roundedDue
      = debtE6 x.repay.toNat x.accounts.sssDecimals *
          ((10000 + x.engine.bonusBps.toNat) / 10000000000) := mul_div_assoc ..
    _ ≤ x.repay.toNat / 10 ^ x.accounts.sssDecimals.toNat * 1000000 *
          ((10000 + x.engine.bonusBps.toNat) / 10000000000) :=
        mul_le_mul_of_nonneg_right hle (by positivity)
    _ = x.due := by
        rw [due]
        ring

theorem due_lt (x : Liquidation) (h : 0 < x.roundedDue) : x.due < 2 * x.roundedDue := by
  have hpos : 0 < debtE6 x.repay.toNat x.accounts.sssDecimals := by
    rw [Nat.pos_iff_ne_zero]
    intro hzero
    rw [roundedDue, hzero, Nat.cast_zero, zero_mul, zero_div] at h
    exact h.false
  have hlt : (x.repay.toNat / 10 ^ x.accounts.sssDecimals.toNat * 1000000 : ℚ) <
      2 * debtE6 x.repay.toNat x.accounts.sssDecimals := by
    have hnat : x.repay.toNat * 1000000 < 2 * (debtE6 x.repay.toNat x.accounts.sssDecimals *
        10 ^ x.accounts.sssDecimals.toNat) := Scaling.lt_two_mul_div hpos
    rw [div_mul_eq_mul_div, div_lt_iff₀ (by positivity), mul_assoc]
    exact_mod_cast hnat
  calc x.due
      = x.repay.toNat / 10 ^ x.accounts.sssDecimals.toNat * 1000000 *
          ((10000 + x.engine.bonusBps.toNat) / 10000000000) := by
        rw [due]
        ring
    _ < 2 * debtE6 x.repay.toNat x.accounts.sssDecimals *
          ((10000 + x.engine.bonusBps.toNat) / 10000000000) :=
        mul_lt_mul_of_pos_right hlt (by positivity)
    _ = 2 * x.roundedDue := by
        rw [roundedDue]
        ring

theorem spent_bounds (x : Liquidation) :
    0 ≤ x.spent ∧ x.spent ≤ x.roundedDue ∧ (0 < x.spent → x.roundedDue < 2 * x.spent) := by
  cases hx : x.engine with
  | cdpLiquidate cc =>
    have hspent : x.spent = x.roundedDue := by simp only [spent, hx]
    have hnonneg : 0 ≤ x.roundedDue := by
      unfold roundedDue
      positivity
    rw [hspent]
    exact ⟨hnonneg, le_rfl, fun hpos => by linarith⟩
  | cdpLiquidateV2 cc =>
    have hrounded : x.roundedDue = (debtE6 x.repay.toNat x.accounts.sssDecimals *
        (10000 + cc.liquidationBonusBps.toNat) : ℕ) / (10000 : ℕ) / 1000000 := by
      simp only [roundedDue, hx, Engine.bonusBps]
      push_cast
      ring
    simp only [spent, hx, hrounded]
    generalize debtE6 x.repay.toNat x.accounts.sssDecimals *
      (10000 + cc.liquidationBonusBps.toNat) = m
    refine ⟨by positivity, by gcongr; exact Nat.cast_div_le, fun hpos => ?_⟩
    have hpos : 0 < m / 10000 := by
      rw [Nat.pos_iff_ne_zero]
      intro hzero
      rw [hzero, Nat.cast_zero, zero_div] at hpos
      exact hpos.false
    have hlt : (m : ℚ) < 2 * ((m / 10000 : ℕ) * 10000) := by
      exact_mod_cast Scaling.lt_two_mul_div hpos
    rw [← mul_div_assoc, div_lt_div_iff_of_pos_right (by norm_num), div_lt_iff₀ (by norm_num)]
    push_cast
    linarith

/-- What is bought for that, as one quotient, which is nothing for dust. -/
theorem worth_eq (x : Liquidation) : ∃ m d : ℕ, 0 < d ∧
    x.spent * ((10 ^ x.accounts.collateralDecimals.toNat : ℕ) * (10 : ℕ) ^ x.price.expoAbs) =
      (m / d : ℚ) ∧
    x.engine.worth x.accounts x.price x.repay.toNat x.engine.bonusBps =
      m / (x.price.price.toU128 * d) ∧
    (x.Dust ↔ m < x.price.price.toU128 * d) := by
  cases hx : x.engine with
  | cdpLiquidate cc =>
    refine ⟨debtE6 x.repay.toNat x.accounts.sssDecimals * (10000 + (liquidationParams cc).2.toNat) *
      10 ^ x.accounts.collateralDecimals.toNat * 10 ^ x.price.expoAbs, 10000000000, by decide, ?_,
      ?_, by simp only [Dust, hx]⟩
    · simp only [spent, roundedDue, hx, Engine.bonusBps]
      push_cast
      ring
    · simp only [Engine.worth, Engine.bonusBps, LiquidationAccounts.collateralFor,
        Nat.div_div_eq_div_mul]
      rw [Nat.mul_assoc _ 1000000]
  | cdpLiquidateV2 cc =>
    refine ⟨debtE6 x.repay.toNat x.accounts.sssDecimals * (10000 + cc.liquidationBonusBps.toNat) /
      10000 * 10 ^ x.accounts.collateralDecimals.toNat * 10 ^ x.price.expoAbs, 1000000, by decide,
      ?_, ?_, by simp only [Dust, hx]⟩
    · simp only [spent, hx]
      push_cast
      ring
    · simp only [Engine.worth, Engine.bonusBps, LiquidationAccounts.collateralFor]
      rw [Nat.div_div_eq_div_mul (_ * _)]

/-- What is seized is worth no more than what is due, unless the sign of the exponent is lost on
more than dust. -/
theorem value_le_iff (x : Liquidation) (hprice : x.price.price.toU128 ≠ 0)
    (hsign : 0 ≤ x.price.price.toInt)
    (hseized : seized.toNat = x.engine.worth x.accounts x.price x.repay.toNat x.engine.bonusBps) :
    x.price.usd seized x.accounts.collateralDecimals ≤ x.due ↔
      x.price.expo.toInt ≤ 0 ∨ x.Dust := by
  obtain ⟨m, d, hd, hm, hworth, hdust⟩ := x.worth_eq
  obtain ⟨hnonneg, hrounded, hspent⟩ := x.spent_bounds
  obtain ⟨hbought, hnext⟩ := Scaling.div_mul_bounds (K := ℚ) (m := m) (p := x.price.price.toU128) hd
  have hzero : seized.toNat = 0 ↔ x.Dust := by
    rw [hseized, hworth, hdust]
    exact Nat.div_eq_zero_iff_lt (Nat.mul_pos (Nat.pos_of_ne_zero hprice) hd)
  rw [← hm, ← hworth, ← hseized] at hbought hnext
  rw [← hzero]
  have husd : x.price.usd seized x.accounts.collateralDecimals =
      seized.toNat * x.price.price.toU128 * ((10 : ℕ) : ℚ) ^ x.price.expo.toInt /
        (10 ^ x.accounts.collateralDecimals.toNat : ℕ) := by
    have hcast : ((x.price.price.toU128 : ℕ) : ℚ) = x.price.price.toInt := by
      exact_mod_cast toU128_of_nonneg hsign
    rw [OraclePrice.usd, hcast]
    push_cast
    ring
  rw [husd]
  refine Scaling.bought_le_iff (by decide) (Nat.pow_pos (by decide)) hnonneg hbought hnext
    (hrounded.trans x.roundedDue_le) fun hpos => ?_
  have hspent_pos : 0 < x.spent := by
    have hbuys : (0 : ℚ) < seized.toNat * x.price.price.toU128 :=
      mul_pos (Nat.cast_pos.mpr hpos) (Nat.cast_pos.mpr (Nat.pos_of_ne_zero hprice))
    exact pos_of_mul_pos_left (hbuys.trans_le hbought) (by positivity)
  have hrounded_pos := hspent_pos.trans_le hrounded
  linarith [hspent hspent_pos, x.due_lt hrounded_pos]

end Liquidation

/-! ## What becomes of the debt -/

theorem CdpPosition.afterLiquidation_debt {p : CdpPosition} (hless : burned < p.debtAmount) :
    (p.afterLiquidation burned).debtAmount.toNat + (p.afterLiquidation burned).accruedFees.toNat +
      burned.toNat = p.debtAmount.toNat + p.accruedFees.toNat := by
  have hlt := UInt64.lt_iff_toNat_lt.mp hless
  have hrest : (p.debtAmount.saturatingSub burned).toNat = p.debtAmount.toNat - burned.toNat :=
    UInt64.toNat_saturatingSub ..
  have hne : p.debtAmount.saturatingSub burned ≠ 0 := by
    intro hzero
    rw [hzero, UInt64.toNat_zero] at hrest
    omega
  simp only [CdpPosition.afterLiquidation, if_neg hne, hrest]
  omega

/-- A repayment of the principal clears what is left of the fees. -/
theorem CdpPosition.afterLiquidationV2_debt_iff {p : CdpPosition}
    (hpart : burned.toNat < p.debtAmount.toNat + p.accruedFees.toNat) :
    (p.afterLiquidationV2 burned).debtAmount.toNat +
        (p.afterLiquidationV2 burned).accruedFees.toNat + burned.toNat =
      p.debtAmount.toNat + p.accruedFees.toNat ↔ burned < p.debtAmount := by
  by_cases hless : burned < p.debtAmount
  · have hsame : p.afterLiquidationV2 burned = p.afterLiquidation burned :=
      if_neg (UInt64.not_le.mpr hless)
    rw [hsame]
    exact iff_of_true (afterLiquidation_debt hless) hless
  · rw [CdpPosition.afterLiquidationV2, if_pos (UInt64.not_lt.mp hless)]
    refine iff_of_false (fun h => ?_) hless
    rw [UInt64.toNat_zero] at h
    omega

/-! ## A partial liquidation -/

/-- What both engines make of a position of which a part is repaid. -/
structure Liquidation.Partly (x : Liquidation) (s' : State) (burned seized : UInt64)
    (p : CdpPosition) (v : CollateralVault) (t : Nat) : Prop where
  burned_eq : burned = x.repay
  taken : seized.toNat = min (x.engine.worth x.accounts x.price x.repay.toNat x.engine.bonusBps)
    x.accounts.vault.depositedAmount.toNat
  priced : x.accounts.Priced x.price
  remains : Remains x.accounts x.price burned seized t
  threshold_le : x.engine.threshold ≤ t
  threshold_pos : 0 < t
  position : s'.cdpPositions (.cdpPosition x.sssMint x.cdpOwner) = some p
  debt_iff : p.debtAmount.toNat + p.accruedFees.toNat + burned.toNat = x.accounts.debt ↔
    burned < x.accounts.position.debtAmount
  vault : s'.collateralVaults (.collateralVault x.sssMint x.cdpOwner x.collateralMint) = some v
  left : v.depositedAmount = x.accounts.vault.depositedAmount.saturatingSub seized

theorem Liquidation.Partly.heals_iff {x : Liquidation} {p : CdpPosition} {v : CollateralVault}
    (h : x.Partly s' burned seized p v t) : x.Heals s' burned seized ↔
      x.repay < x.accounts.position.debtAmount ∧ (x.price.expo.toInt ≤ 0 ∨ x.Dust) := by
  have hin : x.accountsIn s' = { x.accounts with position := p, vault := v } := by
    rw [Liquidation.accountsIn, h.position, h.vault, Option.getD_some, Option.getD_some]
  have hlt := h.remains.seized_lt h.threshold_pos
  have hseized : seized.toNat =
      x.engine.worth x.accounts x.price x.repay.toNat x.engine.bonusBps := by
    have htaken := h.taken
    have hlt := UInt64.lt_iff_toNat_lt.mp hlt
    omega
  have hvalue := x.value_le_iff (h.remains.price_ne_zero h.threshold_pos)
    (h.priced.fits.price_nonneg h.priced.deposited) hseized
  have hdebt := h.debt_iff
  rw [h.burned_eq] at hdebt
  constructor
  · intro hheals
    have hsum := hheals.debt
    rw [hin, h.burned_eq] at hsum
    refine ⟨hdebt.mp hsum, hvalue.mp ?_⟩
    have hvalue := hheals.value_le
    rwa [h.burned_eq] at hvalue
  · rintro ⟨hless, hclean⟩
    have hsum := hdebt.mpr hless
    rw [← h.burned_eq] at hsum
    refine ⟨?_, ?_, UInt64.le_of_lt hlt, ?_⟩
    · rw [hin]
      exact h.remains.not_liquidatable h.threshold_le (Nat.eq_sub_of_add_eq hsum) h.left
    · rw [hin]
      exact hsum
    · rw [h.burned_eq]
      exact hvalue.mpr hclean

theorem Settles.partly {cc : Option CollateralConfig} {debt : UInt64}
    (hsettles : Settles l cc price debt repay burned seized)
    (hdebt : checkLiquidatable l price (liquidationParams cc).1 = .ok debt)
    (hliq : Liquidated rt s a s' l.config l.position (l.position.afterLiquidation burned) l.vault
      burned seized) (hpart : 0 < repay ∧ repay < l.position.debtAmount) :
    Liquidation.Partly
      { engine := .cdpLiquidate cc, accounts := l, price, repay, sssMint := a.sssMint
        cdpOwner := a.cdpOwner, collateralMint := a.collateralMint } s' burned seized
      (l.position.afterLiquidation burned)
      { l.vault with depositedAmount := l.vault.depositedAmount.saturatingSub seized }
      (liquidationParams cc).1 := by
  obtain ⟨hpriced, -, hunder⟩ := checkLiquidatable_isOk.mp (isOk_iff.mpr ⟨_, hdebt⟩)
  rcases hsettles with ⟨-, hseize⟩ | ⟨hnot, -⟩
  · obtain ⟨rfl, hremains⟩ := seizePartial_remains hseize hpart.2
    exact
      { burned_eq := rfl
        taken := seizePartial_ok hseize
        priced := hpriced
        remains := hremains
        threshold_le := le_rfl
        threshold_pos := Nat.pos_of_ne_zero fun hzero => by
          rw [hzero, Under, Nat.zero_mul] at hunder
          exact Nat.not_lt_zero _ hunder
        position := by rw [hliq.positions, put_self]
        debt_iff := iff_of_true (CdpPosition.afterLiquidation_debt hpart.2) hpart.2
        vault := by rw [hliq.vaults, put_self]
        left := rfl }
  · exact absurd hpart hnot

theorem SettlesV2.partly {cc : CollateralConfig} {debt : UInt64}
    (hsettles : SettlesV2 l cc price debt repay burned seized)
    (hthreshold : cc.liquidationThresholdBps.toNat ≤ CdpPosition.minCollateralRatioBps)
    (hdebt : checkLiquidatable l price cc.liquidationThresholdBps.toNat = .ok debt)
    (hcheck : burned < debt → checkRemaining l price (l.vault.depositedAmount.saturatingSub seized)
      (debt.saturatingSub burned) CdpPosition.minCollateralRatioBps .collateralRatioTooLow = .ok ())
    (hliq : Liquidated rt s a s' l.config l.position (l.position.afterLiquidationV2 burned) l.vault
      burned seized) (hpart : 0 < repay ∧ repay.toNat < l.debt) :
    Liquidation.Partly
      { engine := .cdpLiquidateV2 cc, accounts := l, price, repay, sssMint := a.sssMint
        cdpOwner := a.cdpOwner, collateralMint := a.collateralMint } s' burned seized
      (l.position.afterLiquidationV2 burned)
      { l.vault with depositedAmount := l.vault.depositedAmount.saturatingSub seized }
      CdpPosition.minCollateralRatioBps := by
  obtain ⟨hpriced, -, -⟩ := checkLiquidatable_isOk.mp (isOk_iff.mpr ⟨_, hdebt⟩)
  have htotal := checkLiquidatable_debt hdebt
  obtain ⟨hburned, hseize⟩ := hsettles
  have hless : repay < debt := UInt64.lt_iff_toNat_lt.mpr (htotal ▸ hpart.2)
  rw [if_neg (not_or.mpr ⟨(UInt64.pos_iff_ne_zero.mp hpart.1), UInt64.not_le.mpr hless⟩)]
    at hburned
  subst hburned
  have hrest : (debt.saturatingSub repay).toNat = l.debt - repay.toNat := by
    rw [UInt64.toNat_saturatingSub, htotal]
  obtain ⟨hpos, hcovered⟩ := checkRemaining_ok (hcheck hless) (by
    rw [UInt64.lt_iff_toNat_lt, hrest, UInt64.toNat_zero]
    omega)
  rw [hrest] at hpos hcovered
  have htaken := seizeV2_ok hseize
  rw [if_pos hless] at htaken
  exact
    { burned_eq := rfl
      taken := htaken
      priced := hpriced
      remains := ⟨hpart.2, hpos, hcovered⟩
      threshold_le := hthreshold
      threshold_pos := by decide
      position := by rw [hliq.positions, put_self]
      debt_iff := CdpPosition.afterLiquidationV2_debt_iff hpart.2
      vault := by rw [hliq.vaults, put_self]
      left := rfl }

/-- A partial liquidation that goes through heals the position just when some principal is left,
and the exponent of the price is not positive or what is repaid is dust. -/
theorem partial_liquidation {as : List Action} {x : Liquidation}
    (hfree : s.collateralConfigs (.collateralConfig a.sssMint a.collateralMint) = none)
    (hi : i = .cdpLiquidate a least repay ∨ i = .cdpLiquidateV2 a repay least)
    (hx : i.liquidation rt clock (run rt s as) = some x) (hpart : x.whole = false)
    (h : i.exec rt clock (run rt s as) = .ok s') :
    ∃ burned seized, a.Moves rt (run rt s as) burned seized s' ∧
      (x.Heals s' burned seized ↔
        x.repay < x.accounts.position.debtAmount ∧ (x.price.expo.toInt ≤ 0 ∨ x.Dust)) := by
  rcases hi with rfl | rfl
  · obtain ⟨l, cc, price, debt, burned, seized, hopens, hdebt, hsettles, -, hcloses⟩ :=
      cdpLiquidateHandler_eq_ok.mp h
    have hliq := hopens.liquidated hsettles hcloses
    cases hx.symm.trans (congrArg Except.toOption (hopens.liquidation repay))
    simp only [Liquidation.whole, Engine.whole, Bool.not_eq_false', decide_eq_true_eq] at hpart
    exact ⟨burned, seized, hliq.tokens, (hsettles.partly hdebt hliq hpart).heals_iff⟩
  · obtain ⟨l, cc, price, debt, burned, seized, hopens, hdebt, hsettles, hcheck, -, hcloses⟩ :=
      cdpLiquidateV2Handler_eq_ok.mp h
    have hliq := hopens.liquidated hsettles hcloses
    cases hx.symm.trans (congrArg Except.toOption (hopens.liquidation repay))
    simp only [Liquidation.whole, Engine.whole, Bool.or_eq_false_iff, decide_eq_false_iff_not]
      at hpart
    have hcc := CdpLiquidate.loadCollateralConfig_ok hopens.collateralConfig cc rfl
    have hthreshold := CollateralConfig.threshold_le (validConfig_run as hfree cc hcc)
    exact ⟨burned, seized, hliq.tokens, (hsettles.partly (hthreshold.trans (by decide)) hdebt hcheck
      hliq ⟨UInt64.pos_iff_ne_zero.mpr hpart.1, not_le.mp hpart.2⟩).heals_iff⟩

open Market in
/-- Half of the debt is repaid at a price in cents. -/
theorem partial_liquidation_half : Genesis genesis ∧ ∃ x s' burned seized,
    liquidateHalf.liquidation localRuntime (day 0) (graduated 500) = some x ∧ x.whole = false ∧
    liquidateHalf.exec localRuntime (day 0) (graduated 500) = .ok s' ∧
    (liquidateUser false).Moves localRuntime (graduated 500) burned seized s' ∧
    x.Heals s' burned seized := by
  obtain ⟨s', h⟩ : ∃ s', liquidateHalf.exec localRuntime (day 0) (graduated 500) = .ok s' :=
    isOk_iff.mp (by decide +kernel)
  obtain ⟨x, hx, heq⟩ := Option.map_eq_some_iff.mp (show
    (liquidateHalf.liquidation localRuntime (day 0) (graduated 500)).map (fun x => (x.whole,
      decide (x.repay < x.accounts.position.debtAmount), decide (x.price.expo.toInt ≤ 0))) =
        some (false, true, true) by decide +kernel)
  simp only [Prod.mk.injEq, decide_eq_true_eq] at heq
  obtain ⟨hpart, hless, hexpo⟩ := heq
  obtain ⟨burned, seized, hmoves, hiff⟩ :=
    partial_liquidation (s := genesis) rfl (.inl rfl) hx hpart h
  exact ⟨genesis_genesis, x, s', burned, seized, hx, hpart, h, hmoves, hiff.mpr ⟨hless, .inl hexpo⟩⟩

namespace Market

/-- 130 are borrowed against 300 of gold at 70 dollars, that the engines take for 70 cents, and the
price falls to 50. -/
def mispriced : State :=
  run localRuntime genesis <| coarse 1 ++
    [ .call (day 2) (.updateCustomPrice asAuthority 7 1 0),
      .call (day 2) (.cdpBorrowStable borrowScaled 130),
      .call (day 2) (.updateCustomPrice asAuthority 5 1 0) ]

def liquidateMispriced : CdpLiquidate :=
  { liquidateUser false with pythPriceFeed := .customPriceFeed mint.key }

/-- The user owes 2 and a fee of 1 against a single unit of gold, whose price falls to 2.9. -/
def owing : State :=
  run localRuntime genesis <| opening 1000 ++
    [ .call (day 0) (.registerCollateral
        { authority, sssMint := mint.key, collateralMint := gold.key }
        { whitelisted := true, maxLtvBps := 5000, liquidationThresholdBps := 9000
          liquidationBonusBps := 500, maxDepositCap := 0 }),
      .world (.createAccount goldAccount gold.key goldVault),
      .call (day 0) (.cdpDepositCollateral { depositPlain with collateralConfig := true } 1) ] ++
    timelocked adminOpSetStabilityFee 2000 1 ++
    [ publish 5 3, borrow 1 3, publish 5 1828, borrow 1 1828,
      .world (.publishPythPrice feed
        { price := 29, conf := 0, expo := -1, publishTime := (day 1828).unixTimestamp }) ]

end Market

open Market in
/-- For 80 millionths of a dollar a liquidator gets 168 of the gold at 50 dollars; and the second
version forgives the fee of a position whose principal is repaid. -/
theorem partial_liquidation_unhealed : Genesis genesis ∧
    (∃ s', cdpLiquidateHandler localRuntime (day 2) mispriced liquidateMispriced 0 80 = .ok s' ∧
      mispriced.deposits mint.key gold.key user.key = 300 ∧
      s'.deposits mint.key gold.key user.key = 132) ∧
    (liquidateMispriced.readPrice localRuntime (day 2) mispriced).toOption =
      some { price := 5, conf := 0, expo := 1 } ∧
    80 / 10 ^ 6 * (1 + 500 / 10000) < OraclePrice.usd { price := 5, conf := 0, expo := 1 } 168 6 ∧
    (owing.cdpPositions (.cdpPosition mint.key user.key)).map
      (fun p => (p.debtAmount, p.accruedFees)) = some (2, 1) ∧
    ∃ s', cdpLiquidateV2Handler localRuntime (day 1828) owing (liquidateUser false) 2 0 = .ok s' ∧
      (s'.cdpPositions (.cdpPosition mint.key user.key)).map
        (fun p => (p.debtAmount, p.accruedFees)) = some (0, 0) := by
  refine ⟨genesis_genesis, ?_, by decide +kernel, ?_, by decide +kernel, ?_⟩
  · obtain ⟨s', hs', hleft⟩ := toOption_map_eq_some.mp (show
      ((cdpLiquidateHandler localRuntime (day 2) mispriced liquidateMispriced 0 80).map
        (fun s' => s'.deposits mint.key gold.key user.key)).toOption = some 132 by decide +kernel)
    exact ⟨s', hs', by decide +kernel, hleft⟩
  · change (80 / 10 ^ 6 * (1 + 500 / 10000) : ℚ) <
      ((168 : ℕ) : ℚ) / 10 ^ 6 * (((5 : ℤ) : ℚ) * 10 ^ (1 : ℤ))
    norm_num
  · exact toOption_map_eq_some.mp (show
      ((cdpLiquidateV2Handler localRuntime (day 1828) owing (liquidateUser false) 2 0).map
        (fun s' => (s'.cdpPositions (.cdpPosition mint.key user.key)).map
          fun p => (p.debtAmount, p.accruedFees))).toOption = some (some (0, 0)) by decide +kernel)

end SolanaStablecoin
