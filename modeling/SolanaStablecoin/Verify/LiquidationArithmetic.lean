import Mathlib.Data.Nat.Cast.Field
import SolanaStablecoin.Verify.LiquidationVersions

/-! When the arithmetic of a full liquidation goes through. The value of the collateral, the debt
and their ratio are computed in 128 bits and rounded down on the way, so that a position that is bad
may be too small, too large or too finely divided to be liquidated. -/

namespace SolanaStablecoin

open Ratio

variable {rt : Runtime} {clock : Clock} {s s' : State} {a : CdpLiquidate} {i : Instruction}
  {x : Liquidation} {cc : Option CollateralConfig} {l : LiquidationAccounts} {price : OraclePrice}
  {least repay : UInt64}

/-! ## A bad position -/

namespace Liquidation

/-- Something is owed, and the collateral is worth less than the threshold, exactly. -/
structure Bad (x : Liquidation) : Prop where
  owed : 0 < x.accounts.debt
  price_pos : 0 < x.price.price.toInt
  under : x.price.usd x.accounts.vault.depositedAmount x.accounts.collateralDecimals * 10000 <
    x.engine.threshold * (x.accounts.debt / 10 ^ x.accounts.sssDecimals.toNat)

/-- The collateral config that is written. -/
def config (x : Liquidation) : Option CollateralConfig :=
  match x.engine with
  | .cdpLiquidate cc => cc
  | .cdpLiquidateV2 cc => some cc

/-- There is collateral, all products, powers, sums and differences are in range, and the debt in
millionths of a dollar is not rounded down too far, which it never is with up to six decimals. -/
structure InRange (x : Liquidation) : Prop where
  priced : x.accounts.Priced x.price
  debt : x.accounts.debt < 2 ^ 64
  rounding : x.accounts.sssDecimals.toNat ≤ 6 ∨
    Under 10000 x.engine.threshold (x.accounts.value x.price) x.accounts.debtValue
  seizure : ∀ cc, x.engine = .cdpLiquidateV2 cc → x.accounts.SeizureFits x.price cc
  total : ∀ cc, x.config = some cc → x.accounts.vault.depositedAmount ≤ cc.totalDeposited
  burned : x.accounts.config.totalBurned.toNat + x.accounts.debt < 2 ^ 64

/-- Up to six decimals the debt is converted without a loss, and a bad position is seen as one. -/
theorem Bad.under_iff (h : x.Bad) :
    Under 10000 x.engine.threshold (x.accounts.value x.price) x.accounts.debtValue ↔
      x.accounts.sssDecimals.toNat ≤ 6 ∨
        Under 10000 x.engine.threshold (x.accounts.value x.price) x.accounts.debtValue := by
  refine ⟨.inr, fun hsmall => hsmall.elim (fun hdecimals => ?_) id⟩
  have hvalue := valueE6_le_usd x.accounts.vault.depositedAmount x.accounts.collateralDecimals
    h.price_pos.le
  have hdebt : (x.accounts.debtValue : ℚ) =
      x.accounts.debt / 10 ^ x.accounts.sssDecimals.toNat * 1000000 := by
    have hdvd : 10 ^ x.accounts.sssDecimals.toNat ∣ x.accounts.debt * 1000000 :=
      Dvd.dvd.mul_left (pow_dvd_pow 10 hdecimals) _
    rw [LiquidationAccounts.debtValue, debtE6, Nat.cast_div hdvd (by positivity)]
    push_cast
    ring
  have hlt : (10000 * x.accounts.value x.price : ℚ) <
      x.engine.threshold * x.accounts.debtValue :=
    calc (10000 * x.accounts.value x.price : ℚ)
        ≤ 10000 * (x.price.usd x.accounts.vault.depositedAmount x.accounts.collateralDecimals *
            1000000) := mul_le_mul_of_nonneg_left hvalue (by norm_num)
      _ = x.price.usd x.accounts.vault.depositedAmount x.accounts.collateralDecimals * 10000 *
            1000000 := by ring
      _ < x.engine.threshold * (x.accounts.debt / 10 ^ x.accounts.sssDecimals.toNat) * 1000000 :=
          mul_lt_mul_of_pos_right h.under (by norm_num)
      _ = x.engine.threshold * x.accounts.debtValue := by
          rw [hdebt]
          ring
  exact_mod_cast hlt

end Liquidation

/-! ## Everything else is in order -/

/-- The liquidator can pay for all of the debt, and the collateral can be handed over. -/
def CdpLiquidate.Pays (a : CdpLiquidate) (rt : Runtime) (s : State) (l : LiquidationAccounts) :
    Prop :=
  ∀ debt : UInt64, debt.toNat = l.debt → ∃ t, a.settle rt s debt l.vault.depositedAmount = .ok t

/-- A full liquidation whose accounts, guards and price are accepted, by a liquidator who can pay
and asks for no more collateral than there is. -/
inductive FullLiquidation (rt : Runtime) (clock : Clock) (s : State) :
    Instruction → Liquidation → Prop where
  | cdpLiquidate {a : CdpLiquidate} {least repay : UInt64} {l : LiquidationAccounts}
    {cc : Option CollateralConfig} {price : OraclePrice} (opens : a.Opens rt clock s l cc price)
    (all : ¬(0 < repay ∧ repay < l.position.debtAmount)) (pays : a.Pays rt s l)
    (least_le : least ≤ l.vault.depositedAmount) :
    FullLiquidation rt clock s (.cdpLiquidate a least repay)
      { engine := .cdpLiquidate cc, accounts := l, price, repay, sssMint := a.sssMint
        cdpOwner := a.cdpOwner, collateralMint := a.collateralMint }
  | cdpLiquidateV2 {a : CdpLiquidate} {least repay : UInt64} {l : LiquidationAccounts}
    {cc : CollateralConfig} {price : OraclePrice} (opens : a.OpensV2 rt clock s l cc price)
    (all : repay = 0 ∨ l.debt ≤ repay.toNat) (pays : a.Pays rt s l)
    (least_le : least ≤ l.vault.depositedAmount) :
    FullLiquidation rt clock s (.cdpLiquidateV2 a repay least)
      { engine := .cdpLiquidateV2 cc, accounts := l, price, repay, sssMint := a.sssMint
        cdpOwner := a.cdpOwner, collateralMint := a.collateralMint }

theorem checkLiquidatable_eq_ok {debt : UInt64} {t : Nat} :
    checkLiquidatable l price t = .ok debt ↔
      l.Priced price ∧ Under 10000 t (l.value price) l.debtValue ∧ debt.toNat = l.debt := by
  constructor
  · intro h
    obtain ⟨hpriced, -, hunder⟩ := checkLiquidatable_isOk.mp (isOk_iff.mpr ⟨_, h⟩)
    exact ⟨hpriced, hunder, checkLiquidatable_debt h⟩
  · rintro ⟨hpriced, hunder, hdebt⟩
    have hlt := debt.toNat_lt
    obtain ⟨d, hd⟩ := isOk_iff.mp (checkLiquidatable_isOk.mpr ⟨hpriced, by omega, hunder⟩)
    rw [hd, Except.ok.injEq]
    exact UInt64.toNat.inj ((checkLiquidatable_debt hd).trans hdebt.symm)

theorem subDeposited_isOk {n : UInt64} :
    (∃ cc', CollateralConfig.subDeposited n cc = .ok cc') ↔
      ∀ c, cc = some c → n ≤ c.totalDeposited := by
  constructor
  · rintro ⟨cc', h⟩ c rfl
    simp only [CollateralConfig.subDeposited, bind_eq_ok, Option.okOr_eq_ok,
      UInt64.checkedSub_eq_some] at h
    obtain ⟨t, ht, -⟩ := h
    rw [UInt64.le_iff_toNat_le]
    omega
  · intro h
    cases cc with
    | none => exact ⟨none, rfl⟩
    | some c => exact CollateralConfig.subDeposited_of_le (h c rfl)

/-- What is left to do once the amounts are settled. -/
theorem closes_iff {p : CdpPosition} {debt : UInt64} (hdebt : debt.toNat = l.debt)
    (hpays : a.Pays rt s l) :
    (∃ s', a.Closes rt s l cc p debt l.vault.depositedAmount s') ↔
      (∀ c, cc = some c → l.vault.depositedAmount ≤ c.totalDeposited) ∧
        l.config.totalBurned.toNat + l.debt < 2 ^ 64 := by
  rw [← subDeposited_isOk, ← hdebt]
  constructor
  · rintro ⟨s', t, cc', c', -, hsub, hburned, -⟩
    obtain ⟨total, htotal, -⟩ := StablecoinConfig.addBurned_eq_ok.mp hburned
    have hlt := total.toNat_lt
    exact ⟨⟨cc', hsub⟩, by omega⟩
  · rintro ⟨⟨cc', hsub⟩, hfits⟩
    obtain ⟨t, ht⟩ := hpays debt hdebt
    exact ⟨_, t, cc', _, ht, hsub, StablecoinConfig.addBurned_eq_ok.mpr
      ⟨.ofNat (l.config.totalBurned.toNat + debt.toNat), UInt64.toNat_ofNat_of_lt' hfits, rfl⟩, rfl⟩

theorem CdpLiquidate.Opens.unique {l' : LiquidationAccounts} {cc' : Option CollateralConfig}
    {price' : OraclePrice} (h : a.Opens rt clock s l cc price)
    (h' : a.Opens rt clock s l' cc' price') : l' = l ∧ cc' = cc ∧ price' = price := by
  cases h.load.symm.trans h'.load
  cases h.collateralConfig.symm.trans h'.collateralConfig
  obtain ⟨oc, hoc, hprice⟩ := h.price
  obtain ⟨oc', hoc', hprice'⟩ := h'.price
  cases hoc.symm.trans hoc'
  cases hprice.symm.trans hprice'
  exact ⟨rfl, rfl, rfl⟩

/-! ## Where it goes through -/

theorem cdpLiquidate_completes (hopens : a.Opens rt clock s l cc price)
    (hall : ¬(0 < repay ∧ repay < l.position.debtAmount)) (hpays : a.Pays rt s l)
    (hleast : least ≤ l.vault.depositedAmount) :
    (∃ s', cdpLiquidateHandler rt clock s a least repay = .ok s') ↔
      l.Priced price ∧ l.debt < 2 ^ 64 ∧
        Under 10000 (liquidationParams cc).1 (l.value price) l.debtValue ∧
        (∀ c, cc = some c → l.vault.depositedAmount ≤ c.totalDeposited) ∧
        l.config.totalBurned.toNat + l.debt < 2 ^ 64 := by
  constructor
  · rintro ⟨s', h⟩
    obtain ⟨l', cc', price', debt, burned, seized, hopens', hdebt, hsettles, -, hcloses⟩ :=
      cdpLiquidateHandler_eq_ok.mp h
    obtain ⟨rfl, rfl, rfl⟩ := hopens.unique hopens'
    obtain ⟨hpriced, hunder, htotal⟩ := checkLiquidatable_eq_ok.mp hdebt
    obtain ⟨rfl, rfl⟩ := (hsettles.resolve_left fun hp => hall hp.1).2
    exact ⟨hpriced, by have := debt.toNat_lt; omega, hunder,
      (closes_iff htotal hpays).mp ⟨s', hcloses⟩⟩
  · rintro ⟨hpriced, hlt, hunder, hrest⟩
    have htotal : (UInt64.ofNat l.debt).toNat = l.debt := UInt64.toNat_ofNat_of_lt' hlt
    obtain ⟨s', hcloses⟩ := (closes_iff htotal hpays).mpr hrest
    exact ⟨s', cdpLiquidateHandler_eq_ok.mpr ⟨l, cc, price, _, _, _, hopens,
      checkLiquidatable_eq_ok.mpr ⟨hpriced, hunder, htotal⟩, .inr ⟨hall, rfl, rfl⟩,
      checkSlippage_eq_ok.mpr hleast, hcloses⟩⟩

theorem cdpLiquidateV2_completes {cc : CollateralConfig} (hopens : a.OpensV2 rt clock s l cc price)
    (hall : repay = 0 ∨ l.debt ≤ repay.toNat) (hpays : a.Pays rt s l)
    (hleast : least ≤ l.vault.depositedAmount) :
    (∃ s', cdpLiquidateV2Handler rt clock s a repay least = .ok s') ↔
      l.Priced price ∧ l.debt < 2 ^ 64 ∧
        Under 10000 cc.liquidationThresholdBps.toNat (l.value price) l.debtValue ∧
        l.SeizureFits price cc ∧ (∀ c, some cc = some c → l.vault.depositedAmount ≤
          c.totalDeposited) ∧
        l.config.totalBurned.toNat + l.debt < 2 ^ 64 := by
  have hpos := liquidateV2Price_pos hopens.price
  constructor
  · rintro ⟨s', h⟩
    obtain ⟨l', cc', price', debt, burned, seized, hopens', hdebt, ⟨hburned, hseize⟩, -, -,
      hcloses⟩ := cdpLiquidateV2Handler_eq_ok.mp h
    obtain ⟨rfl, rfl, rfl⟩ := hopens.unique hopens'
    obtain ⟨hpriced, hunder, htotal⟩ := checkLiquidatable_eq_ok.mp hdebt
    rw [← htotal, ← UInt64.le_iff_toNat_le] at hall
    rw [if_pos hall] at hburned
    subst hburned
    obtain ⟨hfits, rfl⟩ := (seizeV2_all hpriced hpos htotal).mp hseize
    exact ⟨hpriced, by have := debt.toNat_lt; omega, hunder, hfits,
      (closes_iff htotal hpays).mp ⟨s', hcloses⟩⟩
  · rintro ⟨hpriced, hlt, hunder, hfits, hrest⟩
    have htotal : (UInt64.ofNat l.debt).toNat = l.debt := UInt64.toNat_ofNat_of_lt' hlt
    obtain ⟨s', hcloses⟩ := (closes_iff htotal hpays).mpr hrest
    rw [← htotal, ← UInt64.le_iff_toNat_le] at hall
    exact ⟨s', cdpLiquidateV2Handler_eq_ok.mpr ⟨l, cc, price, _, _, _, hopens,
      checkLiquidatable_eq_ok.mpr ⟨hpriced, hunder, htotal⟩,
      ⟨if_pos hall, (seizeV2_all hpriced hpos htotal).mpr ⟨hfits, rfl⟩⟩,
      fun hless => absurd hless (UInt64.lt_irrefl _), checkSlippage_eq_ok.mpr hleast, hcloses⟩⟩

/-- A full liquidation of a bad position goes through just when the arithmetic is in range. -/
theorem full_liquidation_completes (h : FullLiquidation rt clock s i x) (hbad : x.Bad) :
    (i.exec rt clock s).isOk = true ↔ x.InRange := by
  have hunder := hbad.under_iff
  cases h with
  | @cdpLiquidate a least repay l cc price hopens hall hpays hleast =>
    refine (isOk_iff.trans (cdpLiquidate_completes hopens hall hpays hleast)).trans ?_
    constructor
    · rintro ⟨hpriced, hlt, hrounded, htotal, hburned⟩
      refine ⟨hpriced, hlt, hunder.mp hrounded, fun cc h => ?_, htotal, hburned⟩
      cases h
    · rintro ⟨hpriced, hlt, hrounding, -, htotal, hburned⟩
      exact ⟨hpriced, hlt, hunder.mpr hrounding, htotal, hburned⟩
  | @cdpLiquidateV2 a least repay l cc price hopens hall hpays hleast =>
    refine (isOk_iff.trans (cdpLiquidateV2_completes hopens hall hpays hleast)).trans ?_
    constructor
    · rintro ⟨hpriced, hlt, hrounded, hfits, htotal, hburned⟩
      refine ⟨hpriced, hlt, hunder.mp hrounded, fun cc h => ?_, htotal, hburned⟩
      cases h
      exact hfits
    · rintro ⟨hpriced, hlt, hrounding, hfits, htotal, hburned⟩
      exact ⟨hpriced, hlt, hunder.mpr hrounding, hfits cc rfl, htotal, hburned⟩

/-- What a liquidation that goes through was. -/
theorem fullLiquidation_of_ok {s' : State} (h : cdpLiquidateHandler rt clock s a 0 0 = .ok s') :
    ∃ x, (Instruction.cdpLiquidate a 0 0).liquidation rt clock s = some x ∧
      FullLiquidation rt clock s (.cdpLiquidate a 0 0) x := by
  obtain ⟨l, cc, price, debt, burned, seized, hopens, hdebt, hsettles, -, t, -, -, ht, -⟩ :=
    cdpLiquidateHandler_eq_ok.mp h
  have hall : ¬((0 : UInt64) < 0 ∧ (0 : UInt64) < l.position.debtAmount) :=
    fun hp => UInt64.lt_irrefl _ hp.1
  obtain ⟨rfl, rfl⟩ := (hsettles.resolve_left fun hp => hall hp.1).2
  refine ⟨_, congrArg Except.toOption (hopens.liquidation 0),
    .cdpLiquidate hopens hall (fun d hd => ?_) UInt64.zero_le⟩
  rw [UInt64.toNat.inj (hd.trans (checkLiquidatable_debt hdebt).symm)]
  exact ⟨t, ht⟩

open Market in
/-- A debt of 100 against 500 of gold at 23 cents is in range. -/
theorem full_liquidation_cents : Genesis genesis ∧ ∃ x,
    (Instruction.cdpLiquidate (liquidateUser false) 0 0).liquidation localRuntime (day 0)
      (graduated 500) = some x ∧ x.Bad ∧ x.InRange := by
  obtain ⟨s', h⟩ : ∃ s', cdpLiquidateHandler localRuntime (day 0) (graduated 500)
      (liquidateUser false) 0 0 = .ok s' := isOk_iff.mp (by decide +kernel)
  obtain ⟨x, hx, hfull⟩ := fullLiquidation_of_ok h
  obtain ⟨y, hy, heq⟩ := Option.map_eq_some_iff.mp (show
    ((Instruction.cdpLiquidate (liquidateUser false) 0 0).liquidation localRuntime (day 0)
      (graduated 500)).map (fun x => (x.accounts.debt, x.price, x.engine.threshold,
        x.accounts.vault.depositedAmount, x.accounts.collateralDecimals, x.accounts.sssDecimals)) =
      some (100, { price := 23, conf := 0, expo := -2 }, 12000, 500, 6, 6) by decide +kernel)
  cases hx.symm.trans hy
  simp only [Prod.mk.injEq] at heq
  obtain ⟨hdebt, hprice, hthreshold, hdeposit, hdecimals, hsss⟩ := heq
  have hbad : x.Bad := by
    refine ⟨by rw [hdebt]; decide, by rw [hprice]; decide, ?_⟩
    rw [hprice, hdeposit, hdecimals, hthreshold, hdebt, hsss]
    change (((500 : ℕ) : ℚ) / 10 ^ 6 * (((23 : ℤ) : ℚ) * 10 ^ (-2 : ℤ)) * 10000 : ℚ) <
      ((12000 : ℕ) : ℚ) * (((100 : ℕ) : ℚ) / 10 ^ 6)
    norm_num
  exact ⟨genesis_genesis, x, hx, hbad, (full_liquidation_completes hfull hbad).mp
    (isOk_iff.mpr ⟨s', h⟩)⟩

namespace Market

/-- The stablecoin has nine decimals. 500 are borrowed against 2 of gold, whose price falls from one
dollar to twenty cents. -/
def tiny : State :=
  run localRuntime genesis
    [ .world (.createMint gold (collateral authority)),
      .call (day 0) (.initializeStablecoin
        { payer := authority, mint, tokenProgram := token2022Id }
        { preset := 3, decimals := 9, collateralMint := some gold.key
          reserveVault := some reserve.key, maxSupply := some 1000
          adminTimelockDelay := some 216000, squadsMultisig := some authority.key }),
      .world (.createAccount userStable mint.key user.key),
      .call (day 0) (.thawAccount
        { complianceAuthority := authority, mint := mint.key
          targetTokenAccount := userStable.key }),
      .world (.createAccount userGold gold.key user.key),
      .world (.mintTo authority gold.key userGold.key 1000),
      .call (day 0) (.registerCollateral
        { authority, sssMint := mint.key, collateralMint := gold.key } listedParams),
      .world (.createAccount goldAccount gold.key goldVault),
      .call (day 0) (.cdpDepositCollateral { depositPlain with collateralConfig := true } 2),
      publish 1 0, borrow 500 0,
      .world (.publishPythPrice feed
        { price := 2, conf := 0, expo := -1, publishTime := (day 0).unixTimestamp }) ]

end Market

open Market in
/-- The debt of half a millionth of a dollar is rounded to nothing, by which the program divides. -/
theorem full_liquidation_panics : Genesis genesis ∧
    (∃ x, (Instruction.cdpLiquidateV2 (liquidateUser true) 0 0).liquidation localRuntime (day 0)
      tiny = some x ∧ x.Bad ∧ x.accounts.debtValue = 0) ∧
    ratioBps 0 0 = .error .panic ∧
    (cdpLiquidateHandler localRuntime (day 0) tiny (liquidateUser true) 0 0).isOk = false ∧
    (cdpLiquidateV2Handler localRuntime (day 0) tiny (liquidateUser true) 0 0).isOk = false := by
  refine ⟨genesis_genesis, ?_, rfl, by decide +kernel, by decide +kernel⟩
  obtain ⟨x, hx, heq⟩ := Option.map_eq_some_iff.mp (show
    ((Instruction.cdpLiquidateV2 (liquidateUser true) 0 0).liquidation localRuntime (day 0)
      tiny).map (fun x => (x.accounts.debt, x.price, x.engine.threshold,
        x.accounts.vault.depositedAmount, x.accounts.collateralDecimals, x.accounts.sssDecimals)) =
      some (500, { price := 2, conf := 0, expo := -1 }, 9000, 2, 6, 9) by decide +kernel)
  simp only [Prod.mk.injEq] at heq
  obtain ⟨hdebt, hprice, hthreshold, hdeposit, hdecimals, hsss⟩ := heq
  have hvalue : x.accounts.debtValue = 0 := by
    rw [LiquidationAccounts.debtValue, hdebt, hsss]
    decide
  refine ⟨x, hx, ⟨by rw [hdebt]; decide, by rw [hprice]; decide, ?_⟩, hvalue⟩
  rw [hprice, hdeposit, hdecimals, hthreshold, hdebt, hsss]
  change (((2 : ℕ) : ℚ) / 10 ^ 6 * (((2 : ℤ) : ℚ) * 10 ^ (-1 : ℤ)) * 10000 : ℚ) <
    ((9000 : ℕ) : ℚ) * (((500 : ℕ) : ℚ) / 10 ^ 9)
  norm_num

end SolanaStablecoin
