import SolanaStablecoin.Verify.Liquidation

/-! The two liquidation engines on the states that both are made for: a Pyth price, and a
whitelisted collateral with its config. They agree on every full liquidation in which the collateral
for the debt, which the second version computes and does not use, fits into 128 bits. -/

namespace SolanaStablecoin

variable {rt : Runtime} {clock : Clock} {s s' : State} {a : CdpLiquidate} {c : StablecoinConfig}
  {cc : CollateralConfig} {l : LiquidationAccounts} {price : OraclePrice}
  {least repay repay' : UInt64}

/-! ## Where both apply -/

/-- A Pyth price without consensus, from the feed that both expect, and a whitelisted collateral
whose config is passed. -/
structure CdpLiquidate.BothApply (a : CdpLiquidate) (s : State) : Prop where
  pyth : ∀ c, s.configs (.stablecoinConfig a.sssMint) = some c → c.oracleType = oraclePyth ∧
    c.featureFlags &&& flagMultiOracleConsensus = 0 ∧ c.oracleFeed = c.expectedPythFeed
  consensus : a.oracleConsensus = false
  passed : a.collateralConfig = true
  whitelisted : ∀ cc, s.collateralConfigs (.collateralConfig a.sssMint a.collateralMint) = some cc →
    cc.whitelisted = true

/-- The first version is asked to repay `repay` and the second `repay'`, which is everything. -/
def CdpLiquidate.Full (a : CdpLiquidate) (s : State) (repay repay' : UInt64) : Prop :=
  ∀ l, a.load s = .ok l → ¬(0 < repay ∧ repay < l.position.debtAmount) ∧
    (repay' = 0 ∨ l.debt ≤ repay'.toNat)

/-- The collateral for the whole debt with the bonus, before it is divided by the price. -/
def LiquidationAccounts.SeizureFits (l : LiquidationAccounts) (price : OraclePrice)
    (cc : CollateralConfig) : Prop :=
  l.debtValue * (10000 + cc.liquidationBonusBps.toNat) / 10000 *
    10 ^ l.collateralDecimals.toNat * 10 ^ price.expoAbs < 2 ^ 128

/-- It fits, at the price and the parameters that are read. -/
def CdpLiquidate.SeizureFits (a : CdpLiquidate) (rt : Runtime) (clock : Clock) (s : State) : Prop :=
  ∀ l price cc, a.OpensV2 rt clock s l cc price → l.SeizureFits price cc

/-! ## What they read -/

theorem validateFeedKey_eq {k : Pubkey} (hfeed : c.oracleFeed = c.expectedPythFeed) :
    validateFeedKey k c = checkExpectedFeed c k := by
  rw [validateFeedKey, checkExpectedFeed, hfeed]
  by_cases hset : c.expectedPythFeed = .default
  · rw [if_neg (not_not.mpr hset)]
    simp only [requireWhen, hset, ne_eq, not_true_eq_false, and_false, if_false]
  · rw [if_pos hset, requireWhen, if_pos hset]

/-- Where both apply, they read the same price. -/
theorem effectivePrice_eq {k : Pubkey} {oc : Option OracleConsensus}
    (hpyth : c.oracleType = oraclePyth) (hflag : c.featureFlags &&& flagMultiOracleConsensus = 0)
    (hfeed : c.oracleFeed = c.expectedPythFeed) :
    getEffectiveOraclePrice rt clock s k c oc = liquidateV2Price rt clock s c k := by
  rw [getEffectiveOraclePrice, if_neg (not_not.mpr hflag), getOraclePrice, liquidateV2Price,
    validateFeedKey_eq hfeed, adapterPrice, if_pos hpyth]

namespace CdpLiquidate

theorem loadCollateralConfig_congr {e e' : SssError} {cc : Option CollateralConfig}
    (h : a.loadCollateralConfig s true e = .ok cc) : a.loadCollateralConfig s true e' = .ok cc := by
  simp only [loadCollateralConfig, bind_eq_ok, pure_eq_ok] at h ⊢
  obtain ⟨cc', hcc, u, hcheck, rfl⟩ := h
  refine ⟨cc', hcc, u, ?_, rfl⟩
  cases cc' with
  | none => exact hcheck
  | some cc' =>
    simp only [Option.elim_some, bind_eq_ok, require_eq_ok] at hcheck ⊢
    exact hcheck

theorem BothApply.opens_iff (h : a.BothApply s) {cc : Option CollateralConfig} :
    a.Opens rt clock s l cc price ↔ ∃ cc', cc = some cc' ∧ a.OpensV2 rt clock s l cc' price := by
  constructor
  · intro ho
    obtain ⟨hpyth, hflag, hfeed⟩ := h.pyth l.config (load_ok ho.load).config
    obtain ⟨oc, -, hprice⟩ := ho.price
    rw [effectivePrice_eq hpyth hflag hfeed] at hprice
    have hcc := ho.collateralConfig
    rw [h.passed] at hcc
    rcases loadCollateralConfig_eq_ok (loadsCollateralConfig hcc) with ⟨hnot, -⟩ | ⟨-, c, rfl, hc⟩
    · cases hnot
    · exact ⟨c, rfl, ho.load, loadCollateralConfig_congr hcc, ho.version, ho.breaker, hprice,
        h.whitelisted c hc⟩
  · rintro ⟨cc', rfl, ho⟩
    obtain ⟨hpyth, hflag, hfeed⟩ := h.pyth l.config (load_ok ho.load).config
    have hprice := ho.price
    refine ⟨ho.load, ?_, ho.version, ho.breaker, ?_, ?_, none, ?_, ?_⟩
    · rw [h.passed]
      exact loadCollateralConfig_congr ho.collateralConfig
    · simp only [liquidateV2Price, bind_eq_ok] at hprice
      obtain ⟨_, hchecked, -⟩ := hprice
      exact hchecked
    · rw [requireConsensusPassed, require_eq_ok]
      exact .inl hflag
    · rw [h.consensus]
      rfl
    · rw [effectivePrice_eq hpyth hflag hfeed]
      exact hprice

theorem OpensV2.unique {l' : LiquidationAccounts} {price' : OraclePrice} {cc' : CollateralConfig}
    (h : a.OpensV2 rt clock s l cc price) (h' : a.OpensV2 rt clock s l' cc' price') :
    l' = l ∧ price' = price ∧ cc' = cc := by
  cases h.load.symm.trans h'.load
  cases h.collateralConfig.symm.trans h'.collateralConfig
  cases h.price.symm.trans h'.price
  exact ⟨rfl, rfl, rfl⟩

end CdpLiquidate

/-! ## What they settle -/

theorem liquidateV2Price_pos {k : Pubkey} (h : liquidateV2Price rt clock s c k = .ok price) :
    0 < price.price.toInt := by
  simp only [liquidateV2Price, bind_eq_ok, require_eq_ok, pure_eq_ok] at h
  obtain ⟨-, -, _, -, -, hpos, -, -, rfl⟩ := h
  exact hpos

theorem debtE6_lt (d : UInt64) (decimals : UInt8) : debtE6 d.toNat decimals < 2 ^ 84 := by
  refine (Nat.div_le_self ..).trans_lt ?_
  have := d.toNat_lt
  omega

/-- The second version seizes all there is, if it gets through its computation. -/
theorem seizeV2_all {debt seized : UInt64} (hpriced : l.Priced price) (hpos : 0 < price.price.toInt)
    (hdebt : debt.toNat = l.debt) :
    seizeV2 l price debt debt cc.liquidationBonusBps = .ok seized ↔
      l.SeizureFits price cc ∧ l.vault.depositedAmount = seized := by
  have hprice : price.price.toU128 ≠ 0 := by
    have := toU128_of_nonneg hpos.le
    omega
  have hbonus := cc.liquidationBonusBps.toNat_lt
  have hsmall := debtE6_lt debt l.sssDecimals
  have hfirst : debtE6 debt.toNat l.sssDecimals * (10000 + cc.liquidationBonusBps.toNat) <
      2 ^ 128 :=
    calc _ ≤ 2 ^ 84 * 2 ^ 17 := Nat.mul_le_mul hsmall.le (by omega)
      _ < 2 ^ 128 := by decide
  simp only [seizeV2, bind_eq_ok, debtUsdE6_eq_ok, Option.okOr_eq_ok, U128.pow10_eq_some,
    U128.checkedMul_eq_some, U128.checkedDiv_eq_some, UInt64.lt_irrefl, not_false_eq_true, or_true,
    if_true, pure_eq_ok, LiquidationAccounts.SeizureFits, LiquidationAccounts.debtValue, ← hdebt]
  constructor
  · rintro ⟨_, ⟨-, rfl⟩, _, ⟨rfl, -⟩, _, ⟨rfl, -⟩, _, ⟨rfl, -⟩, _, ⟨rfl, -⟩, _, ⟨rfl, hfits⟩, _,
      ⟨rfl, -⟩, hseized⟩
    exact ⟨hfits, hseized⟩
  · rintro ⟨hfits, hseized⟩
    exact ⟨_, ⟨hpriced.decimals, rfl⟩, _, ⟨rfl, hfirst⟩, _, ⟨rfl, hpriced.fits.decimals⟩, _,
      ⟨rfl, (Nat.le_mul_of_pos_right _ (Nat.pow_pos (by decide))).trans_lt hfits⟩, _,
      ⟨rfl, hpriced.fits.expo⟩, _, ⟨rfl, hfits⟩, _, ⟨rfl, hprice⟩, hseized⟩

theorem CdpPosition.afterLiquidation_all {p : CdpPosition} {debt : UInt64}
    (h : debt.toNat = p.debtAmount.toNat + p.accruedFees.toNat) :
    p.afterLiquidationV2 debt = p.afterLiquidation debt := by
  have hle : p.debtAmount ≤ debt := UInt64.le_iff_toNat_le.mpr (by omega)
  have hnone : p.debtAmount.saturatingSub debt = 0 := by
    apply UInt64.toNat.inj
    rw [UInt64.toNat_saturatingSub, UInt64.toNat_zero]
    omega
  rw [CdpPosition.afterLiquidationV2, if_pos hle, CdpPosition.afterLiquidation, hnone]
  rfl

/-! ## Where they agree -/

/-- The second version does what the first does, where it gets through its computation. -/
theorem cdpLiquidateV2_iff (h : a.BothApply s) (hfull : a.Full s repay repay') :
    cdpLiquidateV2Handler rt clock s a repay' least = .ok s' ↔
      cdpLiquidateHandler rt clock s a least repay = .ok s' ∧ a.SeizureFits rt clock s := by
  rw [cdpLiquidateV2Handler_eq_ok, cdpLiquidateHandler_eq_ok]
  constructor
  · rintro ⟨l, cc, price, debt, burned, seized, hopens, hdebt, ⟨hburned, hseize⟩, -, hslippage,
      hcloses⟩
    obtain ⟨hpart, hall⟩ := hfull l hopens.load
    have htotal := checkLiquidatable_debt hdebt
    have hpriced := (checkLiquidatable_isOk.mp (isOk_iff.mpr ⟨_, hdebt⟩)).1
    rw [← htotal, ← UInt64.le_iff_toNat_le] at hall
    rw [if_pos hall] at hburned
    subst hburned
    obtain ⟨hfits, rfl⟩ :=
      (seizeV2_all hpriced (liquidateV2Price_pos hopens.price) htotal).mp hseize
    rw [CdpPosition.afterLiquidation_all htotal] at hcloses
    refine ⟨⟨l, some cc, price, debt, debt, _, h.opens_iff.mpr ⟨cc, rfl, hopens⟩, hdebt,
      .inr ⟨hpart, rfl, rfl⟩, hslippage, hcloses⟩, fun l' price' cc' hopens' => ?_⟩
    obtain ⟨rfl, rfl, rfl⟩ := hopens.unique hopens'
    exact hfits
  · rintro ⟨⟨l, cc, price, debt, burned, seized, hopens, hdebt, hsettles, hslippage, hcloses⟩,
      hfits⟩
    obtain ⟨cc, rfl, hopens'⟩ := h.opens_iff.mp hopens
    obtain ⟨hpart, hall⟩ := hfull l hopens.load
    have htotal := checkLiquidatable_debt hdebt
    have hpriced := (checkLiquidatable_isOk.mp (isOk_iff.mpr ⟨_, hdebt⟩)).1
    rw [← htotal, ← UInt64.le_iff_toNat_le] at hall
    obtain ⟨rfl, rfl⟩ := (hsettles.resolve_left fun hp => hpart hp.1).2
    rw [← CdpPosition.afterLiquidation_all htotal] at hcloses
    refine ⟨l, cc, price, debt, debt, _, hopens', hdebt, ⟨if_pos hall,
      (seizeV2_all hpriced (liquidateV2Price_pos hopens'.price) htotal).mpr
        ⟨hfits l price cc hopens', rfl⟩⟩, fun hless => ?_, hslippage, hcloses⟩
    exact absurd hless (UInt64.lt_irrefl _)

/-- Two full liquidations, one with each version, come to the same just when the collateral for the
debt fits, or the first fails as well. -/
theorem liquidation_versions (h : a.BothApply s) (hfull : a.Full s repay repay') :
    (cdpLiquidateHandler rt clock s a least repay).toOption =
        (cdpLiquidateV2Handler rt clock s a repay' least).toOption ↔
      ((cdpLiquidateHandler rt clock s a least repay).isOk = true → a.SeizureFits rt clock s) := by
  constructor
  · intro heq hok
    obtain ⟨s', hs'⟩ := isOk_iff.mp hok
    rw [hs'] at heq
    exact ((cdpLiquidateV2_iff h hfull).mp (toOption_eq_some.mp heq.symm)).2
  · intro hfits
    refine toOption_congr fun s' => ?_
    rw [cdpLiquidateV2_iff h hfull]
    exact ⟨fun hs' => ⟨hs', hfits (isOk_iff.mpr ⟨s', hs'⟩)⟩, And.left⟩

namespace Market

def listedParams : CollateralParams :=
  { whitelisted := true, maxLtvBps := 5000, liquidationThresholdBps := 9000
    liquidationBonusBps := 500, maxDepositCap := 0 }

/-- Gold is listed, 400 million dollars are borrowed against 600 million of it, and the price falls
from one dollar to `price`. -/
def fallen (price : Int64) (expo : Int32) : State :=
  run localRuntime genesis <| opening 1000000000000000 ++
    [ .world (.mintTo authority gold.key userGold.key 600000000000000),
      .call (day 0) (.registerCollateral
        { authority, sssMint := mint.key, collateralMint := gold.key } listedParams),
      .world (.createAccount goldAccount gold.key goldVault),
      .call (day 0) (.cdpDepositCollateral { depositPlain with collateralConfig := true }
        600000000000000),
      publish 1 0, borrow 400000000000000 0,
      .world (.publishPythPrice feed
        { price, conf := 0, expo, publishTime := (day 0).unixTimestamp }) ]

theorem bothApply_of (h : (s.configs (.stablecoinConfig a.sssMint)).all (fun c =>
      c.oracleType = oraclePyth && c.featureFlags &&& flagMultiOracleConsensus = 0 &&
        c.oracleFeed = c.expectedPythFeed) = true)
    (hcc : (s.collateralConfigs (.collateralConfig a.sssMint a.collateralMint)).all
      (·.whitelisted) = true) (hconsensus : a.oracleConsensus = false)
    (hpassed : a.collateralConfig = true) : a.BothApply s := by
  refine ⟨fun c hc => ?_, hconsensus, hpassed, fun cc h => ?_⟩
  · rw [hc, Option.all_some] at h
    simp only [Bool.and_eq_true, decide_eq_true_eq] at h
    exact ⟨h.1.1, h.1.2, h.2⟩
  · rw [h, Option.all_some] at hcc
    exact hcc

theorem full_zero : a.Full s 0 0 :=
  fun _ _ => ⟨fun h => absurd h.1 (UInt64.lt_irrefl _), .inl rfl⟩

end Market

open Market in
/-- At fifty cents, in tenths of a dollar, both versions do the same. -/
theorem liquidation_versions_tenths : Genesis genesis ∧
    (liquidateUser true).BothApply (fallen 5 (-1)) ∧
    (cdpLiquidateHandler localRuntime (day 0) (fallen 5 (-1)) (liquidateUser true) 0 0).isOk ∧
    (cdpLiquidateHandler localRuntime (day 0) (fallen 5 (-1)) (liquidateUser true) 0 0).toOption =
      (cdpLiquidateV2Handler localRuntime (day 0) (fallen 5 (-1)) (liquidateUser true) 0 0).toOption
    := by
  have happly : (liquidateUser true).BothApply (fallen 5 (-1)) :=
    bothApply_of (by decide +kernel) (by decide +kernel) rfl rfl
  refine ⟨genesis_genesis, happly, by decide +kernel,
    (liquidation_versions happly full_zero).mpr fun _ l price cc hopens => ?_⟩
  obtain ⟨x, hx, heq⟩ := toOption_map_eq_some.mp (show
    (((liquidateUser true).liquidationV2 localRuntime (day 0) (fallen 5 (-1)) 0).map fun x =>
      (x.accounts.debtValue, x.engine.bonusBps, x.accounts.collateralDecimals, x.price.expoAbs)
        ).toOption = some (400000000000000, 500, 6, 1) by decide +kernel)
  cases (hopens.liquidation 0).symm.trans hx
  simp only [Prod.mk.injEq, Engine.bonusBps] at heq
  obtain ⟨hdebt, hbonus, hdecimals, hexpo⟩ := heq
  rw [LiquidationAccounts.SeizureFits, hdebt, hbonus, hdecimals, hexpo]
  decide

open Market in
/-- At fifty cents in units of `10 ^ (-18)` dollars only the first version liquidates. -/
theorem liquidation_versions_atto : Genesis genesis ∧
    (liquidateUser true).BothApply (fallen 500000000000000000 (-18)) ∧
    (liquidateUser true).Full (fallen 500000000000000000 (-18)) 0 0 ∧
    (cdpLiquidateHandler localRuntime (day 0) (fallen 500000000000000000 (-18))
      (liquidateUser true) 0 0).isOk = true ∧
    (cdpLiquidateV2Handler localRuntime (day 0) (fallen 500000000000000000 (-18))
      (liquidateUser true) 0 0).isOk = false :=
  ⟨genesis_genesis, bothApply_of (by decide +kernel) (by decide +kernel) rfl rfl, full_zero,
    by decide +kernel, by decide +kernel⟩

end SolanaStablecoin
