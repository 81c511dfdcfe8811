import SolanaStablecoin.Verify.LiquidationBonus

/-! A liquidation in three parts: the accounts and the price are read, the amounts are settled, and
the tokens and the accounts are changed. The two engines differ in the first two. -/

namespace SolanaStablecoin

variable {rt : Runtime} {clock : Clock} {s s' : State} {a : CdpLiquidate} {least repay : UInt64}

namespace CdpLiquidate

section
variable (a : CdpLiquidate) (rt : Runtime) (clock : Clock) (s : State)

/-- `cdp_liquidate` reads the accounts and the price. -/
structure Opens (l : LiquidationAccounts) (cc : Option CollateralConfig) (price : OraclePrice) :
    Prop where
  load : a.load s = .ok l
  collateralConfig : a.loadCollateralConfig s a.collateralConfig .unauthorized = .ok cc
  version : l.config.requireVersion = .ok ()
  breaker : l.config.requireNoCircuitBreaker = .ok ()
  feed : checkExpectedFeed l.config a.pythPriceFeed = .ok ()
  consensus : requireConsensusPassed l.config a.oracleConsensus = .ok ()
  price : ∃ oc, loadOracleConsensus s a.oracleConsensus a.sssMint = .ok oc ∧
    getEffectiveOraclePrice rt clock s a.pythPriceFeed l.config oc = .ok price

/-- `cdp_liquidate_v2` does. -/
structure OpensV2 (l : LiquidationAccounts) (cc : CollateralConfig) (price : OraclePrice) :
    Prop where
  load : a.load s = .ok l
  collateralConfig : a.loadCollateralConfig s true .invalidCollateralMint = .ok (some cc)
  version : l.config.requireVersion = .ok ()
  breaker : l.config.requireNoCircuitBreaker = .ok ()
  price : liquidateV2Price rt clock s l.config a.pythPriceFeed = .ok price
  whitelisted : cc.whitelisted = true

/-- The amounts that have been settled change hands, and the accounts are written. -/
def Closes (l : LiquidationAccounts) (cc : Option CollateralConfig) (position : CdpPosition)
    (burned seized : UInt64) (s' : State) : Prop :=
  ∃ tokens cc' config, a.settle rt s burned seized = .ok tokens ∧
    CollateralConfig.subDeposited seized cc = .ok cc' ∧ l.config.addBurned burned = .ok config ∧
    a.store s tokens config position
      { l.vault with depositedAmount := l.vault.depositedAmount.saturatingSub seized } cc' = s'

/-- Stablecoins of the liquidator are burned, and collateral goes from the vault to the
liquidator. -/
def Moves (burned seized : UInt64) (s' : State) : Prop :=
  ∃ t, s.tokens.Burns a.sssMint a.liquidatorSssAccount a.liquidator.key burned t ∧
    t.Transfers a.vaultTokenAccount a.collateralMint a.liquidatorCollateralAccount
      (.collateralVault a.sssMint a.cdpOwner a.collateralMint) seized
      (rt.token.transferFee t a.collateralMint seized) s'.tokens

end

variable {l : LiquidationAccounts} {price : OraclePrice} {burned seized : UInt64}

theorem Closes.liquidated {cc : Option CollateralConfig} {p : CdpPosition} {passed : Bool}
    {e : SssError} (h : a.Closes rt s l cc p burned seized s') (hl : a.load s = .ok l)
    (hp : l.position.Reduces p) (hle : seized ≤ l.vault.depositedAmount)
    (hcc : a.loadCollateralConfig s passed e = .ok cc) :
    Liquidated rt s a s' l.config l.position p l.vault burned seized := by
  obtain ⟨t, cc', c', ht, hsub, hc', rfl⟩ := h
  obtain ⟨x, hx, rfl⟩ := StablecoinConfig.addBurned_eq_ok.mp hc'
  exact (store_ok (load_ok hl) ht hx hp hle hcc hsub rfl).1

theorem Opens.liquidated {cc : Option CollateralConfig} {debt repay : UInt64}
    (h : a.Opens rt clock s l cc price) (hsettles : Settles l cc price debt repay burned seized)
    (hcloses : a.Closes rt s l cc (l.position.afterLiquidation burned) burned seized s') :
    Liquidated rt s a s' l.config l.position (l.position.afterLiquidation burned) l.vault burned
      seized :=
  hcloses.liquidated h.load l.position.afterLiquidation_reduces hsettles.seized_le
    h.collateralConfig

theorem OpensV2.liquidated {cc : CollateralConfig} {debt repay : UInt64}
    (h : a.OpensV2 rt clock s l cc price) (hsettles : SettlesV2 l cc price debt repay burned seized)
    (hcloses : a.Closes rt s l (some cc) (l.position.afterLiquidationV2 burned) burned seized s') :
    Liquidated rt s a s' l.config l.position (l.position.afterLiquidationV2 burned) l.vault burned
      seized :=
  hcloses.liquidated h.load l.position.afterLiquidationV2_reduces (seizeV2_le hsettles.2)
    h.collateralConfig

theorem Opens.liquidation {cc : Option CollateralConfig} (h : a.Opens rt clock s l cc price)
    (repay : UInt64) : a.liquidation rt clock s repay = .ok
      { engine := .cdpLiquidate cc, accounts := l, price, repay, sssMint := a.sssMint
        cdpOwner := a.cdpOwner, collateralMint := a.collateralMint } := by
  obtain ⟨oc, hoc, hprice⟩ := h.price
  simp only [CdpLiquidate.liquidation, readPrice, bind_eq_ok, load_eq_ok, pure_eq_ok]
  exact ⟨l, h.load, cc, h.collateralConfig, price,
    ⟨_, (load_ok h.load).config, oc, hoc, hprice⟩, rfl⟩

theorem OpensV2.liquidation {cc : CollateralConfig} (h : a.OpensV2 rt clock s l cc price)
    (repay : UInt64) : a.liquidationV2 rt clock s repay = .ok
      { engine := .cdpLiquidateV2 cc, accounts := l, price, repay, sssMint := a.sssMint
        cdpOwner := a.cdpOwner, collateralMint := a.collateralMint } := by
  simp only [CdpLiquidate.liquidationV2, readPriceV2, bind_eq_ok, load_eq_ok, Option.okOr_eq_ok,
    pure_eq_ok]
  exact ⟨l, h.load, some cc, h.collateralConfig, cc, rfl, price,
    ⟨_, (load_ok h.load).config, h.price⟩, rfl⟩

end CdpLiquidate

theorem checkSlippage_eq_ok {seized : UInt64} {u : Unit} :
    checkSlippage seized least = .ok u ↔ least ≤ seized := by
  rw [checkSlippage, requireWhen_eq_ok, require_eq_ok]
  refine ⟨fun h => ?_, fun h _ => h⟩
  rcases eq_or_ne least 0 with rfl | hne
  · exact UInt64.zero_le
  · exact h (UInt64.pos_iff_ne_zero.mpr hne)

theorem cdpLiquidateHandler_eq_ok :
    cdpLiquidateHandler rt clock s a least repay = .ok s' ↔
      ∃ l cc price debt burned seized, a.Opens rt clock s l cc price ∧
        checkLiquidatable l price (liquidationParams cc).1 = .ok debt ∧
        Settles l cc price debt repay burned seized ∧ checkSlippage seized least = .ok () ∧
        a.Closes rt s l cc (l.position.afterLiquidation burned) burned seized s' := by
  simp only [cdpLiquidateHandler, bind_eq_ok, pure_eq_ok, Prod.exists, onlyWhen_eq_ok,
    Prod.mk.injEq]
  constructor
  · rintro ⟨l, hl, cc, hcc, oc, hoc, _, hversion, _, hbreaker, _, hfeed, _, hconsensus, price,
      hprice, debt, hdebt, burned, seized, hsettles, _, hslippage, t, ht, cc', hsub, c', hc', heq⟩
    exact ⟨l, cc, price, debt, burned, seized,
      ⟨hl, hcc, hversion, hbreaker, hfeed, hconsensus, oc, hoc, hprice⟩, hdebt, hsettles, hslippage,
      t, cc', c', ht, hsub, hc', heq⟩
  · rintro ⟨l, cc, price, debt, burned, seized,
      ⟨hl, hcc, hversion, hbreaker, hfeed, hconsensus, oc, hoc, hprice⟩, hdebt, hsettles, hslippage,
      t, cc', c', ht, hsub, hc', heq⟩
    exact ⟨l, hl, cc, hcc, oc, hoc, (), hversion, (), hbreaker, (), hfeed, (), hconsensus, price,
      hprice, debt, hdebt, burned, seized, hsettles, (), hslippage, t, ht, cc', hsub, c', hc', heq⟩

theorem cdpLiquidateV2Handler_eq_ok :
    cdpLiquidateV2Handler rt clock s a repay least = .ok s' ↔
      ∃ l cc price debt burned seized, a.OpensV2 rt clock s l cc price ∧
        checkLiquidatable l price cc.liquidationThresholdBps.toNat = .ok debt ∧
        SettlesV2 l cc price debt repay burned seized ∧
        (burned < debt → checkRemaining l price (l.vault.depositedAmount.saturatingSub seized)
          (debt.saturatingSub burned) CdpPosition.minCollateralRatioBps .collateralRatioTooLow =
            .ok ()) ∧
        checkSlippage seized least = .ok () ∧
        a.Closes rt s l (some cc) (l.position.afterLiquidationV2 burned) burned seized s' := by
  simp only [cdpLiquidateV2Handler, bind_eq_ok, pure_eq_ok, Option.okOr_eq_ok, require_eq_ok,
    requireWhen_eq_ok]
  constructor
  · rintro ⟨l, hl, _, hcc, cc, rfl, _, hversion, _, hbreaker, price, hprice, -, hwhite, debt, hdebt,
      seized, hseize, -, hremaining, _, hslippage, t, ht, cc', hsub, c', hc', heq⟩
    exact ⟨l, cc, price, debt, _, seized, ⟨hl, hcc, hversion, hbreaker, hprice, hwhite⟩, hdebt,
      ⟨rfl, hseize⟩, hremaining, hslippage, t, cc', c', ht, hsub, hc', heq⟩
  · rintro ⟨l, cc, price, debt, _, seized, ⟨hl, hcc, hversion, hbreaker, hprice, hwhite⟩, hdebt,
      ⟨rfl, hseize⟩, hremaining, hslippage, t, cc', c', ht, hsub, hc', heq⟩
    exact ⟨l, hl, _, hcc, cc, rfl, (), hversion, (), hbreaker, price, hprice, (), hwhite, debt,
      hdebt, seized, hseize, (), hremaining, (), hslippage, t, ht, cc', hsub, c', hc', heq⟩

end SolanaStablecoin
