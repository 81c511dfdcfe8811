import SolanaStablecoin.Verify.CollateralParameters

/-! What a liquidation seizes beyond the debt that it burns. The graduated bonus of a stablecoin has
three tiers, by the collateral ratio of the position, and none of the two engines reads them. -/

namespace SolanaStablecoin

variable {rt : Runtime} {clock : Clock} {s s' : State} {price : OraclePrice}
  {l : LiquidationAccounts} {i : Instruction} {cfg : LiquidationBonusConfig}

/-! ## Tiers -/

namespace LiquidationBonusConfig

def params (cfg : LiquidationBonusConfig) : LiquidationBonusParams :=
  { tier1ThresholdBps := cfg.tier1ThresholdBps, tier1BonusBps := cfg.tier1BonusBps
    tier2ThresholdBps := cfg.tier2ThresholdBps, tier2BonusBps := cfg.tier2BonusBps
    tier3ThresholdBps := cfg.tier3ThresholdBps, tier3BonusBps := cfg.tier3BonusBps
    maxBonusBps := cfg.maxBonusBps }

/-- The bonus that is documented for a ratio, the most distressed tier first; above all tiers there
is none. -/
def bonusForRatio (cfg : LiquidationBonusConfig) (ratioBps : Nat) : UInt16 :=
  min cfg.maxBonusBps <|
    if ratioBps < cfg.tier3ThresholdBps.toNat then cfg.tier3BonusBps
    else if ratioBps < cfg.tier2ThresholdBps.toNat then cfg.tier2BonusBps
    else if ratioBps < cfg.tier1ThresholdBps.toNat then cfg.tier1BonusBps
    else 0

end LiquidationBonusConfig

/-- The stablecoin has the flag and a valid table of bonuses. -/
structure Graduated (s : State) (M : Pubkey) (cfg : LiquidationBonusConfig) : Prop where
  flag : ∃ c, s.configs (.stablecoinConfig M) = some c ∧
    c.checkFeatureFlag flagGradLiquidationBonus = true
  table : s.liquidationBonusConfigs (.liquidationBonusConfig M) = some cfg
  valid : cfg.params.validateTiers = .ok ()

/-! ## What an engine seizes -/

namespace LiquidationAccounts

/-- The collateral ratio that the engines compare with the threshold. -/
def ratioBps (l : LiquidationAccounts) (price : OraclePrice) : Nat :=
  l.value price * 10000 / l.debtValue

/-- The collateral that `usdE6` millionths of a dollar buy. -/
def collateralFor (l : LiquidationAccounts) (price : OraclePrice) (usdE6 : Nat) : Nat :=
  usdE6 * 10 ^ l.collateralDecimals.toNat * 10 ^ price.expoAbs / price.price.toU128 / 1000000

end LiquidationAccounts

namespace Engine

/-- The bonus of the collateral, or the one that holds for all. -/
def bonusBps : Engine → UInt16
  | cdpLiquidate cc => (liquidationParams cc).2
  | cdpLiquidateV2 cc => cc.liquidationBonusBps

/-- The collateral for `repaid` of debt and a bonus on it; the engines round at different points. -/
def worth (e : Engine) (l : LiquidationAccounts) (price : OraclePrice) (repaid : Nat)
    (bonusBps : UInt16) : Nat :=
  match e with
  | cdpLiquidate _ =>
    l.collateralFor price (debtE6 repaid l.sssDecimals * (10000 + bonusBps.toNat)) / 10000
  | cdpLiquidateV2 _ =>
    l.collateralFor price (debtE6 repaid l.sssDecimals * (10000 + bonusBps.toNat) / 10000)

/-- Everything is repaid. -/
def whole (e : Engine) (l : LiquidationAccounts) (repay : UInt64) : Bool :=
  match e with
  | cdpLiquidate _ => !decide (0 < repay ∧ repay < l.position.debtAmount)
  | cdpLiquidateV2 _ => repay = 0 || l.debt ≤ repay.toNat

end Engine

/-- A liquidation: the engine, the accounts and the price that it reads, what it is asked to repay,
and the owner and the collateral of the position. -/
structure Liquidation where
  engine : Engine
  accounts : LiquidationAccounts
  price : OraclePrice
  repay : UInt64
  sssMint : Pubkey
  cdpOwner : Pubkey
  collateralMint : Pubkey

namespace Liquidation

def whole (x : Liquidation) : Bool := x.engine.whole x.accounts x.repay

def repaid (x : Liquidation) : Nat := if x.whole then x.accounts.debt else x.repay.toNat

def deposit (x : Liquidation) : Nat := x.accounts.vault.depositedAmount.toNat

/-- The collateral for what is repaid, with a bonus, as far as it goes. -/
def withBonus (x : Liquidation) (bonusBps : UInt16) : Nat :=
  min (x.engine.worth x.accounts x.price x.repaid bonusBps) x.deposit

/-- The bonus of the tier that the position is in. -/
def tierBonus (x : Liquidation) (cfg : LiquidationBonusConfig) : UInt16 :=
  cfg.bonusForRatio (x.accounts.ratioBps x.price)

/-- What the vault has lost. -/
def seized (x : Liquidation) (s s' : State) : Nat :=
  s.deposits x.sssMint x.collateralMint x.cdpOwner -
    s'.deposits x.sssMint x.collateralMint x.cdpOwner

/-- Where a part of the debt is repaid, the bonus that the engine knows buys what the bonus of the
tier buys. Where all is repaid, the deposit is no more than the debt with the bonus of the tier. -/
def Agrees (x : Liquidation) (cfg : LiquidationBonusConfig) : Prop :=
  if x.whole then x.deposit ≤ x.engine.worth x.accounts x.price x.repaid (x.tierBonus cfg)
  else x.withBonus x.engine.bonusBps = x.withBonus (x.tierBonus cfg)

end Liquidation

section Reads

variable (rt : Runtime) (clock : Clock) (s : State)

def CdpLiquidate.liquidation (a : CdpLiquidate) (repay : UInt64) : Result Liquidation := do
  let l ← a.load s
  let cc ← a.loadCollateralConfig s a.collateralConfig .unauthorized
  let price ← a.readPrice rt clock s
  pure
    { engine := .cdpLiquidate cc, accounts := l, price, repay, sssMint := a.sssMint
      cdpOwner := a.cdpOwner, collateralMint := a.collateralMint }

def CdpLiquidate.liquidationV2 (a : CdpLiquidate) (repay : UInt64) : Result Liquidation := do
  let l ← a.load s
  let cc ← (← a.loadCollateralConfig s true .invalidCollateralMint).okOr
    (.anchor .accountNotInitialized)
  let price ← a.readPriceV2 rt clock s
  pure
    { engine := .cdpLiquidateV2 cc, accounts := l, price, repay, sssMint := a.sssMint
      cdpOwner := a.cdpOwner, collateralMint := a.collateralMint }

/-- What a liquidation reads before it seizes. -/
def Instruction.liquidation : Instruction → Option Liquidation
  | cdpLiquidate a _ repay => (a.liquidation rt clock s repay).toOption
  | cdpLiquidateV2 a repay _ => (a.liquidationV2 rt clock s repay).toOption
  | _ => none

end Reads

/-! ## What the code seizes -/

theorem checkLiquidatable_debt {debt : UInt64} {threshold : Nat}
    (h : checkLiquidatable l price threshold = .ok debt) : debt.toNat = l.debt := by
  simp only [checkLiquidatable, bind_eq_ok, require_eq_ok, Option.okOr_eq_ok,
    UInt64.checkedAdd_eq_some, pure_eq_ok] at h
  obtain ⟨-, -, -, -, d, hd, -, -, -, -, -, -, -, -, rfl⟩ := h
  exact hd

theorem seizePartial_ok {repay burned seized : UInt64} {threshold : Nat}
    {cc : Option CollateralConfig}
    (h : seizePartial l price repay threshold (liquidationParams cc).2 = .ok (burned, seized)) :
    seized.toNat = min ((Engine.cdpLiquidate cc).worth l price repay.toNat
      (Engine.cdpLiquidate cc).bonusBps) l.vault.depositedAmount.toNat := by
  simp only [seizePartial, bind_eq_ok, debtUsdE6_eq_ok, Option.okOr_eq_ok, U128.pow10_eq_some,
    U128.checkedMul_eq_some, U128.checkedDiv_eq_some, pure_eq_ok, Prod.mk.injEq] at h
  obtain ⟨_, ⟨-, rfl⟩, _, ⟨rfl, -⟩, _, ⟨rfl, -⟩, _, ⟨rfl, -⟩, _, ⟨rfl, -⟩, _, ⟨rfl, -⟩, _,
    ⟨rfl, -⟩, -, -, -, -, -, rfl⟩ := h
  rw [UInt64.toNat_ofNat_of_lt' ((min_le_right _ _).trans_lt l.vault.depositedAmount.toNat_lt)]
  simp only [Engine.worth, Engine.bonusBps, LiquidationAccounts.collateralFor]
  rw [Nat.mul_right_comm (debtE6 repay.toNat l.sssDecimals)]

theorem seizeV2_ok {total repaid seized : UInt64} {cc : CollateralConfig}
    (h : seizeV2 l price total repaid cc.liquidationBonusBps = .ok seized) :
    seized.toNat = if repaid < total then
      min ((Engine.cdpLiquidateV2 cc).worth l price repaid.toNat
        (Engine.cdpLiquidateV2 cc).bonusBps) l.vault.depositedAmount.toNat
    else l.vault.depositedAmount.toNat := by
  simp only [seizeV2, bind_eq_ok, debtUsdE6_eq_ok, Option.okOr_eq_ok, U128.pow10_eq_some,
    U128.checkedMul_eq_some, U128.checkedDiv_eq_some] at h
  obtain ⟨_, ⟨-, rfl⟩, _, ⟨rfl, -⟩, _, ⟨rfl, -⟩, _, ⟨rfl, -⟩, _, ⟨rfl, -⟩, _, ⟨rfl, -⟩, _,
    ⟨rfl, -⟩, h⟩ := h
  change (if (Engine.cdpLiquidateV2 cc).worth l price repaid.toNat
    (Engine.cdpLiquidateV2 cc).bonusBps ≥ l.vault.depositedAmount.toNat ∨ ¬repaid < total
    then pure l.vault.depositedAmount else pure (.ofNat ((Engine.cdpLiquidateV2 cc).worth l price
      repaid.toNat (Engine.cdpLiquidateV2 cc).bonusBps)) : Result UInt64) = .ok seized at h
  generalize (Engine.cdpLiquidateV2 cc).worth l price repaid.toNat
    (Engine.cdpLiquidateV2 cc).bonusBps = worth at h ⊢
  have hlt := l.vault.depositedAmount.toNat_lt
  split at h
  next hall =>
    cases h
    split
    next hless =>
      have hge : l.vault.depositedAmount.toNat ≤ worth := hall.resolve_right (not_not.mpr hless)
      exact (min_eq_right hge).symm
    · rfl
  next hsome =>
    cases h
    obtain ⟨hworth, hless⟩ := not_or.mp hsome
    have hworth : worth < l.vault.depositedAmount.toNat := not_le.mp hworth
    rw [if_pos (not_not.mp hless), min_eq_left hworth.le,
      UInt64.toNat_ofNat_of_lt' (hworth.trans hlt)]

namespace Liquidation

/-- All of the deposit, or what the bonus that the engine knows buys. -/
def taken (x : Liquidation) : Nat :=
  if x.whole then x.deposit else x.withBonus x.engine.bonusBps

theorem taken_settles {cc : Option CollateralConfig} {debt repay burned seized : UInt64}
    {M owner C : Pubkey} (h : Settles l cc price debt repay burned seized) :
    seized.toNat = taken
      { engine := .cdpLiquidate cc, accounts := l, price, repay, sssMint := M
        cdpOwner := owner, collateralMint := C } := by
  rcases h with ⟨hpart, hseize⟩ | ⟨hall, -, rfl⟩
  · have hwhole : (Engine.cdpLiquidate cc).whole l repay = false := by
      simp only [Engine.whole, hpart, decide_true, Bool.not_true, and_self]
    simp only [taken, whole, withBonus, repaid, deposit, hwhole, Bool.false_eq_true, if_false]
    exact seizePartial_ok hseize
  · have hwhole : (Engine.cdpLiquidate cc).whole l repay = true := by
      simp only [Engine.whole, hall, decide_false, Bool.not_false]
    simp only [taken, whole, hwhole, if_true, deposit]

theorem taken_settlesV2 {cc : CollateralConfig} {debt repay burned seized : UInt64}
    {M owner C : Pubkey} (hdebt : debt.toNat = l.debt)
    (h : SettlesV2 l cc price debt repay burned seized) :
    seized.toNat = taken
      { engine := .cdpLiquidateV2 cc, accounts := l, price, repay, sssMint := M
        cdpOwner := owner, collateralMint := C } := by
  obtain ⟨hburned, hseize⟩ := h
  have hwhole : (Engine.cdpLiquidateV2 cc).whole l repay = decide (repay = 0 ∨ debt ≤ repay) := by
    simp only [Engine.whole, UInt64.le_iff_toNat_le, hdebt, Bool.decide_or]
  rw [seizeV2_ok hseize, ← hburned]
  by_cases hall : repay = 0 ∨ debt ≤ repay
  · simp only [taken, whole, hwhole, hall, decide_true, if_true, deposit]
    rw [if_neg (UInt64.lt_irrefl _)]
  · have hless : repay < debt := UInt64.not_le.mp (not_or.mp hall).2
    simp only [taken, whole, withBonus, repaid, deposit, hwhole, hall, decide_false,
      Bool.false_eq_true, if_false]
    rw [if_pos hless]

theorem seized_of {a : CdpLiquidate} {p p' : CdpPosition} {burned n : UInt64}
    {c : StablecoinConfig} {v : CollateralVault} {x : Liquidation} (hM : x.sssMint = a.sssMint)
    (howner : x.cdpOwner = a.cdpOwner) (hC : x.collateralMint = a.collateralMint)
    (h : Liquidated rt s a s' c p p' v burned n) : x.seized s s' = n.toNat := by
  have hle := UInt64.le_iff_toNat_le.mp h.seized_le
  have hvault : s'.collateralVaults
      (.collateralVault a.sssMint a.cdpOwner a.collateralMint) =
        some { v with depositedAmount := v.depositedAmount.saturatingSub n } := by
    rw [h.vaults, put_self]
  rw [seized, hM, howner, hC, State.deposits_of h.vault, State.deposits_of hvault,
    UInt64.toNat_saturatingSub]
  omega

end Liquidation

/-- The two engines seize what they are made to, whatever the table says. -/
theorem cdpLiquidate_taken {a : CdpLiquidate} {least repay : UInt64}
    (h : cdpLiquidateHandler rt clock s a least repay = .ok s') :
    ∃ x, a.liquidation rt clock s repay = .ok x ∧ x.seized s s' = x.taken := by
  obtain ⟨l, cc, oc, price, debt, p', burned, n, hl, hcc, hoc, hprice, -, hsettles, hliq, -⟩ :=
    cdpLiquidateHandler_settles h
  have hread : a.readPrice rt clock s = .ok price := by
    simp only [CdpLiquidate.readPrice, bind_eq_ok, load_eq_ok]
    exact ⟨_, (CdpLiquidate.load_ok hl).config, oc, hoc, hprice⟩
  refine ⟨_, ?_, (Liquidation.seized_of rfl rfl rfl hliq).trans
    (Liquidation.taken_settles hsettles)⟩
  simp only [CdpLiquidate.liquidation, bind_eq_ok, pure_eq_ok]
  exact ⟨l, hl, cc, hcc, price, hread, rfl⟩

theorem cdpLiquidateV2_taken {a : CdpLiquidate} {repay least : UInt64}
    (h : cdpLiquidateV2Handler rt clock s a repay least = .ok s') :
    ∃ x, a.liquidationV2 rt clock s repay = .ok x ∧ x.seized s s' = x.taken := by
  obtain ⟨l, cc, price, debt, p', burned, n, hl, hcc, hprice, -, hdebt, hsettles, hliq, -⟩ :=
    cdpLiquidateV2Handler_settles h
  have hread : a.readPriceV2 rt clock s = .ok price := by
    simp only [CdpLiquidate.readPriceV2, bind_eq_ok, load_eq_ok]
    exact ⟨_, (CdpLiquidate.load_ok hl).config, hprice⟩
  refine ⟨_, ?_, (Liquidation.seized_of rfl rfl rfl hliq).trans
    (Liquidation.taken_settlesV2 (checkLiquidatable_debt hdebt) hsettles)⟩
  simp only [CdpLiquidate.liquidationV2, bind_eq_ok, Option.okOr_eq_ok, pure_eq_ok]
  exact ⟨l, hl, some cc, hcc, cc, rfl, price, hread, rfl⟩

namespace Liquidation

theorem taken_eq_iff (x : Liquidation) (cfg : LiquidationBonusConfig) :
    x.taken = x.withBonus (x.tierBonus cfg) ↔ x.Agrees cfg := by
  unfold taken Agrees
  split
  · rw [withBonus, eq_comm, min_eq_right_iff]
  · rfl

end Liquidation

/-- A liquidation that goes through seizes what is repaid with the bonus of the tier, as far as the
deposit goes, just when the accounts and the amount happen to make the engine agree with the
table. -/
theorem liquidation_bonus {a : CdpLiquidate} {n m : UInt64}
    (hi : i = .cdpLiquidate a n m ∨ i = .cdpLiquidateV2 a n m)
    (h : i.exec rt clock s = .ok s') :
    ∃ x, i.liquidation rt clock s = some x ∧ ∀ cfg, Graduated s a.sssMint cfg →
      (x.seized s s' = x.withBonus (x.tierBonus cfg) ↔ x.Agrees cfg) := by
  obtain ⟨x, hx, htaken⟩ : ∃ x, i.liquidation rt clock s = some x ∧ x.seized s s' = x.taken := by
    rcases hi with rfl | rfl
    · obtain ⟨x, hx, htaken⟩ := cdpLiquidate_taken h
      exact ⟨x, congrArg Except.toOption hx, htaken⟩
    · obtain ⟨x, hx, htaken⟩ := cdpLiquidateV2_taken h
      exact ⟨x, congrArg Except.toOption hx, htaken⟩
  refine ⟨x, hx, fun cfg _ => ?_⟩
  rw [htaken]
  exact x.taken_eq_iff cfg

namespace Market

/-- Ten percent below a ratio of 120%, and more below 110% and 100%. -/
def bonusTiers (tier1BonusBps : UInt16) : LiquidationBonusParams :=
  { tier1ThresholdBps := 12000, tier1BonusBps, tier2ThresholdBps := 11000, tier2BonusBps := 1200
    tier3ThresholdBps := 10000, tier3BonusBps := 1500, maxBonusBps := 2000 }

/-- The price falls to 0.23, which leaves 500 of gold for a debt of 100: a ratio of 115%. -/
def graduated (tier1BonusBps : UInt16) : State :=
  run localRuntime genesis <| funded 1000 ++
    [ .call (day 0) (.initLiquidationBonusConfig { authority, config } (bonusTiers tier1BonusBps)),
      .world (.publishPythPrice feed
        { price := 23, conf := 0, expo := -2, publishTime := (day 0).unixTimestamp }) ]

/-- Half of the debt is repaid. -/
def liquidateHalf : Instruction := .cdpLiquidate (liquidateUser false) 0 50

theorem graduated_config (tier1BonusBps : UInt16) (ratio : Nat) (bonusBps : UInt16)
    (h : ((graduated tier1BonusBps).configs config).bind (fun c =>
      ((graduated tier1BonusBps).liquidationBonusConfigs (.liquidationBonusConfig mint.key)).map
        fun cfg => (c.checkFeatureFlag flagGradLiquidationBonus, cfg.params.validateTiers.isOk,
          cfg.bonusForRatio ratio)) = some (true, true, bonusBps)) :
    ∃ cfg, Graduated (graduated tier1BonusBps) mint.key cfg ∧
      cfg.bonusForRatio ratio = bonusBps := by
  obtain ⟨c, hc, h⟩ := Option.bind_eq_some_iff.mp h
  obtain ⟨cfg, hcfg, heq⟩ := Option.map_eq_some_iff.mp h
  simp only [Prod.mk.injEq] at heq
  obtain ⟨hflag, hvalid, hbonus⟩ := heq
  obtain ⟨_, hvalid⟩ := isOk_iff.mp hvalid
  exact ⟨cfg, ⟨⟨c, hc, hflag⟩, hcfg, hvalid⟩, hbonus⟩

end Market

open Market in
/-- The tier pays the five percent that the engine knows. -/
theorem liquidation_bonus_half : Genesis genesis ∧
    ∃ (cfg : LiquidationBonusConfig) (x : Liquidation) (s' : State),
      Graduated (graduated 500) mint.key cfg ∧
      liquidateHalf.exec localRuntime (day 0) (graduated 500) = .ok s' ∧
      x.seized (graduated 500) s' = x.withBonus (x.tierBonus cfg) := by
  obtain ⟨cfg, hcfg, hbonus⟩ := graduated_config 500 11500 500 (by decide +kernel)
  obtain ⟨s', h⟩ : ∃ s', liquidateHalf.exec localRuntime (day 0) (graduated 500) = .ok s' :=
    isOk_iff.mp (by decide +kernel)
  obtain ⟨x, hx, hiff⟩ := liquidation_bonus (.inl rfl) h
  refine ⟨genesis_genesis, cfg, x, s', hcfg, h, (hiff cfg hcfg).mpr ?_⟩
  have hread : ((liquidateHalf.liquidation localRuntime (day 0) (graduated 500)).map fun x =>
      (x.whole, x.accounts.ratioBps x.price, x.engine.bonusBps)) = some (false, 11500, 500) := by
    decide +kernel
  obtain ⟨y, hy, heq⟩ := Option.map_eq_some_iff.mp hread
  cases hx.symm.trans hy
  simp only [Prod.mk.injEq] at heq
  obtain ⟨hwhole, hratio, hflat⟩ := heq
  rw [Liquidation.Agrees, hwhole, if_neg Bool.false_ne_true, Liquidation.tierBonus, hratio, hbonus,
    hflat]

open Market in
/-- The tier pays ten percent, and the liquidator gets five: 228 instead of 239. -/
theorem liquidation_bonus_ignored : Genesis genesis ∧
    ∃ (cfg : LiquidationBonusConfig) (x : Liquidation) (s' : State),
      Graduated (graduated 1000) mint.key cfg ∧
      liquidateHalf.exec localRuntime (day 0) (graduated 1000) = .ok s' ∧
      liquidateHalf.liquidation localRuntime (day 0) (graduated 1000) = some x ∧
      x.seized (graduated 1000) s' = 228 ∧ x.withBonus (x.tierBonus cfg) = 239 := by
  obtain ⟨cfg, hcfg, hbonus⟩ := graduated_config 1000 11500 1000 (by decide +kernel)
  have hread : ((liquidateHalf.liquidation localRuntime (day 0) (graduated 1000)).map fun x =>
      (x.accounts.ratioBps x.price, x.taken, x.withBonus 1000)) = some (11500, 228, 239) := by
    decide +kernel
  obtain ⟨x, hx, heq⟩ := Option.map_eq_some_iff.mp hread
  simp only [Prod.mk.injEq] at heq
  obtain ⟨hratio, htaken, htier⟩ := heq
  obtain ⟨s', h⟩ : ∃ s', liquidateHalf.exec localRuntime (day 0) (graduated 1000) = .ok s' :=
    isOk_iff.mp (by decide +kernel)
  obtain ⟨y, hy, hseized⟩ := cdpLiquidate_taken h
  have hxy : some y = some x := (congrArg Except.toOption hy).symm.trans hx
  cases hxy
  refine ⟨genesis_genesis, cfg, x, s', hcfg, h, hx, hseized.trans htaken, ?_⟩
  rw [Liquidation.tierBonus, hratio, hbonus, htier]

end SolanaStablecoin
