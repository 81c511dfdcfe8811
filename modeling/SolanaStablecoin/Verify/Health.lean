import Mathlib.Algebra.Order.Field.Power
import Mathlib.Tactic.FieldSimp
import Mathlib.Tactic.Positivity
import Mathlib.Tactic.Ring
import Mathlib.Tactic.Tauto
import SolanaStablecoin.Base.Ratio
import SolanaStablecoin.Program.Token2022
import SolanaStablecoin.Verify.Step
import SolanaStablecoin.Verify.Supply

/-! The health of a position: what a borrow leaves behind, and when the two liquidation engines
accept a position as liquidatable. -/

namespace SolanaStablecoin

open Ratio

variable {rt : Runtime} {clock : Clock} {s s' : State} {price : OraclePrice}
  {l : LiquidationAccounts} {n : UInt64}

/-! ## Valuation -/

/-- Collateral in millionths of a dollar, rounded down at each division. -/
def valueE6 (deposited : UInt64) (price : OraclePrice) (decimals : UInt8) : Nat :=
  deposited.toNat * price.price.toU128 * 1000000 / 10 ^ price.expoAbs / 10 ^ decimals.toNat

/-- The multiplications and powers of a valuation stay in range. -/
structure ValueFits (deposited : UInt64) (price : OraclePrice) (decimals : UInt8) : Prop where
  product : deposited.toNat * price.price.toU128 * 1000000 < 2 ^ 128
  expo : price.expoAbs ≤ 38
  decimals : decimals.toNat ≤ 38

/-- Debt in millionths of a dollar, rounded down. -/
def debtE6 (debt : Nat) (decimals : UInt8) : Nat := debt * 1000000 / 10 ^ decimals.toNat

theorem debtE6_mono {d d' : Nat} (h : d ≤ d') (decimals : UInt8) :
    debtE6 d decimals ≤ debtE6 d' decimals :=
  Nat.div_le_div_right (Nat.mul_le_mul_right _ h)

theorem collateralValueUsdE6_eq_ok {deposited : UInt64} {decimals : UInt8} {v : Nat} :
    collateralValueUsdE6 deposited price decimals = .ok v ↔
      ValueFits deposited price decimals ∧ valueE6 deposited price decimals = v := by
  simp only [collateralValueUsdE6, bind_eq_ok, Option.okOr_eq_ok, U128.checkedMul_eq_some,
    U128.pow10_eq_some, pure_eq_ok]
  constructor
  · rintro ⟨_, ⟨rfl, -⟩, _, ⟨rfl, h⟩, _, ⟨rfl, he⟩, _, ⟨rfl, hd⟩, hv⟩
    exact ⟨⟨h, he, hd⟩, hv⟩
  · rintro ⟨⟨h, he, hd⟩, hv⟩
    exact ⟨_, ⟨rfl, by omega⟩, _, ⟨rfl, h⟩, _, ⟨rfl, he⟩, _, ⟨rfl, hd⟩, hv⟩

theorem debtUsdE6_eq_ok {debt : UInt64} {decimals : UInt8} {d : Nat} :
    debtUsdE6 debt decimals = .ok d ↔ decimals.toNat ≤ 38 ∧ debtE6 debt.toNat decimals = d := by
  simp only [debtUsdE6, bind_eq_ok, Option.okOr_eq_ok, U128.checkedMul_eq_some,
    U128.pow10_eq_some, pure_eq_ok]
  constructor
  · rintro ⟨_, ⟨rfl, -⟩, _, ⟨rfl, h⟩, hd⟩
    exact ⟨h, hd⟩
  · rintro ⟨h, hd⟩
    have := debt.toNat_lt
    exact ⟨_, ⟨rfl, by omega⟩, _, ⟨rfl, h⟩, hd⟩

theorem ratioBps_eq_ok {v d r : Nat} :
    ratioBps v d = .ok r ↔ v * 10000 < 2 ^ 128 ∧ 0 < d ∧ v * 10000 / d = r := by
  simp only [ratioBps, bind_eq_ok, Option.okOr_eq_ok, U128.checkedMul_eq_some,
    U128.checkedDiv_eq_some]
  constructor
  · rintro ⟨_, ⟨rfl, h⟩, rfl, hd⟩
    exact ⟨h, Nat.pos_of_ne_zero hd, rfl⟩
  · rintro ⟨h, hd, rfl⟩
    exact ⟨_, ⟨rfl, h⟩, rfl, hd.ne'⟩

/-- A price whose cast to 128 unsigned bits wraps around is too large to be multiplied. -/
theorem ValueFits.price_nonneg {deposited : UInt64} {decimals : UInt8}
    (h : ValueFits deposited price decimals) (hpos : 0 < deposited) : 0 ≤ price.price.toInt := by
  have hdep : 0 < deposited.toNat := UInt64.lt_iff_toNat_lt.mp hpos
  have hle : price.price.toU128 ≤ deposited.toNat * price.price.toU128 :=
    Nat.le_mul_of_pos_left _ hdep
  have hfits := h.product
  have hlow := price.price.le_toInt
  by_contra hneg
  have hwrap : price.price.toU128 = (price.price.toInt + 2 ^ 128).toNat := by
    rw [Int64.toU128, ← Int.add_emod_right, Int.emod_eq_of_lt (by omega) (by omega)]
  omega

theorem toU128_of_nonneg {p : Int64} (h : 0 ≤ p.toInt) : (p.toU128 : Int) = p.toInt := by
  have := p.toInt_lt
  rw [Int64.toU128, Int.emod_eq_of_lt h (by omega), Int.toNat_of_nonneg h]

/-! ## Exact dollars -/

/-- An amount of collateral in dollars. -/
def OraclePrice.usd (price : OraclePrice) (amount : UInt64) (decimals : UInt8) : ℚ :=
  amount.toNat / 10 ^ decimals.toNat * (price.price.toInt * 10 ^ price.expo.toInt)

/-- Principal and accrued fees in dollars, one stablecoin for one dollar. -/
def CdpPosition.usd (p : CdpPosition) (decimals : UInt8) : ℚ :=
  (p.debtAmount.toNat + p.accruedFees.toNat) / 10 ^ decimals.toNat

/-- The exponent is taken to be negative, so the value is never more than the exact one. -/
theorem valueE6_le_usd (deposited : UInt64) (decimals : UInt8) (h : 0 ≤ price.price.toInt) :
    (valueE6 deposited price decimals : ℚ) ≤ price.usd deposited decimals * 1000000 := by
  have hscale : (1 : ℚ) / 10 ^ price.expoAbs ≤ 10 ^ price.expo.toInt := by
    rw [one_div, ← zpow_natCast, ← zpow_neg, OraclePrice.expoAbs]
    exact zpow_le_zpow_right₀ (by norm_num) (by omega)
  have hprice : ((price.price.toU128 : ℕ) : ℚ) = price.price.toInt := by
    exact_mod_cast toU128_of_nonneg h
  have hinner : ((deposited.toNat * price.price.toU128 * 1000000 / 10 ^ price.expoAbs : ℕ) : ℚ) ≤
      deposited.toNat * price.price.toInt * 1000000 * 10 ^ price.expo.toInt := by
    apply Nat.cast_div_le.trans
    push_cast
    rw [hprice, div_eq_mul_one_div]
    have : (0 : ℚ) ≤ price.price.toInt := by exact_mod_cast h
    exact mul_le_mul_of_nonneg_left hscale (by positivity)
  calc (valueE6 deposited price decimals : ℚ)
      ≤ ((deposited.toNat * price.price.toU128 * 1000000 / 10 ^ price.expoAbs : ℕ) : ℚ) /
          ((10 ^ decimals.toNat : ℕ) : ℚ) := Nat.cast_div_le
    _ ≤ deposited.toNat * price.price.toInt * 1000000 * 10 ^ price.expo.toInt /
          ((10 ^ decimals.toNat : ℕ) : ℚ) :=
        div_le_div_of_nonneg_right hinner (Nat.cast_nonneg _)
    _ = price.usd deposited decimals * 1000000 := by
        rw [OraclePrice.usd]
        push_cast
        ring

/-! ## Liquidatable positions -/

namespace LiquidationAccounts

def value (l : LiquidationAccounts) (price : OraclePrice) : Nat :=
  valueE6 l.vault.depositedAmount price l.collateralDecimals

/-- Principal and stored fees. -/
def debt (l : LiquidationAccounts) : Nat :=
  l.position.debtAmount.toNat + l.position.accruedFees.toNat

def debtValue (l : LiquidationAccounts) : Nat := debtE6 l.debt l.sssDecimals

/-- There is collateral, and it can be valued. None of this depends on the debt. -/
structure Priced (l : LiquidationAccounts) (price : OraclePrice) : Prop where
  deposited : 0 < l.vault.depositedAmount
  fits : ValueFits l.vault.depositedAmount price l.collateralDecimals
  ratio : l.value price * 10000 < 2 ^ 128
  decimals : l.sssDecimals.toNat ≤ 38

end LiquidationAccounts

theorem checkLiquidatable_isOk {t : Nat} :
    (checkLiquidatable l price t).isOk = true ↔
      l.Priced price ∧ l.debt < 2 ^ 64 ∧ Under 10000 t (l.value price) l.debtValue := by
  simp only [isOk_iff, checkLiquidatable, bind_eq_ok, require_eq_ok, collateralValueUsdE6_eq_ok,
    Option.okOr_eq_ok, UInt64.checkedAdd_eq_some, debtUsdE6_eq_ok, ratioBps_eq_ok, pure_eq_ok]
  constructor
  · rintro ⟨_, -, hdep, _, ⟨hfits, rfl⟩, d, hd, -, -, _, ⟨hdec, rfl⟩, _, ⟨hratio, hpos, rfl⟩, -,
      hlt, -⟩
    have hsum : l.debt = d.toNat := hd.symm
    have hlt64 := d.toNat_lt
    refine ⟨⟨hdep, hfits, hratio, hdec⟩, by omega, ?_⟩
    rw [LiquidationAccounts.debtValue, hsum]
    exact (div_lt_iff hpos).mp hlt
  · rintro ⟨⟨hdep, hfits, hratio, hdec⟩, hlt64, hunder⟩
    have hsum : (UInt64.ofNat l.debt).toNat = l.debt := UInt64.toNat_ofNat_of_lt' hlt64
    have hpos := hunder.debt_pos
    have hdebt : 0 < UInt64.ofNat l.debt := by
      rw [UInt64.lt_iff_toNat_lt, hsum]
      by_contra hzero
      rw [LiquidationAccounts.debtValue, Nat.eq_zero_of_not_pos hzero] at hpos
      simp [debtE6] at hpos
    refine ⟨_, (), hdep, _, ⟨hfits, rfl⟩, .ofNat l.debt, hsum, (), hdebt, _, ⟨hdec, rfl⟩, _,
      ⟨hratio, ?_, rfl⟩, (), ?_, rfl⟩
    · rw [hsum]
      exact hpos
    · rw [hsum]
      exact (div_lt_iff hpos).mpr hunder

/-- A liquidation engine with the parameters it is given. -/
inductive Engine where
  | cdpLiquidate (cc : Option CollateralConfig)
  | cdpLiquidateV2 (cc : CollateralConfig)

namespace Engine

def threshold : Engine → Nat
  | cdpLiquidate cc => (liquidationParams cc).1
  | cdpLiquidateV2 cc => cc.liquidationThresholdBps.toNat

/-- `cdp_liquidate_v2` wants the collateral whitelisted. -/
def admits : Engine → Bool
  | cdpLiquidate _ => true
  | cdpLiquidateV2 cc => cc.whitelisted

/-- The engine takes the position to be liquidatable. -/
def accepts (e : Engine) (l : LiquidationAccounts) (price : OraclePrice) : Bool :=
  e.admits && (checkLiquidatable l price e.threshold).isOk

theorem accepts_iff {e : Engine} :
    e.accepts l price = true ↔ e.admits = true ∧ l.Priced price ∧ l.debt < 2 ^ 64 ∧
      Under 10000 e.threshold (l.value price) l.debtValue := by
  rw [accepts, Bool.and_eq_true, checkLiquidatable_isOk]

end Engine

/-- The price that `cdp_liquidate` reads. -/
def CdpLiquidate.readPrice (a : CdpLiquidate) (rt : Runtime) (clock : Clock) (s : State) :
    Result OraclePrice := do
  let config ← SolanaStablecoin.load s.configs (.stablecoinConfig a.sssMint)
  let oc ← loadOracleConsensus s a.oracleConsensus a.sssMint
  getEffectiveOraclePrice rt clock s a.pythPriceFeed config oc

/-- The price that `cdp_liquidate_v2` reads. -/
def CdpLiquidate.readPriceV2 (a : CdpLiquidate) (rt : Runtime) (clock : Clock) (s : State) :
    Result OraclePrice := do
  let config ← SolanaStablecoin.load s.configs (.stablecoinConfig a.sssMint)
  liquidateV2Price rt clock s config a.pythPriceFeed

/-- What passed as the collateral config of a liquidation is the one at the derived address. -/
theorem CdpLiquidate.loadCollateralConfig_ok {a : CdpLiquidate} {passed : Bool} {e : SssError}
    {cc : Option CollateralConfig} (h : a.loadCollateralConfig s passed e = .ok cc) :
    ∀ c ∈ cc, s.collateralConfigs (.collateralConfig a.sssMint a.collateralMint) = some c := by
  rcases loadCollateralConfig_eq_ok (CdpLiquidate.loadsCollateralConfig h) with
    ⟨-, rfl⟩ | ⟨-, c, rfl, hc⟩
  · rintro _ ⟨⟩
  · rintro _ ⟨⟩
    exact hc

/-- A liquidation that goes through accepted the position at the price it read. -/
theorem accepts_of_cdpLiquidate {a : CdpLiquidate} {min repay : UInt64}
    (h : cdpLiquidateHandler rt clock s a min repay = .ok s') :
    ∃ l cc price, a.Loaded s l ∧ a.readPrice rt clock s = .ok price ∧
      (∀ c ∈ cc, s.collateralConfigs (.collateralConfig a.sssMint a.collateralMint) = some c) ∧
      (Engine.cdpLiquidate cc).accepts l price = true := by
  obtain ⟨l, cc, oc, price, debt, p', burned, seized, hl, hcc, hoc, hprice, hdebt, -⟩ :=
    cdpLiquidateHandler_ok h
  refine ⟨l, cc, price, hl, ?_, CdpLiquidate.loadCollateralConfig_ok hcc, ?_⟩
  · simp only [CdpLiquidate.readPrice, bind_eq_ok, load_eq_ok]
    exact ⟨_, hl.config, oc, hoc, hprice⟩
  · rw [Engine.accepts, Engine.admits, Bool.true_and]
    exact isOk_iff.mpr ⟨debt, hdebt⟩

theorem accepts_of_cdpLiquidateV2 {a : CdpLiquidate} {repay min : UInt64}
    (h : cdpLiquidateV2Handler rt clock s a repay min = .ok s') :
    ∃ l cc price, a.Loaded s l ∧ a.readPriceV2 rt clock s = .ok price ∧
      s.collateralConfigs (.collateralConfig a.sssMint a.collateralMint) = some cc ∧
      (Engine.cdpLiquidateV2 cc).accepts l price = true := by
  obtain ⟨l, cc, price, debt, p', burned, seized, hl, hcc, hprice, hwhite, hdebt, -⟩ :=
    cdpLiquidateV2Handler_ok h
  refine ⟨l, cc, price, hl, ?_, CdpLiquidate.loadCollateralConfig_ok hcc cc rfl, ?_⟩
  · simp only [CdpLiquidate.readPriceV2, bind_eq_ok, load_eq_ok]
    exact ⟨_, hl.config, hprice⟩
  · rw [Engine.accepts, Engine.admits, hwhite, Bool.true_and]
    exact isOk_iff.mpr ⟨debt, hdebt⟩

/-! ## What a borrow leaves behind -/

/-- The price that a borrow reads. -/
def CdpBorrowStable.readPrice (a : CdpBorrowStable) (rt : Runtime) (clock : Clock) (s : State) :
    Result OraclePrice := do
  let config ← load s.configs (.stablecoinConfig a.sssMint)
  let oc ← loadOracleConsensus s a.oracleConsensus a.sssMint
  getEffectiveOraclePrice rt clock s a.pythPriceFeed config oc

theorem maxBorrowSss_ok {value max : Nat} {decimals : UInt8}
    (h : maxBorrowSss value decimals = .ok max) :
    max = value * 10000 / CdpPosition.minCollateralRatioBps * 10 ^ decimals.toNat / 1000000 := by
  simp only [maxBorrowSss, bind_eq_ok, Option.okOr_eq_ok, U128.checkedMul_eq_some,
    U128.pow10_eq_some, pure_eq_ok] at h
  obtain ⟨_, ⟨rfl, -⟩, _, ⟨rfl, -⟩, _, ⟨rfl, -⟩, rfl⟩ := h
  rfl

/-- The position that a borrow leaves: locked to the mint it names, with at most the debt that was
compared with the collateral. -/
theorem Borrowed.position {a : CdpBorrowStable} {c : StablecoinConfig} {v : CollateralVault}
    (h : Borrowed clock s a n s' c v) :
    ∃ p, s'.cdpPositions (.cdpPosition a.sssMint a.user.key) = some p ∧
      p.collateralMint = a.collateralMint ∧
      p.debtAmount.toNat + p.accruedFees.toNat ≤ (a.position s).debtAmount.toNat +
        ((a.position s).totalAccrued c clock.unixTimestamp).toNat + n.toNat := by
  obtain ⟨q, x, htouch, hx, hput⟩ := h.positions
  obtain ⟨hlock, hdebt, -, -, hfees⟩ := CdpPosition.touch_ok htouch
  refine ⟨{ q with debtAmount := x }, by rw [hput, put_self], hlock, ?_⟩
  have hle := UInt64.le_iff_toNat_le.mp hfees
  rw [hdebt] at hx
  simp only [hx]
  omega

/-- The collateral is worth 150% of the debt or more, exactly and in the rounded values that a
liquidation compares. -/
structure Covered (p : CdpPosition) (deposited : UInt64) (price : OraclePrice)
    (sssDecimals collateralDecimals : UInt8) : Prop where
  exact : p.usd sssDecimals * (CdpPosition.minCollateralRatioBps / 10000) ≤
    price.usd deposited collateralDecimals
  rounded : ¬Under 10000 CdpPosition.minCollateralRatioBps
    (valueE6 deposited price collateralDecimals)
    (debtE6 (p.debtAmount.toNat + p.accruedFees.toNat) sssDecimals)

theorem covered_of_le {p : CdpPosition} {deposited : UInt64} {sssDecimals decimals : UInt8}
    (hprice : 0 ≤ price.price.toInt)
    (h : p.debtAmount.toNat + p.accruedFees.toNat ≤ valueE6 deposited price decimals * 10000 /
      CdpPosition.minCollateralRatioBps * 10 ^ sssDecimals.toNat / 1000000) :
    Covered p deposited price sssDecimals decimals := by
  refine ⟨?_, not_under_of_le h⟩
  have hdebt := cast_le_of_le (K := ℚ) h
  have hvalue := valueE6_le_usd deposited decimals hprice
  have hscale : (0 : ℚ) < 10 ^ sssDecimals.toNat := by positivity
  simp only [CdpPosition.minCollateralRatioBps] at hdebt ⊢
  push_cast at hdebt
  calc p.usd sssDecimals * ((15000 : ℕ) / 10000)
      ≤ valueE6 deposited price decimals * 10000 / 15000 * 10 ^ sssDecimals.toNat / 1000000 /
          10 ^ sssDecimals.toNat * ((15000 : ℕ) / 10000) := by
        unfold CdpPosition.usd
        gcongr
    _ = valueE6 deposited price decimals / 1000000 := by
        field_simp
        norm_num
    _ ≤ price.usd deposited decimals := by
        rw [div_le_iff₀ (by norm_num)]
        exact hvalue

/-- At a price of zero nothing could be borrowed. -/
theorem Collateralised.price_pos {a : CdpBorrowStable} {c : StablecoinConfig}
    {v : CollateralVault} {m m' : Mint} (h : Collateralised rt clock s a n c v price m m')
    (hn : 0 < n) : 0 < price.price.toInt := by
  obtain ⟨value, max, hvalue, hmax, hle⟩ := h.debt_le
  obtain ⟨hfits, rfl⟩ := collateralValueUsdE6_eq_ok.mp hvalue
  apply lt_of_le_of_ne (hfits.price_nonneg h.deposited)
  intro hzero
  have hprice : price.price.toU128 = 0 := by
    rw [Int64.toU128, ← hzero]
    rfl
  have hpos := UInt64.lt_iff_toNat_lt.mp hn
  rw [maxBorrowSss_ok hmax, valueE6, hprice] at hle
  simp at hle hpos
  omega

theorem Collateralised.covered {a : CdpBorrowStable} {c : StablecoinConfig} {v : CollateralVault}
    {m m' : Mint} {p : CdpPosition} (h : Collateralised rt clock s a n c v price m m')
    (hp : p.debtAmount.toNat + p.accruedFees.toNat ≤ (a.position s).debtAmount.toNat +
      ((a.position s).totalAccrued c clock.unixTimestamp).toNat + n.toNat) :
    Covered p v.depositedAmount price m.decimals m'.decimals := by
  obtain ⟨value, max, hvalue, hmax, hle⟩ := h.debt_le
  obtain ⟨hfits, rfl⟩ := collateralValueUsdE6_eq_ok.mp hvalue
  rw [maxBorrowSss_ok hmax] at hle
  exact covered_of_le (hfits.price_nonneg h.deposited) (hp.trans hle)

/-- The position, its collateral and the decimals of both mints are as they were. -/
structure SameHealth (s s' : State) (sssMint owner collateralMint : Pubkey) : Prop where
  position : s'.cdpPositions (.cdpPosition sssMint owner) =
    s.cdpPositions (.cdpPosition sssMint owner)
  deposited : (s'.collateralVaults (.collateralVault sssMint owner collateralMint)).map
      CollateralVault.depositedAmount =
    (s.collateralVaults (.collateralVault sssMint owner collateralMint)).map
      CollateralVault.depositedAmount
  sssDecimals : (s'.tokens.mints sssMint).map Mint.decimals =
    (s.tokens.mints sssMint).map Mint.decimals
  collateralDecimals : (s'.tokens.mints collateralMint).map Mint.decimals =
    (s.tokens.mints collateralMint).map Mint.decimals

/-- The two prices are the same number; their confidence may differ. -/
def OraclePrice.Same (p q : OraclePrice) : Prop := q.price = p.price ∧ q.expo = p.expo

/-- A position in `s` and what a liquidation is told about it. -/
structure Left (s : State) (sssMint owner collateralMint : Pubkey) (p : CdpPosition)
    (deposited : UInt64) (sssDecimals collateralDecimals : UInt8) : Prop where
  position : s.cdpPositions (.cdpPosition sssMint owner) = some p
  locked : p.collateralMint = collateralMint
  deposited : (s.collateralVaults (.collateralVault sssMint owner collateralMint)).map
    CollateralVault.depositedAmount = some deposited
  sssDecimals : (s.tokens.mints sssMint).map Mint.decimals = some sssDecimals
  collateralDecimals : (s.tokens.mints collateralMint).map Mint.decimals = some collateralDecimals

variable {sssMint owner collateralMint : Pubkey} {p : CdpPosition} {deposited : UInt64}
  {sssDecimals collateralDecimals : UInt8}

theorem SameHealth.left (h : SameHealth s s' sssMint owner collateralMint)
    (hl : Left s sssMint owner collateralMint p deposited sssDecimals collateralDecimals) :
    Left s' sssMint owner collateralMint p deposited sssDecimals collateralDecimals where
  position := h.position.trans hl.position
  locked := hl.locked
  deposited := h.deposited.trans hl.deposited
  sssDecimals := h.sssDecimals.trans hl.sssDecimals
  collateralDecimals := h.collateralDecimals.trans hl.collateralDecimals

/-- A covered position is not accepted by an engine whose threshold is at most the ratio that a
borrow demands. -/
theorem Left.not_accepts {b : CdpLiquidate} {e : Engine} {q : OraclePrice}
    (h : Left s b.sssMint b.cdpOwner collateralMint p deposited sssDecimals collateralDecimals)
    (hcover : Covered p deposited price sssDecimals collateralDecimals) (hl : b.Loaded s l)
    (hsame : price.Same q) (hthreshold : e.threshold ≤ CdpPosition.minCollateralRatioBps) :
    e.accepts l q ≠ true := by
  intro haccepts
  obtain ⟨-, -, -, hunder⟩ := Engine.accepts_iff.mp haccepts
  have hp : p = l.position := Option.some.inj (h.position.symm.trans hl.position)
  obtain ⟨m, hm, hdec⟩ := hl.sssMint
  obtain ⟨m', hm', hdec'⟩ := hl.collateralMint
  have hmint : collateralMint = b.collateralMint := by rw [← h.locked, hp, hl.locked]
  have hdeposited := h.deposited
  have hsss := h.sssDecimals
  have hcollateral := h.collateralDecimals
  rw [hmint, hl.vault, Option.map_some, Option.some.injEq] at hdeposited
  rw [hm, Option.map_some, Option.some.injEq, ← hdec] at hsss
  rw [hmint, hm', Option.map_some, Option.some.injEq, ← hdec'] at hcollateral
  subst hp hdeposited hsss hcollateral
  have hvalue : l.value q = valueE6 l.vault.depositedAmount price l.collateralDecimals := by
    rw [LiquidationAccounts.value, valueE6, valueE6, OraclePrice.expoAbs, OraclePrice.expoAbs,
      hsame.1, hsame.2]
  rw [hvalue] at hunder
  exact hcover.rounded (hunder.mono hthreshold le_rfl le_rfl)

theorem CollateralConfig.threshold_le {ltv threshold bonus : UInt16} {u : Unit}
    (h : CollateralConfig.validate ltv threshold bonus = .ok u) : threshold.toNat ≤ 10000 := by
  simp only [CollateralConfig.validate, bind_eq_ok, require_eq_ok] at h
  obtain ⟨-, -, -, hle, -⟩ := h
  exact UInt16.le_iff_toNat_le.mp hle

/-- The collateral config of the pair, if there is one, passes validation. -/
def ValidConfig (s : State) (sssMint collateralMint : Pubkey) : Prop :=
  ∀ cc, s.collateralConfigs (.collateralConfig sssMint collateralMint) = some cc →
    CollateralConfig.validate cc.maxLtvBps cc.liquidationThresholdBps cc.liquidationBonusBps =
      .ok ()

/-- Neither engine liquidates the position: not in any state that has it as it is in `s`, at a
price that is the same number. -/
def Unliquidatable (rt : Runtime) (s : State) (sssMint owner collateralMint : Pubkey)
    (price : OraclePrice) : Prop :=
  ∀ s' clock (b : CdpLiquidate), b.sssMint = sssMint → b.cdpOwner = owner →
    SameHealth s s' sssMint owner collateralMint → ValidConfig s' sssMint b.collateralMint →
    ((∀ q, b.readPrice rt clock s' = .ok q → price.Same q) →
      ∀ x y, Refused rt clock s' (.cdpLiquidate b x y)) ∧
    ((∀ q, b.readPriceV2 rt clock s' = .ok q → price.Same q) →
      ∀ x y, Refused rt clock s' (.cdpLiquidateV2 b x y))

theorem Left.unliquidatable
    (h : Left s sssMint owner collateralMint p deposited sssDecimals collateralDecimals)
    (hcover : Covered p deposited price sssDecimals collateralDecimals) :
    Unliquidatable rt s sssMint owner collateralMint price := by
  rintro s' clock b rfl rfl hsame hvalid
  have hleft := hsame.left h
  constructor
  · intro hprice x y
    apply refused_of_not_ok
    intro s'' hok
    obtain ⟨l, cc, q, hl, hq, hcc, haccepts⟩ := accepts_of_cdpLiquidate hok
    refine hleft.not_accepts hcover hl (hprice q hq) ?_ haccepts
    cases cc with
    | none => decide
    | some cc => exact (CollateralConfig.threshold_le (hvalid cc (hcc cc rfl))).trans (by decide)
  · intro hprice x y
    apply refused_of_not_ok
    intro s'' hok
    obtain ⟨l, cc, q, hl, hq, hcc, haccepts⟩ := accepts_of_cdpLiquidateV2 hok
    refine hleft.not_accepts hcover hl (hprice q hq) ?_ haccepts
    exact (CollateralConfig.threshold_le (hvalid cc hcc)).trans (by decide)

/-- After a borrow at some price the collateral is worth 150% of principal and fees, and nobody
can liquidate the position at that price. -/
theorem borrow_safety {a : CdpBorrowStable} (h : cdpBorrowStableHandler rt clock s a n = .ok s') :
    ∃ price p deposited sssDecimals collateralDecimals,
      a.readPrice rt clock s = .ok price ∧ 0 < price.price.toInt ∧
      Left s' a.sssMint a.user.key a.collateralMint p deposited sssDecimals collateralDecimals ∧
      Covered p deposited price sssDecimals collateralDecimals ∧
      Unliquidatable rt s' a.sssMint a.user.key a.collateralMint price := by
  obtain ⟨c, v, price, m, m', hborrowed, hcollateral⟩ := cdpBorrowStableHandler_ok h
  obtain ⟨p, hp, hlock, hdebt⟩ := hborrowed.position
  have hcover := hcollateral.covered hdebt
  obtain ⟨oc, hoc, hread⟩ := hcollateral.price_eq
  have hkeeps := hborrowed.tokens.keepsMints
  obtain ⟨x, hx⟩ := hkeeps _ _ hcollateral.sssMint_eq
  obtain ⟨y, hy⟩ := hkeeps _ _ hcollateral.collateralMint_eq
  have hleft : Left s' a.sssMint a.user.key a.collateralMint p v.depositedAmount m.decimals
      m'.decimals :=
    { position := hp
      locked := hlock
      deposited := by rw [hborrowed.vaults, hborrowed.vault, Option.map_some]
      sssDecimals := by rw [hx, Option.map_some]
      collateralDecimals := by rw [hy, Option.map_some] }
  refine ⟨price, p, _, _, _, ?_, hcollateral.price_pos hborrowed.positive, hleft, hcover,
    hleft.unliquidatable hcover⟩
  simp only [CdpBorrowStable.readPrice, bind_eq_ok, load_eq_ok]
  exact ⟨c, hborrowed.config, oc, hoc, hread⟩

open Market in
/-- A loan of 100 against 500 of gold at one dollar. -/
theorem borrow_safety_funded :
    ∃ s' price p deposited sssDecimals collateralDecimals,
      cdpBorrowStableHandler localRuntime (day 0) (run localRuntime genesis (Market.deposited 1000))
        borrower 100 = .ok s' ∧
      Covered p deposited price sssDecimals collateralDecimals ∧
      Unliquidatable localRuntime s' mint.key user.key gold.key price := by
  have hisOk : (cdpBorrowStableHandler localRuntime (day 0)
      (run localRuntime genesis (Market.deposited 1000)) borrower 100).isOk = true := by
    decide +kernel
  obtain ⟨s', hok⟩ := isOk_iff.mp hisOk
  obtain ⟨price, p, deposited, m, m', -, -, -, hcover, hunliq⟩ := borrow_safety hok
  exact ⟨s', price, p, deposited, m, m', hok, hcover, hunliq⟩

/-! ## The threshold of a collateral config

It is validated as a part of the collateral's value that the debt may reach, and compared with the
part of the debt that the collateral is worth. -/

/-- Every position that can be valued and owes more than the threshold allows is accepted by both
engines. -/
def NoBand (cc : CollateralConfig) : Prop :=
  ∀ l price, l.Priced price → l.debt < 2 ^ 64 →
    Over 10000 cc.liquidationThresholdBps.toNat (l.value price) l.debtValue →
    (Engine.cdpLiquidate (some cc)).accepts l price = true ∧
      (Engine.cdpLiquidateV2 cc).accepts l price = true

theorem accepts_both_iff {cc : CollateralConfig} :
    (Engine.cdpLiquidate (some cc)).accepts l price = true ∧
        (Engine.cdpLiquidateV2 cc).accepts l price = true ↔
      cc.whitelisted = true ∧ l.Priced price ∧ l.debt < 2 ^ 64 ∧
        Under 10000 cc.liquidationThresholdBps.toNat (l.value price) l.debtValue := by
  rw [Engine.accepts_iff, Engine.accepts_iff]
  exact ⟨And.right, fun h => ⟨⟨rfl, h.2⟩, h⟩⟩

/-- A position in millionths of a dollar. -/
def sampleAccounts (deposited debt : UInt64) : LiquidationAccounts :=
  { config := {}, sssDecimals := 6, position := { debtAmount := debt }
    vault := { depositedAmount := deposited }, collateralDecimals := 6 }

def samplePrice : OraclePrice := { price := 1, conf := 0, expo := 0 }

theorem sampleAccounts_priced (debt : UInt64) : (sampleAccounts 1 debt).Priced samplePrice :=
  have h : (sampleAccounts 1 0).Priced samplePrice :=
    ⟨by decide, ⟨by decide, by decide, by decide⟩, by decide, by decide⟩
  ⟨h.deposited, h.fits, h.ratio, h.decimals⟩

theorem noBand_iff {cc : CollateralConfig} (h : cc.liquidationThresholdBps.toNat ≤ 10000) :
    NoBand cc ↔ cc.whitelisted = true ∧ cc.liquidationThresholdBps.toNat = 10000 := by
  constructor
  · intro hno
    constructor
    · -- a debt of twice the collateral is over every threshold
      have hover : Over 10000 cc.liquidationThresholdBps.toNat
          ((sampleAccounts 1 2).value samplePrice) (sampleAccounts 1 2).debtValue := by
        change cc.liquidationThresholdBps.toNat * 1 < 10000 * 2
        omega
      have haccepts := hno _ _ (sampleAccounts_priced 2) (by decide) hover
      exact (accepts_both_iff.mp haccepts).1
    · -- below 10000 a debt equal to the collateral is in the band
      refine le_antisymm h (Nat.not_lt.mp fun hlt => ?_)
      obtain ⟨hover, hunder⟩ := band_of_lt hlt (Nat.one_pos)
      have haccepts := hno _ _ (sampleAccounts_priced 1) (by decide) hover
      exact hunder (accepts_both_iff.mp haccepts).2.2.2
  · rintro ⟨hwhite, heq⟩ l price hpriced hdebt hover
    exact accepts_both_iff.mpr ⟨hwhite, hpriced, hdebt, hover.under heq.ge⟩

/-- With a valid config both engines accept a position over the threshold exactly when it is under
it the other way round as well, which leaves no band only for a threshold of 10000. -/
theorem liquidation_threshold (cc : CollateralConfig)
    (hvalid : CollateralConfig.validate cc.maxLtvBps cc.liquidationThresholdBps
      cc.liquidationBonusBps = .ok ()) :
    (NoBand cc ↔ cc.whitelisted = true ∧ cc.liquidationThresholdBps.toNat = 10000) ∧
    ∀ l price, Over 10000 cc.liquidationThresholdBps.toNat (l.value price) l.debtValue →
      ((Engine.cdpLiquidate (some cc)).accepts l price = true ∧
          (Engine.cdpLiquidateV2 cc).accepts l price = true ↔
        cc.whitelisted = true ∧ l.Priced price ∧ l.debt < 2 ^ 64 ∧
          Under 10000 cc.liquidationThresholdBps.toNat (l.value price) l.debtValue) :=
  ⟨noBand_iff (CollateralConfig.threshold_le hvalid), fun _ _ _ => accepts_both_iff⟩

/-- A config with a threshold of 80%. -/
def sampleConfig : CollateralConfig :=
  { whitelisted := true, maxLtvBps := 7500, liquidationThresholdBps := 8000
    liquidationBonusBps := 500 }

/-- At 80% there is a band. -/
theorem liquidation_threshold_sample : ¬NoBand sampleConfig := by
  intro hno
  have heq := ((liquidation_threshold sampleConfig rfl).1.mp hno).2
  exact absurd heq (by decide)

/-- Over the threshold, and refused by both engines. -/
structure InBand (cc : CollateralConfig) (l : LiquidationAccounts) (price : OraclePrice) :
    Prop where
  exceeds : Over 10000 cc.liquidationThresholdBps.toNat (l.value price) l.debtValue
  refused : (Engine.cdpLiquidate (some cc)).accepts l price = false
  refusedV2 : (Engine.cdpLiquidateV2 cc).accepts l price = false

/-- At a threshold of 80% a debt of 90 is in the band when the collateral is worth 100, and still
when it has fallen to 80. -/
theorem overdue_refused :
    CollateralConfig.validate sampleConfig.maxLtvBps sampleConfig.liquidationThresholdBps
        sampleConfig.liquidationBonusBps = .ok () ∧
      InBand sampleConfig (sampleAccounts 100 90) samplePrice ∧
      InBand sampleConfig (sampleAccounts 80 90) samplePrice :=
  ⟨rfl, ⟨by decide +kernel, by decide +kernel, by decide +kernel⟩,
    ⟨by decide +kernel, by decide +kernel, by decide +kernel⟩⟩

/-! ## Fees that are due and not stored -/

/-- The two handlers that accrue compute the same fee, as far as both compute one. -/
theorem newFee_eq_pendingFees {p : CdpPosition} {config : StablecoinConfig} {now : Int64}
    {fee : UInt64} (hlast : 0 < p.lastFeeAccrual.toInt)
    (h : p.newFee config.stabilityFeeBps now = .ok fee) : fee = p.pendingFees config now := by
  simp only [CdpPosition.newFee, bind_eq_ok, Option.okOr_eq_ok, pure_eq_ok] at h
  obtain ⟨v, hv, w, hw, rfl⟩ := h
  unfold CdpPosition.pendingFees
  split
  · simp only [hv, hw, Option.getD_some]
  next hzero =>
    -- without a fee the product is zero
    have hfee : config.stabilityFeeBps.toNat = 0 := by
      by_contra hne
      exact hzero ⟨hlast, UInt16.lt_iff_toNat_lt.mpr (Nat.pos_of_ne_zero hne)⟩
    obtain ⟨rfl, -⟩ := U128.checkedMul_eq_some.mp hv
    obtain ⟨rfl, -⟩ := U128.checkedMul_eq_some.mp hw
    rw [hfee, Nat.mul_zero, Nat.zero_mul, Nat.zero_div]
    rfl

/-- What `accrued_fees` becomes when the fee that is due is added to it: by `cdp_borrow_stable`, or
by the sum that `collect_stability_fee` charges. -/
def CdpPosition.FeesDue (p : CdpPosition) (config : StablecoinConfig) (now : Int64)
    (fees : UInt64) : Prop :=
  fees = p.totalAccrued config now ∨
    ∃ fee, p.newFee config.stabilityFeeBps now = .ok fee ∧ p.accruedFees.checkedAdd fee = some fees

theorem CdpPosition.FeesDue.le {p : CdpPosition} {config : StablecoinConfig} {now : Int64}
    {fees : UInt64} (h : p.FeesDue config now fees) : p.accruedFees.toNat ≤ fees.toNat := by
  rcases h with rfl | ⟨fee, -, hsum⟩
  · unfold CdpPosition.totalAccrued
    cases hsum : p.accruedFees.checkedAdd (p.pendingFees config now) with
    | none => rfl
    | some total =>
      rw [Option.getD_some, UInt64.checkedAdd_eq_some.mp hsum]
      omega
  · rw [UInt64.checkedAdd_eq_some.mp hsum]
    omega

/-- The same accounts with the fees stored. -/
def LiquidationAccounts.accrue (l : LiquidationAccounts) (fees : UInt64) : LiquidationAccounts :=
  { l with position := { l.position with accruedFees := fees } }

theorem LiquidationAccounts.accrue_priced {fees : UInt64} :
    (l.accrue fees).Priced price ↔ l.Priced price :=
  ⟨fun h => ⟨h.deposited, h.fits, h.ratio, h.decimals⟩,
    fun h => ⟨h.deposited, h.fits, h.ratio, h.decimals⟩⟩

/-- Only the fee that is not stored makes the position liquidatable. -/
def Lifts (t : Nat) (l : LiquidationAccounts) (price : OraclePrice) (fees : UInt64) : Prop :=
  ¬Under 10000 t (l.value price) l.debtValue ∧
    Under 10000 t (l.value price) (l.accrue fees).debtValue ∧ (l.accrue fees).debt < 2 ^ 64

/-- A liquidatable position whose debt leaves the machine range with the fee. -/
def Spills (t : Nat) (l : LiquidationAccounts) (price : OraclePrice) (fees : UInt64) : Prop :=
  Under 10000 t (l.value price) l.debtValue ∧ l.debt < 2 ^ 64 ∧ ¬(l.accrue fees).debt < 2 ^ 64

/-- Two decisions under the same guards, the first in the larger range and the second on the weaker
condition, differ in one of two ways. -/
theorem same_decision_iff {A P B B' U U' : Prop} (hunder : U → U') (hrange : B' → B) :
    (A ∧ P ∧ B ∧ U ↔ A ∧ P ∧ B' ∧ U') ↔ ¬(A ∧ P ∧ (¬U ∧ U' ∧ B' ∨ U ∧ B ∧ ¬B')) := by
  tauto

/-- An engine decides the same with and without the fee stored, except where the fee lifts the
debt over the threshold or out of range. -/
theorem liquidation_pending_fees (e : Engine) {now : Int64} {fees : UInt64}
    (h : l.position.FeesDue l.config now fees) :
    (e.accepts l price = true ↔ e.accepts (l.accrue fees) price = true) ↔
      ¬(e.admits = true ∧ l.Priced price ∧
        (Lifts e.threshold l price fees ∨ Spills e.threshold l price fees)) := by
  have hdebt : l.debt ≤ (l.accrue fees).debt := Nat.add_le_add_left h.le _
  have hvalue : l.debtValue ≤ (l.accrue fees).debtValue := debtE6_mono hdebt _
  have hunder : Under 10000 e.threshold (l.value price) l.debtValue →
      Under 10000 e.threshold (l.value price) (l.accrue fees).debtValue :=
    fun h => h.mono le_rfl le_rfl hvalue
  have hrange : (l.accrue fees).debt < 2 ^ 64 → l.debt < 2 ^ 64 := hdebt.trans_lt
  rw [Engine.accepts_iff, Engine.accepts_iff, LiquidationAccounts.accrue_priced]
  exact same_decision_iff hunder hrange

/-- A position opened at second 1 with a fee of 20% a year. -/
def agingAccounts (deposited debt : UInt64) : LiquidationAccounts :=
  { config := { stabilityFeeBps := 2000 }, sssDecimals := 6
    position := { debtAmount := debt, lastFeeAccrual := 1 }
    vault := { depositedAmount := deposited }, collateralDecimals := 6 }

/-- Three years on a fee of 60 is due on 100. The position is liquidatable with it and without
it. -/
theorem liquidation_pending_fees_aging :
    (Engine.cdpLiquidate none).accepts (agingAccounts 110 100) samplePrice = true ↔
      (Engine.cdpLiquidate none).accepts ((agingAccounts 110 100).accrue 60) samplePrice =
        true := by
  have hdue : (agingAccounts 110 100).position.FeesDue (agingAccounts 110 100).config 94608001 60 :=
    .inl (by decide +kernel)
  apply (liquidation_pending_fees _ hdue).mpr
  rintro ⟨-, -, ⟨hunder, -⟩ | ⟨-, -, hspill⟩⟩
  · exact hunder (by decide +kernel)
  · exact absurd hspill (by decide +kernel)

/-- After a year a fee of 21 is due on a debt of 108. With it stored both engines accept, without
it neither does. -/
theorem pending_fees_ignored :
    (agingAccounts 130 108).position.FeesDue { stabilityFeeBps := 2000 } 31536001 21 ∧
      (Engine.cdpLiquidate none).accepts (agingAccounts 130 108) samplePrice = false ∧
      (Engine.cdpLiquidate none).accepts ((agingAccounts 130 108).accrue 21) samplePrice = true ∧
      (Engine.cdpLiquidateV2 sampleConfig).accepts (agingAccounts 100 108) samplePrice = false ∧
      (Engine.cdpLiquidateV2 sampleConfig).accepts ((agingAccounts 100 108).accrue 21)
        samplePrice = true :=
  ⟨.inl (by decide +kernel), by decide +kernel⟩

end SolanaStablecoin
