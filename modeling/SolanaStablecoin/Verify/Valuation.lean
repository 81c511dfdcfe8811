import Mathlib.Data.Rat.Floor
import SolanaStablecoin.Base.Scaling
import SolanaStablecoin.Verify.CustomFeed
import SolanaStablecoin.Verify.Health

/-! The value of collateral. Borrows and liquidations divide by the power of ten of the exponent,
whose sign they drop, where a price stands for `price * 10 ^ expo` dollars. -/

namespace SolanaStablecoin

variable {price : OraclePrice} {deposited : UInt64} {decimals : UInt8}

/-- The exact value as a quotient of scales. -/
theorem OraclePrice.usd_e6 (hprice : 0 ≤ price.price.toInt) :
    price.usd deposited decimals * 1000000 =
      ((deposited.toNat * price.price.toU128 * 1000000 : ℕ) : ℚ) *
        ((10 : ℕ) : ℚ) ^ price.expo.toInt / ((10 : ℕ) : ℚ) ^ decimals.toNat := by
  have hcast : ((price.price.toU128 : ℕ) : ℚ) = price.price.toInt := by
    exact_mod_cast toU128_of_nonneg hprice
  rw [OraclePrice.usd]
  push_cast
  rw [hcast]
  ring

theorem OraclePrice.usd_zero : price.usd 0 decimals = 0 := by
  rw [OraclePrice.usd, UInt64.toNat_zero, Nat.cast_zero, zero_div, zero_mul]

theorem valueE6_zero : valueE6 0 price decimals = 0 := by
  rw [valueE6, UInt64.toNat_zero, Nat.zero_mul, Nat.zero_mul, Nat.zero_div, Nat.zero_div]

theorem ValueFits.eq_floor_iff (h : ValueFits deposited price decimals) :
    valueE6 deposited price decimals = ⌊price.usd deposited decimals * 1000000⌋₊ ↔
      price.expo.toInt ≤ 0 ∨ price.usd deposited decimals * 1000000 < 1 := by
  by_cases hzero : deposited = 0
  · rw [hzero, OraclePrice.usd_zero, valueE6_zero, zero_mul, Nat.floor_zero]
    exact iff_of_true rfl (.inr zero_lt_one)
  · have hprice : 0 ≤ price.price.toInt := h.price_nonneg (UInt64.pos_iff_ne_zero.mpr hzero)
    rw [OraclePrice.usd_e6 hprice]
    exact Scaling.div_eq_floor_iff (by decide) ..

/-- The value that is computed of a deposit is the exact one in millionths of a dollar, rounded
down, just when the products and powers fit, and the exponent is not positive or the deposit is
worth less than a millionth of a dollar. -/
theorem collateral_valuation :
    collateralValueUsdE6 deposited price decimals =
        .ok ⌊price.usd deposited decimals * 1000000⌋₊ ↔
      ValueFits deposited price decimals ∧
        (price.expo.toInt ≤ 0 ∨ price.usd deposited decimals * 1000000 < 1) := by
  rw [collateralValueUsdE6_eq_ok]
  constructor
  · rintro ⟨hfits, hvalue⟩
    exact ⟨hfits, hfits.eq_floor_iff.mp hvalue⟩
  · rintro ⟨hfits, hexpo⟩
    exact ⟨hfits, hfits.eq_floor_iff.mpr hexpo⟩

/-- Of 300 at a price of 2500 hundredths. -/
theorem collateral_valuation_cents :
    collateralValueUsdE6 300 { price := 2500, conf := 0, expo := -2 } 6 =
      .ok ⌊OraclePrice.usd { price := 2500, conf := 0, expo := -2 } 300 6 * 1000000⌋₊ :=
  collateral_valuation.mpr ⟨⟨by decide, by decide, by decide⟩, .inl (by decide)⟩

namespace Market

/-- The authority stores a price of one with the exponent `expo`, where the oracle looks for it. -/
def coarse (expo : Int32) : List Action :=
  opening 1000 ++
    timelockedFor adminOpSetOracleConfig oracleCustom.toUInt64 (.customPriceFeed mint.key) 1 ++
    [ .call (day 2) (.initCustomPriceFeed asAuthority),
      .call (day 2) (.updateCustomPrice asAuthority 1 expo 0),
      .world (.createAccount goldAccount gold.key goldVault), depositGold 300 goldAccount ]

/-- Who borrows reads that price. -/
def borrowScaled : CdpBorrowStable := { borrower with pythPriceFeed := .customPriceFeed mint.key }

end Market

open Market in
/-- At ten dollars 300 of gold are taken to be worth 30 millionths instead of 3000, so that 200 may
not be borrowed against them; and a price of `10 ^ (-39)` dollars stops the program. -/
theorem collateral_valuation_inverted :
    Genesis genesis ∧
    (borrowScaled.readPrice localRuntime (day 2) (run localRuntime genesis (coarse 1))).toOption =
      some { price := 1, conf := 0, expo := 1 } ∧
    collateralValueUsdE6 300 { price := 1, conf := 0, expo := 1 } 6 = .ok 30 ∧
    ⌊OraclePrice.usd { price := 1, conf := 0, expo := 1 } 300 6 * 1000000⌋₊ = 3000 ∧
    (cdpBorrowStableHandler localRuntime (day 2) (run localRuntime genesis (coarse 1))
      borrowScaled 200).isOk = false ∧
    (borrowScaled.readPrice localRuntime (day 2)
      (run localRuntime genesis (coarse (-39)))).toOption =
      some { price := 1, conf := 0, expo := -39 } ∧
    (collateralValueUsdE6 300 { price := 1, conf := 0, expo := -39 } 6).isOk = false := by
  refine ⟨genesis_genesis, by decide +kernel, ?_, ?_, by decide +kernel, by decide +kernel, rfl⟩
  · exact collateralValueUsdE6_eq_ok.mpr ⟨⟨by decide, by decide, by decide⟩, by decide⟩
  · rw [OraclePrice.usd_e6 (by decide), Scaling.floor_of_nonneg (by decide)]
    rfl

end SolanaStablecoin
