import Mathlib.Data.Rat.Floor
import SolanaStablecoin.Base.Scaling
import SolanaStablecoin.Verify.Consensus
import SolanaStablecoin.Verify.Scale

/-! The spread that the market makers have to keep to. The price of the oracle is scaled to
millionths of a dollar with a power of ten of 64 bits, for which the oracle layer admits exponents
that are too large and too small. -/

namespace SolanaStablecoin

variable {rt : Runtime} {clock : Clock} {s : State} {config : StablecoinConfig} {acct : Pubkey}
  {p : OraclePrice} {spread : UInt16}

namespace OraclePrice

/-- The price in millionths of a dollar, rounded down. -/
def exactMicroUsd (p : OraclePrice) : Nat := ⌊p.value * 10 ^ 6⌋₊

theorem value_micro {a : Nat} (ha : p.price.toInt = a) :
    p.value * 10 ^ 6 = (a : ℚ) * ((10 : ℕ) : ℚ) ^ (p.expo.toInt + 6) / ((10 : ℕ) : ℚ) ^ 0 := by
  rw [value, ha, Int.cast_natCast, pow_zero, div_one, Nat.cast_ofNat, zpow_add₀ (by norm_num)]
  norm_num
  ring

theorem exactMicroUsd_of_nonneg {a : Nat} (ha : p.price.toInt = a) (he : 0 ≤ p.expo.toInt + 6) :
    p.exactMicroUsd = a * 10 ^ (p.expo.toInt + 6).natAbs := by
  rw [exactMicroUsd, value_micro ha, Scaling.floor_of_nonneg he, pow_zero, Nat.div_one]

theorem exactMicroUsd_of_neg {a : Nat} (ha : p.price.toInt = a) (he : p.expo.toInt + 6 < 0) :
    p.exactMicroUsd = a / 10 ^ (p.expo.toInt + 6).natAbs := by
  rw [exactMicroUsd, value_micro ha, Scaling.floor_of_nonpos he.le, pow_zero, Nat.div_one]

theorem clamp64_natCast (n : Nat) : Int.clamp64 n = (min n (2 ^ 63 - 1) : Nat) := by
  rw [Int.clamp64]
  omega

/-- Where the power of ten fits, the price is scaled as it should, up to the largest number. -/
theorem microUsd_of_fits (hpos : 0 < p.price.toInt) (hlo : -24 ≤ p.expo.toInt)
    (hhi : p.expo.toInt ≤ 18) :
    p.microUsd = .ok (min p.exactMicroUsd (2 ^ 63 - 1) : Nat) := by
  obtain ⟨a, ha⟩ := Int.eq_ofNat_of_zero_le hpos.le
  have hlt : a < 2 ^ 63 := by
    have := p.price.toInt_lt
    omega
  have hcast (k : Nat) : (a : Int) * 10 ^ k = (a * 10 ^ k : Nat) := by push_cast; rfl
  rw [microUsd, expoAbs]
  split
  next he =>
    have hpow : (p.expo.toInt + 6).natAbs = p.expo.toInt.natAbs + 6 := by omega
    have hmillion (n : Nat) : (n : Int) * 1000000 = (n * 1000000 : Nat) := by push_cast; rfl
    rw [pow10I64, if_pos (by omega), ok_bind, ha, exactMicroUsd_of_nonneg ha (by omega), hpow,
      pow_add, ← mul_assoc]
    rw [hcast, clamp64_natCast, hmillion, clamp64_natCast]
    refine congrArg (fun n : Nat => Except.ok (n : Int)) ?_
    omega
  next he =>
    split
    next hlarge =>
      have hpow : (p.expo.toInt + 6).natAbs = p.expo.toInt.natAbs - 6 := by omega
      have hle : a / 10 ^ (p.expo.toInt.natAbs - 6) ≤ a := Nat.div_le_self ..
      have hdiv : (a : Int) / 10 ^ (p.expo.toInt.natAbs - 6) =
          (a / 10 ^ (p.expo.toInt.natAbs - 6) : Nat) := by push_cast; rfl
      rw [pow10I64, if_pos (by omega), ok_bind, ha, exactMicroUsd_of_neg ha (by omega), hpow,
        Nat.min_eq_left (by omega), hdiv]
      rfl
    next hsmall =>
      have hpow : (p.expo.toInt + 6).natAbs = 6 - p.expo.toInt.natAbs := by omega
      rw [pow10I64, if_pos (by omega), ok_bind, ha, exactMicroUsd_of_nonneg ha (by omega), hpow,
        hcast, clamp64_natCast]
      rfl

/-- Elsewhere the computation of the power stops the program. -/
theorem microUsd_panics (h : ¬ (-24 ≤ p.expo.toInt ∧ p.expo.toInt ≤ 18)) :
    p.microUsd = .error .panic := by
  rw [microUsd, expoAbs]
  split
  next he =>
    rw [pow10I64, if_neg (by omega)]
    rfl
  next he =>
    rw [if_pos (by omega), pow10I64, if_neg (by omega)]
    rfl

end OraclePrice

/-- The check accepts the prices that are, in whole millionths, within the spread of one dollar, and
does not stop the program. -/
structure SpreadChecked (rt : Runtime) (clock : Clock) (s : State) (acct : Pubkey)
    (config : StablecoinConfig) (spread : UInt16) (p : OraclePrice) : Prop where
  accepts : checkOracleSpread rt clock s acct config spread = .ok () ↔
    |(p.exactMicroUsd : Int) - 1000000| ≤ spread.toNat * 100
  runs : checkOracleSpread rt clock s acct config spread ≠ .error .panic

theorem getOraclePrice_pos (h : getOraclePrice rt clock s acct config = .ok p) :
    0 < p.price.toInt := by
  simp only [getOraclePrice, bind_eq_ok, require_eq_ok, pure_eq_ok] at h
  obtain ⟨-, -, q, -, -, hpos, -, -, rfl⟩ := h
  exact hpos

/-- A price that stops at the largest number is as far from one dollar as one needs. -/
theorem near_peg_iff {n : Nat} : ((min n (2 ^ 63 - 1) : Nat) - pegPriceMicroUsd).natAbs ≤
    spread.toNat * 100 ↔ |(n : Int) - 1000000| ≤ spread.toNat * 100 := by
  have hspread := spread.toNat_lt
  rw [pegPriceMicroUsd, Int.abs_eq_natAbs]
  omega

theorem spread_check_iff (hfeed : config.oracleFeed ≠ .default)
    (hp : getOraclePrice rt clock s acct config = .ok p) :
    SpreadChecked rt clock s acct config spread p ↔
      -24 ≤ p.expo.toInt ∧ p.expo.toInt ≤ 18 := by
  have hcheck : checkOracleSpread rt clock s acct config spread =
      p.microUsd >>= fun x => require ((x - pegPriceMicroUsd).natAbs ≤ spread.toNat * 100)
        (.sss .oraclePriceOutsideSpread) := by
    rw [checkOracleSpread, requireWhen, if_pos hfeed, hp, ok_bind]
  constructor
  · intro h
    by_contra hexpo
    refine h.runs ?_
    rw [hcheck, OraclePrice.microUsd_panics hexpo]
    rfl
  · intro hexpo
    rw [OraclePrice.microUsd_of_fits (getOraclePrice_pos hp) hexpo.1 hexpo.2, ok_bind] at hcheck
    refine ⟨?_, fun herror => ?_⟩
    · rw [hcheck, require_eq_ok]
      exact near_peg_iff
    · rw [hcheck, require] at herror
      split at herror <;> cases herror

namespace Market

/-- A config that reads a custom feed. -/
def customConfig : StablecoinConfig :=
  { authority := authority.key, mint := mint.key, oracleType := oracleCustom, oracleFeed := feed }

/-- The feed shows this price at the first second. -/
def quoted (price : Int64) (expo : Int32) : State :=
  { genesis with
    customPriceFeeds := fun _ =>
      some { authority := authority.key, price, expo, lastUpdateUnixTimestamp := 1 } }

def slotOne : Clock := { slot := 1, epoch := 0, unixTimestamp := 1 }

end Market

open Market in
/-- Half a percent more than a dollar. -/
theorem spread_check_iff_quoted :
    getOraclePrice localRuntime slotOne (quoted 100500000 (-8)) feed customConfig =
        .ok { price := 100500000, conf := 0, expo := -8 } ∧
      SpreadChecked localRuntime slotOne (quoted 100500000 (-8)) feed customConfig 50
        { price := 100500000, conf := 0, expo := -8 } := by
  have hprice : getOraclePrice localRuntime slotOne (quoted 100500000 (-8)) feed customConfig =
      .ok { price := 100500000, conf := 0, expo := -8 } := by rfl
  exact ⟨hprice, (spread_check_iff (by decide) hprice).mpr (by decide)⟩

open Market in
/-- With an exponent of 19, and with one of -25 and a spread that covers every price below a dollar,
the check stops the program. -/
theorem spread_check_panics :
    getOraclePrice localRuntime slotOne (quoted 1 19) feed customConfig =
        .ok { price := 1, conf := 0, expo := 19 } ∧
      checkOracleSpread localRuntime slotOne (quoted 1 19) feed customConfig 50 =
        .error .panic ∧
      getOraclePrice localRuntime slotOne (quoted 1 (-25)) feed customConfig =
        .ok { price := 1, conf := 0, expo := -25 } ∧
      |(OraclePrice.exactMicroUsd { price := 1, conf := 0, expo := -25 } : Int) - 1000000| ≤
        (10000 : UInt16).toNat * 100 ∧
      checkOracleSpread localRuntime slotOne (quoted 1 (-25)) feed customConfig 10000 =
        .error .panic := by
  have hexact : OraclePrice.exactMicroUsd { price := 1, conf := 0, expo := -25 } = 0 := by
    rw [OraclePrice.exactMicroUsd_of_neg (a := 1) (by decide) (by decide)]
    decide
  refine ⟨by rfl, by rfl, by rfl, ?_, by rfl⟩
  rw [hexact]
  decide

end SolanaStablecoin
