import Mathlib.Data.Rat.Floor
import SolanaStablecoin.Verify.Backstop
import SolanaStablecoin.Verify.Health
import SolanaStablecoin.Verify.Pool
import SolanaStablecoin.Verify.Spread

/-! What a draw of the backstop is worth. The shortfall and the cap are amounts of the stablecoin,
and as many units of the collateral are taken from the fund. -/

namespace SolanaStablecoin

variable {rt : Runtime} {clock : Clock} {s s' : State} {a : BackstopAccounts}
  {c : StablecoinConfig} {r : BackstopReading} {S balance : UInt64}
  {liquidationAuthority insuranceFundAuthority : Pubkey}

/-! ## In dollars -/

namespace BackstopReading

/-- One unit of the collateral in dollars. -/
def collateralUnit (r : BackstopReading) : ℚ := r.oraclePrice.usd 1 r.collateralDecimals

/-- One unit of the stablecoin in dollars. -/
def sssUnit (r : BackstopReading) : ℚ := 1 / 10 ^ r.sssDecimals.toNat

def owed (r : BackstopReading) : ℕ := r.debt.toNat + r.accruedFees.toNat

/-- The dollars of the debt that the collateral does not cover. -/
def uncovered (r : BackstopReading) : ℚ :=
  max 0 (r.owed * r.sssUnit - r.deposited.toNat * r.collateralUnit)

/-- The collateral as an amount of the stablecoin, rounded down, with an exponent that always
divides. -/
def valued (r : BackstopReading) : ℕ :=
  r.deposited.toNat * r.oraclePrice.price.toInt.toNat * 10 ^ r.sssDecimals.toNat /
    10 ^ r.collateralDecimals.toNat / 10 ^ r.oraclePrice.expoAbs

theorem sssUnit_pos (r : BackstopReading) : 0 < r.sssUnit := by
  rw [sssUnit]
  positivity

theorem collateralUnit_pos (h : 0 < r.oraclePrice.price.toInt) : 0 < r.collateralUnit := by
  have hprice : (0 : ℚ) < r.oraclePrice.price.toInt := by exact_mod_cast h
  rw [collateralUnit, OraclePrice.usd, UInt64.toNat_one, Nat.cast_one]
  positivity

end BackstopReading

/-- The largest share of the supply that one call may draw, in dollars. -/
def StablecoinConfig.backstopShare (c : StablecoinConfig) (r : BackstopReading) : ℚ :=
  c.netSupply.toNat * c.maxBackstopBps.toNat / 10000 * r.sssUnit

/-- What is drawn is worth no more than the debt that the collateral does not cover, and no more
than the largest share, if there is one. -/
structure WorthAtMost (c : StablecoinConfig) (r : BackstopReading) (drawn : ℕ) : Prop where
  shortfall : drawn * r.collateralUnit ≤ r.uncovered
  share : c.maxBackstopBps ≠ 0 → drawn * r.collateralUnit ≤ c.backstopShare r

/-- The share as an amount of the stablecoin, after a cast to 64 bits. -/
def StablecoinConfig.backstopCap (c : StablecoinConfig) : ℕ :=
  c.netSupply.toNat * c.maxBackstopBps.toNat / 10000 % 2 ^ 64

/-- The fund is small, or the cap is, when it is read as an amount of collateral; or the collateral
is cheaper than the stablecoin, by enough for what its value lacks by rounding, and for the share by
enough for the shortfall. -/
structure UnitsFit (c : StablecoinConfig) (r : BackstopReading) (balance : UInt64) : Prop where
  shortfall : balance.toNat * r.collateralUnit ≤ r.uncovered ∨
    c.maxBackstopBps ≠ 0 ∧ c.backstopCap * r.collateralUnit ≤ r.uncovered ∨
    r.deposited.toNat * r.collateralUnit - r.valued * r.sssUnit ≤
      (r.owed - r.valued) * (r.sssUnit - r.collateralUnit)
  share : c.maxBackstopBps ≠ 0 → balance.toNat * r.collateralUnit ≤ c.backstopShare r ∨
    c.backstopCap * r.collateralUnit ≤ c.backstopShare r ∨
    (r.owed - r.valued) * r.collateralUnit ≤ c.backstopShare r

/-! ## What is drawn -/

theorem BackstopReading.shortfall_eq (hpos : 0 < r.oraclePrice.price.toInt)
    (h : r.shortfall = .ok S) : r.valued < r.owed ∧ S.toNat = r.owed - r.valued := by
  have hprice : r.oraclePrice.price.toU128 = r.oraclePrice.price.toInt.toNat := by
    have := toU128_of_nonneg hpos.le
    omega
  simp only [BackstopReading.shortfall, collateralValueInSss, bind_eq_ok, Option.okOr_eq_ok,
    UInt64.checkedAdd_eq_some, U128.checkedMul_eq_some, U128.pow10_eq_some, require_eq_ok,
    pure_eq_ok] at h
  obtain ⟨debt, hdebt, value, ⟨_, ⟨rfl, -⟩, _, ⟨rfl, -⟩, _, ⟨rfl, -⟩, _, ⟨rfl, -⟩, _, ⟨rfl, -⟩,
    hvalue⟩, -, hlt, rfl⟩ := h
  have howed : r.owed = debt.toNat := hdebt.symm
  have hvalued : r.valued = value := by rw [valued, ← hprice, hvalue]
  have hdiff : debt.toNat - value < 2 ^ 64 := (Nat.sub_le ..).trans_lt debt.toNat_lt
  rw [UInt64.toNat_ofNat_of_lt' hdiff, howed, hvalued]
  exact ⟨hlt, rfl⟩

theorem StablecoinConfig.toNat_maxBackstop_min :
    (c.maxBackstop S).toNat =
      if c.maxBackstopBps = 0 then S.toNat else min c.backstopCap S.toNat := by
  rw [maxBackstop]
  split
  · rfl
  · rw [UInt64.toNat_min, UInt64.toNat_ofNat', backstopCap]

/-- The least of some amounts is worth no more than `b` when one of them is. -/
theorem min_worth_le_iff {m n : ℕ} {u b : ℚ} (hu : 0 ≤ u) :
    ((min m n : ℕ) : ℚ) * u ≤ b ↔ m * u ≤ b ∨ n * u ≤ b := by
  rw [Nat.cast_min, min_mul_of_nonneg _ _ hu, min_le_iff]

theorem drawn_worth_le_iff {u b : ℚ} (hu : 0 ≤ u) :
    ((min (c.maxBackstop S) balance).toNat : ℚ) * u ≤ b ↔
      balance.toNat * u ≤ b ∨ (c.maxBackstopBps ≠ 0 ∧ c.backstopCap * u ≤ b) ∨ S.toNat * u ≤ b := by
  rw [UInt64.toNat_min, min_worth_le_iff hu, or_comm, StablecoinConfig.toNat_maxBackstop_min]
  apply or_congr_right
  split
  next hbps => exact ⟨.inr, fun h => h.resolve_left fun hcap => hcap.1 hbps⟩
  next hbps => rw [min_worth_le_iff hu, and_iff_right hbps]

/-- As many units of the collateral as the shortfall has of the stablecoin. -/
theorem BackstopReading.shortfall_worth_iff (hpos : 0 < r.oraclePrice.price.toInt)
    (h : r.shortfall = .ok S) : S.toNat * r.collateralUnit ≤ r.uncovered ↔
      r.deposited.toNat * r.collateralUnit - r.valued * r.sssUnit ≤
        (r.owed - r.valued) * (r.sssUnit - r.collateralUnit) := by
  obtain ⟨hlt, hS⟩ := shortfall_eq hpos h
  have hS : (S.toNat : ℚ) = r.owed - r.valued := by rw [hS, Nat.cast_sub hlt.le]
  have hworth : 0 < S.toNat * r.collateralUnit := by
    refine mul_pos ?_ (collateralUnit_pos hpos)
    rw [hS, sub_pos]
    exact_mod_cast hlt
  rw [uncovered, le_max_iff, or_iff_right (not_le.mpr hworth), hS, ← sub_nonneg,
    ← sub_nonneg (b := r.deposited.toNat * r.collateralUnit - r.valued * r.sssUnit)]
  refine iff_of_eq (congrArg (0 ≤ ·) ?_)
  ring

theorem BackstopAccounts.load_price_pos
    (h : a.load rt clock s liquidationAuthority = .ok (c, r, balance)) :
    0 < r.oraclePrice.price.toInt := by
  simp only [BackstopAccounts.load, bind_eq_ok, pure_eq_ok] at h
  obtain ⟨_, -, _, -, _, -, _, -, _, -, _, -, _, -, _, -, _, -, _, -, _, -, _, -, _, -, _, -, _, -,
    _, -, _, -, _, -, price, hprice, h⟩ := h
  cases h
  exact getOraclePrice_pos hprice

/-- What leaves the fund, when the reserve is another account. -/
theorem triggerBackstopHandler_drawn
    (hload : a.load rt clock s liquidationAuthority = .ok (c, r, balance))
    (hok : triggerBackstopHandler rt clock s a liquidationAuthority insuranceFundAuthority =
      .ok s') :
    ∃ S, r.shortfall = .ok S ∧ s.tokens.held a.insuranceFund - s'.tokens.held a.insuranceFund =
      if a.insuranceFund = a.reserveVault then 0
      else (min (c.maxBackstop S) balance).toNat := by
  simp only [triggerBackstopHandler, hload, bind_eq_ok, Option.okOr_eq_ok, pure_eq_ok] at hok
  obtain ⟨_, hx, S, hS, -, -, tokens, htransfer, total, -, rfl⟩ := hok
  cases hx
  have hheld : tokens.held a.insuranceFund + (if a.reserveVault = a.insuranceFund then 0
      else (min (c.maxBackstop S) balance).toNat) = s.tokens.held a.insuranceFund :=
    (rt.token.transferChecked_ok htransfer).held_source
  refine ⟨S, hS, ?_⟩
  change s.tokens.held a.insuranceFund - tokens.held a.insuranceFund = _
  split
  next hsame =>
    rw [if_pos hsame.symm] at hheld
    omega
  next hother =>
    rw [if_neg (Ne.symm hother)] at hheld
    omega

/-! ## When it is worth as much as it should be -/

/-- A call that goes through takes collateral that is worth no more than the uncovered debt and the
largest share just when the fund is the reserve itself, or the units fit. -/
theorem backstop_worth_iff (hload : a.load rt clock s liquidationAuthority = .ok (c, r, balance))
    (hok : triggerBackstopHandler rt clock s a liquidationAuthority insuranceFundAuthority =
      .ok s') :
    WorthAtMost c r (s.tokens.held a.insuranceFund - s'.tokens.held a.insuranceFund) ↔
      a.insuranceFund = a.reserveVault ∨ UnitsFit c r balance := by
  have hpos := BackstopAccounts.load_price_pos hload
  have hunit := (BackstopReading.collateralUnit_pos hpos).le
  obtain ⟨S, hS, hdrawn⟩ := triggerBackstopHandler_drawn hload hok
  rw [hdrawn]
  split
  next hsame =>
    refine iff_of_true ⟨?_, fun _ => ?_⟩ (.inl hsame)
    · rw [Nat.cast_zero, zero_mul]
      exact le_max_left _ _
    · rw [Nat.cast_zero, zero_mul, StablecoinConfig.backstopShare]
      exact mul_nonneg (by positivity) r.sssUnit_pos.le
  next hother =>
    have hrounded : (S.toNat : ℚ) = r.owed - r.valued := by
      obtain ⟨hlt, hS⟩ := BackstopReading.shortfall_eq hpos hS
      rw [hS, Nat.cast_sub hlt.le]
    rw [or_iff_right hother]
    constructor
    · intro h
      refine ⟨?_, fun hbps => ?_⟩
      · rw [← BackstopReading.shortfall_worth_iff hpos hS]
        exact (drawn_worth_le_iff hunit).mp h.shortfall
      · rw [← hrounded]
        have hshare := (drawn_worth_le_iff hunit).mp (h.share hbps)
        rwa [and_iff_right hbps] at hshare
    · intro h
      refine ⟨(drawn_worth_le_iff hunit).mpr ?_, fun hbps => (drawn_worth_le_iff hunit).mpr ?_⟩
      · rw [BackstopReading.shortfall_worth_iff hpos hS]
        exact h.shortfall
      · rw [and_iff_right hbps, hrounded]
        exact h.share hbps

namespace Market

/-- What the call of the backstop finds and leaves. -/
structure Covers (as : List Action) (c : StablecoinConfig) (r : BackstopReading)
    (balance : UInt64) (s' : State) : Prop where
  load : backstop.load localRuntime (day 3) (run localRuntime genesis as) config =
    .ok (c, r, balance)
  handler : triggerBackstopHandler localRuntime (day 3) (run localRuntime genesis as) backstop
    config authority.key = .ok s'

theorem covers_of_found {as : List Action} {r : BackstopReading} {supply balance : UInt64}
    {bps : UInt16} {left : ℕ}
    (hfound : Ensures (backstop.load localRuntime (day 3) (run localRuntime genesis as) config)
      fun x => x.1.netSupply = supply ∧ x.1.maxBackstopBps = bps ∧ x.2 = (r, balance))
    (hok : (triggerBackstopHandler localRuntime (day 3) (run localRuntime genesis as) backstop
      config authority.key).toOption.map (fun s' => s'.tokens.held fund.key) = some left) :
    ∃ c s', Covers as c r balance s' ∧ c.netSupply = supply ∧ c.maxBackstopBps = bps ∧
      s'.tokens.held fund.key = left := by
  obtain ⟨s', hs', hleft⟩ := Option.map_eq_some_iff.mp hok
  have hs' := toOption_eq_some.mp hs'
  have hexec := hs'
  rw [triggerBackstopHandler, bind_eq_ok] at hexec
  obtain ⟨⟨c, r', balance'⟩, hload, -⟩ := hexec
  obtain ⟨hsupply, hbps, hreading⟩ := hfound _ hload
  cases hreading
  exact ⟨c, s', ⟨hload, hs'⟩, hsupply, hbps, hleft⟩

end Market

open Market in
/-- At a price of a tenth, a shortfall of 50 is covered by 50 of gold. -/
theorem backstop_worth_iff_cheap :
    ∃ c s', Covers uncovered c uncoveredReading 300 s' ∧
      WorthAtMost c uncoveredReading
        ((run localRuntime genesis uncovered).tokens.held backstop.insuranceFund -
          s'.tokens.held backstop.insuranceFund) := by
  obtain ⟨c, s', hcovers, hsupply, hbps, -⟩ : ∃ c s',
      Covers uncovered c uncoveredReading 300 s' ∧ c.netSupply = 100 ∧ c.maxBackstopBps = 5000 ∧
        s'.tokens.held fund.key = 250 :=
    covers_of_found (by decide +kernel) (by decide +kernel)
  refine ⟨c, s', hcovers, (backstop_worth_iff hcovers.load hcovers.handler).mpr (.inr ?_)⟩
  have hunit : uncoveredReading.collateralUnit = 1 / 10 ^ 7 := by
    have hprice : (1 : Int64).toInt = 1 := rfl
    have hexpo : (-1 : Int32).toInt = -1 := rfl
    have hdecimals : (6 : UInt8).toNat = 6 := rfl
    rw [BackstopReading.collateralUnit, uncoveredReading, OraclePrice.usd, hprice, hexpo, hdecimals,
      UInt64.toNat_one]
    norm_num
  have hsss : uncoveredReading.sssUnit = 1 / 10 ^ 6 := rfl
  have hvalued : uncoveredReading.valued = 50 := by decide
  have howed : uncoveredReading.owed = 100 := rfl
  have hdeposited : uncoveredReading.deposited.toNat = 500 := rfl
  have hcap : c.backstopCap = 50 := by rw [StablecoinConfig.backstopCap, hsupply, hbps]; rfl
  have hbps' : (5000 : UInt16).toNat = 5000 := rfl
  have hsupply' : (100 : UInt64).toNat = 100 := rfl
  refine ⟨.inr (.inr ?_), fun _ => .inr (.inl ?_)⟩
  · rw [hunit, hsss, hvalued, howed, hdeposited]
    norm_num
  · rw [hunit, hcap, StablecoinConfig.backstopShare, hsupply, hbps, hsss, hbps', hsupply']
    norm_num

namespace Market

/-- A loan of 3000 against 500 of gold at ten dollars, which then fall to two; the fund holds
2000, and a draw may take half of the supply. -/
def dear : List Action :=
  deposited 10000 ++
    [ publish 10 0, borrow 3000 0,
      .world (.createAccount reserve gold.key config),
      .world (.createAccount fund gold.key authority.key),
      .world (.mintTo authority gold.key fund.key 2000),
      .call (day 1) (.proposeTimelockedOp asAuthority adminOpSetBackstopParams 5000 fund.key),
      .call (day 2) (.executeTimelockedOp asAuthority), publish 2 3 ]

def dearReading : BackstopReading :=
  { deposited := 500, debt := 3000, accruedFees := 0
    oraclePrice := { price := 2, conf := 0, expo := 0 }, collateralDecimals := 6
    sssDecimals := 6 }

end Market

open Market in
/-- The shortfall of 2000, up to the cap of 1500, is drawn as 1500 of gold, which are worth twice
as much. -/
theorem backstop_overdraws :
    Genesis genesis ∧ ∃ c s', Covers dear c dearReading 2000 s' ∧ c.maxBackstopBps = 5000 ∧
      ¬ ((run localRuntime genesis dear).tokens.held backstop.insuranceFund -
          s'.tokens.held backstop.insuranceFund : ℕ) * dearReading.collateralUnit ≤
        dearReading.uncovered ∧
      ¬ ((run localRuntime genesis dear).tokens.held backstop.insuranceFund -
          s'.tokens.held backstop.insuranceFund : ℕ) * dearReading.collateralUnit ≤
        c.backstopShare dearReading := by
  obtain ⟨c, s', hcovers, hsupply, hbps, hleft⟩ : ∃ c s',
      Covers dear c dearReading 2000 s' ∧ c.netSupply = 3000 ∧ c.maxBackstopBps = 5000 ∧
        s'.tokens.held fund.key = 500 :=
    covers_of_found (by decide +kernel) (by decide +kernel)
  have hdrawn : (run localRuntime genesis dear).tokens.held backstop.insuranceFund -
      s'.tokens.held backstop.insuranceFund = 1500 := by
    have hheld : (run localRuntime genesis dear).tokens.held backstop.insuranceFund = 2000 := by
      decide +kernel
    have hleft : s'.tokens.held backstop.insuranceFund = 500 := hleft
    omega
  have hunit : dearReading.collateralUnit = 2 / 10 ^ 6 := by
    have hprice : (2 : Int64).toInt = 2 := rfl
    have hexpo : (0 : Int32).toInt = 0 := rfl
    have hdecimals : (6 : UInt8).toNat = 6 := rfl
    rw [BackstopReading.collateralUnit, dearReading, OraclePrice.usd, hprice, hexpo, hdecimals,
      UInt64.toNat_one]
    norm_num
  have hsss : dearReading.sssUnit = 1 / 10 ^ 6 := rfl
  have howed : dearReading.owed = 3000 := rfl
  have hdeposited : dearReading.deposited.toNat = 500 := rfl
  have hbps' : (5000 : UInt16).toNat = 5000 := rfl
  have hsupply' : (3000 : UInt64).toNat = 3000 := rfl
  refine ⟨genesis_genesis, c, s', hcovers, hbps, ?_, ?_⟩
  · rw [hdrawn, hunit, BackstopReading.uncovered, hsss, howed, hdeposited, hunit]
    norm_num
  · rw [hdrawn, hunit, StablecoinConfig.backstopShare, hsupply, hbps, hsss, hbps', hsupply']
    norm_num

end SolanaStablecoin
