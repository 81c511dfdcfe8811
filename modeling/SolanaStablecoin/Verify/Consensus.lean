import SolanaStablecoin.Program.Token2022
import SolanaStablecoin.Verify.Cdp

/-! With `FLAG_MULTI_ORACLE_CONSENSUS` the price comes from the consensus record. What the raw feed
holds must then make no difference, and where it does is said here. -/

namespace SolanaStablecoin

variable {rt : Runtime} {clock : Clock} {s : State} {c : StablecoinConfig} {k : Pubkey}
  {p : Option Price} {f : Option CustomPriceFeed}

/-- The same state with other data in one price feed account, as a Pyth feed and as a custom
one. -/
def State.withFeed (s : State) (feed : Pubkey) (p : Option Price) (f : Option CustomPriceFeed) :
    State :=
  { s with
    pythPriceFeeds := Function.update s.pythPriceFeeds feed p
    customPriceFeeds := Function.update s.customPriceFeeds feed f }

/-- The instructions that take a price from the consensus or from a raw feed. -/
inductive PricedEntry where
  | cdpBorrowStable
  | cdpLiquidate
  | cdpLiquidateV2
  | crankCircuitBreaker
deriving DecidableEq

/-- Which of them an instruction is, with its config and the feed it is given. -/
def Instruction.priced : Instruction → Option (PricedEntry × Pubkey × Pubkey)
  | cdpBorrowStable a _ =>
    some (.cdpBorrowStable, .stablecoinConfig a.sssMint, a.pythPriceFeed)
  | cdpLiquidate a _ _ => some (.cdpLiquidate, .stablecoinConfig a.sssMint, a.pythPriceFeed)
  | cdpLiquidateV2 a _ _ => some (.cdpLiquidateV2, .stablecoinConfig a.sssMint, a.pythPriceFeed)
  | crankCircuitBreaker a => some (.crankCircuitBreaker, a.config, a.oracleFeed)
  | _ => none

/-- Two runs that differ in the data of the feed alone end alike: both fail with the same error,
or their states again differ in those data alone. -/
def FeedIndependent (rt : Runtime) (clock : Clock) (s : State) (i : Instruction)
    (feed : Pubkey) : Prop :=
  ∀ p f, i.exec rt clock (s.withFeed feed p f) = (·.withFeed feed p f) <$> i.exec rt clock s

/-- Under the flag no call of the entry point depends on the raw feed. -/
def ConsensusBinds (e : PricedEntry) : Prop :=
  ∀ rt clock s (i : Instruction) k feed c, i.priced = some (e, k, feed) → s.configs k = some c →
    c.checkFeatureFlag flagMultiOracleConsensus = true → FeedIndependent rt clock s i feed

theorem consensus_of_flag (h : c.checkFeatureFlag flagMultiOracleConsensus = true) :
    c.featureFlags &&& flagMultiOracleConsensus ≠ 0 := by
  simpa [StablecoinConfig.checkFeatureFlag] using h

/-- The consensus price does not look at the feed. -/
theorem getEffectiveOraclePrice_withFeed {feed : Pubkey} {oc : Option OracleConsensus}
    (h : c.checkFeatureFlag flagMultiOracleConsensus = true) :
    getEffectiveOraclePrice rt clock (s.withFeed k p f) feed c oc =
      getEffectiveOraclePrice rt clock s feed c oc := by
  rw [getEffectiveOraclePrice, if_pos (consensus_of_flag h), getEffectiveOraclePrice,
    if_pos (consensus_of_flag h)]

theorem cdpBorrowStableHandler_withFeed {a : CdpBorrowStable} {n : UInt64}
    (hc : s.configs (.stablecoinConfig a.sssMint) = some c)
    (hflag : c.checkFeatureFlag flagMultiOracleConsensus = true) :
    cdpBorrowStableHandler rt clock (s.withFeed k p f) a n =
      (·.withFeed k p f) <$> cdpBorrowStableHandler rt clock s a n := by
  have hsame : loadSss3OfMint (s.withFeed k p f) a.sssMint = loadSss3OfMint s a.sssMint := rfl
  cases hload : loadSss3OfMint s a.sssMint with
  | error e =>
    rw [cdpBorrowStableHandler, cdpBorrowStableHandler, hsame, hload]
    rfl
  | ok x =>
    obtain ⟨hx, -⟩ := loadSss3OfMint_eq_ok.mp hload
    rw [hc] at hx
    cases hx
    rw [cdpBorrowStableHandler, cdpBorrowStableHandler, hsame, hload]
    simp only [ok_bind, map_bind, map_pure, getEffectiveOraclePrice_withFeed hflag]
    rfl

theorem cdpLiquidateHandler_withFeed {a : CdpLiquidate} {x y : UInt64}
    (hc : s.configs (.stablecoinConfig a.sssMint) = some c)
    (hflag : c.checkFeatureFlag flagMultiOracleConsensus = true) :
    cdpLiquidateHandler rt clock (s.withFeed k p f) a x y =
      (·.withFeed k p f) <$> cdpLiquidateHandler rt clock s a x y := by
  have hsame : a.load (s.withFeed k p f) = a.load s := rfl
  cases hload : a.load s with
  | error e =>
    rw [cdpLiquidateHandler, cdpLiquidateHandler, hsame, hload]
    rfl
  | ok l =>
    have hl := (CdpLiquidate.load_ok hload).config
    rw [hc] at hl
    cases hl
    rw [cdpLiquidateHandler, cdpLiquidateHandler, hsame, hload]
    simp only [ok_bind, map_bind, map_pure, getEffectiveOraclePrice_withFeed hflag]
    rfl

namespace Market

/-- A loan of 100 against 500 of gold as a registered collateral, a keeper that watches for a price
of one, and prices by consensus. -/
def consensual : State :=
  run localRuntime genesis (opening 1000 ++
    [ .call (day 0) (.registerCollateral
        { authority, sssMint := mint.key, collateralMint := gold.key }
        { whitelisted := true, maxLtvBps := 7500, liquidationThresholdBps := 8000
          liquidationBonusBps := 500, maxDepositCap := 0 }),
      .world (.createAccount goldAccount gold.key goldVault),
      .call (day 0) (.cdpDepositCollateral
        { user, sssMint := mint.key, collateralMint := gold.key
          vaultTokenAccount := goldAccount.key, userCollateralAccount := userGold.key
          collateralConfig := true } 500),
      publish 1 0,
      borrow 100 0,
      .call (day 0) (.initKeeperConfig { authority, config }
        { deviationThresholdBps := 100, keeperRewardLamports := 0, minCooldownSlots := 10
          sustainedRecoverySlots := 1, targetPrice := 1 }) ] ++
    timelocked adminOpSetFeatureFlag flagMultiOracleConsensus 1)

/-- The same with the circuit breaker armed. -/
def armed : State :=
  run localRuntime consensual (timelocked adminOpSetFeatureFlag flagCircuitBreaker 2)

def liquidateV2 : Instruction :=
  .cdpLiquidateV2
    { liquidator := user, sssMint := mint.key, liquidatorSssAccount := userStable.key
      cdpOwner := user.key, collateralMint := gold.key, vaultTokenAccount := goldAccount.key
      liquidatorCollateralAccount := userGold.key, pythPriceFeed := feed } 0 0

def crank : Instruction := .crankCircuitBreaker { caller := other, config, oracleFeed := feed }

/-- A fresh price of the raw feed. -/
def rawPrice (price : Int64) (expo : Int32) (n : Nat) : Price :=
  { price, conf := 0, expo, publishTime := (day n).unixTimestamp }

/-- The second engine refuses and accepts as the raw feed says. -/
theorem liquidateV2_follows_feed :
    (consensual.configs config).map (·.checkFeatureFlag flagMultiOracleConsensus) = some true ∧
      (liquidateV2.exec localRuntime (day 2)
        (consensual.withFeed feed (some (rawPrice 1 0 2)) none)).isOk = false ∧
      (liquidateV2.exec localRuntime (day 2)
        (consensual.withFeed feed (some (rawPrice 1 (-1) 2)) none)).isOk = true := by
  decide +kernel

/-- And so does the crank of the circuit breaker. -/
theorem crank_follows_feed :
    (armed.configs config).map (·.checkFeatureFlag flagMultiOracleConsensus) = some true ∧
      (crank.exec localRuntime (day 3)
        (armed.withFeed feed (some (rawPrice 1 0 3)) none)).isOk = false ∧
      (crank.exec localRuntime (day 3)
        (armed.withFeed feed (some (rawPrice 2 0 3)) none)).isOk = true := by
  decide +kernel

end Market

theorem FeedIndependent.isOk {i : Instruction} (h : FeedIndependent rt clock s i k)
    (p : Option Price) (f : Option CustomPriceFeed) :
    (i.exec rt clock (s.withFeed k p f)).isOk = (i.exec rt clock s).isOk := by
  rw [h p f]
  cases i.exec rt clock s with
  | ok => rfl
  | error => rfl

/-- A call that succeeds with one price and fails with another depends on the feed. -/
theorem not_feedIndependent {i : Instruction} {p p' : Option Price}
    (hfail : (i.exec rt clock (s.withFeed k p none)).isOk = false)
    (hok : (i.exec rt clock (s.withFeed k p' none)).isOk = true) :
    ¬ FeedIndependent rt clock s i k := by
  intro h
  rw [h.isOk] at hfail hok
  rw [hfail] at hok
  cases hok

theorem not_consensusBinds {e : PricedEntry} {i : Instruction} {key : Pubkey}
    (hi : i.priced = some (e, key, k))
    (hc : (s.configs key).map (·.checkFeatureFlag flagMultiOracleConsensus) = some true)
    (hfree : ¬ FeedIndependent rt clock s i k) : ¬ ConsensusBinds e := by
  intro h
  obtain ⟨c, hc, hflag⟩ := Option.map_eq_some_iff.mp hc
  exact hfree (h rt clock s i key k c hi hc hflag)

open Market in
/-- The consensus binds borrowing and the first liquidation engine. The second engine and the crank
of the circuit breaker read the raw feed whatever the flag says. -/
theorem consensus_binding (e : PricedEntry) :
    ConsensusBinds e ↔ e = .cdpBorrowStable ∨ e = .cdpLiquidate := by
  constructor
  · intro h
    cases e with
    | cdpBorrowStable => exact .inl rfl
    | cdpLiquidate => exact .inr rfl
    | cdpLiquidateV2 =>
      obtain ⟨hc, hfail, hok⟩ := liquidateV2_follows_feed
      exact absurd h (not_consensusBinds rfl hc (not_feedIndependent hfail hok))
    | crankCircuitBreaker =>
      obtain ⟨hc, hfail, hok⟩ := crank_follows_feed
      exact absurd h (not_consensusBinds rfl hc (not_feedIndependent hfail hok))
  · intro h rt clock s i key k c hi hc hflag p f
    rcases h with rfl | rfl
    · cases i with
      | cdpBorrowStable a n =>
        cases hi
        exact cdpBorrowStableHandler_withFeed hc hflag
      | _ => cases hi
    · cases i with
      | cdpLiquidate a x y =>
        cases hi
        exact cdpLiquidateHandler_withFeed hc hflag
      | _ => cases hi

open Market in
/-- A liquidation under the consensus flag that one price of the raw feed refuses and another
accepts. -/
theorem liquidateV2_bypasses_consensus :
    (consensual.configs config).map (·.checkFeatureFlag flagMultiOracleConsensus) = some true ∧
      ¬ FeedIndependent localRuntime (day 2) consensual liquidateV2 feed := by
  obtain ⟨hflag, hfail, hok⟩ := liquidateV2_follows_feed
  exact ⟨hflag, not_feedIndependent hfail hok⟩

end SolanaStablecoin
