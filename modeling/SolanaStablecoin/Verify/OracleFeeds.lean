import SolanaStablecoin.Verify.Consensus

/-! Which price feeds a borrow accepts and which a liquidation. -/

namespace SolanaStablecoin

open Transition

section Steps

variable {rt : Runtime} {clock : Clock} {s s' : State} {c : StablecoinConfig} {feed : Pubkey}
  {oc : Option OracleConsensus} {price : OraclePrice} {n : UInt64}

/-! ## The oracle steps of the two handlers -/

/-- From the check of the consensus account to the price, as `cdp_borrow_stable` does it. -/
def borrowOracleStep (rt : Runtime) (clock : Clock) (s : State) (config : StablecoinConfig)
    (feed : Pubkey) (oc : Option OracleConsensus) : Result OraclePrice := do
  requireConsensusPassed config oc.isSome
  getEffectiveOraclePrice rt clock s feed config oc

/-- The same in `cdp_liquidate`, which compares the feed with the expected one first. -/
def liquidateOracleStep (rt : Runtime) (clock : Clock) (s : State) (config : StablecoinConfig)
    (feed : Pubkey) (oc : Option OracleConsensus) : Result OraclePrice := do
  checkExpectedFeed config feed
  requireConsensusPassed config oc.isSome
  getEffectiveOraclePrice rt clock s feed config oc

theorem loadOracleConsensus_isSome {passed : Bool} {mint : Pubkey}
    (h : loadOracleConsensus s passed mint = .ok oc) : oc.isSome = passed := by
  cases passed with
  | false =>
    cases h
    rfl
  | true =>
    change (load s.oracleConsensuses (.oracleConsensus mint) >>= fun c =>
      require (c.mint = mint) (.sss .oracleConsensusNotFound) >>= fun _ => pure (some c)) = .ok oc
      at h
    simp only [bind_eq_ok, pure_eq_ok] at h
    obtain ⟨c, -, -, -, rfl⟩ := h
    rfl

theorem cdpBorrowStableHandler_oracle {a : CdpBorrowStable}
    (h : cdpBorrowStableHandler rt clock s a n = .ok s') :
    ∃ c oc price, s.configs (.stablecoinConfig a.sssMint) = some c ∧
      loadOracleConsensus s a.oracleConsensus a.sssMint = .ok oc ∧
      borrowOracleStep rt clock s c a.pythPriceFeed oc = .ok price := by
  simp only [cdpBorrowStableHandler, bind_eq_ok, loadSss3OfMint_eq_ok, Prod.exists] at h
  obtain ⟨c, m, ⟨hc, -⟩, -, -, -, -, -, -, -, -, oc, hoc, -, -, -, -, -, -, u, hpassed, price,
    hprice, -⟩ := h
  refine ⟨c, oc, price, hc, hoc, bind_eq_ok.mpr ⟨u, ?_, hprice⟩⟩
  rw [loadOracleConsensus_isSome hoc]
  exact hpassed

theorem cdpLiquidateHandler_oracle {a : CdpLiquidate} {min repay : UInt64}
    (h : cdpLiquidateHandler rt clock s a min repay = .ok s') :
    ∃ c oc price, s.configs (.stablecoinConfig a.sssMint) = some c ∧
      loadOracleConsensus s a.oracleConsensus a.sssMint = .ok oc ∧
      liquidateOracleStep rt clock s c a.pythPriceFeed oc = .ok price := by
  simp only [cdpLiquidateHandler, bind_eq_ok] at h
  obtain ⟨l, hl, -, -, oc, hoc, -, -, -, -, u, hfeed, u', hpassed, price, hprice, -⟩ := h
  refine ⟨l.config, oc, price, (CdpLiquidate.load_ok hl).config, hoc,
    bind_eq_ok.mpr ⟨u, hfeed, bind_eq_ok.mpr ⟨u', ?_, hprice⟩⟩⟩
  rw [loadOracleConsensus_isSome hoc]
  exact hpassed

/-! ## When they agree -/

/-- Whatever feed a borrow accepts, a liquidation accepts at the same price. -/
def LiquidationFollows (c : StablecoinConfig) : Prop :=
  ∀ rt clock s feed oc price, borrowOracleStep rt clock s c feed oc = .ok price →
    liquidateOracleStep rt clock s c feed oc = .ok price

/-- No feed is expected by liquidations alone: the borrows look at the feed too and compare it with
the same key, or no adapter answers. -/
def StablecoinConfig.FeedsAgree (c : StablecoinConfig) : Prop :=
  c.expectedPythFeed = .default ∨
    c.featureFlags &&& flagMultiOracleConsensus = 0 ∧
      (c.oracleFeed = c.expectedPythFeed ∨ c.oracleFeed = .default ∧ c.oracleType = oraclePyth ∨
        c.oracleType ≠ oraclePyth ∧ c.oracleType ≠ oracleCustom)

theorem liquidateOracleStep_of_borrow (h : borrowOracleStep rt clock s c feed oc = .ok price)
    (hfeed : c.expectedPythFeed ≠ .default → feed = c.expectedPythFeed) :
    liquidateOracleStep rt clock s c feed oc = .ok price := by
  refine bind_eq_ok.mpr ⟨(), ?_, h⟩
  rw [checkExpectedFeed, requireWhen_eq_ok]
  exact fun hexpected => require_eq_ok.mpr (hfeed hexpected)

/-- A feed that liquidations do not expect is refused by them. -/
theorem liquidateOracleStep_expected (h : liquidateOracleStep rt clock s c feed oc = .ok price)
    (hexpected : c.expectedPythFeed ≠ .default) : feed = c.expectedPythFeed := by
  obtain ⟨u, hfeed, -⟩ := bind_eq_ok.mp h
  rw [checkExpectedFeed, requireWhen_eq_ok] at hfeed
  exact require_eq_ok.mp (hfeed hexpected)

/-- Without the consensus the price comes from an adapter, and from the configured feed. -/
theorem borrowOracleStep_feed (h : borrowOracleStep rt clock s c feed oc = .ok price)
    (hflag : c.featureFlags &&& flagMultiOracleConsensus = 0) :
    validateFeedKey feed c = .ok () ∧
      (c.oracleType = oraclePyth ∨ c.oracleType = oracleCustom) := by
  obtain ⟨-, -, h⟩ := bind_eq_ok.mp h
  rw [getEffectiveOraclePrice, if_neg (not_not.mpr hflag), getOraclePrice] at h
  obtain ⟨_, hvalid, h⟩ := bind_eq_ok.mp h
  obtain ⟨p, hadapter, -⟩ := bind_eq_ok.mp h
  refine ⟨hvalid, ?_⟩
  by_contra hne
  obtain ⟨hpyth, hcustom⟩ := not_or.mp hne
  rw [adapterPrice, if_neg hpyth, if_neg hcustom] at hadapter
  split at hadapter
  · cases hadapter
  · cases hadapter

theorem StablecoinConfig.FeedsAgree.follows (h : c.FeedsAgree) : LiquidationFollows c := by
  intro rt clock s feed oc price hborrow
  refine liquidateOracleStep_of_borrow hborrow fun hexpected => ?_
  rcases h with hdefault | ⟨hflag, h⟩
  · exact absurd hdefault hexpected
  obtain ⟨hvalid, htype⟩ := borrowOracleStep_feed hborrow hflag
  rw [validateFeedKey] at hvalid
  rcases h with heq | ⟨hdefault, hpyth⟩ | ⟨hpyth, hcustom⟩
  · rw [heq, if_pos hexpected, require_eq_ok] at hvalid
    exact hvalid
  · rw [hdefault, if_neg (not_not.mpr rfl), requireWhen_eq_ok] at hvalid
    exact require_eq_ok.mp (hvalid ⟨hpyth, hexpected⟩)
  · rcases htype with h | h
    · exact absurd h hpyth
    · exact absurd h hcustom

/-- The first second. -/
def firstSecond : Clock := { slot := 0, epoch := 0, unixTimestamp := 1 }

/-- A fresh price of one in the configured feed, for either adapter. -/
def StablecoinConfig.quoted (c : StablecoinConfig) : State :=
  Market.genesis.withFeed c.oracleFeed
    (some { price := 1, conf := 0, expo := 0, publishTime := 1 })
    (some { authority := c.authority, price := 1, lastUpdateUnixTimestamp := 1 })

theorem validateFeedKey_configured (h : ¬(c.oracleFeed = .default ∧ c.oracleType = oraclePyth)) :
    validateFeedKey c.oracleFeed c = .ok () := by
  rw [validateFeedKey]
  split
  · exact require_eq_ok.mpr rfl
  next hdefault =>
    rw [requireWhen_eq_ok]
    exact fun hpyth => absurd ⟨not_not.mp hdefault, hpyth.1⟩ h

theorem adapterPrice_quoted (h : c.oracleType = oraclePyth ∨ c.oracleType = oracleCustom) :
    adapterPrice localRuntime firstSecond c.quoted c.oracleFeed c =
      .ok { price := 1, conf := 0, expo := 0 } := by
  rcases h with hpyth | hcustom
  · rw [adapterPrice, if_pos hpyth, Pyth.getPrice, StablecoinConfig.quoted, State.withFeed]
    simp [localRuntime, getPriceNoOlderThan, firstSecond]
  · rw [adapterPrice, hcustom, if_neg (by decide), if_neg (by decide), if_pos rfl,
      Custom.getPrice, StablecoinConfig.quoted, State.withFeed]
    simp [firstSecond, show Int64.saturatingSub 1 1 = 0 from rfl]

theorem checkConf_zero (c : StablecoinConfig) : checkConf c 1 0 = .ok () := by
  rw [checkConf, requireWhen_eq_ok]
  exact fun _ => require_eq_ok.mpr UInt64.zero_le

theorem LiquidationFollows.feedsAgree (h : LiquidationFollows c) : c.FeedsAgree := by
  by_contra hne
  obtain ⟨hexpected, hne⟩ := not_or.mp hne
  by_cases hflag : c.featureFlags &&& flagMultiOracleConsensus = 0
  · obtain ⟨hfeed, hne⟩ := not_or.mp fun h => hne ⟨hflag, h⟩
    obtain ⟨hlegacy, hne⟩ := not_or.mp hne
    have htype : c.oracleType = oraclePyth ∨ c.oracleType = oracleCustom := by
      by_contra hnone
      exact hne (not_or.mp hnone)
    have hborrow : borrowOracleStep localRuntime firstSecond c.quoted c c.oracleFeed none =
        .ok { price := 1, conf := 0, expo := 0 } := by
      rw [borrowOracleStep, bind_eq_ok]
      refine ⟨(), require_eq_ok.mpr (.inl hflag), ?_⟩
      rw [getEffectiveOraclePrice, if_neg (not_not.mpr hflag), getOraclePrice,
        validateFeedKey_configured hlegacy, adapterPrice_quoted htype]
      simp [checkConf_zero]
    exact hfeed (liquidateOracleStep_expected (h _ _ _ _ _ _ hborrow) hexpected)
  · have hborrow : borrowOracleStep localRuntime firstSecond c.quoted c .default
        (some { lastConsensusPrice := 1 }) = .ok { price := 1, conf := 0, expo := -8 } := by
      rw [borrowOracleStep, bind_eq_ok]
      refine ⟨(), require_eq_ok.mpr (.inr rfl), ?_⟩
      rw [getEffectiveOraclePrice, if_pos hflag]
      rfl
    exact hexpected (liquidateOracleStep_expected (h _ _ _ _ _ _ hborrow) hexpected).symm

/-- Liquidations follow borrows under a config exactly when their feeds agree. -/
theorem liquidation_follows (c : StablecoinConfig) : LiquidationFollows c ↔ c.FeedsAgree :=
  ⟨LiquidationFollows.feedsAgree, StablecoinConfig.FeedsAgree.follows⟩

end Steps

namespace Market

/-- Another price feed. -/
def feed' : Pubkey := .key 61

/-- The authority proposes an operation on a target on day `n`, and executes it a day later. -/
def timelockedFor (kind : UInt8) (param : UInt64) (target : Pubkey) (n : Nat) : List Action :=
  [ .call (day n) (.proposeTimelockedOp asAuthority kind param target),
    .call (day (n + 1)) (.executeTimelockedOp asAuthority) ]

/-- A loan of 100; then the expected feed is set, and the oracle is pointed to another one, on which
gold falls to a tenth of a dollar. -/
def repointed : List Action :=
  funded 1000 ++ timelockedFor adminOpSetPythFeed 0 feed 1 ++
    timelockedFor adminOpSetOracleConfig 0 feed' 2 ++
    [ .world (.publishPythPrice feed
        { price := 1, conf := 0, expo := -1, publishTime := (day 3).unixTimestamp }),
      .world (.publishPythPrice feed'
        { price := 1, conf := 0, expo := -1, publishTime := (day 3).unixTimestamp }) ]

end Market

open Market in
/-- Borrows take the price of the new feed, and liquidations refuse both. -/
theorem repointed_unliquidatable :
    Genesis genesis ∧ ∃ c, (run localRuntime genesis repointed).configs config = some c ∧
      (borrowOracleStep localRuntime (day 3) (run localRuntime genesis repointed) c feed'
        none).isOk = true ∧
      (liquidateOracleStep localRuntime (day 3) (run localRuntime genesis repointed) c feed'
        none).isOk = false ∧
      (liquidateOracleStep localRuntime (day 3) (run localRuntime genesis repointed) c feed
        none).isOk = false ∧
      ¬LiquidationFollows c := by
  have hconfig : ((run localRuntime genesis repointed).configs config).map (fun c =>
      ((borrowOracleStep localRuntime (day 3) (run localRuntime genesis repointed) c feed'
          none).isOk,
        (liquidateOracleStep localRuntime (day 3) (run localRuntime genesis repointed) c feed'
          none).isOk,
        (liquidateOracleStep localRuntime (day 3) (run localRuntime genesis repointed) c feed
          none).isOk)) = some (true, false, false) := by
    decide +kernel
  obtain ⟨c, hc, heq⟩ := Option.map_eq_some_iff.mp hconfig
  obtain ⟨hborrow, heq⟩ := Prod.mk.inj heq
  obtain ⟨hnew, hold⟩ := Prod.mk.inj heq
  refine ⟨genesis_genesis, c, hc, hborrow, hnew, hold, fun hfollows => ?_⟩
  obtain ⟨price, hprice⟩ := isOk_iff.mp hborrow
  rw [isOk_iff.mpr ⟨price, hfollows _ _ _ _ _ _ hprice⟩] at hnew
  cases hnew

end SolanaStablecoin
