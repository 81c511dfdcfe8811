import SolanaStablecoin.Program.State

/-! Oracle abstraction layer (`oracle/`): the price of a collateral from the configured adapter,
or from the consensus account when the config asks for it. -/

namespace SolanaStablecoin

def oraclePyth : UInt8 := 0
def oracleSwitchboard : UInt8 := 1
def oracleCustom : UInt8 := 2

/-- The normalised price that every adapter returns: `price * 10 ^ expo` USD. -/
structure OraclePrice where
  price : Int64
  conf : UInt64
  expo : Int32
deriving DecidableEq

/-- `unsigned_abs` of the exponent. -/
def OraclePrice.expoAbs (p : OraclePrice) : Nat := p.expo.toInt.natAbs

variable (rt : Runtime) (clock : Clock) (s : State)

namespace Pyth

def getPrice (oracleFeedAcct : Pubkey) (maxAgeSecs : UInt64) : Result OraclePrice := do
  let feed ← (s.pythPriceFeeds oracleFeedAcct).okOr (.sss .invalidPriceFeed)
  let price ← (rt.getPriceNoOlderThan feed clock.unixTimestamp maxAgeSecs).okOr
    (.sss .stalePriceFeed)
  pure { price := price.price, conf := price.conf, expo := price.expo }

end Pyth

namespace Switchboard

/-- A stub. -/
def getPrice : Result OraclePrice := .error (.sss .oracleNotConfigured)

end Switchboard

namespace Custom

def getPrice (oracleFeedAcct : Pubkey) (config : StablecoinConfig) (maxAgeSecs : UInt64) :
    Result OraclePrice := do
  let feed ← (s.customPriceFeeds oracleFeedAcct).okOr (.sss .invalidPriceFeed)
  require (feed.authority = config.authority) (.sss .unexpectedPriceFeed)
  let age := clock.unixTimestamp.saturatingSub feed.lastUpdateUnixTimestamp
  require (feed.lastUpdateUnixTimestamp.toInt > 0 ∧ age ≥ 0 ∧ age ≤ maxAgeSecs.toNat)
    (.sss .stalePriceFeed)
  pure { price := feed.price, conf := feed.conf, expo := feed.expo }

end Custom

/-- The feed must be the configured one; a Pyth config without one falls back to
`expected_pyth_feed`. -/
def validateFeedKey (oracleFeedAcct : Pubkey) (config : StablecoinConfig) : Result Unit :=
  if config.oracleFeed ≠ .default then
    require (oracleFeedAcct = config.oracleFeed) (.sss .unexpectedPriceFeed)
  else
    requireWhen (config.oracleType = oraclePyth ∧ config.expectedPythFeed ≠ .default) <|
      require (oracleFeedAcct = config.expectedPythFeed) (.sss .unexpectedPriceFeed)

/-- The bound on the age of a price, 60 seconds when none is configured. -/
def maxAgeSecs (config : StablecoinConfig) : UInt64 :=
  if config.maxOracleAgeSecs > 0 then config.maxOracleAgeSecs.toUInt64 else 60

/-- The confidence interval as a fraction of the price is within the configured bound. -/
def checkConf (config : StablecoinConfig) (price : Int64) (conf : UInt64) : Result Unit :=
  requireWhen (config.maxOracleConfBps > 0) <|
    require (conf.saturatingMul 10000 / price.toUInt64 ≤ config.maxOracleConfBps.toUInt64)
      (.sss .oracleConfidenceTooWide)

/-- The price of the adapter that `oracle_type` selects. -/
def adapterPrice (oracleFeedAcct : Pubkey) (config : StablecoinConfig) : Result OraclePrice :=
  if config.oracleType = oraclePyth then
    Pyth.getPrice rt clock s oracleFeedAcct (maxAgeSecs config)
  else if config.oracleType = oracleSwitchboard then Switchboard.getPrice
  else if config.oracleType = oracleCustom then
    Custom.getPrice clock s oracleFeedAcct config (maxAgeSecs config)
  else .error (.sss .invalidPriceFeed)

def getOraclePrice (oracleFeedAcct : Pubkey) (config : StablecoinConfig) :
    Result OraclePrice := do
  validateFeedKey oracleFeedAcct config
  let price ← adapterPrice rt clock s oracleFeedAcct config
  require (price.price.toInt > 0) (.sss .invalidPrice)
  checkConf config price.price price.conf
  pure price

/-- The consensus price when `FLAG_MULTI_ORACLE_CONSENSUS` is set, else the configured
adapter's. The consensus price is an unsigned number cast to a signed one. -/
def getEffectiveOraclePrice (oracleFeedAcct : Pubkey) (config : StablecoinConfig)
    (oracleConsensus : Option OracleConsensus) : Result OraclePrice :=
  if config.featureFlags &&& flagMultiOracleConsensus ≠ 0 then do
    let oc ← oracleConsensus.okOr (.sss .oracleConsensusNotFound)
    require (oc.lastConsensusPrice > 0) (.sss .insufficientOracles)
    require (clock.slot.saturatingSub oc.lastConsensusSlot ≤ oc.maxAgeSlots)
      (.sss .stalePriceFeed)
    pure { price := oc.lastConsensusPrice.toInt64, conf := oc.lastConsensusConf, expo := -8 }
  else getOraclePrice rt clock s oracleFeedAcct config

end SolanaStablecoin
