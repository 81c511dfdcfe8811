import SolanaStablecoin.Program.Admin
import SolanaStablecoin.Program.Oracle

/-! The permissionless circuit breaker (`circuit_breaker_keeper.rs`). The reward is paid in
lamports, which are not part of the state. -/

namespace SolanaStablecoin

variable (rt : Runtime) (clock : Clock) (s : State)

structure InitKeeperConfigParams where
  deviationThresholdBps : UInt16
  keeperRewardLamports : UInt64
  minCooldownSlots : UInt64
  sustainedRecoverySlots : UInt64
  targetPrice : UInt64

def maxKeeperRewardLamports : UInt64 := 100000000

def InitKeeperConfigParams.check (p : InitKeeperConfigParams) : Result Unit := do
  require (p.keeperRewardLamports ≤ maxKeeperRewardLamports) (.sss .invalidKeeperReward)
  require (p.deviationThresholdBps > 0 ∧ p.deviationThresholdBps ≤ 5000)
    (.sss .invalidKeeperDeviation)
  require (p.minCooldownSlots ≥ 10) (.sss .invalidKeeperCooldown)
  require (p.sustainedRecoverySlots > 0) (.sss .invalidKeeperRecovery)
  require (p.targetPrice > 0) (.sss .invalidPrice)

def initKeeperConfigHandler (a : AuthorityAndConfig) (p : InitKeeperConfigParams) :
    Result State := do
  let config ← a.loadConfig s
  requireFree s.keeperConfigs (.keeperConfig config.mint)
  checkSquads config a.authority.key
  p.check
  pure { s with
    keeperConfigs := put s.keeperConfigs (.keeperConfig config.mint)
      { sssMint := config.mint, deviationThresholdBps := p.deviationThresholdBps
        keeperRewardLamports := p.keeperRewardLamports, minCooldownSlots := p.minCooldownSlots
        sustainedRecoverySlots := p.sustainedRecoverySlots, targetPrice := p.targetPrice } }

/-- Accounts of both cranks, which anybody may turn. -/
structure Crank where
  caller : Signer
  config : Pubkey
  oracleFeed : Pubkey

def Crank.loadAccounts (a : Crank) : Result (StablecoinConfig × KeeperConfig) := do
  let cfg ← load s.configs a.config
  let kc ← load s.keeperConfigs (.keeperConfig cfg.mint)
  require (a.config = .stablecoinConfig cfg.mint) (.anchor .constraintSeeds)
  require (kc.sssMint = cfg.mint) (.sss .keeperConfigMintMismatch)
  pure (cfg, kc)

/-- `a - b` of signed numbers, unless that overflows. -/
def checkedDiff (a b : Int64) : Result Int64 :=
  if -2 ^ 63 ≤ a.toInt - b.toInt ∧ a.toInt - b.toInt < 2 ^ 63 then .ok (a - b) else .error .panic

def rawDeviation (current target : Int64) : Result Int64 :=
  if current > target then checkedDiff current target else checkedDiff target current

/-- The distance of the price from the target, in basis points of the target. -/
def KeeperConfig.deviationBps (kc : KeeperConfig) (price : Int64) : Result UInt64 := do
  let target := kc.targetPrice.toInt64
  let rawDev ← rawDeviation price target
  let scaled := U128.saturatingMul rawDev.toNatClampNeg 10000
  -- the cast of a negative target to an unsigned number
  let divisor := (target.toInt % 2 ^ 128).toNat
  pure (if divisor = 0 then .ofNat (2 ^ 64 - 1) else .ofNat (scaled / divisor))

def crankCircuitBreakerHandler (a : Crank) : Result State := do
  let (cfg, kc) ← a.loadAccounts s
  require (cfg.featureFlags &&& flagCircuitBreaker ≠ 0) (.sss .circuitBreakerNotArmed)
  requireWhen (kc.lastTriggerSlot > 0) do
    let rested ← (kc.lastTriggerSlot.checkedAdd kc.minCooldownSlots).okOr .panic
    require (clock.slot ≥ rested) (.sss .keeperCooldownActive)
  require (cfg.paused = false) (.sss .mintPaused)
  let price ← getOraclePrice rt clock s a.oracleFeed cfg
  let deviationBps ← kc.deviationBps price.price
  require (deviationBps ≥ kc.deviationThresholdBps.toUInt64) (.sss .pegWithinThreshold)
  pure { s with
    configs := put s.configs a.config { cfg with paused := true }
    keeperConfigs := put s.keeperConfigs (.keeperConfig cfg.mint)
      { kc with lastTriggerSlot := clock.slot, lastWithinThresholdSlot := 0 } }

/-- The recovery clock is started and read in the same transaction: what a failing one writes is
rolled back. -/
def crankUnpauseHandler (a : Crank) : Result State := do
  let (cfg, kc) ← a.loadAccounts s
  require (cfg.paused = true) (.sss .notPaused)
  let price ← getOraclePrice rt clock s a.oracleFeed cfg
  let deviationBps ← kc.deviationBps price.price
  require (deviationBps < kc.deviationThresholdBps.toUInt64) (.sss .pegStillDeviating)
  let lastWithin :=
    if kc.lastWithinThresholdSlot = 0 then clock.slot else kc.lastWithinThresholdSlot
  require (clock.slot.saturatingSub lastWithin ≥ kc.sustainedRecoverySlots)
    (.sss .keeperRecoveryWindowNotMet)
  pure { s with
    configs := put s.configs a.config { cfg with paused := false }
    keeperConfigs := put s.keeperConfigs (.keeperConfig cfg.mint)
      { kc with lastWithinThresholdSlot := 0 } }

end SolanaStablecoin
