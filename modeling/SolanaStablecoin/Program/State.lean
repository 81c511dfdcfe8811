import SolanaStablecoin.Program.Token
import SolanaStablecoin.Program.Error

/-! The accounts of the program (`state.rs`), and the state all instructions work on: one map for
each account type, from addresses to contents, and the accounts of the token program. A freshly
created account is zeroed, which the default value of each field says. -/

namespace SolanaStablecoin

/-! ## Feature flags and timelocked operations -/

def flagCircuitBreaker : UInt64 := (1 : UInt64) <<< 0
def flagSpendPolicy : UInt64 := (1 : UInt64) <<< 1
def flagDaoCommittee : UInt64 := (1 : UInt64) <<< 2
def flagYieldCollateral : UInt64 := (1 : UInt64) <<< 3
def flagZkCompliance : UInt64 := (1 : UInt64) <<< 4
def flagConfidentialTransfers : UInt64 := (1 : UInt64) <<< 5
def flagTravelRule : UInt64 := (1 : UInt64) <<< 6
def flagSanctionsOracle : UInt64 := (1 : UInt64) <<< 7
def flagZkCredentials : UInt64 := (1 : UInt64) <<< 8
def flagPidFeeControl : UInt64 := (1 : UInt64) <<< 9
def flagGradLiquidationBonus : UInt64 := (1 : UInt64) <<< 10
def flagPsmDynamicFees : UInt64 := (1 : UInt64) <<< 11
def flagWalletRateLimits : UInt64 := (1 : UInt64) <<< 12
def flagSquadsAuthority : UInt64 := (1 : UInt64) <<< 13
def flagRequireOwnerConsent : UInt64 := (1 : UInt64) <<< 15
def flagPorHaltOnBreach : UInt64 := (1 : UInt64) <<< 16
def flagBridgeEnabled : UInt64 := (1 : UInt64) <<< 17
def flagMarketMakerHooks : UInt64 := (1 : UInt64) <<< 18
def flagAgentPaymentChannel : UInt64 := (1 : UInt64) <<< 19
def flagProbabilisticMoney : UInt64 := (1 : UInt64) <<< 20
def flagInsuranceVaultRequired : UInt64 := (1 : UInt64) <<< 21
def flagMultiOracleConsensus : UInt64 := (1 : UInt64) <<< 22
def flagRedemptionQueue : UInt64 := (1 : UInt64) <<< 23
def flagLegalRegistry : UInt64 := (1 : UInt64) <<< 24

def adminOpNone : UInt8 := 0
def adminOpTransferAuthority : UInt8 := 1
def adminOpSetFeatureFlag : UInt8 := 2
def adminOpClearFeatureFlag : UInt8 := 3
def adminOpSetPythFeed : UInt8 := 4
def adminOpSetOracleParams : UInt8 := 5
def adminOpSetStabilityFee : UInt8 := 6
def adminOpSetPsmFee : UInt8 := 7
def adminOpSetBackstopParams : UInt8 := 8
def adminOpSetSpendLimit : UInt8 := 9
def adminOpTransferComplianceAuthority : UInt8 := 10
def adminOpSetOracleConfig : UInt8 := 11
def adminOpSetMinReserveRatio : UInt8 := 12
def adminOpSetTravelRuleThreshold : UInt8 := 13
def adminOpSetSanctionsParams : UInt8 := 14
def adminOpSetTimelockDelay : UInt8 := 15
def adminOpPause : UInt8 := 16
def adminOpUnpause : UInt8 := 17

def defaultAdminTimelockDelay : UInt64 := 432000

/-- `upgrade::CURRENT_VERSION` -/
def currentVersion : UInt8 := 1

/-- `upgrade::MIN_SUPPORTED_VERSION` -/
def minSupportedVersion : UInt8 := 1

/-! ## Accounts -/

structure StablecoinConfig where
  mint : Pubkey := .default
  authority : Pubkey := .default
  complianceAuthority : Pubkey := .default
  preset : UInt8 := 0
  paused : Bool := false
  totalMinted : UInt64 := 0
  totalBurned : UInt64 := 0
  transferHookProgram : Pubkey := .default
  collateralMint : Pubkey := .default
  reserveVault : Pubkey := .default
  totalCollateral : UInt64 := 0
  maxSupply : UInt64 := 0
  pendingAuthority : Pubkey := .default
  pendingComplianceAuthority : Pubkey := .default
  featureFlags : UInt64 := 0
  maxTransferAmount : UInt64 := 0
  expectedPythFeed : Pubkey := .default
  adminOpMatureSlot : UInt64 := 0
  adminOpKind : UInt8 := 0
  adminOpParam : UInt64 := 0
  adminOpTarget : Pubkey := .default
  adminTimelockDelay : UInt64 := 0
  maxOracleAgeSecs : UInt32 := 0
  maxOracleConfBps : UInt16 := 0
  stabilityFeeBps : UInt16 := 0
  redemptionFeeBps : UInt16 := 0
  insuranceFundPubkey : Pubkey := .default
  maxBackstopBps : UInt16 := 0
  auditorElgamalPubkey : BitVec 256 := 0
  oracleType : UInt8 := 0
  oracleFeed : Pubkey := .default
  supplyCapLocked : Bool := false
  version : UInt8 := 0
  minReserveRatioBps : UInt16 := 0
  travelRuleThreshold : UInt64 := 0
  sanctionsOracle : Pubkey := .default
  sanctionsMaxStalenessSlots : UInt64 := 0
  authorizedKeepers : List Pubkey := []
  squadsMultisig : Pubkey := .default
  expectedUpgradeAuthority : Pubkey := .default
  bump : UInt8 := 0

/-- The part of a config that says who governs it, and what is pending. -/
structure Office where
  preset : UInt8
  authority : Pubkey
  complianceAuthority : Pubkey
  pendingAuthority : Pubkey
  pendingComplianceAuthority : Pubkey
  adminOpKind : UInt8
  adminOpParam : UInt64
  adminOpTarget : Pubkey
  adminOpMatureSlot : UInt64
  adminTimelockDelay : UInt64
  squadsMultisig : Pubkey
deriving DecidableEq

namespace StablecoinConfig

/-- Net circulating supply. -/
def netSupply (c : StablecoinConfig) : UInt64 := c.totalMinted.saturatingSub c.totalBurned

def checkFeatureFlag (c : StablecoinConfig) (flag : UInt64) : Bool := c.featureFlags &&& flag != 0

def office (c : StablecoinConfig) : Office :=
  { preset := c.preset
    authority := c.authority
    complianceAuthority := c.complianceAuthority
    pendingAuthority := c.pendingAuthority
    pendingComplianceAuthority := c.pendingComplianceAuthority
    adminOpKind := c.adminOpKind
    adminOpParam := c.adminOpParam
    adminOpTarget := c.adminOpTarget
    adminOpMatureSlot := c.adminOpMatureSlot
    adminTimelockDelay := c.adminTimelockDelay
    squadsMultisig := c.squadsMultisig }

end StablecoinConfig

structure MinterInfo where
  config : Pubkey := .default
  minter : Pubkey := .default
  cap : UInt64 := 0
  minted : UInt64 := 0
  maxMintPerEpoch : UInt64 := 0
  mintedThisEpoch : UInt64 := 0
  lastEpochReset : UInt64 := 0

structure CollateralVault where
  owner : Pubkey := .default
  collateralMint : Pubkey := .default
  vaultTokenAccount : Pubkey := .default
  depositedAmount : UInt64 := 0
deriving DecidableEq

structure CdpPosition where
  config : Pubkey := .default
  sssMint : Pubkey := .default
  owner : Pubkey := .default
  debtAmount : UInt64 := 0
  collateralMint : Pubkey := .default
  lastFeeAccrual : Int64 := 0
  accruedFees : UInt64 := 0
deriving DecidableEq

namespace CdpPosition

def minCollateralRatioBps : Nat := 15000
def liquidationThresholdBps : Nat := 12000

end CdpPosition

structure InterfaceVersion where
  mint : Pubkey := .default
  version : UInt8 := 0
  active : Bool := false

namespace InterfaceVersion

def currentVersion : UInt8 := 1

end InterfaceVersion

structure YieldCollateralConfig where
  sssMint : Pubkey := .default
  whitelistedMints : List Pubkey := []

namespace YieldCollateralConfig

def maxMints : Nat := 8

end YieldCollateralConfig

structure CollateralConfig where
  sssMint : Pubkey := .default
  collateralMint : Pubkey := .default
  whitelisted : Bool := false
  maxLtvBps : UInt16 := 0
  liquidationThresholdBps : UInt16 := 0
  liquidationBonusBps : UInt16 := 0
  maxDepositCap : UInt64 := 0
  totalDeposited : UInt64 := 0

namespace CollateralConfig

def validate (ltv threshold bonus : UInt16) : Result Unit := do
  require (ltv ≤ 10000) (.sss .invalidCollateralConfig)
  require (threshold ≤ 10000) (.sss .invalidCollateralConfig)
  require (threshold > ltv) (.sss .invalidCollateralThreshold)
  require (bonus ≤ 5000) (.sss .invalidLiquidationBonus)

end CollateralConfig

structure CustomPriceFeed where
  authority : Pubkey := .default
  price : Int64 := 0
  expo : Int32 := 0
  conf : UInt64 := 0
  lastUpdateSlot : UInt64 := 0
  lastUpdateUnixTimestamp : Int64 := 0
  bump : UInt8 := 0

structure ProofOfReserves where
  mint : Pubkey := .default
  lastAttestationSlot : UInt64 := 0
  lastVerifiedRatioBps : UInt64 := 0
  attester : Pubkey := .default

structure OracleSource where
  oracleType : UInt8 := 0
  /-- The default address marks an empty slot. -/
  feed : Pubkey := .default
deriving DecidableEq

structure OracleConsensus where
  mint : Pubkey := .default
  minOracles : UInt8 := 0
  outlierThresholdBps : UInt16 := 0
  sourceCount : UInt8 := 0
  maxAgeSlots : UInt64 := 0
  sources : List OracleSource := []
  lastConsensusPrice : UInt64 := 0
  lastConsensusSlot : UInt64 := 0
  twapPrice : UInt64 := 0
  twapLastSlot : UInt64 := 0
  lastConsensusConf : UInt64 := 0

namespace OracleConsensus

def maxSources : Nat := 8

end OracleConsensus

structure SanctionsRecord where
  isSanctioned : Bool := false
  updatedSlot : UInt64 := 0
  bump : UInt8 := 0

structure TravelRuleRecord where
  sssMint : Pubkey := .default
  nonce : UInt64 := 0
  encryptedPayload : BitVec 2048 := 0
  originatorVasp : Pubkey := .default
  beneficiaryVasp : Pubkey := .default
  transferAmount : UInt64 := 0
  slot : UInt64 := 0

structure ZkComplianceConfig where
  sssMint : Pubkey := .default
  ttlSlots : UInt64 := 0
  verifierPubkey : Option Pubkey := none

namespace ZkComplianceConfig

def defaultTtlSlots : UInt64 := 1500

end ZkComplianceConfig

structure IssuerRegistry where
  config : Pubkey := .default
  legalEntityHash : BitVec 256 := 0
  jurisdiction : BitVec 32 := 0
  registrationNumberHash : BitVec 256 := 0
  attestor : Pubkey := .default
  attestedSlot : UInt64 := 0
  expirySlot : UInt64 := 0
  attested : Bool := false

structure PidConfig where
  sssMint : Pubkey := .default
  kp : Int64 := 0
  ki : Int64 := 0
  kd : Int64 := 0
  targetPrice : UInt64 := 0
  minFeeBps : UInt16 := 0
  maxFeeBps : UInt16 := 0
  lastError : Int64 := 0
  integral : Int64 := 0
  lastUpdateSlot : UInt64 := 0

structure LiquidationBonusConfig where
  sssMint : Pubkey := .default
  authority : Pubkey := .default
  tier1ThresholdBps : UInt16 := 0
  tier1BonusBps : UInt16 := 0
  tier2ThresholdBps : UInt16 := 0
  tier2BonusBps : UInt16 := 0
  tier3ThresholdBps : UInt16 := 0
  tier3BonusBps : UInt16 := 0
  maxBonusBps : UInt16 := 0

structure ReserveComposition where
  sssMint : Pubkey := .default
  cashBps : UInt16 := 0
  tBillsBps : UInt16 := 0
  cryptoBps : UInt16 := 0
  otherBps : UInt16 := 0
  lastUpdatedSlot : UInt64 := 0
  lastUpdatedBy : Pubkey := .default
  bump : UInt8 := 0

structure InsuranceVault where
  sssMint : Pubkey := .default
  vaultTokenAccount : Pubkey := .default
  minSeedBps : UInt16 := 0
  currentBalance : UInt64 := 0
  totalDrawn : UInt64 := 0
  maxDrawPerEventBps : UInt16 := 0
  adequatelySeeded : Bool := false

namespace InsuranceVault

/-- The seed that a net supply asks for. -/
def requiredSeedAmount (v : InsuranceVault) (netSupply : UInt64) : UInt64 :=
  if v.minSeedBps = 0 then 0
  else .ofNat (min (U128.saturatingMul netSupply.toNat v.minSeedBps.toNat / 10000) (2 ^ 64 - 1))

end InsuranceVault

inductive ProposalAction where
  | pause
  | unpause
  | setFeatureFlag
  | clearFeatureFlag
  | updateMinter
  | revokeMinter
  | drawInsurance
deriving DecidableEq

structure ProposalPda where
  config : Pubkey := .default
  proposalId : UInt64 := 0
  proposer : Pubkey := .default
  action : ProposalAction := .pause
  param : UInt64 := 0
  target : Pubkey := .default
  votes : List Pubkey := []
  quorum : UInt8 := 0
  executed : Bool := false
  cancelled : Bool := false
  cumulativeConsumed : UInt64 := 0

structure DaoCommitteeConfig where
  config : Pubkey := .default
  members : List Pubkey := []
  quorum : UInt8 := 0
  nextProposalId : UInt64 := 0

namespace DaoCommitteeConfig

def maxMembers : Nat := 10

end DaoCommitteeConfig

structure GuardianConfig where
  config : Pubkey := .default
  guardians : List Pubkey := []
  threshold : UInt8 := 0
  nextProposalId : UInt64 := 0
  pendingLiftVotes : List Pubkey := []
  guardianPauseActive : Bool := false
  guardianPauseUnlocksAt : Int64 := 0

namespace GuardianConfig

def maxGuardians : Nat := 7

/-- `GUARDIAN_PAUSE_AUTHORITY_OVERRIDE_DELAY`, 24 hours. -/
def guardianPauseAuthorityOverrideDelay : Int64 := 86400

end GuardianConfig

structure PauseProposal where
  config : Pubkey := .default
  proposalId : UInt64 := 0
  proposer : Pubkey := .default
  reason : BitVec 256 := 0
  votes : List Pubkey := []
  threshold : UInt8 := 0
  executed : Bool := false

structure PsmCurveConfig where
  sssMint : Pubkey := .default
  authority : Pubkey := .default
  baseFeeBps : UInt16 := 0
  curveK : UInt64 := 0
  maxFeeBps : UInt16 := 0

namespace PsmCurveConfig

def capFeeBps : UInt16 := 1000

/-- The fee of a swap, from the vault balance and the total reserves. -/
def computeFee (p : PsmCurveConfig) (vaultAmount totalReserves : UInt64) : UInt16 :=
  if totalReserves = 0 then p.baseFeeBps
  else
    let ideal := totalReserves / 2
    let imbalance := if vaultAmount > ideal then vaultAmount - ideal else ideal - vaultAmount
    let imbalanceRatio := U128.saturatingMul imbalance.toNat 1000000 / totalReserves.toNat
    let delta := min (U128.saturatingMul (U128.saturatingMul p.curveK.toNat imbalanceRatio)
      imbalanceRatio / 1000000000000) p.maxFeeBps.toNat
    .ofNat (min (min (p.baseFeeBps.toNat + delta) 65535) p.maxFeeBps.toNat)

end PsmCurveConfig

structure RedemptionPool where
  sssMint : Pubkey := .default
  reserveVault : Pubkey := .default
  currentLiquidity : UInt64 := 0
  maxPoolSize : UInt64 := 0
  instantRedemptionFeeBps : UInt16 := 0
  totalSeeded : UInt64 := 0
  totalRedeemed : UInt64 := 0
  totalReplenished : UInt64 := 0
  utilizationBps : UInt16 := 0
  bump : UInt8 := 0

namespace RedemptionPool

def capFeeBps : UInt16 := 500

end RedemptionPool

structure RedemptionQueue where
  sssMint : Pubkey := .default
  queueHead : UInt64 := 0
  queueTail : UInt64 := 0
  minDelaySlots : UInt64 := 0
  maxQueueDepth : UInt64 := 0
  maxRedemptionPerSlotBps : UInt16 := 0
  lastSlotProcessed : UInt64 := 0
  slotRedemptionTotal : UInt64 := 0
  keeperRewardLamports : UInt64 := 0
deriving DecidableEq

structure RedemptionEntry where
  queueIndex : UInt64 := 0
  owner : Pubkey := .default
  amount : UInt64 := 0
  enqueueSlot : UInt64 := 0
  fulfilled : Bool := false
  cancelled : Bool := false
deriving DecidableEq

structure RedemptionGuarantee where
  sssMint : Pubkey := .default
  reserveVault : Pubkey := .default
  maxDailyRedemption : UInt64 := 0
  dailyRedeemed : UInt64 := 0
  dayStartSlot : UInt64 := 0
  slaSlots : UInt64 := 0
  lastUpdatedSlot : UInt64 := 0
  bump : UInt8 := 0

structure RedemptionRequest where
  sssMint : Pubkey := .default
  user : Pubkey := .default
  amount : UInt64 := 0
  requestedSlot : UInt64 := 0
  expirySlot : UInt64 := 0
  fulfilled : Bool := false
  slaBreached : Bool := false

structure MarketMakerConfig where
  sssMint : Pubkey := .default
  whitelistedMms : List Pubkey := []
  mmMintLimitPerSlot : UInt64 := 0
  mmBurnLimitPerSlot : UInt64 := 0
  spreadBps : UInt16 := 0
  lastMintSlot : UInt64 := 0
  mmMintedThisSlot : UInt64 := 0
  lastBurnSlot : UInt64 := 0
  mmBurnedThisSlot : UInt64 := 0

structure BridgeConfig where
  sssMint : Pubkey := .default
  bridgeType : UInt8 := 0
  bridgeProgram : Pubkey := .default
  maxBridgeAmountPerTx : UInt64 := 0
  bridgeFeeBps : UInt16 := 0
  feeVault : Pubkey := .default
  authority : Pubkey := .default
  totalBridgedOut : UInt64 := 0
  totalBridgedIn : UInt64 := 0

namespace BridgeConfig

def bridgeTypeWormhole : UInt8 := 0
def bridgeTypeLayerzero : UInt8 := 1

end BridgeConfig

structure ConsumedMessageId where
  messageId : BitVec 256 := 0
  sssMint : Pubkey := .default

inductive VaultStatus where
  | pending
  | resolved
  | expired
  | partiallyResolved
deriving DecidableEq

structure ProbabilisticVault where
  config : Pubkey := .default
  issuer : Pubkey := .default
  claimant : Pubkey := .default
  stableMint : Pubkey := .default
  committedAmount : UInt64 := 0
  resolvedAmount : UInt64 := 0
  conditionHash : BitVec 256 := 0
  expirySlot : UInt64 := 0
  commitmentId : UInt64 := 0
  status : VaultStatus := .pending
deriving DecidableEq

namespace ProbabilisticVault

def remaining (v : ProbabilisticVault) : UInt64 :=
  v.committedAmount.saturatingSub v.resolvedAmount

/-- A partly resolved vault with nothing left is terminal too. -/
def isTerminal (v : ProbabilisticVault) : Bool :=
  v.status = .resolved || v.status = .expired ||
    v.status = .partiallyResolved && v.remaining = 0

end ProbabilisticVault

inductive ChannelStatus where
  | opened
  | disputed
  | settled
  | forceClose
deriving DecidableEq

namespace ChannelStatus

def isTerminal : ChannelStatus → Bool
  | settled | forceClose => true
  | opened | disputed => false

end ChannelStatus

structure PaymentChannel where
  initiator : Pubkey := .default
  counterparty : Pubkey := .default
  stableMint : Pubkey := .default
  initiatorDeposit : UInt64 := 0
  openSlot : UInt64 := 0
  channelId : UInt64 := 0
  /-- Stored, and enforced nowhere. -/
  disputePolicy : UInt8 := 0
  timeoutSlots : UInt64 := 0
  workProofHash : BitVec 256 := 0
  status : ChannelStatus := .opened
deriving DecidableEq

structure ProposedSettlement where
  amount : UInt64 := 0
  proposedBy : Pubkey := .default
deriving DecidableEq

structure VerificationRecord where
  sssMint : Pubkey := .default
  user : Pubkey := .default
  expiresAtSlot : UInt64 := 0
  bump : UInt8 := 0

structure CredentialRegistry where
  sssMint : Pubkey := .default
  issuer : Pubkey := .default
  merkleRoot : BitVec 256 := 0
  credentialTtlSlots : UInt64 := 0
  updatedSlot : UInt64 := 0

structure CredentialRecord where
  sssMint : Pubkey := .default
  holder : Pubkey := .default
  issuedSlot : UInt64 := 0
  expiresSlot : UInt64 := 0
  revoked : Bool := false
  bump : UInt8 := 0

structure WalletRateLimit where
  sssMint : Pubkey := .default
  wallet : Pubkey := .default
  maxTransferPerWindow : UInt64 := 0
  windowSlots : UInt64 := 0
  transferredThisWindow : UInt64 := 0
  windowStartSlot : UInt64 := 0
  bump : UInt8 := 0

structure KeeperConfig where
  sssMint : Pubkey := .default
  deviationThresholdBps : UInt16 := 0
  keeperRewardLamports : UInt64 := 0
  minCooldownSlots : UInt64 := 0
  sustainedRecoverySlots : UInt64 := 0
  targetPrice : UInt64 := 0
  lastTriggerSlot : UInt64 := 0
  lastWithinThresholdSlot : UInt64 := 0

structure AuthorityRotationRequest where
  configMint : Pubkey := .default
  currentAuthority : Pubkey := .default
  newAuthority : Pubkey := .default
  backupAuthority : Pubkey := .default
  proposedSlot : UInt64 := 0
  timelockSlots : UInt64 := 0

structure SquadsMultisigConfig where
  sssMint : Pubkey := .default
  multisigPda : Pubkey := .default
  threshold : UInt8 := 0
  members : List Pubkey := []

namespace SquadsMultisigConfig

def maxMembers : Nat := 10

end SquadsMultisigConfig

/-! ## Accounts of the transfer hook -/

structure BlacklistState where
  mint : Pubkey := .default
  authority : Pubkey := .default
  blacklisted : List Pubkey := []

/-- One seed of an extra account: a literal, the key of an account of the instruction, or a part
of the data of one. -/
inductive Seed where
  | literal (bytes : HookSeed)
  | accountKey (index : Nat)
  | accountData (accountIndex dataIndex length : Nat)
deriving DecidableEq

/-- `ExtraAccountMeta::new_with_seeds`. -/
structure ExtraAccountMeta where
  seeds : List Seed
  isSigner : Bool
  isWritable : Bool
deriving DecidableEq

/-- A Pyth price, as the price feed account holds it. -/
structure Price where
  price : Int64
  conf : UInt64
  expo : Int32
  publishTime : Int64
  /-- `agg.pub_slot` -/
  pubSlot : UInt64 := 0

/-! ## The state -/

/-- The addresses of the model have no bytes, so a cell of account data is a byte or one of the 32
parts of an address. -/
inductive Cell where
  | byte (b : UInt8)
  | address (k : Pubkey) (i : Nat)
deriving DecidableEq

structure State where
  tokens : Tokens
  configs : Pubkey → Option StablecoinConfig
  minterInfos : Pubkey → Option MinterInfo
  collateralVaults : Pubkey → Option CollateralVault
  cdpPositions : Pubkey → Option CdpPosition
  interfaceVersions : Pubkey → Option InterfaceVersion
  yieldCollateralConfigs : Pubkey → Option YieldCollateralConfig
  collateralConfigs : Pubkey → Option CollateralConfig
  customPriceFeeds : Pubkey → Option CustomPriceFeed
  proofsOfReserves : Pubkey → Option ProofOfReserves
  oracleConsensuses : Pubkey → Option OracleConsensus
  sanctionsRecords : Pubkey → Option SanctionsRecord
  psmCurveConfigs : Pubkey → Option PsmCurveConfig
  redemptionPools : Pubkey → Option RedemptionPool
  redemptionQueues : Pubkey → Option RedemptionQueue
  redemptionEntries : Pubkey → Option RedemptionEntry
  redemptionGuarantees : Pubkey → Option RedemptionGuarantee
  redemptionRequests : Pubkey → Option RedemptionRequest
  marketMakerConfigs : Pubkey → Option MarketMakerConfig
  bridgeConfigs : Pubkey → Option BridgeConfig
  consumedMessageIds : Pubkey → Option ConsumedMessageId
  verificationRecords : Pubkey → Option VerificationRecord
  credentialRegistries : Pubkey → Option CredentialRegistry
  credentialRecords : Pubkey → Option CredentialRecord
  walletRateLimits : Pubkey → Option WalletRateLimit
  keeperConfigs : Pubkey → Option KeeperConfig
  authorityRotationRequests : Pubkey → Option AuthorityRotationRequest
  squadsMultisigConfigs : Pubkey → Option SquadsMultisigConfig
  blacklistStates : Pubkey → Option BlacklistState
  extraAccountMetaLists : Pubkey → Option (List ExtraAccountMeta)
  travelRuleRecords : Pubkey → Option TravelRuleRecord
  zkComplianceConfigs : Pubkey → Option ZkComplianceConfig
  issuerRegistries : Pubkey → Option IssuerRegistry
  pidConfigs : Pubkey → Option PidConfig
  liquidationBonusConfigs : Pubkey → Option LiquidationBonusConfig
  reserveCompositions : Pubkey → Option ReserveComposition
  insuranceVaults : Pubkey → Option InsuranceVault
  daoCommittees : Pubkey → Option DaoCommitteeConfig
  proposals : Pubkey → Option ProposalPda
  guardianConfigs : Pubkey → Option GuardianConfig
  pauseProposals : Pubkey → Option PauseProposal
  probabilisticVaults : Pubkey → Option ProbabilisticVault
  paymentChannels : Pubkey → Option PaymentChannel
  proposedSettlements : Pubkey → Option ProposedSettlement
  /-- The accounts that parse as Pyth price feeds. -/
  pythPriceFeeds : Pubkey → Option Price
  /-- The data of the accounts of other programs. -/
  otherData : Pubkey → List Cell := fun _ => []

/-- The account at `k`, which must exist. -/
def load {α : Type} (m : Pubkey → Option α) (k : Pubkey) : Result α :=
  (m k).okOr (.anchor .accountNotInitialized)

@[simp] theorem load_eq_ok {α : Type} {m : Pubkey → Option α} {k : Pubkey} {a : α} :
    load m k = .ok a ↔ m k = some a := Option.okOr_eq_ok

/-- `init`: there is no account at `k` yet. -/
def requireFree {α : Type} (m : Pubkey → Option α) (k : Pubkey) : Result Unit :=
  require (m k).isNone (.anchor .accountAlreadyInUse)

@[simp] theorem requireFree_eq_ok {α : Type} {m : Pubkey → Option α} {k : Pubkey} {u : Unit} :
    requireFree m k = .ok u ↔ m k = none := by
  rw [requireFree, require_eq_ok, Option.isNone_iff_eq_none]

/-- The clock sysvar. -/
structure Clock where
  slot : UInt64
  epoch : UInt64
  unixTimestamp : Int64

/-- The code this program calls that is not part of the repository. -/
structure Runtime where
  token : TokenProgram
  /-- `pyth_sdk_solana`: the price of a feed, unless it is older than `age` seconds. -/
  getPriceNoOlderThan (feed : Price) (now : Int64) (age : UInt64) : Option Price
  /-- The canonical bump of a derived address. -/
  bump : Pubkey → UInt8
  blake3 {n : Nat} (data : BitVec n) : BitVec 256

end SolanaStablecoin
