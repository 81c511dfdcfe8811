import SolanaStablecoin.Base.Transition
import SolanaStablecoin.Program.Compliance
import SolanaStablecoin.Program.Consensus
import SolanaStablecoin.Program.Credential
import SolanaStablecoin.Program.Escrow
import SolanaStablecoin.Program.Governance
import SolanaStablecoin.Program.Hook
import SolanaStablecoin.Program.Insurance
import SolanaStablecoin.Program.Keeper
import SolanaStablecoin.Program.Parameters
import SolanaStablecoin.Program.Raw
import SolanaStablecoin.Program.Redeem
import SolanaStablecoin.Program.Roles

/-! The instructions of the program and of its transfer hook as one type, what happens around
them, and the transaction that executes either. Instructions that write no account are left
out. -/

namespace SolanaStablecoin

inductive Instruction where
  | initializeStablecoin (a : Initialize) (p : InitializeParams)
  | updateMinter (a : UpdateMinter) (cap : UInt64)
  | revokeMinter (a : UpdateMinter)
  | pause (a : AuthorityAndMint) (paused : Bool)
  | setFeatureFlag (a : AuthorityAndMint) (flag : UInt64)
  | clearFeatureFlag (a : AuthorityAndMint) (flag : UInt64)
  | freezeAccount (a : ComplianceAccounts)
  | thawAccount (a : ComplianceAccounts)
  | proposeTimelockedOp (a : AuthorityAndMint) (opKind : UInt8) (param : UInt64)
      (target : Pubkey)
  | executeTimelockedOp (a : AuthorityAndMint)
  | cancelTimelockedOp (a : AuthorityAndMint)
  | setPythFeed (a : AuthorityAndMint) (feed : Pubkey)
  | setOracleParams (a : AuthorityAndMint) (maxAgeSecs : UInt32) (maxConfBps : UInt16)
  | setStabilityFee (a : AuthorityAndConfig) (feeBps : UInt16)
  | addAuthorizedKeeper (a : AuthorityAndConfig) (keeper : Pubkey)
  | removeAuthorizedKeeper (a : AuthorityAndConfig) (keeper : Pubkey)
  | setOracleConfig (a : AuthorityAndMint) (oracleType : UInt8) (oracleFeed : Pubkey)
  | initCustomPriceFeed (a : AuthorityAndMint)
  | updateCustomPrice (a : AuthorityAndMint) (price : Int64) (expo : Int32) (conf : UInt64)
  | mint (a : MintTokens) (amount : UInt64)
  | burn (a : BurnTokens) (amount : UInt64)
  | initInterfaceVersion (a : AuthorityAndMint)
  | updateInterfaceVersion (a : UpdateInterfaceVersion) (newVersion : Option UInt8)
      (active : Option Bool)
  | cpiMint (a : MintTokens) (amount : UInt64) (requiredVersion : UInt8)
  | cpiBurn (a : BurnTokens) (amount : UInt64) (requiredVersion : UInt8)
  | initMarketMakerConfig (a : AuthorityAndMint) (mintLimit burnLimit : UInt64)
      (spreadBps : UInt16)
  | registerMarketMaker (a : AuthorityAndMint) (mmPubkey : Pubkey)
  | mmMint (a : MmAccounts) (amount : UInt64)
  | mmBurn (a : MmAccounts) (amount : UInt64)
  | initBridgeConfig (a : AuthorityAndMint) (bridgeType : UInt8) (bridgeProgram : Pubkey)
      (maxAmount : UInt64) (feeBps : UInt16) (feeVault : Pubkey)
  | bridgeOut (a : BridgeTokensOut) (amount : UInt64)
  | bridgeIn (a : BridgeTokensIn) (proofBytes : List UInt8) (amount : UInt64)
      (recipient : Pubkey) (messageId : BitVec 256)
  | registerCollateral (a : CollateralAdmin) (p : CollateralParams)
  | updateCollateralConfig (a : CollateralAdmin) (p : CollateralParams)
  | cdpDepositCollateral (a : CdpDepositCollateral) (amount : UInt64)
  | cdpBorrowStable (a : CdpBorrowStable) (amount : UInt64)
  | cdpRepayStable (a : CdpRepayStable) (amount : UInt64)
  | cdpLiquidate (a : CdpLiquidate) (minCollateralAmount partialRepayAmount : UInt64)
  | cdpLiquidateV2 (a : CdpLiquidate) (debtToRepay minCollateralAmount : UInt64)
  | collectStabilityFee (a : CollectStabilityFee)
  | depositCollateral (a : DepositCollateral) (amount : UInt64)
  | redeem (a : Redeem) (amount : UInt64)
  | initPsmCurveConfig (a : AuthorityAndConfig) (baseFeeBps : UInt16) (curveK : UInt64)
      (maxFeeBps : UInt16)
  | updatePsmCurveConfig (a : AuthorityAndConfig) (baseFeeBps : UInt16) (curveK : UInt64)
      (maxFeeBps : UInt16)
  | psmDynamicSwap (a : Redeem) (amount : UInt64)
  | seedRedemptionPool (a : SeedRedemptionPool) (amount maxPoolSize : UInt64)
      (feeBps : UInt16)
  | instantRedemption (a : InstantRedemption) (amount : UInt64)
  | replenishRedemptionPool (a : ReplenishRedemptionPool) (amount : UInt64)
  | drainRedemptionPool (a : DrainRedemptionPool)
  | initRedemptionQueue (a : AuthorityAndConfig)
  | updateRedemptionQueue (a : AuthorityAndConfig) (minDelaySlots maxQueueDepth : Option UInt64)
      (maxRedemptionPerSlotBps : Option UInt16) (keeperRewardLamports : Option UInt64)
  | enqueueRedemption (a : EnqueueRedemption) (amount : UInt64)
  | processRedemption (a : ProcessRedemption) (queueIndex : UInt64)
  | cancelRedemption (a : CancelRedemption) (queueIndex : UInt64)
  | compactRedemptionHead (config : Pubkey) (headIndex : UInt64)
  | registerRedemptionPool (a : AuthorityAndConfig) (reserveVault : Pubkey)
      (maxDailyRedemption : UInt64)
  | requestRedemption (a : RequestRedemption) (amount : UInt64)
  | fulfillRedemption (a : FulfillRedemption)
  | claimExpiredRedemption (a : ClaimExpiredRedemption)
  | updateRoles (a : AuthorityAndMint) (p : UpdateRolesParams)
  | acceptAuthority (a : AcceptRole)
  | acceptComplianceAuthority (a : AcceptRole)
  | proposeAuthorityRotation (a : AuthorityAndMint) (newAuthority backupAuthority : Pubkey)
  | acceptAuthorityRotation (a : TakeOver)
  | emergencyRecoverAuthority (a : TakeOver)
  | cancelAuthorityRotation (a : AuthorityAndMint)
  | initSquadsAuthority (a : AuthorityAndMint) (p : InitSquadsAuthorityParams)
  | migrateConfig (a : MigrateConfig)
  | initCredentialRegistry (a : AuthorityAndConfig) (p : InitCredentialRegistryParams)
  | rotateCredentialRoot (a : IssuerAndConfig) (newMerkleRoot : BitVec 256)
  | verifyZkCredential (a : VerifyZkCredential) (proof publicSignals : List UInt8)
  | revokeCredential (a : RevokeCredential)
  | closeCredentialRecord (a : CloseCredentialRecord)
  | setWalletRateLimit (a : AuthorityAndMint) (p : SetWalletRateLimitParams)
  | removeWalletRateLimit (a : AuthorityAndMint) (wallet : Pubkey)
  | updateWalletRateLimit (a : UpdateWalletRateLimit) (wallet : Pubkey) (transferAmount : UInt64)
  | initKeeperConfig (a : AuthorityAndConfig) (p : InitKeeperConfigParams)
  | crankCircuitBreaker (a : Crank)
  | crankUnpause (a : Crank)
  | blacklistAddAndFreeze (a : ComplianceAccounts) (blacklistState hookProgram : Pubkey)
  | transferHook (a : TransferHook) (amount : UInt64)
  | initializeExtraAccountMetaList (a : AuthorityAndMint)
  | migrateHookExtraAccounts (a : AuthorityAndMint)
  | blacklistAdd (a : AuthorityAndMint) (address : Pubkey)
  | blacklistRemove (a : AuthorityAndMint) (address : Pubkey)
  | setSpendLimit (a : AuthorityAndMint) (maxAmount : UInt64)
  | clearSpendLimit (a : AuthorityAndMint)
  | setTravelRuleThreshold (a : AuthorityAndConfig) (threshold : UInt64)
  | submitTravelRuleRecord (a : SubmitTravelRuleRecord) (nonce : UInt64)
      (encryptedPayload : BitVec 2048) (beneficiaryVasp : Pubkey) (transferAmount : UInt64)
  | closeTravelRuleRecord (a : CloseTravelRuleRecord) (nonce : UInt64)
  | setSanctionsOracle (a : AuthorityAndConfig) (oracle : Pubkey) (maxStalenessSlots : UInt64)
  | clearSanctionsOracle (a : AuthorityAndConfig)
  | updateSanctionsRecord (a : OracleAndConfig) (wallet : Pubkey) (isSanctioned : Bool)
  | closeSanctionsRecord (a : OracleAndConfig) (wallet : Pubkey)
  | initZkCompliance (a : AuthorityAndMint) (ttlSlots : UInt64) (verifierPubkey : Option Pubkey)
  | submitZkProof (a : SubmitZkProof)
  | closeVerificationRecord (a : AuthorityAndMint) (recordOwner : Pubkey)
  | registerLegalEntity (a : AuthorityAndConfig) (p : LegalEntityParams)
  | attestLegalEntity (a : AttestLegalEntity)
  | updateLegalEntity (a : AuthorityAndConfig) (p : LegalEntityParams)
  | initPidConfig (a : AuthorityAndConfig) (p : InitPidConfigParams)
  | updateStabilityFeePid (a : UpdateStabilityFeePid) (currentPrice : UInt64)
  | setPsmFee (a : AuthorityAndMint) (feeBps : UInt16)
  | setMintVelocityLimit (a : UpdateMinter) (maxMintPerEpoch : UInt64)
  | initLiquidationBonusConfig (a : AuthorityAndConfig) (p : LiquidationBonusParams)
  | updateLiquidationBonusConfig (a : AuthorityAndConfig) (p : LiquidationBonusParams)
  | initYieldCollateral (a : AuthorityAndMint) (initialMints : List Pubkey)
  | addYieldCollateralMint (a : AuthorityAndMint) (collateralMint : Pubkey)
  | updateReserveComposition (a : AuthorityAndConfig) (p : ReserveCompositionParams)
  | initProofOfReserves (a : InitProofOfReserves) (attester : Pubkey)
  | attestProofOfReserves (a : AttestProofOfReserves) (verifiedRatioBps : UInt64)
  | setUpgradeAuthorityGuard (a : AuthorityAndConfig) (upgradeAuthority : Pubkey)
  | initDaoCommittee (a : AuthorityAndMint) (members : List Pubkey) (quorum : UInt8)
  | proposeAction (a : CallerAndMint) (action : ProposalAction) (param : UInt64)
      (target : Pubkey)
  | voteAction (a : CallerAndMint) (proposalId : UInt64)
  | executeAction (a : CallerAndMint) (proposalId : UInt64)
  | initGuardianConfig (a : AuthorityAndMint) (guardians : List Pubkey) (threshold : UInt8)
  | guardianProposePause (a : CallerAndMint) (reason : BitVec 256)
  | guardianVotePause (a : CallerAndMint) (proposalId : UInt64)
  | guardianLiftPause (a : CallerAndMint)
  | setBackstopParams (a : AuthorityAndSssMint) (insuranceFundPubkey : Pubkey)
      (maxBackstopBps : UInt16)
  | triggerBackstop (a : TriggerBackstop)
  | initInsuranceVault (a : AuthorityAndSssMint) (vaultTokenAccount : Pubkey)
      (minSeedBps maxDrawPerEventBps : UInt16)
  | seedInsuranceVault (a : SeedInsuranceVault) (amount : UInt64)
  | replenishInsuranceVault (a : SeedInsuranceVault) (amount : UInt64)
  | drawInsurance (a : DrawInsurance) (amount : UInt64)
  | initOracleConsensus (a : AuthorityAndMint) (minOracles : UInt8)
      (outlierThresholdBps : UInt16) (maxAgeSlots : UInt64)
  | setOracleSource (a : AuthorityAndMint) (slotIndex oracleType : UInt8) (feedPubkey : Pubkey)
  | removeOracleSource (a : AuthorityAndMint) (slotIndex : UInt8)
  | updateOracleConsensus (a : UpdateOracleConsensus)
  | commitProbabilistic (a : CommitProbabilistic) (p : CommitProbabilisticParams)
  | proveAndResolve (a : Resolve) (proofHash : BitVec 256)
  | partialResolve (a : Resolve) (amount : UInt64) (proofHash : BitVec 256)
  | expireAndRefund (a : ExpireAndRefund)
  | openChannel (a : OpenChannel) (p : OpenChannelParams)
  | submitWorkProof (a : Party) (taskHash outputHash : BitVec 256)
  | proposeSettle (a : Party) (amount : UInt64)
  | countersignSettle (a : CountersignSettle) (amount : UInt64)
  | dispute (a : Party) (evidenceHash : BitVec 256)
  | forceClose (a : ForceClose)
  | resolveDispute (a : ResolveDispute) (settlementAmount : UInt64)

/-- What happens around the program: wallets talk to the token program directly, and price feeds
are published. A new account of the token program needs the signature of its address. -/
inductive World where
  | createMint (mint : Signer) (m : Mint)
  | createAccount (account : Signer) (mint owner : Pubkey)
  | mintTo (authority : Signer) (mint dst : Pubkey) (n : UInt64)
  | transfer (owner : Signer) (src mint dst : Pubkey) (n : UInt64)
  | approve (owner : Signer) (account delegate : Pubkey) (n : UInt64)
  | setAccountOwner (owner : Signer) (account newOwner : Pubkey)
  | publishPythPrice (feed : Pubkey) (p : Price)
  /-- The owner of a custom price feed account is not checked, so others can make one. -/
  | forgePriceFeed (feed : Signer) (p : CustomPriceFeed)
  /-- The account of another program holds what that program writes. -/
  | writeAccount (account : Signer) (data : List Cell)

/-- One transaction. -/
inductive Action where
  | call (clock : Clock) (i : Instruction)
  | world (w : World)

variable (rt : Runtime)

def Instruction.exec (clock : Clock) (s : State) : Instruction → Result State
  | initializeStablecoin a p => initializeHandler rt s a p
  | updateMinter a cap => updateMinterHandler s a cap
  | revokeMinter a => revokeMinterHandler s a
  | pause a paused => pauseHandler s a paused
  | setFeatureFlag a flag => setFeatureFlagHandler s a flag
  | clearFeatureFlag a flag => clearFeatureFlagHandler s a flag
  | freezeAccount a => freezeHandler rt s a
  | thawAccount a => thawHandler rt s a
  | proposeTimelockedOp a kind param target =>
    proposeTimelockedOpHandler clock s a kind param target
  | executeTimelockedOp a => executeTimelockedOpHandler clock s a
  | cancelTimelockedOp a => cancelTimelockedOpHandler s a
  | setPythFeed a feed => setPythFeedHandler s a feed
  | setOracleParams a age conf => setOracleParamsHandler s a age conf
  | setStabilityFee a fee => setStabilityFeeHandler s a fee
  | addAuthorizedKeeper a keeper => addAuthorizedKeeperHandler s a keeper
  | removeAuthorizedKeeper a keeper => removeAuthorizedKeeperHandler s a keeper
  | setOracleConfig a type feed => setOracleConfigHandler s a type feed
  | initCustomPriceFeed a => initCustomPriceFeedHandler rt s a
  | updateCustomPrice a price expo conf => updateCustomPriceHandler clock s a price expo conf
  | mint a amount => mintHandler rt clock s a amount
  | burn a amount => burnHandler rt s a amount
  | initInterfaceVersion a => initInterfaceVersionHandler s a
  | updateInterfaceVersion a version active => updateInterfaceVersionHandler s a version active
  | cpiMint a amount version => cpiMintHandler rt clock s a amount version
  | cpiBurn a amount version => cpiBurnHandler rt s a amount version
  | initMarketMakerConfig a mintLimit burnLimit spread =>
    initMarketMakerConfigHandler s a mintLimit burnLimit spread
  | registerMarketMaker a mm => registerMarketMakerHandler s a mm
  | mmMint a amount => mmMintHandler rt clock s a amount
  | mmBurn a amount => mmBurnHandler rt clock s a amount
  | initBridgeConfig a type program max fee vault =>
    initBridgeConfigHandler s a type program max fee vault
  | bridgeOut a amount => bridgeOutHandler rt s a amount
  | bridgeIn a proof amount recipient id => bridgeInHandler rt s a proof amount recipient id
  | registerCollateral a p => registerCollateralHandler s a p
  | updateCollateralConfig a p => updateCollateralConfigHandler s a p
  | cdpDepositCollateral a amount => cdpDepositCollateralHandler rt s a amount
  | cdpBorrowStable a amount => cdpBorrowStableHandler rt clock s a amount
  | cdpRepayStable a amount => cdpRepayStableHandler rt s a amount
  | cdpLiquidate a min repay => cdpLiquidateHandler rt clock s a min repay
  | cdpLiquidateV2 a repay min => cdpLiquidateV2Handler rt clock s a repay min
  | collectStabilityFee a => collectStabilityFeeHandler rt clock s a
  | depositCollateral a amount => depositCollateralHandler rt s a amount
  | redeem a amount => redeemHandler rt s a amount
  | initPsmCurveConfig a base k max => initPsmCurveConfigHandler s a base k max
  | updatePsmCurveConfig a base k max => updatePsmCurveConfigHandler s a base k max
  | psmDynamicSwap a amount => psmDynamicSwapHandler rt s a amount
  | seedRedemptionPool a amount max fee => seedRedemptionPoolHandler rt s a amount max fee
  | instantRedemption a amount => instantRedemptionHandler rt s a amount
  | replenishRedemptionPool a amount => replenishRedemptionPoolHandler rt s a amount
  | drainRedemptionPool a => drainRedemptionPoolHandler rt s a
  | initRedemptionQueue a => initRedemptionQueueHandler s a
  | updateRedemptionQueue a delay depth bps reward =>
    updateRedemptionQueueHandler s a delay depth bps reward
  | enqueueRedemption a amount => enqueueRedemptionHandler rt clock s a amount
  | processRedemption a index => processRedemptionHandler rt clock s a index
  | cancelRedemption a index => cancelRedemptionHandler rt s a index
  | compactRedemptionHead config index => compactRedemptionHeadHandler s config index
  | registerRedemptionPool a vault max => registerRedemptionPoolHandler rt clock s a vault max
  | requestRedemption a amount => requestRedemptionHandler rt clock s a amount
  | fulfillRedemption a => fulfillRedemptionHandler rt clock s a
  | claimExpiredRedemption a => claimExpiredRedemptionHandler rt clock s a
  | updateRoles a p => updateRolesHandler s a p
  | acceptAuthority a => acceptAuthorityHandler s a
  | acceptComplianceAuthority a => acceptComplianceAuthorityHandler s a
  | proposeAuthorityRotation a new backup =>
    proposeAuthorityRotationHandler clock s a new backup
  | acceptAuthorityRotation a => acceptAuthorityRotationHandler clock s a
  | emergencyRecoverAuthority a => emergencyRecoverAuthorityHandler clock s a
  | cancelAuthorityRotation a => cancelAuthorityRotationHandler s a
  | initSquadsAuthority a p => initSquadsAuthorityHandler s a p
  | migrateConfig a => migrateConfigHandler s a
  | initCredentialRegistry a p => initCredentialRegistryHandler clock s a p
  | rotateCredentialRoot a root => rotateCredentialRootHandler clock s a root
  | verifyZkCredential a proof signals => verifyZkCredentialHandler rt clock s a proof signals
  | revokeCredential a => revokeCredentialHandler s a
  | closeCredentialRecord a => closeCredentialRecordHandler s a
  | setWalletRateLimit a p => setWalletRateLimitHandler rt s a p
  | removeWalletRateLimit a wallet => removeWalletRateLimitHandler s a wallet
  | updateWalletRateLimit a wallet amount => updateWalletRateLimitHandler clock s a wallet amount
  | initKeeperConfig a p => initKeeperConfigHandler s a p
  | crankCircuitBreaker a => crankCircuitBreakerHandler rt clock s a
  | crankUnpause a => crankUnpauseHandler rt clock s a
  | blacklistAddAndFreeze a blacklist hook => blacklistAddAndFreezeHandler rt s a blacklist hook
  | transferHook a amount => transferHookHandler clock s a amount
  | initializeExtraAccountMetaList a => initializeExtraAccountMetaListHandler s a
  | migrateHookExtraAccounts a => migrateHookExtraAccountsHandler s a
  | blacklistAdd a address => blacklistAddHandler s a address
  | blacklistRemove a address => blacklistRemoveHandler s a address
  | setSpendLimit a max => setSpendLimitHandler s a max
  | clearSpendLimit a => clearSpendLimitHandler s a
  | setTravelRuleThreshold a threshold => setTravelRuleThresholdHandler s a threshold
  | submitTravelRuleRecord a nonce payload beneficiary amount =>
    submitTravelRuleRecordHandler clock s a nonce payload beneficiary amount
  | closeTravelRuleRecord a nonce => closeTravelRuleRecordHandler s a nonce
  | setSanctionsOracle a oracle staleness => setSanctionsOracleHandler s a oracle staleness
  | clearSanctionsOracle a => clearSanctionsOracleHandler s a
  | updateSanctionsRecord a wallet sanctioned =>
    updateSanctionsRecordHandler rt clock s a wallet sanctioned
  | closeSanctionsRecord a wallet => closeSanctionsRecordHandler s a wallet
  | initZkCompliance a ttl verifier => initZkComplianceHandler s a ttl verifier
  | submitZkProof a => submitZkProofHandler rt clock s a
  | closeVerificationRecord a owner => closeVerificationRecordHandler clock s a owner
  | registerLegalEntity a p => SolanaStablecoin.registerLegalEntity clock s a p
  | attestLegalEntity a => SolanaStablecoin.attestLegalEntity clock s a
  | updateLegalEntity a p => SolanaStablecoin.updateLegalEntity clock s a p
  | initPidConfig a p => initPidConfigHandler clock s a p
  | updateStabilityFeePid a price => updateStabilityFeePidHandler clock s a price
  | setPsmFee a fee => setPsmFeeHandler s a fee
  | setMintVelocityLimit a max => setMintVelocityLimitHandler s a max
  | initLiquidationBonusConfig a p => initLiquidationBonusConfigHandler s a p
  | updateLiquidationBonusConfig a p => updateLiquidationBonusConfigHandler s a p
  | initYieldCollateral a mints => initYieldCollateralHandler s a mints
  | addYieldCollateralMint a collateral => addYieldCollateralMintHandler s a collateral
  | updateReserveComposition a p => updateReserveCompositionHandler clock s rt a p
  | initProofOfReserves a attester => initProofOfReservesHandler s a attester
  | attestProofOfReserves a ratio => attestProofOfReservesHandler clock s a ratio
  | setUpgradeAuthorityGuard a authority => setUpgradeAuthorityGuardHandler s a authority
  | initDaoCommittee a members quorum => initDaoCommitteeHandler s a members quorum
  | proposeAction a action param target => proposeActionHandler s a action param target
  | voteAction a id => voteActionHandler s a id
  | executeAction a id => executeActionHandler s a id
  | initGuardianConfig a guardians threshold => initGuardianConfigHandler s a guardians threshold
  | guardianProposePause a reason => guardianProposePauseHandler clock s a reason
  | guardianVotePause a id => guardianVotePauseHandler clock s a id
  | guardianLiftPause a => guardianLiftPauseHandler clock s a
  | setBackstopParams a fund bps => setBackstopParamsHandler s a fund bps
  | triggerBackstop a =>
    triggerBackstopHandler rt clock s a.toBackstopAccounts a.liquidationAuthority.key
      a.insuranceFundAuthority.key
  | initInsuranceVault a account seed draw => initInsuranceVaultHandler s a account seed draw
  | seedInsuranceVault a amount => seedInsuranceVaultHandler rt s a amount
  | replenishInsuranceVault a amount => replenishInsuranceVaultHandler rt s a amount
  | drawInsurance a amount => drawInsuranceHandler rt s a amount
  | initOracleConsensus a min outlier age => initOracleConsensusHandler s a min outlier age
  | setOracleSource a index type feed => setOracleSourceHandler s a index type feed
  | removeOracleSource a index => removeOracleSourceHandler s a index
  | updateOracleConsensus a => updateOracleConsensusHandler clock s a
  | commitProbabilistic a p => commitProbabilisticHandler rt clock s a p
  | proveAndResolve a proof => proveAndResolveHandler rt s a proof
  | partialResolve a amount proof => partialResolveHandler rt s a amount proof
  | expireAndRefund a => expireAndRefundHandler rt clock s a
  | openChannel a p => openChannelHandler rt clock s a p
  | submitWorkProof a task output => submitWorkProofHandler rt s a task output
  | proposeSettle a amount => proposeSettleHandler s a amount
  | countersignSettle a amount => countersignSettleHandler rt s a amount
  | dispute a evidence => disputeHandler s a evidence
  | forceClose a => forceCloseHandler rt clock s a
  | resolveDispute a amount => resolveDisputeHandler rt s a amount

def World.exec (s : State) : World → Result State
  | createMint mint m => do
    let tokens ← (rt.token.initializeMint s.tokens mint.key m).okOr .token
    pure { s with tokens }
  | createAccount account mint owner => do
    let tokens ← (rt.token.initializeAccount s.tokens account.key mint owner).okOr .token
    pure { s with tokens }
  | mintTo authority mint dst n => do
    let tokens ← (rt.token.mintTo s.tokens mint dst authority.key n).okOr .token
    pure { s with tokens }
  | transfer owner src mint dst n => do
    let account ← load s.tokens.accounts src
    require (account.owner = owner.key) (.anchor .constraintTokenOwner)
    let tokens ← (rt.token.transferChecked s.tokens src mint dst owner.key n).okOr .token
    pure { s with tokens }
  | approve owner account delegate n => do
    let tokens ← (rt.token.approve s.tokens account delegate owner.key n).okOr .token
    pure { s with tokens }
  | setAccountOwner owner account newOwner => do
    let tokens ← (rt.token.setAccountOwner s.tokens account newOwner owner.key).okOr .token
    pure { s with tokens }
  | publishPythPrice feed p => pure { s with pythPriceFeeds := put s.pythPriceFeeds feed p }
  | forgePriceFeed feed p => pure { s with customPriceFeeds := put s.customPriceFeeds feed.key p }
  | writeAccount account data =>
    pure { s with otherData := Function.update s.otherData account.key data }

def Action.exec (s : State) : Action → Result State
  | call clock i => i.exec rt clock s
  | world w => w.exec rt s

/-- The state after a run of transactions; a failing one changes nothing. -/
def run (s : State) (as : List Action) : State := Transition.run (Action.exec rt) s as

/-- Before any transaction the program has no account. The token program may have some, but none
of them was approved by an address that only this program signs for. -/
structure Genesis (s : State) : Prop where
  configs : ∀ k, s.configs k = none
  collateralVaults : ∀ k, s.collateralVaults k = none
  cdpPositions : ∀ k, s.cdpPositions k = none
  tokens : ∀ k a, s.tokens.accounts k = some a → a.owner.canSign = false → a.delegate = none

end SolanaStablecoin
