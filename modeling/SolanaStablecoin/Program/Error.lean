import SolanaStablecoin.Base.Checked

/-! The ways a transaction fails: an error of one of the programs, a failed account constraint of
Anchor, a refused token instruction, or a panic of the checked arithmetic. -/

namespace SolanaStablecoin

/-- `error.rs`, the variants that the modelled instructions return. -/
inductive SssError where
  | unauthorized
  | unauthorizedCompliance
  | notAMinter
  | mintPaused
  | minterCapExceeded
  | missingTransferHook
  | invalidPreset
  | zeroAmount
  | insufficientReserves
  | invalidCollateralMint
  | invalidVault
  | maxSupplyExceeded
  | insufficientCollateral
  | collateralRatioTooLow
  | cdpNotLiquidatable
  | insufficientDebt
  | invalidPrice
  | stalePriceFeed
  | invalidPriceFeed
  | wrongCollateralMint
  | interfaceDeprecated
  | interfaceVersionMismatch
  | invalidInterfaceVersion
  | circuitBreakerActive
  | yieldCollateralNotEnabled
  | collateralMintNotWhitelisted
  | daoCommitteeRequired
  | daoFlagProtected
  | invalidAmount
  | overflow
  | invalidMint
  | slippageExceeded
  | unexpectedPriceFeed
  | oracleConfidenceTooWide
  | stabilityFeeTooHigh
  | mintVelocityExceeded
  | collateralNotWhitelisted
  | depositCapExceeded
  | invalidCollateralConfig
  | invalidCollateralThreshold
  | invalidLiquidationBonus
  | partialLiquidationInsufficientRepay
  | missingAuditorKey
  | oracleNotConfigured
  | invalidOracleType
  | configVersionTooOld
  | timelockRequired
  | timelockNotMature
  | noTimelockPending
  | invalidTimelockOpKind
  | invalidTimelockDelay
  | instructionDisabled
  | invalidStabilityFee
  | invalidPsmFee
  | invalidBackstopParams
  | invalidReserveRatio
  | porNotAttested
  | porBreachHaltsMinting
  | oracleConsensusNotFound
  | insufficientOracles
  | whitelistFull
  | memberNotFound
  | psmDynamicFeesNotEnabled
  | psmCurveConfigNotFound
  | invalidPsmCurveMaxFee
  | invalidPsmCurveBaseFee
  | psmSwapOutputZero
  | squadsAuthorityNotSet
  | squadsMultisigPdaInvalid
  | squadsSignerMismatch
  | requiresSquadsForSss3
  | requiresMaxSupplyForSss3
  | invalidTokenProgram
  | invalidFeatureFlags
  | bridgeNotEnabled
  | bridgeFeeTooHigh
  | invalidBridgeType
  | bridgeAmountExceedsLimit
  | bridgeConfigMintMismatch
  | bridgeRelayerUnauthorized
  | bridgeRecipientMismatch
  | bridgeProofEmpty
  | feeVaultMismatch
  | tokenAccountOwnerMismatch
  | tokenAccountMintMismatch
  | sanctionsRecordMissing
  | sanctionedAddress
  | marketMakerHooksNotEnabled
  | marketMakerHooksDisabled
  | marketMakerAlreadyRegistered
  | marketMakerListFull
  | notWhitelistedMarketMaker
  | mmMintLimitExceeded
  | mmBurnLimitExceeded
  | oraclePriceOutsideSpread
  | noCollateralConfigured
  | redemptionFeeTooHigh
  | redemptionPoolMintMismatch
  | redemptionPoolVaultMismatch
  | redemptionPoolFull
  | redemptionPoolEmpty
  | featureNotEnabled
  | redemptionQueueNotInitialized
  | redemptionQueueFull
  | redemptionQueueOutOfOrder
  | redemptionNotReady
  | redemptionNotOwner
  | redemptionAlreadyProcessed
  | redemptionSlotCapExceeded
  | redemptionDailyLimitExceeded
  | redemptionAlreadyFulfilled
  | redemptionSlaBreached
  | redemptionNotExpired
  | insuranceFundNotConfigured
  | noPendingAuthority
  | noPendingComplianceAuthority
  | complianceAuthorityRequiresTimelock
  | useTimelockForAuthorityTransfer
  | rotationNewAuthorityIsCurrent
  | rotationBackupIsCurrent
  | rotationBackupEqualsNew
  | rotationZeroPubkey
  | emergencyRecoveryNotReady
  | squadsAuthorityAlreadySet
  | squadsThresholdZero
  | squadsMembersEmpty
  | squadsMembersTooMany
  | squadsThresholdExceedsMembers
  | squadsDuplicateMember
  | invalidKeeperReward
  | invalidKeeperDeviation
  | invalidKeeperCooldown
  | invalidKeeperRecovery
  | keeperConfigMintMismatch
  | circuitBreakerNotArmed
  | keeperCooldownActive
  | pegWithinThreshold
  | notPaused
  | keeperRecoveryWindowNotMet
  | pegStillDeviating
  | credentialRegistryNotFound
  | invalidZkProof
  | walletRateLimitsNotEnabled
  | invalidRateLimitAmount
  | invalidRateLimitWindow
  | walletRateLimitExceeded
  | invalidTransferHookProgram
  | invalidBlacklistState
  | spendPolicyNotConfigured
  | travelRuleRecordInvalid
  | travelRuleThresholdNotSet
  | travelRuleRequired
  | zkComplianceNotEnabled
  | zkVerifierMismatch
  | zkVerifierRequired
  | verificationRecordNotExpired
  | invalidLegalEntityJurisdiction
  | invalidLegalEntityHash
  | invalidLegalEntityAttestor
  | legalEntityExpired
  | legalEntityAlreadyAttested
  | invalidPidFeeRange
  | pidConfigNotFound
  | pidUpdateTooFrequent
  | invalidLiquidationTierConfig
  | invalidCompositionBps
  | mintAlreadyWhitelisted
  | upgradeAuthorityGuardInvalidKey
  | upgradeAuthorityGuardAlreadySet
  | invalidOracleConsensusConfig
  | invalidOracleSourceIndex
  | multiOracleNotEnabled
  | oracleRemainingAccountsMismatch
  | oracleNoSourcesConfigured
  | invalidQuorum
  | committeeFull
  | duplicateMember
  | notAuthorizedToPropose
  | notACommitteeMember
  | proposalAlreadyExecuted
  | proposalCancelled
  | alreadyVoted
  | quorumNotReached
  | guardianListEmpty
  | guardianListFull
  | invalidGuardianThreshold
  | duplicateGuardian
  | notAGuardian
  | guardianPauseTimelockActive
  | invalidBackstopBps
  | backstopNotConfigured
  | unauthorizedBackstopCaller
  | noBadDebt
  | insuranceFundEmpty
  | daoProposalRequired
  | daoProposalConfigMismatch
  | daoProposalWrongAction
  | daoProposalNotExecuted
  | daoProposalExhausted
  | invalidExpirySlot
  | vaultAlreadyTerminal
  | proofHashMismatch
  | vaultNotExpired
  | channelAlreadyClosed
  | invalidSettleAmount
  | settlementNotMatching
  | channelNotExpired
deriving DecidableEq

/-- `HookError` of the transfer hook, the variants that it returns. -/
inductive HookError where
  | senderBlacklisted
  | receiverBlacklisted
  | unauthorized
  | spendLimitExceeded
  | invalidConfig
  | zkRecordMissing
  | zkRecordExpired
  | sanctionedAddress
  | sanctionsRecordMissing
  | sanctionsRecordStale
  | credentialRequired
  | credentialExpired
  | credentialRevoked
  | walletRateLimitExceeded
  | walletRateLimitAccountNotWritable
  | ownerConsentRequired
deriving DecidableEq

/-- Failures that Anchor or the system program report before or instead of the handler. -/
inductive AnchorError where
  | accountNotEnoughKeys
  | accountNotInitialized
  | accountAlreadyInUse
  | accountDidNotDeserialize
  | accountDidNotSerialize
  | constraintRaw
  | constraintSeeds
  | constraintAddress
  | constraintTokenMint
  | constraintTokenOwner
deriving DecidableEq

inductive ProgramError where
  | sss (e : SssError)
  | hook (e : HookError)
  | anchor (e : AnchorError)
  /-- `ProgramError::InvalidAccountData` -/
  | invalidAccountData
  /-- A program has spent from an account that belongs to another; the runtime refuses it. -/
  | externalAccountLamportSpend
  /-- The token program refused the instruction. -/
  | token
  /-- An address was to sign that the given seeds do not derive. -/
  | privilegeEscalation
  /-- Arithmetic overflow or division by zero. -/
  | panic
deriving DecidableEq

abbrev Result := Except ProgramError

end SolanaStablecoin
