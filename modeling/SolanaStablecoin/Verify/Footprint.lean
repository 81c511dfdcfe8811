import SolanaStablecoin.Verify.Step

/-! What an instruction may write: the tables of the program's accounts it touches, and the fields
it changes of a config that exists. Everything else is as it was. -/

namespace SolanaStablecoin

/-! ## Tables -/

/-- The kinds of accounts; a state has a table of each. -/
inductive AccountKind where
  | tokens | configs | minterInfos | collateralVaults | cdpPositions | interfaceVersions
  | yieldCollateralConfigs | collateralConfigs | customPriceFeeds | proofsOfReserves
  | oracleConsensuses | sanctionsRecords | psmCurveConfigs | redemptionPools | redemptionQueues
  | redemptionEntries | redemptionGuarantees | redemptionRequests | marketMakerConfigs
  | bridgeConfigs | consumedMessageIds | verificationRecords | credentialRegistries
  | credentialRecords | walletRateLimits | keeperConfigs | authorityRotationRequests
  | squadsMultisigConfigs | blacklistStates | extraAccountMetaLists | travelRuleRecords
  | zkComplianceConfigs | issuerRegistries | pidConfigs | liquidationBonusConfigs
  | reserveCompositions | insuranceVaults | daoCommittees | proposals | guardianConfigs
  | pauseProposals | probabilisticVaults | paymentChannels | proposedSettlements | pythPriceFeeds
deriving DecidableEq

namespace AccountKind

/-- The table of a kind, unless `ts` names it. -/
def hide {α : Type} (ts : List AccountKind) (kind : AccountKind) (m : Pubkey → Option α) :
    Pubkey → Option α :=
  bif ts.contains kind then fun _ => none else m

theorem hide_eq {α : Type} {ts : List AccountKind} {kind : AccountKind} {m : Pubkey → Option α}
    (h : ts.contains kind = false) : hide ts kind m = m := by
  rw [hide, h, cond_false]

end AccountKind

open AccountKind in
/-- `s` without the tables that `ts` names. -/
def State.without (ts : List AccountKind) (s : State) : State :=
  { tokens :=
      { mints := hide ts .tokens s.tokens.mints
        accounts := hide ts .tokens s.tokens.accounts }
    configs := hide ts .configs s.configs
    minterInfos := hide ts .minterInfos s.minterInfos
    collateralVaults := hide ts .collateralVaults s.collateralVaults
    cdpPositions := hide ts .cdpPositions s.cdpPositions
    interfaceVersions := hide ts .interfaceVersions s.interfaceVersions
    yieldCollateralConfigs := hide ts .yieldCollateralConfigs s.yieldCollateralConfigs
    collateralConfigs := hide ts .collateralConfigs s.collateralConfigs
    customPriceFeeds := hide ts .customPriceFeeds s.customPriceFeeds
    proofsOfReserves := hide ts .proofsOfReserves s.proofsOfReserves
    oracleConsensuses := hide ts .oracleConsensuses s.oracleConsensuses
    sanctionsRecords := hide ts .sanctionsRecords s.sanctionsRecords
    psmCurveConfigs := hide ts .psmCurveConfigs s.psmCurveConfigs
    redemptionPools := hide ts .redemptionPools s.redemptionPools
    redemptionQueues := hide ts .redemptionQueues s.redemptionQueues
    redemptionEntries := hide ts .redemptionEntries s.redemptionEntries
    redemptionGuarantees := hide ts .redemptionGuarantees s.redemptionGuarantees
    redemptionRequests := hide ts .redemptionRequests s.redemptionRequests
    marketMakerConfigs := hide ts .marketMakerConfigs s.marketMakerConfigs
    bridgeConfigs := hide ts .bridgeConfigs s.bridgeConfigs
    consumedMessageIds := hide ts .consumedMessageIds s.consumedMessageIds
    verificationRecords := hide ts .verificationRecords s.verificationRecords
    credentialRegistries := hide ts .credentialRegistries s.credentialRegistries
    credentialRecords := hide ts .credentialRecords s.credentialRecords
    walletRateLimits := hide ts .walletRateLimits s.walletRateLimits
    keeperConfigs := hide ts .keeperConfigs s.keeperConfigs
    authorityRotationRequests := hide ts .authorityRotationRequests s.authorityRotationRequests
    squadsMultisigConfigs := hide ts .squadsMultisigConfigs s.squadsMultisigConfigs
    blacklistStates := hide ts .blacklistStates s.blacklistStates
    extraAccountMetaLists := hide ts .extraAccountMetaLists s.extraAccountMetaLists
    travelRuleRecords := hide ts .travelRuleRecords s.travelRuleRecords
    zkComplianceConfigs := hide ts .zkComplianceConfigs s.zkComplianceConfigs
    issuerRegistries := hide ts .issuerRegistries s.issuerRegistries
    pidConfigs := hide ts .pidConfigs s.pidConfigs
    liquidationBonusConfigs := hide ts .liquidationBonusConfigs s.liquidationBonusConfigs
    reserveCompositions := hide ts .reserveCompositions s.reserveCompositions
    insuranceVaults := hide ts .insuranceVaults s.insuranceVaults
    daoCommittees := hide ts .daoCommittees s.daoCommittees
    proposals := hide ts .proposals s.proposals
    guardianConfigs := hide ts .guardianConfigs s.guardianConfigs
    pauseProposals := hide ts .pauseProposals s.pauseProposals
    probabilisticVaults := hide ts .probabilisticVaults s.probabilisticVaults
    paymentChannels := hide ts .paymentChannels s.paymentChannels
    proposedSettlements := hide ts .proposedSettlements s.proposedSettlements
    pythPriceFeeds := hide ts .pythPriceFeeds s.pythPriceFeeds
    otherData := s.otherData }

namespace Instruction

/-- The tables that an instruction may write. -/
def tables : Instruction → List AccountKind
  | initializeStablecoin .. | burn .. | cpiBurn .. | depositCollateral .. | redeem ..
  | psmDynamicSwap .. | triggerBackstop .. =>
    [.tokens, .configs]
  | updateMinter .. | revokeMinter .. | setMintVelocityLimit .. => [.minterInfos]
  | pause .. | setFeatureFlag .. | clearFeatureFlag .. | proposeTimelockedOp ..
  | executeTimelockedOp .. | cancelTimelockedOp .. | setPythFeed .. | setOracleParams ..
  | setStabilityFee .. | addAuthorizedKeeper .. | removeAuthorizedKeeper .. | setOracleConfig ..
  | updateRoles .. | acceptAuthority .. | acceptComplianceAuthority .. | migrateConfig ..
  | setSpendLimit .. | clearSpendLimit .. | setTravelRuleThreshold .. | setSanctionsOracle ..
  | clearSanctionsOracle .. | setPsmFee .. | setUpgradeAuthorityGuard .. | setBackstopParams .. =>
    [.configs]
  | freezeAccount .. | thawAccount .. => [.tokens]
  | initCustomPriceFeed .. | updateCustomPrice .. => [.customPriceFeeds]
  | mint .. | cpiMint .. => [.tokens, .configs, .minterInfos]
  | initInterfaceVersion .. | updateInterfaceVersion .. => [.interfaceVersions]
  | initMarketMakerConfig .. | registerMarketMaker .. => [.marketMakerConfigs]
  | mmMint .. | mmBurn .. => [.tokens, .configs, .marketMakerConfigs]
  | initBridgeConfig .. => [.bridgeConfigs]
  | bridgeOut .. => [.tokens, .configs, .bridgeConfigs]
  | bridgeIn .. => [.tokens, .configs, .bridgeConfigs, .consumedMessageIds]
  | registerCollateral .. | updateCollateralConfig .. => [.collateralConfigs]
  | cdpDepositCollateral .. => [.tokens, .collateralVaults, .collateralConfigs]
  | cdpBorrowStable .. | collectStabilityFee .. => [.tokens, .configs, .cdpPositions]
  | cdpRepayStable .. | cdpLiquidate .. | cdpLiquidateV2 .. =>
    [.tokens, .configs, .collateralVaults, .cdpPositions, .collateralConfigs]
  | initPsmCurveConfig .. => [.configs, .psmCurveConfigs]
  | updatePsmCurveConfig .. => [.psmCurveConfigs]
  | seedRedemptionPool .. | instantRedemption .. | replenishRedemptionPool ..
  | drainRedemptionPool .. =>
    [.tokens, .redemptionPools]
  | initRedemptionQueue .. | updateRedemptionQueue .. | compactRedemptionHead .. =>
    [.redemptionQueues]
  | enqueueRedemption .. | cancelRedemption .. => [.tokens, .redemptionQueues, .redemptionEntries]
  | processRedemption .. => [.tokens, .configs, .redemptionQueues, .redemptionEntries]
  | registerRedemptionPool .. => [.redemptionGuarantees]
  | requestRedemption .. => [.tokens, .redemptionGuarantees, .redemptionRequests]
  | fulfillRedemption .. => [.tokens, .configs, .redemptionRequests]
  | claimExpiredRedemption .. => [.tokens, .redemptionRequests]
  | proposeAuthorityRotation .. | cancelAuthorityRotation .. => [.authorityRotationRequests]
  | acceptAuthorityRotation .. | emergencyRecoverAuthority .. =>
    [.configs, .authorityRotationRequests]
  | initSquadsAuthority .. => [.configs, .squadsMultisigConfigs]
  | initCredentialRegistry .. => [.configs, .credentialRegistries]
  | rotateCredentialRoot .. => [.credentialRegistries]
  | verifyZkCredential .. | revokeCredential .. | closeCredentialRecord .. => [.credentialRecords]
  | setWalletRateLimit .. | removeWalletRateLimit .. | updateWalletRateLimit .. | transferHook .. =>
    [.walletRateLimits]
  | initKeeperConfig .. => [.keeperConfigs]
  | crankCircuitBreaker .. | crankUnpause .. => [.configs, .keeperConfigs]
  | blacklistAddAndFreeze .. => [.tokens, .blacklistStates]
  | initializeExtraAccountMetaList .. => [.blacklistStates, .extraAccountMetaLists]
  | migrateHookExtraAccounts .. => [.extraAccountMetaLists]
  | blacklistAdd .. | blacklistRemove .. => [.blacklistStates]
  | submitTravelRuleRecord .. | closeTravelRuleRecord .. => [.travelRuleRecords]
  | updateSanctionsRecord .. | closeSanctionsRecord .. => [.sanctionsRecords]
  | initZkCompliance .. => [.configs, .zkComplianceConfigs]
  | submitZkProof .. | closeVerificationRecord .. => [.verificationRecords]
  | registerLegalEntity .. => [.configs, .issuerRegistries]
  | attestLegalEntity .. | updateLegalEntity .. => [.issuerRegistries]
  | initPidConfig .. | updateStabilityFeePid .. => [.configs, .pidConfigs]
  | initLiquidationBonusConfig .. => [.configs, .liquidationBonusConfigs]
  | updateLiquidationBonusConfig .. => [.liquidationBonusConfigs]
  | initYieldCollateral .. => [.configs, .yieldCollateralConfigs]
  | addYieldCollateralMint .. => [.yieldCollateralConfigs]
  | updateReserveComposition .. => [.reserveCompositions]
  | initProofOfReserves .. | attestProofOfReserves .. => [.proofsOfReserves]
  | initDaoCommittee .. => [.configs, .daoCommittees]
  | proposeAction .. => [.daoCommittees, .proposals]
  | voteAction .. => [.proposals]
  | executeAction .. => [.configs, .proposals]
  | initGuardianConfig .. => [.guardianConfigs]
  | guardianProposePause .. | guardianVotePause .. => [.configs, .guardianConfigs, .pauseProposals]
  | guardianLiftPause .. => [.configs, .guardianConfigs]
  | initInsuranceVault .. => [.configs, .insuranceVaults]
  | seedInsuranceVault .. | replenishInsuranceVault .. => [.tokens, .insuranceVaults]
  | drawInsurance .. => [.tokens, .insuranceVaults, .proposals]
  | initOracleConsensus .. => [.configs, .oracleConsensuses]
  | setOracleSource .. | removeOracleSource .. | updateOracleConsensus .. => [.oracleConsensuses]
  | commitProbabilistic .. | proveAndResolve .. | partialResolve .. | expireAndRefund .. =>
    [.tokens, .probabilisticVaults]
  | openChannel .. | forceClose .. | resolveDispute .. => [.tokens, .paymentChannels]
  | submitWorkProof .. | dispute .. => [.paymentChannels]
  | proposeSettle .. => [.proposedSettlements]
  | countersignSettle .. => [.tokens, .paymentChannels, .proposedSettlements]

end Instruction

variable {rt : Runtime} {clock : Clock} {s s' : State} {k : Pubkey} {c c' : StablecoinConfig}

/-! ## Handlers that are not a row of checks and one write -/

theorem updateRolesHandler_writes {a : AuthorityAndMint} {p : UpdateRolesParams} :
    Ensures (updateRolesHandler s a p) fun s' => s' = { s with configs := s'.configs } := by
  refine .bind fun _ _ => .bind fun _ _ => .bind fun _ _ => ?_
  cases p.newAuthority with
  | none => exact .pure rfl
  | some => exact .bind fun _ _ => .pure rfl

/-- What does not depend on the pending authority stays. -/
theorem updateRolesHandler_sameConfigs {α : Type} {f : StablecoinConfig → α}
    {a : AuthorityAndMint} {p : UpdateRolesParams}
    (hf : ∀ c proposed, f { c with pendingAuthority := proposed } = f c) :
    Ensures (updateRolesHandler s a p) (SameConfigs f s) := by
  refine Ensures.bind_reads fun c hc => .bind fun _ _ => .bind fun _ _ => ?_
  cases p.newAuthority with
  | none => exact .pure (.of_eq rfl)
  | some proposed => exact .bind fun _ _ => .pure (.of_put hc rfl (hf c proposed))

theorem blacklistAddHandler_writes {a : AuthorityAndMint} {address : Pubkey} :
    Ensures (blacklistAddHandler s a address) fun s' =>
      s' = { s with blacklistStates := s'.blacklistStates } :=
  .bind fun _ _ => .ite (fun _ => .pure rfl) fun _ => .bind fun _ _ => .pure rfl

theorem blacklistAddAndFreezeHandler_writes {a : ComplianceAccounts} {list program : Pubkey} :
    Ensures (blacklistAddAndFreezeHandler rt s a list program) fun s' =>
      s' = { s with tokens := s'.tokens, blacklistStates := s'.blacklistStates } := by
  intro s' h
  simp only [blacklistAddAndFreezeHandler, bind_eq_ok, pure_eq_ok] at h
  obtain ⟨_, -, -, -, _, -, -, -, target, -, -, -, -, -, -, -, -, -, s₁, hadd, t, -, rfl⟩ := h
  rw [blacklistAddHandler_writes s₁ hadd]

theorem transferHookHandler_writes {a : TransferHook} {n : UInt64} :
    Ensures (transferHookHandler clock s a n) fun s' =>
      s' = { s with walletRateLimits := s'.walletRateLimits } := by
  intro s' h
  simp only [transferHookHandler, bind_eq_ok, pure_eq_ok] at h
  obtain ⟨_, -, _, -, -, -, -, -, _, -, -, -, _, -, -, -, -, -, -, -, -, -, _, -, -, -, -, -, -, -,
    -, -, s₁, hrecord, -, -, rfl⟩ := h
  rcases TransferHook.recordTransfer_eq_ok.mp hrecord with ⟨-, -, r, -, rfl⟩ | ⟨-, rfl⟩
  · rfl
  · rfl

theorem countersignSettleHandler_writes {a : CountersignSettle} {n : UInt64} :
    Ensures (countersignSettleHandler rt s a n) fun s' =>
      s' = { s with
        tokens := s'.tokens, paymentChannels := s'.paymentChannels
        proposedSettlements := s'.proposedSettlements } := by
  intro s' h
  simp only [countersignSettleHandler, SettleAccounts.settle, bind_eq_ok, pure_eq_ok] at h
  obtain ⟨_, -, _, -, -, -, -, -, -, -, -, -, s₁, ⟨t, -, rfl⟩, rfl⟩ := h
  rfl

theorem Instruction.exec_tables {i : Instruction} :
    Ensures (i.exec rt clock s) fun s' => s'.without i.tables = s.without i.tables := by
  cases i
  case updateRoles =>
    intro s' h
    rw [updateRolesHandler_writes s' h]
    rfl
  case blacklistAddAndFreeze =>
    intro s' h
    rw [blacklistAddAndFreezeHandler_writes s' h]
    rfl
  case transferHook =>
    intro s' h
    rw [transferHookHandler_writes s' h]
    rfl
  case countersignSettle =>
    intro s' h
    rw [countersignSettleHandler_writes s' h]
    rfl
  -- each handler is a row of steps; this shows the first
  all_goals change Ensures (_ >>= _) _
  all_goals repeat' first
    | with_reducible refine .bind fun _ _ => ?_
    | with_reducible refine .ite (fun _ => ?_) fun _ => ?_
    | exact .pure rfl
    | change Ensures (_ >>= _) _
    | rw [CdpLiquidate.store]
    | rw [CallerAndMint.recordVote]

/-- What does not depend on the tables that an instruction may write stays. -/
theorem Instruction.exec_same {α : Type} {i : Instruction} (f : State → α)
    (hf : ∀ t, f (t.without i.tables) = f t) (h : i.exec rt clock s = .ok s') : f s' = f s := by
  rw [← hf, exec_tables s' h, hf]

namespace ReadsConfig

instance marketMaker {a : MmAccounts} {n : UInt64} :
    ReadsConfig (a.check rt clock s n) s (.stablecoinConfig a.mint) Prod.fst :=
  ⟨fun _ h => (MmAccounts.check_ok h).1⟩

instance crank {a : Crank} : ReadsConfig (a.loadAccounts s) s a.config Prod.fst :=
  ⟨fun _ h => (Crank.loadAccounts_eq_ok.mp h).1⟩

instance redeem {a : Redeem} :
    ReadsConfig (a.load s) s (.stablecoinConfig a.sssMint) Prod.fst :=
  ⟨fun _ h => (Redeem.load_ok h).1⟩

instance liquidation {a : CdpLiquidate} :
    ReadsConfig (a.load s) s (.stablecoinConfig a.sssMint) LiquidationAccounts.config :=
  ⟨fun _ h => (CdpLiquidate.load_ok h).config⟩

end ReadsConfig

/-! ## Fields of a config -/

/-- The fields of a config. -/
inductive ConfigField where
  | mint | authority | complianceAuthority | preset | paused | totalMinted | totalBurned
  | transferHookProgram | collateralMint | reserveVault | totalCollateral | maxSupply
  | pendingAuthority | pendingComplianceAuthority | featureFlags | maxTransferAmount
  | expectedPythFeed | adminOpMatureSlot | adminOpKind | adminOpParam | adminOpTarget
  | adminTimelockDelay | maxOracleAgeSecs | maxOracleConfBps | stabilityFeeBps | redemptionFeeBps
  | insuranceFundPubkey | maxBackstopBps | auditorElgamalPubkey | oracleType | oracleFeed
  | supplyCapLocked | version | minReserveRatioBps | travelRuleThreshold | sanctionsOracle
  | sanctionsMaxStalenessSlots | authorizedKeepers | squadsMultisig | expectedUpgradeAuthority
  | bump
deriving DecidableEq

/-- What a field holds, unless `fs` names it. -/
def ConfigField.hide {α : Type} [Inhabited α] (fs : List ConfigField) (field : ConfigField)
    (x : α) : α :=
  bif fs.contains field then default else x

open ConfigField in
/-- `c` without the fields that `fs` names. -/
def StablecoinConfig.without (fs : List ConfigField) (c : StablecoinConfig) : StablecoinConfig :=
  { mint := hide fs .mint c.mint
    authority := hide fs .authority c.authority
    complianceAuthority := hide fs .complianceAuthority c.complianceAuthority
    preset := hide fs .preset c.preset
    paused := hide fs .paused c.paused
    totalMinted := hide fs .totalMinted c.totalMinted
    totalBurned := hide fs .totalBurned c.totalBurned
    transferHookProgram := hide fs .transferHookProgram c.transferHookProgram
    collateralMint := hide fs .collateralMint c.collateralMint
    reserveVault := hide fs .reserveVault c.reserveVault
    totalCollateral := hide fs .totalCollateral c.totalCollateral
    maxSupply := hide fs .maxSupply c.maxSupply
    pendingAuthority := hide fs .pendingAuthority c.pendingAuthority
    pendingComplianceAuthority := hide fs .pendingComplianceAuthority c.pendingComplianceAuthority
    featureFlags := hide fs .featureFlags c.featureFlags
    maxTransferAmount := hide fs .maxTransferAmount c.maxTransferAmount
    expectedPythFeed := hide fs .expectedPythFeed c.expectedPythFeed
    adminOpMatureSlot := hide fs .adminOpMatureSlot c.adminOpMatureSlot
    adminOpKind := hide fs .adminOpKind c.adminOpKind
    adminOpParam := hide fs .adminOpParam c.adminOpParam
    adminOpTarget := hide fs .adminOpTarget c.adminOpTarget
    adminTimelockDelay := hide fs .adminTimelockDelay c.adminTimelockDelay
    maxOracleAgeSecs := hide fs .maxOracleAgeSecs c.maxOracleAgeSecs
    maxOracleConfBps := hide fs .maxOracleConfBps c.maxOracleConfBps
    stabilityFeeBps := hide fs .stabilityFeeBps c.stabilityFeeBps
    redemptionFeeBps := hide fs .redemptionFeeBps c.redemptionFeeBps
    insuranceFundPubkey := hide fs .insuranceFundPubkey c.insuranceFundPubkey
    maxBackstopBps := hide fs .maxBackstopBps c.maxBackstopBps
    auditorElgamalPubkey := hide fs .auditorElgamalPubkey c.auditorElgamalPubkey
    oracleType := hide fs .oracleType c.oracleType
    oracleFeed := hide fs .oracleFeed c.oracleFeed
    supplyCapLocked := hide fs .supplyCapLocked c.supplyCapLocked
    version := hide fs .version c.version
    minReserveRatioBps := hide fs .minReserveRatioBps c.minReserveRatioBps
    travelRuleThreshold := hide fs .travelRuleThreshold c.travelRuleThreshold
    sanctionsOracle := hide fs .sanctionsOracle c.sanctionsOracle
    sanctionsMaxStalenessSlots := hide fs .sanctionsMaxStalenessSlots c.sanctionsMaxStalenessSlots
    authorizedKeepers := hide fs .authorizedKeepers c.authorizedKeepers
    squadsMultisig := hide fs .squadsMultisig c.squadsMultisig
    expectedUpgradeAuthority := hide fs .expectedUpgradeAuthority c.expectedUpgradeAuthority
    bump := hide fs .bump c.bump }

/-- The fields of an existing config that an instruction may write. -/
def Instruction.fields : Instruction → List ConfigField
  | mint .. | cpiMint .. | mmMint .. | bridgeIn .. | cdpBorrowStable .. => [.totalMinted]
  | burn .. | cpiBurn .. | mmBurn .. | bridgeOut .. | cdpRepayStable .. | cdpLiquidate ..
  | cdpLiquidateV2 .. | collectStabilityFee .. | fulfillRedemption .. =>
    [.totalBurned]
  | depositCollateral .. | triggerBackstop .. => [.totalCollateral]
  | redeem .. | psmDynamicSwap .. | processRedemption .. => [.totalBurned, .totalCollateral]
  | pause .. | guardianProposePause .. | guardianVotePause .. | guardianLiftPause ..
  | crankCircuitBreaker .. | crankUnpause .. =>
    [.paused]
  | setFeatureFlag .. | clearFeatureFlag .. | initPidConfig .. | initZkCompliance ..
  | registerLegalEntity .. | initLiquidationBonusConfig .. | initYieldCollateral ..
  | initPsmCurveConfig .. | initInsuranceVault .. | initDaoCommittee .. | initOracleConsensus ..
  | initCredentialRegistry .. =>
    [.featureFlags]
  | executeAction .. => [.paused, .featureFlags]
  | proposeTimelockedOp .. | cancelTimelockedOp .. =>
    [.adminOpMatureSlot, .adminOpKind, .adminOpParam, .adminOpTarget]
  | executeTimelockedOp .. =>
    [.paused, .pendingAuthority, .pendingComplianceAuthority, .featureFlags, .maxTransferAmount,
    .expectedPythFeed, .adminOpMatureSlot, .adminOpKind, .adminOpParam, .adminOpTarget,
    .adminTimelockDelay, .maxOracleAgeSecs, .maxOracleConfBps, .stabilityFeeBps, .redemptionFeeBps,
    .insuranceFundPubkey, .maxBackstopBps, .oracleType, .oracleFeed, .minReserveRatioBps,
    .travelRuleThreshold, .sanctionsOracle, .sanctionsMaxStalenessSlots]
  | setPythFeed .. => [.expectedPythFeed]
  | setOracleParams .. => [.maxOracleAgeSecs, .maxOracleConfBps]
  | setStabilityFee .. | updateStabilityFeePid .. => [.stabilityFeeBps]
  | addAuthorizedKeeper .. | removeAuthorizedKeeper .. => [.authorizedKeepers]
  | setOracleConfig .. => [.oracleType, .oracleFeed]
  | setPsmFee .. => [.redemptionFeeBps]
  | setBackstopParams .. => [.insuranceFundPubkey, .maxBackstopBps]
  | setSpendLimit .. | clearSpendLimit .. => [.featureFlags, .maxTransferAmount]
  | setTravelRuleThreshold .. => [.travelRuleThreshold]
  | setSanctionsOracle .. | clearSanctionsOracle .. =>
    [.featureFlags, .sanctionsOracle, .sanctionsMaxStalenessSlots]
  | updateRoles .. => [.pendingAuthority]
  | acceptAuthority .. | acceptAuthorityRotation .. | emergencyRecoverAuthority .. =>
    [.authority, .pendingAuthority]
  | acceptComplianceAuthority .. => [.complianceAuthority, .pendingComplianceAuthority]
  | initSquadsAuthority .. => [.authority, .preset, .featureFlags, .squadsMultisig]
  | migrateConfig .. => [.version]
  | setUpgradeAuthorityGuard .. => [.expectedUpgradeAuthority]
  | _ => []

/-- What does not depend on the fields that may change stays. -/
theorem SameConfigs.of_without {α : Type} {f : StablecoinConfig → α} {fs : List ConfigField}
    (h : SameConfigs (StablecoinConfig.without fs) s s') (hf : ∀ c, f (c.without fs) = f c) :
    SameConfigs f s s' := by
  intro k
  have hk := congrArg (Option.map f) (h k)
  rw [Option.map_map, Option.map_map] at hk
  rwa [show f ∘ StablecoinConfig.without fs = f from funext hf] at hk

theorem StablecoinConfig.enact_fields {param : UInt64} {action : ProposalAction} :
    Ensures (c.enact param action) fun c' =>
      c'.without [.paused, .featureFlags] = c.without [.paused, .featureFlags] := by
  cases action with
  | pause | unpause | setFeatureFlag => exact .pure rfl
  | clearFeatureFlag => exact .bind fun _ _ => .bind fun _ _ => .pure rfl
  | updateMinter | revokeMinter | drawInsurance => exact .pure rfl

theorem StablecoinConfig.applyTimelockedOp_fields {a : AuthorityAndMint} :
    Ensures c.applyTimelockedOp fun c' =>
      c'.clearTimelockedOp.without (Instruction.executeTimelockedOp a).fields =
        c.without (Instruction.executeTimelockedOp a).fields := by
  unfold applyTimelockedOp
  repeat' first
    | with_reducible refine .ite (fun _ => ?_) fun _ => ?_
    | with_reducible exact .error
    | exact .pure rfl
    | with_reducible refine .bind fun _ _ => ?_

namespace Ensures

variable {fs : List ConfigField}

theorem fields_eq (h : s'.configs = s.configs) :
    Ensures (pure s' : Result State) (SameConfigs (StablecoinConfig.without fs) s) :=
  .pure (.of_eq h)

theorem fields_put (hc : s.configs k = some c) (h : s'.configs = put s.configs k c')
    (hfields : c'.without fs = c.without fs) :
    Ensures (pure s' : Result State) (SameConfigs (StablecoinConfig.without fs) s) :=
  .pure (.of_put hc h hfields)

end Ensures

theorem Instruction.exec_fields {i : Instruction} (hi : ∀ a p, i ≠ .initializeStablecoin a p) :
    Ensures (i.exec rt clock s) (SameConfigs (StablecoinConfig.without i.fields) s) := by
  cases hwrites : i.tables.contains .configs with
  | false =>
    intro s' h
    exact .of_eq (exec_same State.configs (fun _ => AccountKind.hide_eq hwrites) h)
  | true =>
    cases i
    case initializeStablecoin a p => exact absurd rfl (hi a p)
    case updateRoles => exact updateRolesHandler_sameConfigs fun _ _ => rfl
    case executeAction =>
      exact Ensures.bind_reads_pair fun _ _ hc => .bind fun _ _ => .bind fun _ _ =>
        .bind fun _ _ => .bind fun _ _ => .bind fun c' hc' =>
          Ensures.fields_put hc rfl (StablecoinConfig.enact_fields c' hc')
    case executeTimelockedOp =>
      exact Ensures.bind_reads fun _ hc => .bind fun _ _ => .bind fun _ _ => .bind fun _ _ =>
        .bind fun c' hc' =>
          Ensures.fields_put hc rfl (StablecoinConfig.applyTimelockedOp_fields c' hc')
    case triggerBackstop => exact fun _ h => absurd h triggerBackstopHandler_ne_ok
    all_goals try (cases hwrites; done)
    all_goals change Ensures (_ >>= _) _
    all_goals repeat' first
      | with_reducible refine Ensures.bind_reads_pair fun _ _ _ => ?_
      | with_reducible refine Ensures.bind_reads fun _ _ => ?_
      | with_reducible refine Ensures.bind_addMinted fun _ => ?_
      | with_reducible refine Ensures.bind_addBurned fun _ => ?_
      | with_reducible refine .bind fun _ _ => ?_
      | with_reducible refine .ite (fun _ => ?_) fun _ => ?_
      | (with_reducible apply Ensures.fields_eq; rfl)
      | ((with_reducible apply Ensures.fields_put; assumption; rfl); rfl)
      | change Ensures (_ >>= _) _
      | rw [CdpLiquidate.store]
      | rw [CallerAndMint.recordVote]

end SolanaStablecoin
