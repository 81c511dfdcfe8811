import SolanaStablecoin.Verify.Committee
import SolanaStablecoin.Verify.Guarantee
import SolanaStablecoin.Verify.Signers

/-! Stablecoins and channels side by side. A transaction about one of them leaves the accounts of
all others as they are. -/

namespace SolanaStablecoin

open Transition

/-- The account that everything derived from an address belongs to: the config of a stablecoin, or a
payment channel. -/
def Pubkey.root : Pubkey → Option Pubkey
  | key _ => none
  | stablecoinConfig m => some (.stablecoinConfig m)
  | collateralVault m _ _ | cdpPosition m _ | interfaceVersion m | collateralConfig m _
  | customPriceFeed m | proofOfReserves m | oracleConsensus m | sanctionsRecord m _
  | psmCurveConfig m | redemptionPool m | vaultAuthority m | redemptionQueue m
  | redemptionEntry m _ | queueEscrow m _ | redemptionGuarantee m | redemptionEscrow m _
  | redemptionRequest m _ | marketMakerConfig m | bridgeConfig m | consumedMessageId m _
  | authorityRotation m | squadsMultisigConfig m | keeperConfig m | credentialRegistry m
  | credentialRecord m _ | zkVerification m _ | walletRateLimit m _ | delegateConsent m _
  | yieldCollateral m | zkComplianceConfig m | insuranceVault m | liquidationBonusConfig m
  | pidConfig m | reserveComposition m | travelRuleRecord m _ | hook _ m | hookWallet _ m _ =>
    some (.stablecoinConfig m)
  | minterInfo c _ | daoCommittee c | daoProposal c _ | guardianConfig c | pauseProposal c _
  | issuerRegistry c | pbsVault c _ => root c
  | apcChannel i n => some (.apcChannel i n)
  | apcSettle channel => root channel

/-- The account that an instruction is about. -/
def Instruction.main : Instruction → Pubkey
  | initializeStablecoin a _ => .stablecoinConfig a.mint.key
  | updateMinter a _ | revokeMinter a | setMintVelocityLimit a _ => a.config
  | pause a _ | setFeatureFlag a _ | clearFeatureFlag a _ | proposeTimelockedOp a _ _ _
  | executeTimelockedOp a | cancelTimelockedOp a | setPythFeed a _ | setOracleParams a _ _
  | setOracleConfig a _ _ | initCustomPriceFeed a | updateCustomPrice a _ _ _
  | initInterfaceVersion a | initMarketMakerConfig a _ _ _ | registerMarketMaker a _
  | initBridgeConfig a _ _ _ _ _ | updateRoles a _ | proposeAuthorityRotation a _ _
  | cancelAuthorityRotation a | initSquadsAuthority a _ | setWalletRateLimit a _
  | removeWalletRateLimit a _ | initializeExtraAccountMetaList a | migrateHookExtraAccounts a
  | blacklistAdd a _ | blacklistRemove a _ | setSpendLimit a _ | clearSpendLimit a
  | initZkCompliance a _ _ | closeVerificationRecord a _ | setPsmFee a _ | initYieldCollateral a _
  | addYieldCollateralMint a _ | initDaoCommittee a _ _ | initGuardianConfig a _ _
  | initOracleConsensus a _ _ _ | setOracleSource a _ _ _ | removeOracleSource a _ => a.config
  | freezeAccount a | thawAccount a | blacklistAddAndFreeze a _ _ => .stablecoinConfig a.mint
  | setStabilityFee a _ | addAuthorizedKeeper a _ | removeAuthorizedKeeper a _
  | initPsmCurveConfig a _ _ _ | updatePsmCurveConfig a _ _ _ | initRedemptionQueue a
  | updateRedemptionQueue a _ _ _ _ | registerRedemptionPool a _ _ | initCredentialRegistry a _
  | initKeeperConfig a _ | setTravelRuleThreshold a _ | setSanctionsOracle a _ _
  | clearSanctionsOracle a | registerLegalEntity a _ | updateLegalEntity a _ | initPidConfig a _
  | initLiquidationBonusConfig a _ | updateLiquidationBonusConfig a _
  | updateReserveComposition a _ | setUpgradeAuthorityGuard a _ => a.config
  | mint a _ | cpiMint a _ _ => .stablecoinConfig a.mint
  | burn a _ | cpiBurn a _ _ => .stablecoinConfig a.mint
  | updateInterfaceVersion a _ _ => a.interfaceVersion
  | mmMint a _ | mmBurn a _ => .stablecoinConfig a.mint
  | bridgeOut a _ => .stablecoinConfig a.mint
  | bridgeIn a _ _ _ _ => .stablecoinConfig a.mint
  | registerCollateral a _ | updateCollateralConfig a _ => .stablecoinConfig a.sssMint
  | cdpDepositCollateral a _ => .stablecoinConfig a.sssMint
  | cdpBorrowStable a _ => .stablecoinConfig a.sssMint
  | cdpRepayStable a _ => .stablecoinConfig a.sssMint
  | cdpLiquidate a _ _ | cdpLiquidateV2 a _ _ => .stablecoinConfig a.sssMint
  | collectStabilityFee a => .stablecoinConfig a.sssMint
  | depositCollateral a _ => .stablecoinConfig a.sssMint
  | redeem a _ | psmDynamicSwap a _ => .stablecoinConfig a.sssMint
  | seedRedemptionPool a _ _ _ => a.config
  | instantRedemption a _ => a.config
  | replenishRedemptionPool a _ => a.config
  | drainRedemptionPool a => a.config
  | enqueueRedemption a _ => a.config
  | processRedemption a _ => a.config
  | cancelRedemption a _ => a.config
  | compactRedemptionHead a _ => a
  | requestRedemption a _ => a.config
  | fulfillRedemption a => a.config
  | claimExpiredRedemption a => a.config
  | acceptAuthority a | acceptComplianceAuthority a => .stablecoinConfig a.mint
  | acceptAuthorityRotation a | emergencyRecoverAuthority a => .stablecoinConfig a.mint
  | migrateConfig a => a.config
  | rotateCredentialRoot a _ => a.config
  | verifyZkCredential a _ _ => a.config
  | revokeCredential a => a.config
  | closeCredentialRecord a => a.config
  | updateWalletRateLimit a _ _ => .stablecoinConfig a.mint
  | crankCircuitBreaker a | crankUnpause a => a.config
  | transferHook a _ => .stablecoinConfig a.mint
  | submitTravelRuleRecord a _ _ _ _ => a.config
  | closeTravelRuleRecord a _ => a.travelRuleRecord
  | updateSanctionsRecord a _ _ | closeSanctionsRecord a _ => a.config
  | submitZkProof a => .stablecoinConfig a.mint
  | attestLegalEntity a => a.config
  | updateStabilityFeePid a _ => a.config
  | initProofOfReserves a _ => .stablecoinConfig a.mint
  | attestProofOfReserves a _ => .stablecoinConfig a.mint
  | proposeAction a _ _ _ | voteAction a _ | executeAction a _ | guardianProposePause a _
  | guardianVotePause a _ | guardianLiftPause a => a.config
  | setBackstopParams a _ _ | initInsuranceVault a _ _ _ => .stablecoinConfig a.sssMint
  | triggerBackstop a => .stablecoinConfig a.sssMint
  | seedInsuranceVault a _ | replenishInsuranceVault a _ => .stablecoinConfig a.sssMint
  | drawInsurance a _ => .stablecoinConfig a.sssMint
  | updateOracleConsensus a => .stablecoinConfig a.mint
  | commitProbabilistic a _ => .stablecoinConfig a.stableMint
  | proveAndResolve a _ | partialResolve a _ _ => a.vault
  | expireAndRefund a => a.vault
  | openChannel a p => .apcChannel a.initiator.key p.channelId
  | submitWorkProof a _ _ | proposeSettle a _ | dispute a _ => a.channel
  | countersignSettle a _ => a.channel
  | forceClose a => a.channel
  | resolveDispute a _ => a.channel

/-- What an account of a kind holds. Tokens and price feeds are in accounts of other programs. -/
def AccountKind.Record : AccountKind → Type
  | tokens => Empty
  | configs => StablecoinConfig
  | minterInfos => MinterInfo
  | collateralVaults => CollateralVault
  | cdpPositions => CdpPosition
  | interfaceVersions => InterfaceVersion
  | yieldCollateralConfigs => YieldCollateralConfig
  | collateralConfigs => CollateralConfig
  | customPriceFeeds => CustomPriceFeed
  | proofsOfReserves => ProofOfReserves
  | oracleConsensuses => OracleConsensus
  | sanctionsRecords => SanctionsRecord
  | psmCurveConfigs => PsmCurveConfig
  | redemptionPools => RedemptionPool
  | redemptionQueues => RedemptionQueue
  | redemptionEntries => RedemptionEntry
  | redemptionGuarantees => RedemptionGuarantee
  | redemptionRequests => RedemptionRequest
  | marketMakerConfigs => MarketMakerConfig
  | bridgeConfigs => BridgeConfig
  | consumedMessageIds => ConsumedMessageId
  | verificationRecords => VerificationRecord
  | credentialRegistries => CredentialRegistry
  | credentialRecords => CredentialRecord
  | walletRateLimits => WalletRateLimit
  | keeperConfigs => KeeperConfig
  | authorityRotationRequests => AuthorityRotationRequest
  | squadsMultisigConfigs => SquadsMultisigConfig
  | blacklistStates => BlacklistState
  | extraAccountMetaLists => List ExtraAccountMeta
  | travelRuleRecords => TravelRuleRecord
  | zkComplianceConfigs => ZkComplianceConfig
  | issuerRegistries => IssuerRegistry
  | pidConfigs => PidConfig
  | liquidationBonusConfigs => LiquidationBonusConfig
  | reserveCompositions => ReserveComposition
  | insuranceVaults => InsuranceVault
  | daoCommittees => DaoCommitteeConfig
  | proposals => ProposalPda
  | guardianConfigs => GuardianConfig
  | pauseProposals => PauseProposal
  | probabilisticVaults => ProbabilisticVault
  | paymentChannels => PaymentChannel
  | proposedSettlements => ProposedSettlement
  | pythPriceFeeds => Empty

/-- The table of a kind. -/
def State.table (s : State) : (kind : AccountKind) → Pubkey → Option kind.Record
  | .tokens => fun _ => none
  | .configs => s.configs
  | .minterInfos => s.minterInfos
  | .collateralVaults => s.collateralVaults
  | .cdpPositions => s.cdpPositions
  | .interfaceVersions => s.interfaceVersions
  | .yieldCollateralConfigs => s.yieldCollateralConfigs
  | .collateralConfigs => s.collateralConfigs
  | .customPriceFeeds => s.customPriceFeeds
  | .proofsOfReserves => s.proofsOfReserves
  | .oracleConsensuses => s.oracleConsensuses
  | .sanctionsRecords => s.sanctionsRecords
  | .psmCurveConfigs => s.psmCurveConfigs
  | .redemptionPools => s.redemptionPools
  | .redemptionQueues => s.redemptionQueues
  | .redemptionEntries => s.redemptionEntries
  | .redemptionGuarantees => s.redemptionGuarantees
  | .redemptionRequests => s.redemptionRequests
  | .marketMakerConfigs => s.marketMakerConfigs
  | .bridgeConfigs => s.bridgeConfigs
  | .consumedMessageIds => s.consumedMessageIds
  | .verificationRecords => s.verificationRecords
  | .credentialRegistries => s.credentialRegistries
  | .credentialRecords => s.credentialRecords
  | .walletRateLimits => s.walletRateLimits
  | .keeperConfigs => s.keeperConfigs
  | .authorityRotationRequests => s.authorityRotationRequests
  | .squadsMultisigConfigs => s.squadsMultisigConfigs
  | .blacklistStates => s.blacklistStates
  | .extraAccountMetaLists => s.extraAccountMetaLists
  | .travelRuleRecords => s.travelRuleRecords
  | .zkComplianceConfigs => s.zkComplianceConfigs
  | .issuerRegistries => s.issuerRegistries
  | .pidConfigs => s.pidConfigs
  | .liquidationBonusConfigs => s.liquidationBonusConfigs
  | .reserveCompositions => s.reserveCompositions
  | .insuranceVaults => s.insuranceVaults
  | .daoCommittees => s.daoCommittees
  | .proposals => s.proposals
  | .guardianConfigs => s.guardianConfigs
  | .pauseProposals => s.pauseProposals
  | .probabilisticVaults => s.probabilisticVaults
  | .paymentChannels => s.paymentChannels
  | .proposedSettlements => s.proposedSettlements
  | .pythPriceFeeds => fun _ => none

theorem State.without_table {ts : List AccountKind} {s : State} (kind : AccountKind)
    (h : ts.contains kind = false) : (s.without ts).table kind = s.table kind := by
  cases kind with
  | tokens | pythPriceFeeds => rfl
  | _ => exact AccountKind.hide_eq h

variable {rt : Runtime} {clock : Clock} {s s' : State} {i : Instruction} {k k' : Pubkey}

/-- Writing at an address that belongs to something else. -/
theorem update_elsewhere {α : Type} {m : Pubkey → Option α} {o : Option α} {r : Option Pubkey}
    (hk : k.root ≠ r) (hk' : k'.root = r) : Function.update m k' o k = m k := by
  refine Function.update_of_ne ?_ _ _
  rintro rfl
  exact hk hk'

theorem forall_tokens {ts : List AccountKind}
    (h : ∀ kind ∈ ts, s'.table kind k = s.table kind k) :
    ∀ kind ∈ AccountKind.tokens :: ts, s'.table kind k = s.table kind k :=
  List.forall_mem_cons.mpr ⟨rfl, h⟩

theorem putOption_elsewhere {α : Type} {m : Pubkey → Option α} {o : Option α} {r : Option Pubkey}
    (hk : k.root ≠ r) (hk' : k'.root = r) : putOption m k' o k = m k := by
  cases o with
  | none => rfl
  | some => exact update_elsewhere hk hk'

theorem Instruction.root_derived {m : Pubkey} (h : i.main = .stablecoinConfig m) :
    some (.stablecoinConfig m) = i.main.root := by
  rw [h]
  rfl

namespace OwnConfig

instance authoritySss3 {a : AuthorityAndConfig} :
    OwnConfig (a.loadSss3 s) a.config fun c => c :=
  ⟨fun _ h => (AuthorityAndConfig.loadConfig_eq_ok.mp
    (AuthorityAndConfig.loadSss3_eq_ok.mp h).1).2.1⟩

instance registry : OwnConfig (loadRegistry s k) k Prod.fst where
  own _ h := by
    simp only [loadRegistry, bind_eq_ok, require_eq_ok, pure_eq_ok] at h
    obtain ⟨c, -, _, -, -, hk, rfl⟩ := h
    exact hk

instance issuerAndConfig {a : IssuerAndConfig} :
    OwnConfig (a.loadRegistry s) a.config Prod.fst where
  own _ h := by
    simp only [IssuerAndConfig.loadRegistry, checked_eq_ok] at h
    exact own _ h.1

instance crank {a : Crank} : OwnConfig (a.loadAccounts s) a.config Prod.fst :=
  ⟨fun _ h => (Crank.loadAccounts_eq_ok.mp h).2.2.1⟩

end OwnConfig

/-! ## Proposals

A draw names the proposal that it uses up, and only what the proposal says of its config is
checked. -/

/-- Every proposal lies at an address of the config that it is for. -/
def State.ProposalsFiled (s : State) : Prop :=
  ∀ k p, s.proposals k = some p → k.root = p.config.root

theorem ProposalPda.consume_config {p p' : ProposalPda} {c authority : Pubkey} {n : UInt64}
    (h : p.consume c authority n = .ok p') : p.config = c ∧ p'.config = p.config := by
  simp only [consume, bind_eq_ok, require_eq_ok, pure_eq_ok] at h
  obtain ⟨-, hc, -, -, -, -, -, -, -, -, _, -, -, -, rfl⟩ := h
  exact ⟨hc, rfl⟩

theorem State.ProposalsFiled.put {p : ProposalPda} (hs : s.ProposalsFiled)
    (h : s'.proposals = put s.proposals k p) (hk : k.root = p.config.root) :
    s'.ProposalsFiled := by
  intro k' p' hp
  rw [h, put_eq_some] at hp
  rcases hp with ⟨rfl, rfl⟩ | ⟨-, hp⟩
  · exact hk
  · exact hs k' p' hp

/-- What a draw does to the proposals. -/
theorem DrawInsurance.authorise_filed {a : DrawInsurance} {c : StablecoinConfig}
    {x : Option ProposalPda} {n : UInt64} {ps : Pubkey → Option ProposalPda}
    (hx : loadOptional s.proposals a.daoProposal = .ok x) (h : a.authorise s c x n = .ok ps) :
    ps = s.proposals ∨ ∃ key p p', s.proposals key = some p ∧
      p.config = .stablecoinConfig a.sssMint ∧ p'.config = p.config ∧
      ps = put s.proposals key p' := by
  refine ite_ok_cases (fun _ h => ?_) (fun _ h => ?_) h
  · simp only [bind_eq_ok, Option.okOr_eq_ok, pure_eq_ok] at h
    obtain ⟨key, hkey, p, rfl, p', hconsume, rfl⟩ := h
    rw [hkey] at hx
    obtain ⟨hc, hc'⟩ := ProposalPda.consume_config hconsume
    exact .inr ⟨key, p, p', loadOptional_some hx, hc, hc', rfl⟩
  · simp only [bind_eq_ok, pure_eq_ok] at h
    obtain ⟨-, -, rfl⟩ := h
    exact .inl rfl

theorem Instruction.exec_proposalsFiled (hs : s.ProposalsFiled) :
    Ensures (i.exec rt clock s) State.ProposalsFiled := by
  cases h : i.tables.contains .proposals with
  | false =>
    intro s' hexec
    have hsame : s'.proposals = s.proposals := exec_same State.proposals
      (fun t => by simp only [State.without, AccountKind.hide_eq h]) hexec
    rw [State.ProposalsFiled, hsame]
    exact hs
  | true =>
    intro s' hexec
    cases i with
    | proposeAction a action param target =>
      have hexec' : proposeActionHandler s a action param target = .ok s' := hexec
      simp only [proposeActionHandler, bind_eq_ok, pure_eq_ok] at hexec'
      obtain ⟨_, -, -, -, -, -, -, -, -, -, _, -, rfl⟩ := hexec'
      exact hs.put rfl rfl
    | voteAction a id =>
      have hexec' : voteActionHandler s a id = .ok s' := hexec
      simp only [voteActionHandler, bind_eq_ok, load_eq_ok, pure_eq_ok] at hexec'
      obtain ⟨_, -, p, hp, -, -, -, -, -, -, -, -, rfl⟩ := hexec'
      exact hs.put rfl (hs _ p hp)
    | executeAction a id =>
      have hexec' : executeActionHandler s a id = .ok s' := hexec
      simp only [executeActionHandler, bind_eq_ok, load_eq_ok, pure_eq_ok] at hexec'
      obtain ⟨_, -, p, hp, -, -, -, -, -, -, _, -, rfl⟩ := hexec'
      exact hs.put rfl (hs _ p hp)
    | drawInsurance a n =>
      have hexec' : drawInsuranceHandler rt s a n = .ok s' := hexec
      simp only [drawInsuranceHandler, bind_eq_ok, pure_eq_ok] at hexec'
      obtain ⟨_, -, -, -, _, -, -, -, x, hx, -, -, ps, hps, -, -, _, -, _, -, _, -, rfl⟩ := hexec'
      rcases DrawInsurance.authorise_filed hx hps with rfl | ⟨key, p, p', hp, -, hc', rfl⟩
      · exact hs
      · refine hs.put rfl ?_
        rw [hc']
        exact hs key p hp
    | _ => cases h

/-! ## Elsewhere -/

theorem blacklistAddHandler_elsewhere {a : AuthorityAndMint} {address : Pubkey}
    (hk : k.root ≠ some (.stablecoinConfig a.mint)) :
    Ensures (blacklistAddHandler s a address) fun s' =>
      s'.blacklistStates k = s.blacklistStates k :=
  .bind fun _ _ => .ite (fun _ => .pure rfl) fun _ => .bind fun _ _ =>
    .pure (update_elsewhere hk rfl)

theorem processRedemptionHandler_elsewhere {a : ProcessRedemption} {n : UInt64}
    (hk : k.root ≠ (Instruction.processRedemption a n).main.root)
    (h : processRedemptionHandler rt clock s a n = .ok s') :
    s'.configs k = s.configs k ∧ s'.redemptionQueues k = s.redemptionQueues k ∧
      s'.redemptionEntries k = s.redemptionEntries k := by
  simp only [processRedemptionHandler, bind_eq_ok, loadOwnConfig_eq_ok,
    StablecoinConfig.addBurned_eq_ok, pure_eq_ok] at h
  obtain ⟨c, ⟨-, hc⟩, _, -, _, -, _, -, _, -, _, -, _, -, _, -, _, -, _, -, _, -, _, -, _, -, _, -,
    _, ⟨_, -, rfl⟩, _, -, rfl⟩ := h
  have hroot := Instruction.root_derived (i := .processRedemption a n) hc
  exact ⟨update_elsewhere hk rfl, update_elsewhere hk hroot, update_elsewhere hk hroot⟩

theorem fulfillRedemptionHandler_elsewhere {a : FulfillRedemption}
    (hk : k.root ≠ (Instruction.fulfillRedemption a).main.root)
    (h : fulfillRedemptionHandler rt clock s a = .ok s') :
    s'.configs k = s.configs k ∧ s'.redemptionRequests k = s.redemptionRequests k := by
  simp only [fulfillRedemptionHandler, bind_eq_ok, loadOwnConfig_eq_ok, loadRequest_eq_ok,
    pure_eq_ok] at h
  obtain ⟨c, ⟨-, hc⟩, _, -, _, ⟨-, hrequest, -, -⟩, _, -, _, -, -, -, _, -, -, -, _, -, _, -, -,
    -, _, -, _, -, _, -, rfl⟩ := h
  refine ⟨update_elsewhere hk rfl, update_elsewhere hk ?_⟩
  rw [hrequest]
  exact Instruction.root_derived hc

theorem transferHookHandler_elsewhere {a : TransferHook} {n : UInt64}
    (hk : k.root ≠ some (.stablecoinConfig a.mint))
    (h : transferHookHandler clock s a n = .ok s') :
    s'.walletRateLimits k = s.walletRateLimits k := by
  simp only [transferHookHandler, bind_eq_ok, pure_eq_ok] at h
  obtain ⟨_, -, _, -, -, -, -, -, _, -, -, -, _, -, -, -, -, -, -, -, -, -, _, -, -, -, -, -, -, -,
    -, -, s₁, hrecord, -, -, rfl⟩ := h
  rcases TransferHook.recordTransfer_eq_ok.mp hrecord with ⟨-, -, r, -, rfl⟩ | ⟨-, rfl⟩
  · exact update_elsewhere hk rfl
  · rfl

theorem countersignSettleHandler_elsewhere {a : CountersignSettle} {n : UInt64}
    (hk : k.root ≠ a.channel.root) (h : countersignSettleHandler rt s a n = .ok s') :
    s'.paymentChannels k = s.paymentChannels k ∧
      s'.proposedSettlements k = s.proposedSettlements k := by
  simp only [countersignSettleHandler, SettleAccounts.settle, bind_eq_ok, pure_eq_ok] at h
  obtain ⟨_, -, _, -, -, -, -, -, -, -, -, -, s₁, ⟨_, -, rfl⟩, rfl⟩ := h
  exact ⟨update_elsewhere hk rfl, update_elsewhere hk rfl⟩

theorem Instruction.exec_written (hs : s.ProposalsFiled) (hk : k.root ≠ i.main.root) :
    Ensures (i.exec rt clock s) fun s' => ∀ kind ∈ i.tables, s'.table kind k = s.table kind k := by
  cases i
  case updateRoles a p =>
    refine .bind fun _ _ => .bind fun _ _ => .bind fun _ _ => ?_
    cases p.newAuthority with
    | none => exact .pure fun _ _ => rfl
    | some =>
      exact .bind fun _ _ => .pure (List.forall_mem_singleton.mpr (update_elsewhere hk rfl))
  case processRedemption a n =>
    intro s' h
    obtain ⟨hc, hqueue, hentry⟩ := processRedemptionHandler_elsewhere hk h
    exact List.forall_mem_cons.mpr ⟨rfl, List.forall_mem_cons.mpr ⟨hc, List.forall_mem_cons.mpr
      ⟨hqueue, List.forall_mem_singleton.mpr hentry⟩⟩⟩
  case fulfillRedemption a =>
    intro s' h
    obtain ⟨hc, hrequest⟩ := fulfillRedemptionHandler_elsewhere hk h
    exact List.forall_mem_cons.mpr ⟨rfl, List.forall_mem_cons.mpr
      ⟨hc, List.forall_mem_singleton.mpr hrequest⟩⟩
  case closeCredentialRecord a =>
    refine .bind fun c _ => .bind fun _ hc => .bind fun _ _ => .bind fun _ _ => .pure ?_
    have hc : a.config = .stablecoinConfig c.mint := require_eq_ok.mp hc
    exact List.forall_mem_singleton.mpr (update_elsewhere hk (root_derived hc))
  case blacklistAddAndFreeze a list program =>
    refine .bind fun _ _ => .bind fun _ _ => .bind fun _ _ => .bind fun _ _ => .bind fun target _ =>
      .bind fun _ _ => .bind fun _ _ => .bind fun _ _ => .bind fun _ _ => .bind fun s₁ h => ?_
    have hlist : s₁.blacklistStates k = s.blacklistStates k :=
      blacklistAddHandler_elsewhere hk s₁ h
    exact .bind fun _ _ => .pure (List.forall_mem_cons.mpr
      ⟨rfl, List.forall_mem_singleton.mpr hlist⟩)
  case transferHook a n =>
    exact fun s' h => List.forall_mem_singleton.mpr (transferHookHandler_elsewhere hk h)
  case drawInsurance a n =>
    refine .bind fun _ _ => .bind fun _ _ => .bind fun _ _ => .bind fun _ _ => .bind fun x hx =>
      .bind fun _ _ => .bind fun ps hps => ?_
    have hsame : ps k = s.proposals k := by
      rcases DrawInsurance.authorise_filed hx hps with rfl | ⟨key, p, p', hp, hc, -, rfl⟩
      · rfl
      · refine update_elsewhere hk ?_
        rw [hs key p hp, hc]
        rfl
    refine .bind fun _ _ => .bind fun _ _ => .bind fun _ _ => .bind fun _ _ => .pure ?_
    exact List.forall_mem_cons.mpr ⟨rfl, List.forall_mem_cons.mpr ⟨update_elsewhere hk rfl,
      List.forall_mem_singleton.mpr hsame⟩⟩
  case countersignSettle a n =>
    intro s' h
    obtain ⟨hc, hp⟩ := countersignSettleHandler_elsewhere hk h
    exact List.forall_mem_cons.mpr ⟨rfl, List.forall_mem_cons.mpr
      ⟨hc, List.forall_mem_singleton.mpr hp⟩⟩
  case triggerBackstop => exact fun _ h => absurd h triggerBackstopHandler_ne_ok
  all_goals change Ensures (_ >>= _) _
  all_goals try with_reducible refine Ensures.bind_own fun _ _ => ?_
  all_goals repeat' first
    | with_reducible refine .bind fun _ _ => ?_
    | with_reducible refine .ite (fun _ => ?_) fun _ => ?_
    | exact .pure (List.forall_mem_singleton.mpr (update_elsewhere hk rfl))
    | with_reducible refine Ensures.pure ?_
    | with_reducible refine forall_tokens ?_
    | with_reducible refine List.forall_mem_cons.mpr ⟨?_, ?_⟩
    | with_reducible exact List.forall_mem_nil _
    | exact update_elsewhere hk rfl
    | exact update_elsewhere hk (Instruction.root_derived ‹_›)
    | exact putOption_elsewhere hk rfl
    | rfl
    | change Ensures (_ >>= _) _
    | change ∀ kind ∈ _ :: _, _
    | rw [CallerAndMint.recordVote]

theorem Instruction.exec_elsewhere (hs : s.ProposalsFiled) (hk : k.root ≠ i.main.root)
    (h : i.exec rt clock s = .ok s') (kind : AccountKind) :
    s'.table kind k = s.table kind k := by
  cases hkind : i.tables.contains kind with
  | true => exact exec_written hs hk s' h kind (List.contains_iff_mem.mp hkind)
  | false =>
    exact congrFun (exec_same (fun t => t.table kind) (fun t => t.without_table kind hkind) h) k

theorem Pubkey.root_of_canSign (h : k.canSign = true) : k.root = none := by
  cases k with
  | key => rfl
  | _ => cases h

theorem World.exec_elsewhere {w : World} (hk : k.root ≠ none) (h : w.exec rt s = .ok s')
    (kind : AccountKind) : s'.table kind k = s.table kind k := by
  cases w with
  | forgePriceFeed feed p =>
    cases h
    cases kind with
    | customPriceFeeds => exact update_elsewhere hk (Pubkey.root_of_canSign feed.canSign)
    | _ => rfl
  | publishPythPrice | writeAccount =>
    cases h
    cases kind <;> rfl
  | transfer =>
    simp [World.exec] at h
    obtain ⟨_, -, -, t, -, rfl⟩ := h
    cases kind <;> rfl
  | _ =>
    simp [World.exec] at h
    obtain ⟨t, -, rfl⟩ := h
    cases kind <;> rfl

def Action.root : Action → Option Pubkey
  | call _ i => i.main.root
  | world _ => none

theorem exec_proposalsFiled {a : Action} (hs : s.ProposalsFiled)
    (h : Action.exec rt s a = .ok s') : s'.ProposalsFiled := by
  cases a with
  | call clock i => exact Instruction.exec_proposalsFiled hs s' h
  | world w =>
    obtain ⟨t, p, q, d, rfl⟩ := World.exec_outside h
    exact hs

theorem exec_elsewhere {R : Pubkey} {a : Action} (hs : s.ProposalsFiled) (ha : a.root ≠ some R)
    (hk : k.root = some R) (h : Action.exec rt s a = .ok s') (kind : AccountKind) :
    s'.table kind k = s.table kind k := by
  cases a with
  | call clock i =>
    refine Instruction.exec_elsewhere hs ?_ h kind
    rw [hk]
    exact ha.symm
  | world w =>
    refine World.exec_elsewhere ?_ h kind
    rw [hk]
    exact Option.some_ne_none R

/-- Whatever is done, in any order, with other stablecoins and channels, the accounts of a
stablecoin or a channel stay as they are. -/
theorem run_elsewhere {R : Pubkey} {as : List Action} (hs : s.ProposalsFiled)
    (has : ∀ a ∈ as, a.root ≠ some R) (hk : k.root = some R) (kind : AccountKind) :
    (run rt s as).table kind k = s.table kind k := by
  suffices h : (run rt s as).ProposalsFiled ∧
      ∀ kind, (run rt s as).table kind k = s.table kind k from h.2 kind
  exact invariant_run (I := fun s' => s'.ProposalsFiled ∧ ∀ kind, s'.table kind k = s.table kind k)
    (P := fun _ a => a.root ≠ some R) (fun hI ha hexec =>
      ⟨exec_proposalsFiled hI.1 hexec, fun kind =>
        (exec_elsewhere hI.1 ha hk hexec kind).trans (hI.2 kind)⟩)
    ⟨hs, fun _ => rfl⟩ (along_of_forall fun a ha _ => has a ha)

namespace Market

def otherMint : Signer := ⟨.key 70, rfl⟩

/-- Somebody else issues a stablecoin, and hands it over. -/
def abroad : List Action :=
  [ .call (day 0) (.initializeStablecoin
      { payer := user, mint := otherMint, tokenProgram := token2022Id }
      { preset := 1, decimals := 6, adminTimelockDelay := some 0 }),
    .call (day 0) (.updateRoles { authority := user, mint := otherMint.key }
      { newAuthority := some authority.key }) ]

end Market

open Market in
theorem other_stablecoin_handed_over :
    ((run localRuntime solvent abroad).configs (.stablecoinConfig otherMint.key)).map
        (·.pendingAuthority) = some authority.key ∧
      (run localRuntime solvent abroad).configs config = solvent.configs config := by
  have hs : solvent.ProposalsFiled :=
    invariant_run_of_forall exec_proposalsFiled (deposited 1000) fun _ _ h => by cases h
  exact ⟨by decide +kernel, run_elsewhere hs (by decide) rfl .configs⟩

end SolanaStablecoin
