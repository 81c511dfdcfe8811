import SolanaStablecoin.Verify.Admin
import SolanaStablecoin.Verify.Cdp
import SolanaStablecoin.Verify.Escrow
import SolanaStablecoin.Verify.Hook
import SolanaStablecoin.Verify.Issue
import SolanaStablecoin.Verify.Keeper
import SolanaStablecoin.Verify.Parameters
import SolanaStablecoin.Verify.Redeem
import SolanaStablecoin.Verify.Roles

/-! Every successful transaction is one of a dozen kinds of step. Invariants are derived from
these, and no handler is unfolded again. -/

namespace SolanaStablecoin

open Transition

/-- Transactions that touch no book, no vault and no position, and yet are not quiet: they write
what few others write. -/
inductive Aside (rt : Runtime) (s : State) : Action → State → Prop where
  | thaw {clock : Clock} {b : ComplianceAccounts} {t : Tokens}
    (h : s.tokens.Thaws b.targetTokenAccount b.mint (.stablecoinConfig b.mint) t) :
    Aside rt s (.call clock (.thawAccount b)) { s with tokens := t }
  | govern {clock : Clock} {i : Instruction} {s' : State} {mint : Pubkey}
    {c c' : StablecoinConfig} (h : Governed clock s i s' mint c c') :
    Aside rt s (.call clock i) s'
  | enqueue {clock : Clock} {b : EnqueueRedemption} {n : UInt64} {s' : State}
    {c : StablecoinConfig} {rq : RedemptionQueue} (h : Enqueued rt s b n s' c rq) :
    Aside rt s (.call clock (.enqueueRedemption b n)) s'
  | refund {clock : Clock} {b : CancelRedemption} {i : UInt64} {s' : State}
    {c : StablecoinConfig} {rq : RedemptionQueue} {re : RedemptionEntry}
    (h : Refunded rt s b i s' c rq re) : Aside rt s (.call clock (.cancelRedemption b i)) s'
  | requeue {clock : Clock} {i : Instruction} {s' : State} {c : StablecoinConfig}
    {rq : RedemptionQueue} (h : SetsQueue s i s' c rq) : Aside rt s (.call clock i) s'
  | certify {clock : Clock} {i : Instruction} {s' : State} (h : Certifies clock s i s') :
    Aside rt s (.call clock i) s'
  | list {clock : Clock} {i : Instruction} {s' : State} (h : Lists s i s') :
    Aside rt s (.call clock i) s'
  | escrow {clock : Clock} {i : Instruction} {s' : State} (h : Disburses rt clock s i s') :
    Aside rt s (.call clock i) s'
  | handOver {owner : Signer} {account newOwner : Pubkey} {t : Tokens}
    (h : s.tokens.SetsAccountOwner account newOwner owner.key t) :
    Aside rt s (.world (.setAccountOwner owner account newOwner)) { s with tokens := t }

/-- The transaction is one of those that mint the stablecoin. -/
def Action.issues (M : Pubkey) : Action → Prop
  | .call _ (.mint b _) | .call _ (.cpiMint b _ _) => b.mint = M
  | .call _ (.mmMint b _) => b.mint = M
  | .call _ (.bridgeIn b _ _ _ _) => b.mint = M
  | .call _ (.cdpBorrowStable b _) => b.sssMint = M
  | _ => False

/-- Transactions and the steps they may take, under the effects that the handlers were shown to
have. -/
inductive Step (rt : Runtime) (s : State) : Action → State → Prop where
  | quiet {a : Action} {s' : State} (h : Quiet s s') : Step rt s a s'
  | aside {a : Action} {s' : State} (h : Aside rt s a s') : Step rt s a s'
  | createMint {mint : Signer} {m : Mint} {s' : State}
    (h : s.tokens.InitializesMint mint.key m s'.tokens) (configs : s'.configs = s.configs)
    (frame : Frame s s') : Step rt s (.world (.createMint mint m)) s'
  | initializeStablecoin {clock : Clock} {b : Initialize} {p : InitializeParams} {s' : State}
    (h : Initialized s b.mint.key s') :
    Step rt s (.call clock (.initializeStablecoin b p)) s'
  | mintElsewhere {authority : Signer} {mint dst : Pubkey} {n : UInt64} {s' : State}
    (h : s.tokens.MintsTo mint dst authority.key n s'.tokens) (configs : s'.configs = s.configs)
    (frame : Frame s s') : Step rt s (.world (.mintTo authority mint dst n)) s'
  | issue {a : Action} {c : StablecoinConfig} {mint dst : Pubkey} {n : UInt64} {s' : State}
    (h : Issued s c mint dst n s') (cap : c.FitsCap n) (frame : Frame s s')
    (issues : a.issues mint) : Step rt s a s'
  /-- Only `fulfill_redemption` retires while the config is paused. -/
  | retire {a : Action} {c : StablecoinConfig} {mint : Pubkey} {n : UInt64} {s' : State}
    (h : Retired s c mint n s') (frame : Frame s s')
    (running : c.paused = false ∨ ∃ clock b, a = .call clock (.fulfillRedemption b)) :
    Step rt s a s'
  | redeemInstantly {clock : Clock} {b : InstantRedemption} {n : UInt64} {s' : State}
    {c : StablecoinConfig} (config : s.configs b.config = some c)
    (key : b.config = .stablecoinConfig c.mint) (running : c.paused = false)
    (tokens : s.tokens.Retires c.mint n s'.tokens) (configs : s'.configs = s.configs)
    (frame : Frame s s') : Step rt s (.call clock (.instantRedemption b n)) s'
  | process {clock : Clock} {b : ProcessRedemption} {i : UInt64} {s' : State}
    {c : StablecoinConfig} {rq : RedemptionQueue} {re : RedemptionEntry} (head : i = rq.queueHead)
    (h : Processed rt s b s' c rq re) : Step rt s (.call clock (.processRedemption b i)) s'
  | deposit {clock : Clock} {b : CdpDepositCollateral} {n : UInt64} {s' : State}
    (h : Deposited rt s b n s') : Step rt s (.call clock (.cdpDepositCollateral b n)) s'
  | borrow {clock : Clock} {b : CdpBorrowStable} {n : UInt64} {s' : State} {c : StablecoinConfig}
    {v : CollateralVault} (h : Borrowed clock s b n s' c v) :
    Step rt s (.call clock (.cdpBorrowStable b n)) s'
  | repay {clock : Clock} {b : CdpRepayStable} {n : UInt64} {s' : State} {c : StablecoinConfig}
    {p : CdpPosition} {v : CollateralVault} {released : UInt64}
    (h : Repaid rt s b n s' c p v released) : Step rt s (.call clock (.cdpRepayStable b n)) s'
  | liquidate {clock : Clock} {b : CdpLiquidate} {i : Instruction} {s' : State}
    {c : StablecoinConfig} {p p' : CdpPosition} {v : CollateralVault} {burned seized : UInt64}
    (kind : ∃ x y, i = .cdpLiquidate b x y ∨ i = .cdpLiquidateV2 b x y)
    (h : Liquidated rt s b s' c p p' v burned seized) : Step rt s (.call clock i) s'
  | collect {clock : Clock} {b : CollectStabilityFee} {s' : State} {c : StablecoinConfig}
    (config : s.configs (.stablecoinConfig b.sssMint) = some c) (running : c.paused = false)
    (accrued : Accrued s s' b.sssMint b.debtor)
    (books : s'.tokens = s.tokens ∧ s'.configs = s.configs ∨ ∃ n, Retired s c b.sssMint n s') :
    Step rt s (.call clock (.collectStabilityFee b)) s'

variable {rt : Runtime} {clock : Clock} {s s' : State}

theorem Aside.loose {a : Action} (h : Aside rt s a s') : Loose s s' := by
  cases h with
  | thaw h =>
    exact { vaults := rfl, positions := rfl, tokens := .single (.thaw h), terms := .of_eq rfl }
  | govern h => exact h.loose
  | enqueue h => exact h.toLoose
  | refund h => exact h.toLoose
  | requeue h => exact h.toLoose
  | certify h => exact h.toLoose
  | list h => exact h.toLoose
  | escrow h => exact h.loose
  | @handOver owner _ _ _ h =>
    exact
      { vaults := rfl
        positions := rfl
        tokens := .single (.setAccountOwner owner.isCustodian h)
        terms := .of_eq rfl }

theorem Step.of_governed {i : Instruction}
    (h : ∃ mint c c', Governed clock s i s' mint c c') : Step rt s (.call clock i) s' := by
  obtain ⟨mint, c, c', h⟩ := h
  exact .aside (.govern h)

theorem Step.of_issued {a : Action} {mint dst : Pubkey} {n : UInt64} (ha : a.issues mint)
    (h : ∃ c, Issued s c mint dst n s' ∧ c.FitsCap n ∧ Frame s s') : Step rt s a s' := by
  obtain ⟨c, h, hcap, hframe⟩ := h
  exact .issue h hcap hframe ha

theorem Step.of_retired {a : Action} {mint : Pubkey} {n : UInt64} {P : StablecoinConfig → Prop}
    (h : ∃ c, Retired s c mint n s' ∧ c.paused = false ∧ P c ∧ Frame s s') : Step rt s a s' := by
  obtain ⟨c, h, hrun, -, hframe⟩ := h
  exact .retire h hframe (.inl hrun)

theorem Instruction.exec_step {i : Instruction} (h : i.exec rt clock s = .ok s') :
    Step rt s (.call clock i) s' := by
  cases i with
  | initializeStablecoin => exact .initializeStablecoin (initializeHandler_ok h)
  | updateMinter => exact .quiet (updateMinterHandler_ok h)
  | revokeMinter => exact .quiet (revokeMinterHandler_ok h)
  | pause => exact .quiet (pauseHandler_ok h)
  | setFeatureFlag => exact .quiet (setFeatureFlagHandler_ok h)
  | clearFeatureFlag => exact .quiet (clearFeatureFlagHandler_ok h)
  | freezeAccount => exact .quiet (freezeHandler_ok h)
  | thawAccount =>
    obtain ⟨t, ht, rfl⟩ := thawHandler_ok h
    exact .aside (.thaw ht)
  | proposeTimelockedOp => exact .of_governed (proposeTimelockedOpHandler_ok h)
  | executeTimelockedOp => exact .of_governed (executeTimelockedOpHandler_ok h)
  | cancelTimelockedOp => exact .of_governed (cancelTimelockedOpHandler_ok h)
  | setPythFeed => exact .quiet (setPythFeedHandler_ok h)
  | setOracleParams => exact .quiet (setOracleParamsHandler_ok h)
  | setStabilityFee => exact .quiet (setStabilityFeeHandler_ok h)
  | addAuthorizedKeeper => exact .quiet (addAuthorizedKeeperHandler_ok h)
  | removeAuthorizedKeeper => exact .quiet (removeAuthorizedKeeperHandler_ok h)
  | setOracleConfig => exact .quiet (setOracleConfigHandler_ok h)
  | initCustomPriceFeed => exact .quiet (initCustomPriceFeedHandler_ok h)
  | updateCustomPrice => exact .quiet (updateCustomPriceHandler_ok h)
  | mint => exact .of_issued rfl (mintHandler_ok h)
  | burn => exact .of_retired (burnHandler_ok h)
  | initInterfaceVersion => exact .quiet (initInterfaceVersionHandler_ok h)
  | updateInterfaceVersion => exact .quiet (updateInterfaceVersionHandler_ok h)
  | cpiMint => exact .of_issued rfl (mintHandler_ok (cpiMintHandler_ok h))
  | cpiBurn => exact .of_retired (burnHandler_ok (cpiBurnHandler_ok h))
  | initMarketMakerConfig => exact .quiet (initMarketMakerConfigHandler_ok h)
  | registerMarketMaker => exact .quiet (registerMarketMakerHandler_ok h)
  | mmMint => exact .of_issued rfl (mmMintHandler_ok h)
  | mmBurn => exact .of_retired (mmBurnHandler_ok h)
  | initBridgeConfig => exact .quiet (initBridgeConfigHandler_ok h)
  | bridgeOut =>
    obtain ⟨c, bc, -, h, hrun, -, hframe⟩ := bridgeOutHandler_ok h
    exact .retire h hframe (.inl hrun)
  | bridgeIn => exact .of_issued rfl (bridgeInHandler_ok h)
  | registerCollateral => exact .quiet (registerCollateralHandler_ok h)
  | updateCollateralConfig => exact .quiet (updateCollateralConfigHandler_ok h)
  | cdpDepositCollateral => exact .deposit (cdpDepositCollateralHandler_ok h)
  | cdpBorrowStable =>
    obtain ⟨c, v, price, m, m', h, -⟩ := cdpBorrowStableHandler_ok h
    exact .borrow h
  | cdpRepayStable =>
    obtain ⟨c, p, v, released, h⟩ := cdpRepayStableHandler_ok h
    exact .repay h
  | cdpLiquidate =>
    obtain ⟨l, cc, oc, price, debt, p', burned, seized, -, -, -, -, -, h⟩ :=
      cdpLiquidateHandler_ok h
    exact .liquidate ⟨_, _, .inl rfl⟩ h
  | cdpLiquidateV2 =>
    obtain ⟨l, cc, price, debt, p', burned, seized, -, -, -, -, -, h⟩ :=
      cdpLiquidateV2Handler_ok h
    exact .liquidate ⟨_, _, .inr rfl⟩ h
  | collectStabilityFee =>
    obtain ⟨c, hc, hrun, haccrued, hbooks⟩ := collectStabilityFeeHandler_ok h
    exact .collect hc hrun haccrued hbooks
  | depositCollateral => exact .quiet (depositCollateralHandler_ok h)
  | redeem => exact .of_retired (redeemHandler_ok h)
  | initPsmCurveConfig => exact .quiet (initPsmCurveConfigHandler_ok h)
  | updatePsmCurveConfig => exact .quiet (updatePsmCurveConfigHandler_ok h)
  | psmDynamicSwap =>
    obtain ⟨c, h, hrun, hframe⟩ := psmDynamicSwapHandler_ok h
    exact .retire h hframe (.inl hrun)
  | seedRedemptionPool => exact .quiet (seedRedemptionPoolHandler_ok h)
  | instantRedemption =>
    obtain ⟨c, hc, hk, hrun, htokens, hconfigs, hframe⟩ := instantRedemptionHandler_ok h
    exact .redeemInstantly hc hk hrun htokens hconfigs hframe
  | replenishRedemptionPool => exact .quiet (replenishRedemptionPoolHandler_ok h)
  | drainRedemptionPool => exact .quiet (drainRedemptionPoolHandler_ok h)
  | initRedemptionQueue =>
    obtain ⟨c, rq, h⟩ := initRedemptionQueueHandler_ok h
    exact .aside (.requeue h)
  | updateRedemptionQueue =>
    obtain ⟨c, rq, h⟩ := updateRedemptionQueueHandler_ok h
    exact .aside (.requeue h)
  | enqueueRedemption =>
    obtain ⟨c, rq, h⟩ := enqueueRedemptionHandler_ok h
    exact .aside (.enqueue h)
  | processRedemption =>
    obtain ⟨c, rq, re, hhead, h⟩ := processRedemptionHandler_ok h
    exact .process hhead h
  | cancelRedemption =>
    obtain ⟨c, rq, re, h⟩ := cancelRedemptionHandler_ok h
    exact .aside (.refund h)
  | compactRedemptionHead =>
    obtain ⟨c, rq, h⟩ := compactRedemptionHeadHandler_ok h
    exact .aside (.requeue h)
  | registerRedemptionPool => exact .quiet (registerRedemptionPoolHandler_ok h)
  | requestRedemption => exact .quiet (requestRedemptionHandler_ok h)
  | fulfillRedemption =>
    obtain ⟨c, rr, -, -, h, hframe⟩ := fulfillRedemptionHandler_ok h
    exact .retire h hframe (.inr ⟨clock, _, rfl⟩)
  | claimExpiredRedemption => exact .quiet (claimExpiredRedemptionHandler_ok h)
  | updateRoles =>
    rcases updateRolesHandler_ok h with rfl | h
    · exact .quiet (.of_eq rfl rfl ⟨rfl, rfl, rfl⟩)
    · exact .of_governed h
  | acceptAuthority => exact .of_governed (acceptAuthorityHandler_ok h)
  | acceptComplianceAuthority => exact .of_governed (acceptComplianceAuthorityHandler_ok h)
  | proposeAuthorityRotation => exact .quiet (proposeAuthorityRotationHandler_ok h)
  | acceptAuthorityRotation => exact .of_governed (TakeOver.complete_ok (.inl rfl) h)
  | emergencyRecoverAuthority => exact .of_governed (TakeOver.complete_ok (.inr rfl) h)
  | cancelAuthorityRotation => exact .quiet (cancelAuthorityRotationHandler_ok h)
  | initSquadsAuthority => exact .of_governed (initSquadsAuthorityHandler_ok h)
  | migrateConfig => exact .quiet (migrateConfigHandler_ok h)
  | initCredentialRegistry =>
    exact .aside (.certify (initCredentialRegistryHandler_ok h))
  | rotateCredentialRoot => exact .aside (.certify (rotateCredentialRootHandler_ok h))
  | verifyZkCredential => exact .aside (.certify (verifyZkCredentialHandler_ok h))
  | revokeCredential => exact .aside (.certify (revokeCredentialHandler_ok h))
  | closeCredentialRecord => exact .aside (.certify (closeCredentialRecordHandler_ok h))
  | setWalletRateLimit => exact .quiet (setWalletRateLimitHandler_ok h)
  | removeWalletRateLimit => exact .quiet (removeWalletRateLimitHandler_ok h)
  | updateWalletRateLimit => exact .quiet (updateWalletRateLimitHandler_ok h)
  | initKeeperConfig => exact .quiet (initKeeperConfigHandler_ok h)
  | crankCircuitBreaker => exact .quiet (crankCircuitBreakerHandler_ok h)
  | crankUnpause => exact .quiet (crankUnpauseHandler_ok h)
  | blacklistAddAndFreeze => exact .aside (.list (blacklistAddAndFreezeHandler_ok h))
  | transferHook => exact .quiet (transferHookHandler_ok h)
  | initializeExtraAccountMetaList =>
    exact .aside (.list (initializeExtraAccountMetaListHandler_ok h))
  | migrateHookExtraAccounts => exact .aside (.list (migrateHookExtraAccountsHandler_ok h))
  | blacklistAdd => exact .aside (.list (blacklistAddHandler_ok h))
  | blacklistRemove => exact .aside (.list (blacklistRemoveHandler_ok h))
  | setSpendLimit => exact .quiet (setSpendLimitHandler_ok h)
  | clearSpendLimit => exact .quiet (clearSpendLimitHandler_ok h)
  | setTravelRuleThreshold => exact .quiet (setTravelRuleThresholdHandler_ok h)
  | setSanctionsOracle => exact .quiet (setSanctionsOracleHandler_ok h)
  | clearSanctionsOracle => exact .quiet (clearSanctionsOracleHandler_ok h)
  | initZkCompliance => exact .quiet (initZkComplianceHandler_ok h)
  | submitZkProof => exact .quiet (submitZkProofHandler_ok h)
  | registerLegalEntity => exact .quiet (registerLegalEntity_ok h)
  | initPidConfig => exact .quiet (initPidConfigHandler_ok h)
  | updateStabilityFeePid => exact .quiet (updateStabilityFeePidHandler_ok h)
  | setPsmFee => exact .quiet (setPsmFeeHandler_ok h)
  | initLiquidationBonusConfig => exact .quiet (initLiquidationBonusConfigHandler_ok h)
  | initYieldCollateral => exact .quiet (initYieldCollateralHandler_ok h)
  | setUpgradeAuthorityGuard => exact .quiet (setUpgradeAuthorityGuardHandler_ok h)
  | initDaoCommittee => exact .quiet (initDaoCommitteeHandler_ok h)
  | executeAction => exact .quiet (executeActionHandler_ok h)
  | guardianProposePause => exact .quiet (guardianProposePauseHandler_ok h)
  | guardianVotePause => exact .quiet (guardianVotePauseHandler_ok h)
  | guardianLiftPause => exact .quiet (guardianLiftPauseHandler_ok h)
  | setBackstopParams => exact .quiet (setBackstopParamsHandler_ok h)
  | triggerBackstop => exact absurd h triggerBackstopHandler_ne_ok
  | initInsuranceVault => exact .quiet (initInsuranceVaultHandler_ok h)
  | seedInsuranceVault | replenishInsuranceVault => exact .quiet (seedInsuranceVaultHandler_ok h)
  | drawInsurance => exact .quiet (drawInsuranceHandler_ok h)
  | initOracleConsensus => exact .quiet (initOracleConsensusHandler_ok h)
  | commitProbabilistic => exact .aside (.escrow (commitProbabilisticHandler_ok h))
  | proveAndResolve => exact .aside (.escrow (proveAndResolveHandler_ok h))
  | partialResolve => exact .aside (.escrow (partialResolveHandler_ok h))
  | expireAndRefund => exact .aside (.escrow (expireAndRefundHandler_ok h))
  | openChannel => exact .aside (.escrow (openChannelHandler_ok h))
  | submitWorkProof => exact .aside (.escrow (submitWorkProofHandler_ok h))
  | proposeSettle => exact .aside (.escrow (proposeSettleHandler_ok h))
  | countersignSettle => exact .aside (.escrow (countersignSettleHandler_ok h))
  | dispute => exact .aside (.escrow (disputeHandler_ok h))
  | forceClose => exact .aside (.escrow (forceCloseHandler_ok h))
  | resolveDispute => exact .aside (.escrow (resolveDisputeHandler_ok h))
  | _ => exact .quiet (Instruction.quiet_of_files rfl _ h)

theorem World.exec_step {w : World} (h : w.exec rt s = .ok s') : Step rt s (.world w) s' := by
  cases w with
  | createMint mint m =>
    simp [World.exec] at h
    obtain ⟨t, ht, rfl⟩ := h
    exact .createMint (rt.token.initializeMint_ok ht) rfl ⟨rfl, rfl, rfl⟩
  | createAccount account mint owner =>
    simp [World.exec] at h
    obtain ⟨t, ht, rfl⟩ := h
    have hmoves : s.tokens.Moves t :=
      .single (.initializeAccount (rt.token.initializeAccount_ok ht))
    exact .quiet (.of_moves hmoves rfl ⟨rfl, rfl, rfl⟩)
  | mintTo authority mint dst n =>
    simp [World.exec] at h
    obtain ⟨t, ht, rfl⟩ := h
    exact .mintElsewhere (rt.token.mintTo_ok ht) rfl ⟨rfl, rfl, rfl⟩
  | transfer owner src mint dst n =>
    simp [World.exec] at h
    obtain ⟨b, -, -, t, ht, rfl⟩ := h
    have hmoves : s.tokens.Moves t := .of_transfer owner.isCustodian ht
    exact .quiet (.of_moves hmoves rfl ⟨rfl, rfl, rfl⟩)
  | approve owner account delegate n =>
    simp [World.exec] at h
    obtain ⟨t, ht, rfl⟩ := h
    have hmoves : s.tokens.Moves t :=
      .single (.approve owner.isCustodian (rt.token.approve_ok ht))
    exact .quiet (.of_moves hmoves rfl ⟨rfl, rfl, rfl⟩)
  | publishPythPrice | forgePriceFeed | writeAccount =>
    cases h
    exact .quiet (.of_eq rfl rfl ⟨rfl, rfl, rfl⟩)
  | setAccountOwner owner account newOwner =>
    simp [World.exec] at h
    obtain ⟨t, ht, rfl⟩ := h
    exact .aside (.handOver (rt.token.setAccountOwner_ok ht))

/-- What a successful transaction can do. -/
theorem exec_step {a : Action} (h : Action.exec rt s a = .ok s') : Step rt s a s' := by
  cases a with
  | call clock i => exact Instruction.exec_step h
  | world w => exact World.exec_step h

/-! ## What a step does to tokens, configs and positions -/

theorem Tokens.Reduces.changes {t t' : Tokens} {mint : Pubkey} {n : UInt64}
    (h : t.Reduces mint n t') : t.Changes t' := by
  obtain ⟨t₁, t₂, src, authority, h₁, -, hburn, h₂⟩ := h
  exact (h₁.shifts.changes.tail (.burn hburn)).trans h₂.shifts.changes

/-- Whatever happens to tokens is a run of the token program. -/
theorem Step.changes {a : Action} (h : Step rt s a s') : s.tokens.Changes s'.tokens := by
  cases h with
  | quiet h => exact h.loose.tokens.changes
  | aside h => exact h.loose.tokens.changes
  | createMint h => exact .single (.initializeMint h)
  | initializeStablecoin h =>
    obtain ⟨m, -, -, -, hm⟩ := h.created
    exact .single (.initializeMint hm)
  | mintElsewhere h => exact .single (.mintTo h)
  | issue h => exact .single (.mintTo h.tokens)
  | retire h => exact h.tokens.reduces.changes
  | redeemInstantly _ _ _ h => exact h.reduces.changes
  | process _ h => exact (h.tokens.reduces rfl).changes
  | deposit h => exact .single (.transfer rt.token.transferFee_le h.tokens)
  | borrow h => exact .single (.mintTo h.tokens)
  | repay h =>
    obtain ⟨total, t, -, -, hburn, ⟨-, htransfer⟩ | ⟨-, htokens⟩⟩ := h.burned
    · exact .tail (.single (.burn hburn)) (.transfer rt.token.transferFee_le htransfer)
    · rw [htokens]
      exact .single (.burn hburn)
  | liquidate _ h =>
    obtain ⟨t, hburn, htransfer⟩ := h.tokens
    exact .tail (.single (.burn hburn)) (.transfer rt.token.transferFee_le htransfer)
  | collect _ _ _ h =>
    rcases h with ⟨ht, -⟩ | ⟨n, h⟩
    · rw [ht]
    · exact h.tokens.reduces.changes

/-- All terms stay, the counters of one config move, or a config is created. -/
inductive ConfigsChange (s s' : State) : Prop where
  | terms (h : SameTerms s s')
  | posted {c : StablecoinConfig} {mint : Pubkey} {i r : Nat} (h : Posted s c mint i r s')
  | initialized {mint : Pubkey} (h : Initialized s mint s')

theorem Step.configs {a : Action} (h : Step rt s a s') : ConfigsChange s s' := by
  cases h with
  | quiet h => exact .terms h.terms
  | aside h => exact .terms h.loose.terms
  | createMint _ h | mintElsewhere _ h => exact .terms (.of_eq h)
  | initializeStablecoin h => exact .initialized h
  | issue h => exact .posted h.toPosted
  | retire h => exact .posted h.toPosted
  | redeemInstantly _ _ _ _ h => exact .terms (.of_eq h)
  | process _ h => exact .posted h.toPosted
  | deposit h => exact .terms (.of_eq h.configs)
  | borrow h => exact .posted h.toPosted
  | repay h =>
    obtain ⟨total, t, -, hposted, -⟩ := h.burned
    exact .posted hposted
  | liquidate _ h => exact .posted h.toPosted
  | collect _ _ _ h =>
    rcases h with ⟨-, h⟩ | ⟨n, h⟩
    · exact .terms (.of_eq h)
    · exact .posted h.toPosted

theorem Posted.offices {c : StablecoinConfig} {mint : Pubkey} {i r : Nat}
    (h : Posted s c mint i r s') : SameOffices s s' := by
  obtain ⟨c', hput, -, hoffice, -⟩ := h.configs
  exact .of_put h.config hput hoffice

/-- All configs stay in their hands, one is governed, or one is created. -/
inductive OfficesChange (s : State) (a : Action) (s' : State) : Prop where
  | same (h : SameOffices s s')
  | governed {clock : Clock} {i : Instruction} {mint : Pubkey} {c c' : StablecoinConfig}
    (call : a = .call clock i) (h : Governed clock s i s' mint c c')
  | initialized {mint : Pubkey} (h : Initialized s mint s')

theorem Step.offices {a : Action} (h : Step rt s a s') : OfficesChange s a s' := by
  cases h with
  | quiet h => exact .same h.offices
  | aside h =>
    cases h with
    | govern h => exact .governed rfl h
    | thaw => exact .same (.of_eq rfl)
    | enqueue h => exact .same (.of_eq h.configs)
    | refund h => exact .same (.of_eq h.configs)
    | requeue h => exact .same (.of_eq h.configs)
    | certify h => exact .same h.offices
    | list h => exact .same h.offices
    | escrow h => exact .same (.of_eq h.configs)
    | handOver => exact .same (.of_eq rfl)
  | createMint _ h | mintElsewhere _ h => exact .same (.of_eq h)
  | initializeStablecoin h => exact .initialized h
  | issue h => exact .same h.toPosted.offices
  | retire h => exact .same h.toPosted.offices
  | redeemInstantly _ _ _ _ h => exact .same (.of_eq h)
  | process _ h => exact .same h.toPosted.offices
  | deposit h => exact .same (.of_eq h.configs)
  | borrow h => exact .same h.toPosted.offices
  | repay h =>
    obtain ⟨total, t, -, hposted, -⟩ := h.burned
    exact .same hposted.offices
  | liquidate _ h => exact .same h.toPosted.offices
  | collect _ _ _ h =>
    rcases h with ⟨-, h⟩ | ⟨n, h⟩
    · exact .same (.of_eq h)
    · exact .same h.toPosted.offices

/-- The one instruction that governs the config at `k` makes `c'` of it. -/
def GovernedAt (a : Action) (k : Pubkey) (c c' : StablecoinConfig) : Prop :=
  ∃ clock i mint, a = .call clock i ∧ k = .stablecoinConfig mint ∧ Governs clock c i mint c'

/-- Configs stay, and each either stays in its hands or is governed. -/
theorem Step.config_next {a : Action} {k : Pubkey} {c : StablecoinConfig} (h : Step rt s a s')
    (hc : s.configs k = some c) :
    ∃ c', s'.configs k = some c' ∧ (c'.office = c.office ∨ GovernedAt a k c c') := by
  cases h.offices with
  | same h =>
    obtain ⟨c', hc', hoffice⟩ := h.config' hc
    exact ⟨c', hc', .inl hoffice⟩
  | @governed clock i mint c₁ c₁' call h =>
    by_cases hk : k = .stablecoinConfig mint
    · have heq := h.config
      rw [← hk, hc] at heq
      cases heq
      exact ⟨c₁', by rw [h.configs, hk, put_self], .inr ⟨clock, i, mint, call, hk, h.governs⟩⟩
    · exact ⟨c, by rw [h.configs, put_of_ne _ _ hk, hc], .inl rfl⟩
  | @initialized mint h =>
    obtain ⟨c', hput, -⟩ := h.config
    have hne : k ≠ .stablecoinConfig mint := by
      intro hk
      rw [hk, h.free] at hc
      cases hc
    exact ⟨c, by rw [hput, put_of_ne _ _ hne, hc], .inl rfl⟩

/-- A config was there before the step, or it is fresh. -/
theorem Step.config_origin {a : Action} {k : Pubkey} {c' : StablecoinConfig} (h : Step rt s a s')
    (hc' : s'.configs k = some c') :
    (∃ c, s.configs k = some c ∧ (c'.office = c.office ∨ GovernedAt a k c c')) ∨ c'.Fresh := by
  cases hc : s.configs k with
  | some c =>
    obtain ⟨c₁, hc₁, hnext⟩ := h.config_next hc
    rw [hc'] at hc₁
    cases hc₁
    exact .inl ⟨c, rfl, hnext⟩
  | none =>
    cases h.offices with
    | same h =>
      obtain ⟨c, hc₁, -⟩ := h.config hc'
      rw [hc] at hc₁
      cases hc₁
    | governed _ h =>
      rw [h.configs] at hc'
      rcases put_eq_some.mp hc' with ⟨hk, -⟩ | ⟨-, hc'⟩
      · rw [hk, h.config] at hc
        cases hc
      · rw [hc] at hc'
        cases hc'
    | initialized h =>
      obtain ⟨c₁, hput, -, -, -, hfresh⟩ := h.config
      rw [hput] at hc'
      rcases put_eq_some.mp hc' with ⟨-, rfl⟩ | ⟨-, hc'⟩
      · exact .inr hfresh
      · rw [hc] at hc'
        cases hc'

/-- All positions stay, one is rewritten under its lock, or a borrow under an SSS-3 config writes
one. -/
inductive PositionsChange (s s' : State) : Prop where
  | same (h : s'.cdpPositions = s.cdpPositions)
  | rewritten {k : Pubkey} {p p' : CdpPosition} (position : s.cdpPositions k = some p)
    (lock : p.SameLock p') (h : s'.cdpPositions = put s.cdpPositions k p')
  | borrowed {b : CdpBorrowStable} {c : StablecoinConfig} {p' : CdpPosition}
    (config : s.configs (.stablecoinConfig b.sssMint) = some c) (preset : c.preset = 3)
    (owner : p'.owner = if (b.position s).owner = .default then b.user.key
      else (b.position s).owner)
    (h : s'.cdpPositions = put s.cdpPositions (.cdpPosition b.sssMint b.user.key) p')

theorem Step.positions {a : Action} (h : Step rt s a s') : PositionsChange s s' := by
  cases h with
  | quiet h => exact .same h.positions
  | aside h => exact .same h.loose.positions
  | process _ h => exact .same h.positions
  | createMint _ _ frame | mintElsewhere _ _ frame | issue _ _ frame | retire _ frame
  | redeemInstantly _ _ _ _ _ frame => exact .same frame.positions
  | initializeStablecoin h => exact .same h.positions
  | deposit h => exact .same h.positions
  | @borrow _ b _ _ _ _ h =>
    obtain ⟨q, x, htouch, -, hput⟩ := h.positions
    obtain ⟨-, -, hsame, hnew, -⟩ := CdpPosition.touch_ok htouch
    refine .borrowed h.config h.preset ?_ hput
    change q.owner = _
    split
    next hdefault => exact hnew hdefault
    next hne => exact (hsame hne).owner
  | repay h =>
    obtain ⟨x, -, hput⟩ := h.positions
    refine .rewritten h.position ?_ hput
    exact ⟨rfl, rfl, rfl⟩
  | liquidate _ h => exact .rewritten h.position h.sameLock h.positions
  | collect _ _ accrued =>
    rcases accrued.positions with hsame | ⟨p, p', hp, hlock, -, hput⟩
    · exact .same hsame
    · exact .rewritten hp hlock hput

/-! ## Files -/

/-- The files stay, or the transaction is one that writes them. -/
inductive FilesChange (rt : Runtime) (s : State) : Action → State → Prop where
  | same {a : Action} {s' : State} (h : s'.files = s.files) : FilesChange rt s a s'
  | certify {clock : Clock} {i : Instruction} {s' : State} (h : CertifiesFiles clock s i s') :
    FilesChange rt s (.call clock i) s'
  | list {clock : Clock} {i : Instruction} {s' : State} (h : Lists s i s') :
    FilesChange rt s (.call clock i) s'
  | escrow {clock : Clock} {i : Instruction} {s' : State} (h : Disburses rt clock s i s') :
    FilesChange rt s (.call clock i) s'

theorem Step.files {a : Action} (h : Step rt s a s') : FilesChange rt s a s' := by
  have of_records : s'.records = s.records → FilesChange rt s a s' :=
    fun h => .same (congrArg Records.files h)
  cases h with
  | quiet h => exact of_records h.records
  | aside h =>
    cases h with
    | thaw => exact .same rfl
    | govern h => exact of_records h.records
    | enqueue h => exact .same h.files
    | refund h => exact .same h.files
    | requeue h => exact .same h.files
    | certify h => exact .certify h.files
    | list h => exact .list h
    | escrow h => exact .escrow h
    | handOver => exact .same rfl
  | createMint _ _ frame | mintElsewhere _ _ frame | issue _ _ frame | retire _ frame
  | redeemInstantly _ _ _ _ _ frame => exact of_records frame.records
  | initializeStablecoin h => exact of_records h.records
  | process _ h => exact .same h.files
  | deposit h => exact of_records h.records
  | borrow h => exact of_records h.records
  | repay h => exact of_records h.records
  | liquidate _ h => exact of_records h.records
  | collect _ _ h => exact of_records h.records

/-- The accounts of the hook stay, or it wrote them itself. -/
theorem Step.lists {a : Action} (h : Step rt s a s') :
    s'.blacklistStates = s.blacklistStates ∧
        s'.extraAccountMetaLists = s.extraAccountMetaLists ∨
      ∃ clock i, a = .call clock i ∧ Lists s i s' := by
  have of_files {f : Files} (h : s'.files = f) (hb : f.blacklistStates = s.blacklistStates)
      (hm : f.extraAccountMetaLists = s.extraAccountMetaLists) :
      s'.blacklistStates = s.blacklistStates ∧
        s'.extraAccountMetaLists = s.extraAccountMetaLists :=
    ⟨(congrArg Files.blacklistStates h).trans hb,
      (congrArg Files.extraAccountMetaLists h).trans hm⟩
  cases h.files with
  | same h => exact .inl (of_files h rfl rfl)
  | certify h =>
    cases h with
    | registry _ h | credential _ h => exact .inl (of_files h rfl rfl)
  | list h => exact .inr ⟨_, _, rfl, h⟩
  | escrow h => exact .inl (of_files h.files rfl rfl)

/-- The accounts of the escrows stay, or one of their instructions wrote them. -/
theorem Step.escrows {a : Action} (h : Step rt s a s') :
    s'.escrows = s.escrows ∨ ∃ clock i, a = .call clock i ∧ Disburses rt clock s i s' := by
  cases h.files with
  | same h => exact .inl (congrArg Files.escrows h)
  | certify h =>
    cases h with
    | registry _ h | credential _ h => exact .inl (congrArg Files.escrows h)
  | list h => exact .inl h.escrows
  | escrow h => exact .inr ⟨_, _, rfl, h⟩

/-! ## Refusal -/

/-- The call fails, and the state stays as it is. -/
def Refused (rt : Runtime) (clock : Clock) (s : State) (i : Instruction) : Prop :=
  (∃ e, i.exec rt clock s = .error e) ∧ next (Action.exec rt) s (.call clock i) = s

theorem refused_of_not_ok {i : Instruction} (h : ∀ s', i.exec rt clock s ≠ .ok s') :
    Refused rt clock s i := by
  cases hexec : i.exec rt clock s with
  | ok s' => exact absurd hexec (h s')
  | error e => exact ⟨⟨e, hexec⟩, next_of_error (a := Action.call clock i) hexec⟩

theorem Refused.isOk {i : Instruction} (h : Refused rt clock s i) :
    (i.exec rt clock s).isOk = false := by
  obtain ⟨⟨e, he⟩, -⟩ := h
  rw [he]
  rfl

end SolanaStablecoin
