import SolanaStablecoin.Verify.Admin

/-! The instructions that set parameters, keep compliance records, hold votes and fill the
insurance vault are quiet. -/

namespace SolanaStablecoin

variable {rt : Runtime} {clock : Clock} {s s' : State} {c : StablecoinConfig} {n : UInt64}

/-! ## Compliance -/

theorem setSpendLimitHandler_ok {a : AuthorityAndMint} (h : setSpendLimitHandler s a n = .ok s') :
    Quiet s s' := by
  simp [setSpendLimitHandler] at h
  obtain ⟨c, ⟨hc, -⟩, -, -, -, rfl⟩ := h
  exact .of_put hc rfl rfl rfl rfl ⟨rfl, rfl, rfl⟩

theorem clearSpendLimitHandler_ok {a : AuthorityAndMint}
    (h : clearSpendLimitHandler s a = .ok s') : Quiet s s' := by
  simp [clearSpendLimitHandler] at h
  obtain ⟨c, ⟨hc, -⟩, -, -, rfl⟩ := h
  exact .of_put hc rfl rfl rfl rfl ⟨rfl, rfl, rfl⟩

theorem setTravelRuleThresholdHandler_ok {a : AuthorityAndConfig}
    (h : setTravelRuleThresholdHandler s a n = .ok s') : Quiet s s' := by
  simp [setTravelRuleThresholdHandler] at h
  obtain ⟨c, ⟨hc, -⟩, -, -, -, rfl⟩ := h
  exact .of_put hc rfl rfl rfl rfl ⟨rfl, rfl, rfl⟩

theorem setSanctionsOracleHandler_ok {a : AuthorityAndConfig} {oracle : Pubkey}
    (h : setSanctionsOracleHandler s a oracle n = .ok s') : Quiet s s' := by
  simp [setSanctionsOracleHandler] at h
  obtain ⟨c, ⟨hc, -⟩, -, -, rfl⟩ := h
  exact .of_put hc rfl rfl rfl rfl ⟨rfl, rfl, rfl⟩

theorem clearSanctionsOracleHandler_ok {a : AuthorityAndConfig}
    (h : clearSanctionsOracleHandler s a = .ok s') : Quiet s s' := by
  simp [clearSanctionsOracleHandler] at h
  obtain ⟨c, ⟨hc, -⟩, -, rfl⟩ := h
  exact .of_put hc rfl rfl rfl rfl ⟨rfl, rfl, rfl⟩

theorem initZkComplianceHandler_ok {a : AuthorityAndMint} {verifier : Option Pubkey}
    (h : initZkComplianceHandler s a n verifier = .ok s') : Quiet s s' := by
  simp [initZkComplianceHandler] at h
  obtain ⟨c, ⟨hc, -⟩, -, -, -, rfl⟩ := h
  exact .of_put hc rfl rfl rfl rfl ⟨rfl, rfl, rfl⟩

theorem submitZkProofHandler_ok {a : SubmitZkProof}
    (h : submitZkProofHandler rt clock s a = .ok s') : Quiet s s' := by
  simp [submitZkProofHandler] at h
  obtain ⟨c, -, -, zk, -, -, rfl⟩ := h
  exact .of_eq rfl rfl ⟨rfl, rfl, rfl⟩

theorem registerLegalEntity_ok {a : AuthorityAndConfig} {p : LegalEntityParams}
    (h : registerLegalEntity clock s a p = .ok s') : Quiet s s' := by
  simp [registerLegalEntity] at h
  obtain ⟨c, ⟨hc, -⟩, -, -, rfl⟩ := h
  exact .of_put hc rfl rfl rfl rfl ⟨rfl, rfl, rfl⟩

/-! ## Parameters -/

theorem initPidConfigHandler_ok {a : AuthorityAndConfig} {p : InitPidConfigParams}
    (h : initPidConfigHandler clock s a p = .ok s') : Quiet s s' := by
  simp [initPidConfigHandler] at h
  obtain ⟨c, ⟨hc, -⟩, -, -, -, rfl⟩ := h
  exact .of_put hc rfl rfl rfl rfl ⟨rfl, rfl, rfl⟩

theorem updateStabilityFeePidHandler_ok {a : UpdateStabilityFeePid}
    (h : updateStabilityFeePidHandler clock s a n = .ok s') : Quiet s s' := by
  simp [updateStabilityFeePidHandler] at h
  obtain ⟨c, ⟨hc, -⟩, pid, -, -, -, -, -, rfl⟩ := h
  exact .of_put hc rfl rfl rfl rfl ⟨rfl, rfl, rfl⟩

theorem setPsmFeeHandler_ok {a : AuthorityAndMint} {fee : UInt16}
    (h : setPsmFeeHandler s a fee = .ok s') : Quiet s s' := by
  simp [setPsmFeeHandler] at h
  obtain ⟨c, ⟨hc, -⟩, -, -, -, -, rfl⟩ := h
  exact .of_put hc rfl rfl rfl rfl ⟨rfl, rfl, rfl⟩

theorem initLiquidationBonusConfigHandler_ok {a : AuthorityAndConfig} {p : LiquidationBonusParams}
    (h : initLiquidationBonusConfigHandler s a p = .ok s') : Quiet s s' := by
  simp [initLiquidationBonusConfigHandler] at h
  obtain ⟨c, ⟨hc, -⟩, -, -, -, rfl⟩ := h
  exact .of_put hc rfl rfl rfl rfl ⟨rfl, rfl, rfl⟩

theorem initYieldCollateralHandler_ok {a : AuthorityAndMint} {mints : List Pubkey}
    (h : initYieldCollateralHandler s a mints = .ok s') : Quiet s s' := by
  simp [initYieldCollateralHandler] at h
  obtain ⟨c, ⟨hc, -⟩, -, -, -, -, rfl⟩ := h
  exact .of_put hc rfl rfl rfl rfl ⟨rfl, rfl, rfl⟩

theorem setUpgradeAuthorityGuardHandler_ok {a : AuthorityAndConfig} {authority : Pubkey}
    (h : setUpgradeAuthorityGuardHandler s a authority = .ok s') : Quiet s s' := by
  simp [setUpgradeAuthorityGuardHandler] at h
  obtain ⟨c, ⟨hc, -⟩, -, -, -, -, rfl⟩ := h
  exact .of_put hc rfl rfl rfl rfl ⟨rfl, rfl, rfl⟩

theorem initOracleConsensusHandler_ok {a : AuthorityAndMint} {min : UInt8} {outlier : UInt16}
    (h : initOracleConsensusHandler s a min outlier n = .ok s') : Quiet s s' := by
  simp [initOracleConsensusHandler] at h
  obtain ⟨c, ⟨hc, -⟩, -, -, -, -, rfl⟩ := h
  exact .of_put hc rfl rfl rfl rfl ⟨rfl, rfl, rfl⟩

/-! ## Governance -/

theorem initDaoCommitteeHandler_ok {a : AuthorityAndMint} {members : List Pubkey} {quorum : UInt8}
    (h : initDaoCommitteeHandler s a members quorum = .ok s') : Quiet s s' := by
  simp [initDaoCommitteeHandler] at h
  obtain ⟨c, ⟨hc, -⟩, -, -, -, -, -, -, rfl⟩ := h
  exact .of_put hc rfl rfl rfl rfl ⟨rfl, rfl, rfl⟩

/-- An executed proposal leaves all but the pause and the feature flags. -/
theorem StablecoinConfig.enact_ok {c' : StablecoinConfig} {action : ProposalAction}
    (h : c.enact n action = .ok c') :
    ∃ paused flags, c' = { c with paused := paused, featureFlags := flags } := by
  cases action with
  | pause | unpause | setFeatureFlag =>
    cases h
    exact ⟨_, _, rfl⟩
  | clearFeatureFlag =>
    simp [enact] at h
    obtain ⟨-, -, rfl⟩ := h
    exact ⟨_, _, rfl⟩
  | updateMinter | revokeMinter | drawInsurance =>
    cases h
    exact ⟨_, _, rfl⟩

theorem executeActionHandler_ok {a : CallerAndMint} (h : executeActionHandler s a n = .ok s') :
    Quiet s s' := by
  simp only [executeActionHandler, bind_eq_ok, CallerAndMint.loadCommittee_eq_ok,
    loadConfigOfMint_eq_ok, pure_eq_ok] at h
  obtain ⟨⟨c, d⟩, ⟨⟨hc, -⟩, -⟩, p, -, -, -, -, -, -, -, c', henact, rfl⟩ := h
  obtain ⟨paused, flags, rfl⟩ := StablecoinConfig.enact_ok henact
  exact .of_put hc rfl rfl rfl rfl ⟨rfl, rfl, rfl⟩

theorem CallerAndMint.recordVote_ok {a : CallerAndMint} {gc : GuardianConfig}
    {p : PauseProposal} {reached : Bool} (hc : s.configs (.stablecoinConfig a.mint) = some c)
    (h : a.recordVote clock s c gc p reached = .ok s') : Quiet s s' := by
  cases reached with
  | false =>
    cases h
    exact .of_eq rfl rfl ⟨rfl, rfl, rfl⟩
  | true =>
    simp [recordVote] at h
    obtain ⟨gc', -, rfl⟩ := h
    exact .of_put hc rfl rfl rfl rfl ⟨rfl, rfl, rfl⟩

theorem guardianProposePauseHandler_ok {a : CallerAndMint} {reason : BitVec 256}
    (h : guardianProposePauseHandler clock s a reason = .ok s') : Quiet s s' := by
  simp [guardianProposePauseHandler] at h
  obtain ⟨c, gc, ⟨⟨hc, -⟩, -⟩, -, -, next, -, h⟩ := h
  exact CallerAndMint.recordVote_ok hc h

theorem guardianVotePauseHandler_ok {a : CallerAndMint}
    (h : guardianVotePauseHandler clock s a n = .ok s') : Quiet s s' := by
  simp [guardianVotePauseHandler] at h
  obtain ⟨c, gc, ⟨⟨hc, -⟩, -⟩, p, -, -, -, -, -, h⟩ := h
  exact CallerAndMint.recordVote_ok hc h

theorem guardianLiftPauseHandler_ok {a : CallerAndMint}
    (h : guardianLiftPauseHandler clock s a = .ok s') : Quiet s s' := by
  simp only [guardianLiftPauseHandler, bind_eq_ok, CallerAndMint.loadGuardians_eq_ok,
    loadConfigOfMint_eq_ok] at h
  obtain ⟨⟨c, gc⟩, ⟨⟨hc, -⟩, -⟩, h⟩ := h
  split at h
  · simp only [bind_eq_ok] at h
    obtain ⟨-, -, h⟩ := h
    split at h
    · cases h
      exact .of_put hc rfl rfl rfl rfl ⟨rfl, rfl, rfl⟩
    · cases h
      exact .of_eq rfl rfl ⟨rfl, rfl, rfl⟩
  · simp only [bind_eq_ok, pure_eq_ok] at h
    obtain ⟨-, -, -, -, -, -, rfl⟩ := h
    exact .of_put hc rfl rfl rfl rfl ⟨rfl, rfl, rfl⟩

/-! ## Insurance -/

theorem setBackstopParamsHandler_ok {a : AuthorityAndSssMint} {fund : Pubkey} {bps : UInt16}
    (h : setBackstopParamsHandler s a fund bps = .ok s') : Quiet s s' := by
  simp [setBackstopParamsHandler] at h
  obtain ⟨c, ⟨hc, -⟩, -, -, -, rfl⟩ := h
  exact .of_put hc rfl rfl rfl rfl ⟨rfl, rfl, rfl⟩

/-- The address of a config signs no transaction. -/
theorem triggerBackstopHandler_ne_ok {a : BackstopAccounts} {authority : Signer} {fund : Pubkey} :
    triggerBackstopHandler rt clock s a authority.key fund ≠ .ok s' := by
  intro h
  simp only [triggerBackstopHandler, BackstopAccounts.load, bind_eq_ok, require_eq_ok] at h
  obtain ⟨_, ⟨c, -, -, hsigner, -⟩, -⟩ := h
  exact authority.ne_stablecoinConfig hsigner

theorem initInsuranceVaultHandler_ok {a : AuthorityAndSssMint} {account : Pubkey}
    {seed draw : UInt16} (h : initInsuranceVaultHandler s a account seed draw = .ok s') :
    Quiet s s' := by
  simp [initInsuranceVaultHandler] at h
  obtain ⟨c, ⟨hc, -⟩, _, -, -, -, -, rfl⟩ := h
  exact .of_put hc rfl rfl rfl rfl ⟨rfl, rfl, rfl⟩

theorem seedInsuranceVaultHandler_ok {a : SeedInsuranceVault}
    (h : seedInsuranceVaultHandler rt s a n = .ok s') : Quiet s s' := by
  simp [seedInsuranceVaultHandler] at h
  obtain ⟨c, v, -, _, -, -, -, -, t, ht, balance, -, rfl⟩ := h
  have hmoves : s.tokens.Moves t := .of_transfer a.depositor.isCustodian ht
  exact .of_moves hmoves rfl ⟨rfl, rfl, rfl⟩

theorem drawInsuranceHandler_ok {a : DrawInsurance}
    (h : drawInsuranceHandler rt s a n = .ok s') : Quiet s s' := by
  simp [drawInsuranceHandler] at h
  obtain ⟨c, v, -, -, _, -, -, p, -, -, proposals, -, -, t, ht, balance, -, drawn, -, rfl⟩ := h
  have hmoves : s.tokens.Moves t := .of_transfer rfl ht
  exact .of_moves hmoves rfl ⟨rfl, rfl, rfl⟩

/-! ## Records -/

/-- Instructions that write nothing but a record of their own. -/
def Instruction.files : Instruction → Bool
  | submitTravelRuleRecord .. | closeTravelRuleRecord .. | updateSanctionsRecord ..
  | closeSanctionsRecord .. | closeVerificationRecord .. | attestLegalEntity ..
  | updateLegalEntity .. | setMintVelocityLimit .. | updateLiquidationBonusConfig ..
  | addYieldCollateralMint .. | updateReserveComposition .. | initProofOfReserves ..
  | attestProofOfReserves .. | proposeAction .. | voteAction .. | initGuardianConfig ..
  | setOracleSource .. | removeOracleSource .. | updateOracleConsensus .. => true
  | _ => false

theorem Instruction.quiet_of_files {i : Instruction} (hi : i.files = true) :
    Ensures (i.exec rt clock s) (Quiet s) := by
  cases i with
  | submitTravelRuleRecord | closeTravelRuleRecord | updateSanctionsRecord | closeSanctionsRecord
  | closeVerificationRecord | attestLegalEntity | updateLegalEntity | setMintVelocityLimit
  | updateLiquidationBonusConfig | addYieldCollateralMint | updateReserveComposition
  | initProofOfReserves | attestProofOfReserves | proposeAction | voteAction | initGuardianConfig
  | setOracleSource | removeOracleSource | updateOracleConsensus =>
    change Ensures (_ >>= _) _
    repeat' first
      | with_reducible refine .bind fun _ _ => ?_
      | with_reducible refine .ite (fun _ => ?_) fun _ => ?_
      | exact .pure (.of_eq rfl rfl ⟨rfl, rfl, rfl⟩)
  | _ => cases hi

end SolanaStablecoin
