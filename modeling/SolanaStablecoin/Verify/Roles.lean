import SolanaStablecoin.Verify.Admin

/-! The instructions that change who governs a stablecoin, or what is pending there. Each rewrites
one config, and what it may write is said once. -/

namespace SolanaStablecoin

variable {clock : Clock} {s s' : State} {c c' : StablecoinConfig}

/-- The delay of a proposal: an operation on the compliance authority waits two epochs at
least. -/
def StablecoinConfig.effectiveDelay (c : StablecoinConfig) (opKind : UInt8) : UInt64 :=
  if opKind = adminOpTransferComplianceAuthority then
    max c.adminTimelockDelay defaultAdminTimelockDelay
  else c.adminTimelockDelay

/-- What an instruction makes of the config of a mint. -/
inductive Governs (clock : Clock) (c : StablecoinConfig) :
    Instruction → Pubkey → StablecoinConfig → Prop where
  | propose {a : AuthorityAndMint} {kind : UInt8} {param : UInt64} {target : Pubkey} {x : UInt64}
    (known : kind ≠ adminOpNone) (mature : x.toNat = clock.slot.toNat +
      (c.effectiveDelay kind).toNat) :
    Governs clock c (.proposeTimelockedOp a kind param target) a.mint
      { c with
        adminOpKind := kind, adminOpParam := param, adminOpTarget := target
        adminOpMatureSlot := x }
  | execute {a : AuthorityAndMint} {c' : StablecoinConfig} (pending : c.adminOpKind ≠ adminOpNone)
    (mature : c.adminOpMatureSlot ≤ clock.slot) (apply : c.applyTimelockedOp = .ok c') :
    Governs clock c (.executeTimelockedOp a) a.mint c'.clearTimelockedOp
  | cancel {a : AuthorityAndMint} (pending : c.adminOpKind ≠ adminOpNone) :
    Governs clock c (.cancelTimelockedOp a) a.mint c.clearTimelockedOp
  | updateRoles {a : AuthorityAndMint} {p : UpdateRolesParams} {proposed : Pubkey}
    (delay : c.adminTimelockDelay = 0) :
    Governs clock c (.updateRoles a p) a.mint { c with pendingAuthority := proposed }
  | acceptAuthority {a : AcceptRole} :
    Governs clock c (.acceptAuthority a) a.mint
      { c with authority := c.pendingAuthority, pendingAuthority := .default }
  | acceptComplianceAuthority {a : AcceptRole} (pending : c.pendingComplianceAuthority ≠ .default)
    (signed : c.pendingComplianceAuthority = a.pending.key) :
    Governs clock c (.acceptComplianceAuthority a) a.mint
      { c with
        complianceAuthority := c.pendingComplianceAuthority
        pendingComplianceAuthority := .default }
  | takeOver {a : TakeOver} {i : Instruction} {successor : Pubkey}
    (kind : i = .acceptAuthorityRotation a ∨ i = .emergencyRecoverAuthority a) :
    Governs clock c i a.mint { c with authority := successor, pendingAuthority := .default }
  | initSquads {a : AuthorityAndMint} {p : InitSquadsAuthorityParams}
    (unset : c.squadsMultisig = .default) (set : p.multisigPda ≠ .default) :
    Governs clock c (.initSquadsAuthority a p) a.mint
      { c with
        authority := p.multisigPda, squadsMultisig := p.multisigPda
        preset := presetInstitutional
        featureFlags := c.featureFlags ||| flagSquadsAuthority }

/-- One config is rewritten, and no token moves. -/
structure Governed (clock : Clock) (s : State) (i : Instruction) (s' : State) (mint : Pubkey)
    (c c' : StablecoinConfig) : Prop extends Frame s s' where
  config : s.configs (.stablecoinConfig mint) = some c
  configs : s'.configs = put s.configs (.stablecoinConfig mint) c'
  tokens : s'.tokens = s.tokens
  governs : Governs clock c i mint c'

/-- What the pending operation makes of a config when it is executed. -/
inductive Operates (c : StablecoinConfig) : StablecoinConfig → Prop where
  | transferAuthority (kind : c.adminOpKind = adminOpTransferAuthority)
    (named : c.adminOpTarget ≠ .default) : Operates c { c with pendingAuthority := c.adminOpTarget }
  | setFeatureFlag (kind : c.adminOpKind = adminOpSetFeatureFlag) :
    Operates c { c with featureFlags := c.featureFlags ||| c.adminOpParam }
  | clearFeatureFlag (kind : c.adminOpKind = adminOpClearFeatureFlag)
    (dao : c.adminOpParam &&& flagDaoCommittee = 0)
    (squads : c.adminOpParam &&& flagSquadsAuthority = 0) :
    Operates c { c with featureFlags := c.featureFlags &&& ~~~c.adminOpParam }
  | setPythFeed (kind : c.adminOpKind = adminOpSetPythFeed) :
    Operates c
      { c with
        expectedPythFeed := c.adminOpTarget
        oracleFeed := if c.oracleType = 0 then c.adminOpTarget else c.oracleFeed }
  | setOracleParams (kind : c.adminOpKind = adminOpSetOracleParams) :
    Operates c
      { c with
        maxOracleAgeSecs := (c.adminOpParam >>> 16).toUInt32
        maxOracleConfBps := (c.adminOpParam &&& 0xFFFF).toUInt16 }
  | setStabilityFee (kind : c.adminOpKind = adminOpSetStabilityFee)
    (bound : c.adminOpParam ≤ 10000) :
    Operates c { c with stabilityFeeBps := c.adminOpParam.toUInt16 }
  | setPsmFee (kind : c.adminOpKind = adminOpSetPsmFee) (bound : c.adminOpParam ≤ 1000) :
    Operates c { c with redemptionFeeBps := c.adminOpParam.toUInt16 }
  | setBackstopParams (kind : c.adminOpKind = adminOpSetBackstopParams)
    (bound : c.adminOpParam ≤ 10000) :
    Operates c
      { c with
        insuranceFundPubkey := c.adminOpTarget, maxBackstopBps := c.adminOpParam.toUInt16 }
  | setSpendLimit (kind : c.adminOpKind = adminOpSetSpendLimit) :
    Operates c { c with maxTransferAmount := c.adminOpParam }
  | transferComplianceAuthority (kind : c.adminOpKind = adminOpTransferComplianceAuthority)
    (named : c.adminOpTarget ≠ .default) :
    Operates c { c with pendingComplianceAuthority := c.adminOpTarget }
  | setOracleConfig (kind : c.adminOpKind = adminOpSetOracleConfig)
    (bound : c.adminOpParam.toUInt8 ≤ 2) :
    Operates c { c with oracleType := c.adminOpParam.toUInt8, oracleFeed := c.adminOpTarget }
  | setMinReserveRatio (kind : c.adminOpKind = adminOpSetMinReserveRatio)
    (bound : c.adminOpParam ≤ 20000) :
    Operates c { c with minReserveRatioBps := c.adminOpParam.toUInt16 }
  | setTravelRuleThreshold (kind : c.adminOpKind = adminOpSetTravelRuleThreshold) :
    Operates c { c with travelRuleThreshold := c.adminOpParam }
  | setSanctionsParams (kind : c.adminOpKind = adminOpSetSanctionsParams) :
    Operates c
      { c with
        sanctionsOracle := c.adminOpTarget, sanctionsMaxStalenessSlots := c.adminOpParam }
  | setTimelockDelay (kind : c.adminOpKind = adminOpSetTimelockDelay)
    (bound : 216000 ≤ c.adminOpParam) :
    Operates c { c with adminTimelockDelay := c.adminOpParam }
  | pause (kind : c.adminOpKind = adminOpPause) : Operates c { c with paused := true }

theorem StablecoinConfig.applyTimelockedOp_operates (h : c.applyTimelockedOp = .ok c') :
    Operates c c' := by
  simp only [applyTimelockedOp] at h
  revert h
  -- one goal for each operation, in the order in which the kinds are compared
  repeat' refine ite_ok_cases (fun hop => ?_) fun _ => ?_
  all_goals
    intro h
    simp only [bind_eq_ok, require_eq_ok, pure_eq_ok, exists_const, reduceCtorEq] at h
  · obtain ⟨hnamed, rfl⟩ := h
    exact .transferAuthority hop hnamed
  · obtain rfl := h
    exact .setFeatureFlag hop
  · obtain ⟨hdao, hsquads, rfl⟩ := h
    exact .clearFeatureFlag hop hdao hsquads
  · obtain rfl := h
    exact .setPythFeed hop
  · obtain rfl := h
    exact .setOracleParams hop
  · obtain ⟨hbound, rfl⟩ := h
    exact .setStabilityFee hop hbound
  · obtain ⟨hbound, rfl⟩ := h
    exact .setPsmFee hop hbound
  · obtain ⟨hbound, rfl⟩ := h
    exact .setBackstopParams hop hbound
  · obtain rfl := h
    exact .setSpendLimit hop
  · obtain ⟨hnamed, rfl⟩ := h
    exact .transferComplianceAuthority hop hnamed
  · obtain ⟨hbound, rfl⟩ := h
    exact .setOracleConfig hop hbound
  · obtain ⟨hbound, rfl⟩ := h
    exact .setMinReserveRatio hop hbound
  · obtain rfl := h
    exact .setTravelRuleThreshold hop
  · obtain rfl := h
    exact .setSanctionsParams hop
  · obtain ⟨hbound, rfl⟩ := h
    exact .setTimelockDelay hop hbound
  · obtain rfl := h
    exact .pause hop

/-- No timelocked operation reaches the mint, the cap or the counters. -/
theorem StablecoinConfig.applyTimelockedOp_terms (h : c.applyTimelockedOp = .ok c') :
    c'.terms = c.terms := by
  cases applyTimelockedOp_operates h <;> rfl

/-- Nor does one reach the preset or the multisig. -/
theorem StablecoinConfig.applyTimelockedOp_preset (h : c.applyTimelockedOp = .ok c') :
    c'.preset = c.preset ∧ c'.squadsMultisig = c.squadsMultisig := by
  cases applyTimelockedOp_operates h <;> exact ⟨rfl, rfl⟩

/-- SSS-3 is a preset one leaves and does not enter. -/
theorem Governs.preset {i : Instruction} {mint : Pubkey} (h : Governs clock c i mint c')
    (h₃ : c'.preset = 3) : c.preset = 3 := by
  cases h with
  | execute _ _ happly =>
    exact (StablecoinConfig.applyTimelockedOp_preset happly).1.symm.trans h₃
  | initSquads => cases h₃
  | propose | cancel | updateRoles | acceptAuthority | acceptComplianceAuthority | takeOver =>
    exact h₃

theorem Governs.terms {i : Instruction} {mint : Pubkey} (h : Governs clock c i mint c') :
    c'.terms = c.terms := by
  cases h with
  | execute _ _ happly => exact (StablecoinConfig.applyTimelockedOp_terms happly :)
  | propose | cancel | updateRoles | acceptAuthority | acceptComplianceAuthority | takeOver
  | initSquads => rfl

theorem Governed.loose {i : Instruction} {mint : Pubkey} (h : Governed clock s i s' mint c c') :
    Loose s s' where
  vaults := h.vaults
  positions := h.positions
  tokens := h.tokens ▸ .refl
  terms := .of_put h.config h.configs h.governs.terms

/-! ## Timelocked operations -/

theorem proposeTimelockedOpHandler_ok {a : AuthorityAndMint} {kind : UInt8} {n : UInt64}
    {target : Pubkey} (h : proposeTimelockedOpHandler clock s a kind n target = .ok s') :
    ∃ mint c c', Governed clock s (.proposeTimelockedOp a kind n target) s' mint c c' := by
  simp only [proposeTimelockedOpHandler, bind_eq_ok, AuthorityAndMint.loadConfig_eq_ok,
    require_eq_ok, Option.okOr_eq_ok, UInt64.checkedAdd_eq_some, pure_eq_ok] at h
  obtain ⟨c, ⟨hc, -⟩, -, -, -, -, -, ⟨hkind, -⟩, x, hx, rfl⟩ := h
  exact ⟨a.mint, c, _, ⟨rfl, rfl, rfl⟩, hc, rfl, rfl, .propose hkind hx⟩

theorem executeTimelockedOpHandler_ok {a : AuthorityAndMint}
    (h : executeTimelockedOpHandler clock s a = .ok s') :
    ∃ mint c c', Governed clock s (.executeTimelockedOp a) s' mint c c' := by
  simp [executeTimelockedOpHandler] at h
  obtain ⟨c, ⟨hc, -⟩, -, hpending, hmature, c', hop, rfl⟩ := h
  exact ⟨a.mint, c, _, ⟨rfl, rfl, rfl⟩, hc, rfl, rfl, .execute hpending hmature hop⟩

theorem cancelTimelockedOpHandler_ok {a : AuthorityAndMint}
    (h : cancelTimelockedOpHandler s a = .ok s') :
    ∃ mint c c', Governed clock s (.cancelTimelockedOp a) s' mint c c' := by
  simp [cancelTimelockedOpHandler] at h
  obtain ⟨c, ⟨hc, -⟩, -, hpending, rfl⟩ := h
  exact ⟨a.mint, c, _, ⟨rfl, rfl, rfl⟩, hc, rfl, rfl, .cancel hpending⟩

/-! ## Roles -/

theorem updateRolesHandler_ok {a : AuthorityAndMint} {p : UpdateRolesParams}
    (h : updateRolesHandler s a p = .ok s') :
    s' = s ∨ ∃ mint c c', Governed clock s (.updateRoles a p) s' mint c c' := by
  simp only [updateRolesHandler, bind_eq_ok, AuthorityAndMint.loadConfig_eq_ok,
    require_eq_ok] at h
  obtain ⟨c, ⟨hc, -⟩, -, -, -, -, h⟩ := h
  split at h
  · cases h
    exact .inl rfl
  · simp only [bind_eq_ok, require_eq_ok, pure_eq_ok] at h
    obtain ⟨-, hdelay, rfl⟩ := h
    exact .inr ⟨a.mint, c, _, ⟨rfl, rfl, rfl⟩, hc, rfl, rfl, .updateRoles hdelay⟩

theorem acceptAuthorityHandler_ok {a : AcceptRole} (h : acceptAuthorityHandler s a = .ok s') :
    ∃ mint c c', Governed clock s (.acceptAuthority a) s' mint c c' := by
  simp [acceptAuthorityHandler] at h
  obtain ⟨c, hc, -, -, -, -, rfl⟩ := h
  exact ⟨a.mint, c, _, ⟨rfl, rfl, rfl⟩, hc, rfl, rfl, .acceptAuthority⟩

theorem acceptComplianceAuthorityHandler_ok {a : AcceptRole}
    (h : acceptComplianceAuthorityHandler s a = .ok s') :
    ∃ mint c c', Governed clock s (.acceptComplianceAuthority a) s' mint c c' := by
  simp [acceptComplianceAuthorityHandler] at h
  obtain ⟨c, hc, hpending, hsigned, -, -, rfl⟩ := h
  exact ⟨a.mint, c, _, ⟨rfl, rfl, rfl⟩, hc, rfl, rfl,
    .acceptComplianceAuthority hpending hsigned⟩

theorem TakeOver.complete_ok {a : TakeOver} {named : AuthorityRotationRequest → Pubkey}
    {delay : AuthorityRotationRequest → UInt64} {e : SssError} {i : Instruction}
    (kind : i = .acceptAuthorityRotation a ∨ i = .emergencyRecoverAuthority a)
    (h : a.complete clock s named delay e = .ok s') :
    ∃ mint c c', Governed clock s i s' mint c c' := by
  simp [TakeOver.complete] at h
  obtain ⟨c, hc, req, -, -, -, -, -, -, x, -, -, rfl⟩ := h
  exact ⟨a.mint, c, _, ⟨rfl, rfl, rfl⟩, hc, rfl, rfl, .takeOver kind⟩

theorem initSquadsAuthorityHandler_ok {a : AuthorityAndMint} {p : InitSquadsAuthorityParams}
    (h : initSquadsAuthorityHandler s a p = .ok s') :
    ∃ mint c c', Governed clock s (.initSquadsAuthority a p) s' mint c c' := by
  simp [initSquadsAuthorityHandler, InitSquadsAuthorityParams.check] at h
  obtain ⟨c, hc, -, hunset, -, -, -, hset, -, -, -, -, -, rfl⟩ := h
  exact ⟨a.mint, c, _, ⟨rfl, rfl, rfl⟩, hc, rfl, rfl, .initSquads hunset hset⟩

/-- A rotation that is proposed or given up leaves the config alone. -/
theorem proposeAuthorityRotationHandler_ok {a : AuthorityAndMint} {new backup : Pubkey}
    (h : proposeAuthorityRotationHandler clock s a new backup = .ok s') : Quiet s s' := by
  simp [proposeAuthorityRotationHandler] at h
  obtain ⟨c, -, -, -, -, -, -, -, -, -, -, -, x, -, rfl⟩ := h
  exact .of_eq rfl rfl ⟨rfl, rfl, rfl⟩

theorem cancelAuthorityRotationHandler_ok {a : AuthorityAndMint}
    (h : cancelAuthorityRotationHandler s a = .ok s') : Quiet s s' := by
  simp [cancelAuthorityRotationHandler] at h
  obtain ⟨c, -, -, req, -, -, -, -, -, -, rfl⟩ := h
  exact .of_eq rfl rfl ⟨rfl, rfl, rfl⟩

end SolanaStablecoin
