import SolanaStablecoin.Verify.Footprint

/-! Which transactions write the settings of a config that the timelock guards. -/

namespace SolanaStablecoin

open Transition

/-- What timelocked operations set, the offices and the pause apart. -/
structure Settings where
  featureFlags : UInt64
  maxTransferAmount : UInt64
  expectedPythFeed : Pubkey
  adminTimelockDelay : UInt64
  maxOracleAgeSecs : UInt32
  maxOracleConfBps : UInt16
  stabilityFeeBps : UInt16
  redemptionFeeBps : UInt16
  insuranceFundPubkey : Pubkey
  maxBackstopBps : UInt16
  oracleType : UInt8
  oracleFeed : Pubkey
  minReserveRatioBps : UInt16
  travelRuleThreshold : UInt64
  sanctionsOracle : Pubkey
  sanctionsMaxStalenessSlots : UInt64
deriving DecidableEq

def StablecoinConfig.settings (c : StablecoinConfig) : Settings :=
  { featureFlags := c.featureFlags
    maxTransferAmount := c.maxTransferAmount
    expectedPythFeed := c.expectedPythFeed
    adminTimelockDelay := c.adminTimelockDelay
    maxOracleAgeSecs := c.maxOracleAgeSecs
    maxOracleConfBps := c.maxOracleConfBps
    stabilityFeeBps := c.stabilityFeeBps
    redemptionFeeBps := c.redemptionFeeBps
    insuranceFundPubkey := c.insuranceFundPubkey
    maxBackstopBps := c.maxBackstopBps
    oracleType := c.oracleType
    oracleFeed := c.oracleFeed
    minReserveRatioBps := c.minReserveRatioBps
    travelRuleThreshold := c.travelRuleThreshold
    sanctionsOracle := c.sanctionsOracle
    sanctionsMaxStalenessSlots := c.sanctionsMaxStalenessSlots }

abbrev SameSettings : State → State → Prop := SameConfigs StablecoinConfig.settings

namespace Instruction

/-- What the setters that the timelock closes make of a config. -/
def directly (c : StablecoinConfig) : Instruction → Option StablecoinConfig
  | setFeatureFlag _ flag => some { c with featureFlags := c.featureFlags ||| flag }
  | clearFeatureFlag _ flag => some { c with featureFlags := c.featureFlags &&& ~~~flag }
  | setPythFeed _ feed => some { c with expectedPythFeed := feed }
  | setOracleParams _ age conf =>
    some { c with maxOracleAgeSecs := age, maxOracleConfBps := conf }
  | setStabilityFee _ fee => some { c with stabilityFeeBps := fee }
  | setPsmFee _ fee => some { c with redemptionFeeBps := fee }
  | setBackstopParams _ fund bps =>
    some { c with insuranceFundPubkey := fund, maxBackstopBps := bps }
  | setSpendLimit _ n =>
    some { c with
      maxTransferAmount := n, featureFlags := c.featureFlags ||| flagSpendPolicy }
  | clearSpendLimit _ =>
    some { c with
      maxTransferAmount := 0, featureFlags := c.featureFlags &&& ~~~flagSpendPolicy }
  | setOracleConfig _ oracleType oracleFeed => some { c with oracleType, oracleFeed }
  | setTravelRuleThreshold _ n => some { c with travelRuleThreshold := n }
  | setSanctionsOracle _ oracle n =>
    some { c with
      sanctionsOracle := oracle, sanctionsMaxStalenessSlots := n
      featureFlags := c.featureFlags ||| flagSanctionsOracle }
  | _ => none

/-- The flag that an instruction raises because it creates what the flag switches on. -/
def ownFlag : Instruction → Option UInt64
  | initPidConfig .. => some flagPidFeeControl
  | initZkCompliance .. => some flagZkCompliance
  | registerLegalEntity .. => some flagLegalRegistry
  | initLiquidationBonusConfig .. => some flagGradLiquidationBonus
  | initYieldCollateral .. => some flagYieldCollateral
  | initPsmCurveConfig .. => some flagPsmDynamicFees
  | initInsuranceVault .. => some flagInsuranceVaultRequired
  | initDaoCommittee .. => some flagDaoCommittee
  | initOracleConsensus .. => some flagMultiOracleConsensus
  | initCredentialRegistry .. => some flagZkCredentials
  | initSquadsAuthority .. => some flagSquadsAuthority
  | _ => none

/-- The instruction writes settings. -/
def resets (i : Instruction) : Bool :=
  (i.directly {}).isSome || i.ownFlag.isSome ||
    match i with
    | initializeStablecoin .. | updateStabilityFeePid .. | executeAction ..
    | clearSanctionsOracle .. | executeTimelockedOp .. => true
    | _ => false

end Instruction

variable {rt : Runtime} {clock : Clock} {s s' : State} {k : Pubkey} {c c' : StablecoinConfig}

theorem Instruction.settings_without {i : Instruction} (hi : i.resets = false) :
    (c.without i.fields).settings = c.settings := by
  cases i with
  | _ => first | rfl | cases hi

theorem Instruction.sameSettings {i : Instruction} (hi : i.resets = false) :
    Ensures (i.exec rt clock s) (SameSettings s) := by
  intro s' h
  refine (exec_fields ?_ s' h).of_without fun _ => settings_without hi
  rintro a p rfl
  cases hi

/-! ## Who sets what -/

/-- What an instruction makes of the config at `k`, if it writes settings. -/
inductive Resets (clock : Clock) (s : State) (k : Pubkey) (c : StablecoinConfig) :
    Instruction → StablecoinConfig → Prop where
  /-- The timelock lets setters through while it has no delay. -/
  | direct {i : Instruction} {c' : StablecoinConfig} (sets : i.directly c = some c')
    (delay : c.adminTimelockDelay = 0) : Resets clock s k c i c'
  | own {i : Instruction} {flag : UInt64} {c' : StablecoinConfig} (sets : i.ownFlag = some flag)
    (settings : c'.settings = { c.settings with featureFlags := c.featureFlags ||| flag }) :
    Resets clock s k c i c'
  | control {a : UpdateStabilityFeePid} {price : UInt64} {pid : PidConfig}
    (controller : s.pidConfigs (.pidConfig c.mint) = some pid)
    (flag : c.checkFeatureFlag flagPidFeeControl = true) (range : pid.minFeeBps ≤ pid.maxFeeBps) :
    Resets clock s k c (.updateStabilityFeePid a price)
      { c with stabilityFeeBps := pid.newBps c.stabilityFeeBps (pid.error price) }
  | enact {a : CallerAndMint} {n : UInt64} {p : ProposalPda} {c' : StablecoinConfig}
    (proposal : s.proposals (.daoProposal k n) = some p)
    (quorum : p.quorum.toNat ≤ p.votes.length) (enacts : c.enact p.param p.action = .ok c') :
    Resets clock s k c (.executeAction a n) c'
  | clear {a : AuthorityAndConfig} :
    Resets clock s k c (.clearSanctionsOracle a)
      { c with
        sanctionsOracle := .default, sanctionsMaxStalenessSlots := 0
        featureFlags := c.featureFlags &&& ~~~flagSanctionsOracle }
  | execute {a : AuthorityAndMint} {c' : StablecoinConfig}
    (mature : c.adminOpMatureSlot ≤ clock.slot) (applies : c.applyTimelockedOp = .ok c') :
    Resets clock s k c (.executeTimelockedOp a) c'.clearTimelockedOp

/-- The config at `k` is given settings by the instruction. -/
def ResetBy (clock : Clock) (s : State) (i : Instruction) (s' : State) : Prop :=
  ∃ k c c', s.configs k = some c ∧ s'.configs = put s.configs k c' ∧ Resets clock s k c i c'

namespace Ensures

theorem bind_requireTimelock {n : UInt8} {f : Unit → Result State} {P : State → Prop}
    (h : c.adminTimelockDelay = 0 → Ensures (f ()) P) :
    Ensures (requireTimelockExecuted c n >>= f) P :=
  .bind fun _ hu => h (require_eq_ok.mp hu)

theorem reset_direct {i : Instruction} (hc : s.configs k = some c)
    (h : s'.configs = put s.configs k c') (hdelay : c.adminTimelockDelay = 0)
    (hi : i.directly c = some c') :
    Ensures (pure s' : Result State) (ResetBy clock s i) :=
  .pure ⟨k, c, c', hc, h, .direct hi hdelay⟩

theorem reset_own {i : Instruction} {flag : UInt64} (hc : s.configs k = some c)
    (h : s'.configs = put s.configs k c') (hi : i.ownFlag = some flag)
    (hsettings : c'.settings = { c.settings with featureFlags := c.featureFlags ||| flag }) :
    Ensures (pure s' : Result State) (ResetBy clock s i) :=
  .pure ⟨k, c, c', hc, h, .own hi hsettings⟩

end Ensures

theorem Instruction.direct_ok {i : Instruction} (hi : (i.directly {}).isSome = true) :
    Ensures (i.exec rt clock s) (ResetBy clock s i) := by
  cases i
  all_goals try (cases hi; done)
  all_goals change Ensures (_ >>= _) _
  all_goals repeat' first
    | with_reducible refine Ensures.bind_reads fun _ _ => ?_
    | with_reducible refine Ensures.bind_requireTimelock fun _ => ?_
    | with_reducible refine .bind fun _ _ => ?_
    | ((with_reducible apply Ensures.reset_direct; assumption; rfl; assumption); rfl)

theorem Instruction.own_ok {i : Instruction} (hi : i.ownFlag.isSome = true) :
    Ensures (i.exec rt clock s) (ResetBy clock s i) := by
  cases i
  all_goals try (cases hi; done)
  all_goals change Ensures (_ >>= _) _
  all_goals repeat' first
    | with_reducible refine Ensures.bind_reads fun _ _ => ?_
    | with_reducible refine .bind fun _ _ => ?_
    | ((with_reducible apply Ensures.reset_own; assumption; rfl); rfl; rfl)

theorem updateStabilityFeePidHandler_resets {a : UpdateStabilityFeePid} {price : UInt64} :
    Ensures (updateStabilityFeePidHandler clock s a price)
      (ResetBy clock s (.updateStabilityFeePid a price)) := by
  intro s' h
  simp [updateStabilityFeePidHandler] at h
  obtain ⟨c, ⟨hc, -⟩, pid, hpid, hflag, -, -, hrange, rfl⟩ := h
  exact ⟨a.config, c, _, hc, rfl, .control hpid hflag hrange⟩

theorem executeActionHandler_resets {a : CallerAndMint} {n : UInt64} :
    Ensures (executeActionHandler s a n) (ResetBy clock s (.executeAction a n)) := by
  intro s' h
  simp only [executeActionHandler, bind_eq_ok, CallerAndMint.loadCommittee_eq_ok,
    loadConfigOfMint_eq_ok, load_eq_ok, require_eq_ok, pure_eq_ok] at h
  obtain ⟨⟨c, d⟩, ⟨⟨hc, -⟩, -⟩, p, hp, -, -, -, -, -, hquorum, c', henact, rfl⟩ := h
  exact ⟨a.config, c, c', hc, rfl, .enact hp hquorum henact⟩

theorem clearSanctionsOracleHandler_resets {a : AuthorityAndConfig} :
    Ensures (clearSanctionsOracleHandler s a) (ResetBy clock s (.clearSanctionsOracle a)) :=
  Ensures.bind_reads fun c hc => .bind fun _ _ => .pure ⟨a.config, c, _, hc, rfl, .clear⟩

theorem executeTimelockedOpHandler_resets {a : AuthorityAndMint} :
    Ensures (executeTimelockedOpHandler clock s a)
      (ResetBy clock s (.executeTimelockedOp a)) := by
  refine Ensures.bind_reads fun c hc => .bind fun _ _ => .bind fun _ _ => ?_
  refine .bind fun _ hmature => .bind fun c' hc' => .pure ?_
  exact ⟨a.config, c, _, hc, rfl, .execute (require_eq_ok.mp hmature) hc'⟩

/-- All configs keep their settings, one is given others, or one is created. -/
inductive SettingsChange (s : State) : Action → State → Prop where
  | same {a : Action} {s' : State} (h : SameSettings s s') : SettingsChange s a s'
  | reset {clock : Clock} {i : Instruction} {s' : State} (h : ResetBy clock s i s') :
    SettingsChange s (.call clock i) s'
  | initialized {a : Action} {mint : Pubkey} {s' : State} (h : Initialized s mint s') :
    SettingsChange s a s'

/-- Where no config is created, all keep their settings or one is given others. -/
theorem Instruction.exec_resets {i : Instruction} (hi : ∀ a p, i ≠ .initializeStablecoin a p)
    (h : i.exec rt clock s = .ok s') : SameSettings s s' ∨ ResetBy clock s i s' := by
  cases hset : i.resets with
  | false => exact .inl (Instruction.sameSettings hset s' h)
  | true =>
    right
    cases hdirect : (i.directly {}).isSome with
    | true => exact Instruction.direct_ok hdirect s' h
    | false =>
      cases hown : i.ownFlag.isSome with
      | true => exact Instruction.own_ok hown s' h
      | false =>
        cases i with
        | initializeStablecoin a p => exact absurd rfl (hi a p)
        | updateStabilityFeePid => exact updateStabilityFeePidHandler_resets s' h
        | executeAction => exact executeActionHandler_resets s' h
        | clearSanctionsOracle => exact clearSanctionsOracleHandler_resets s' h
        | executeTimelockedOp => exact executeTimelockedOpHandler_resets s' h
        | _ =>
          first
          | (cases hdirect; done)
          | (cases hown; done)
          | cases hset

theorem Instruction.exec_settings {i : Instruction} (h : i.exec rt clock s = .ok s') :
    SettingsChange s (.call clock i) s' := by
  by_cases hi : ∃ a p, i = .initializeStablecoin a p
  · obtain ⟨a, p, rfl⟩ := hi
    exact .initialized (initializeHandler_ok h)
  · rcases Instruction.exec_resets (fun a p heq => hi ⟨a, p, heq⟩) h with hsame | hreset
    · exact .same hsame
    · exact .reset hreset

/-- Nothing else creates a config. -/
theorem Instruction.config_none {i : Instruction} (hi : ∀ a p, i ≠ .initializeStablecoin a p)
    (h : i.exec rt clock s = .ok s') (hc : s.configs k = none) : s'.configs k = none := by
  rcases Instruction.exec_resets hi h with hsame | ⟨k', c, c', hc', hput, -⟩
  · have hmap := hsame k
    rw [hc, Option.map_none] at hmap
    exact Option.map_eq_none_iff.mp hmap
  · have hk : k ≠ k' := by
      rintro rfl
      rw [hc] at hc'
      cases hc'
    rw [hput, put_of_ne _ _ hk, hc]

/-- Other transactions move tokens, publish prices and write to the accounts of other programs. -/
theorem World.exec_outside {w : World} (h : w.exec rt s = .ok s') :
    ∃ tokens pythPriceFeeds customPriceFeeds otherData,
      s' = { s with tokens, pythPriceFeeds, customPriceFeeds, otherData } := by
  cases w with
  | createMint | createAccount | mintTo | approve | setAccountOwner =>
    simp [World.exec] at h
    obtain ⟨t, -, rfl⟩ := h
    exact ⟨t, s.pythPriceFeeds, s.customPriceFeeds, s.otherData, rfl⟩
  | transfer =>
    simp [World.exec] at h
    obtain ⟨b, -, -, t, -, rfl⟩ := h
    exact ⟨t, s.pythPriceFeeds, s.customPriceFeeds, s.otherData, rfl⟩
  | publishPythPrice | forgePriceFeed | writeAccount =>
    cases h
    exact ⟨s.tokens, _, _, _, rfl⟩

theorem World.exec_configs {w : World} (h : w.exec rt s = .ok s') : s'.configs = s.configs := by
  obtain ⟨t, p, q, d, rfl⟩ := World.exec_outside h
  rfl

theorem exec_settings {a : Action} (h : Action.exec rt s a = .ok s') : SettingsChange s a s' := by
  cases a with
  | call clock i => exact Instruction.exec_settings h
  | world w => exact .same (.of_eq (World.exec_configs h))

end SolanaStablecoin
