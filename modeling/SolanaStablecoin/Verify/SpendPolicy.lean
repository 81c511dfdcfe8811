import SolanaStablecoin.Verify.Policy
import SolanaStablecoin.Verify.Succession

/-! The spend policy is a flag and a limit. Under the flag the hook refuses all that is above the
limit, so that a flag without a limit stops every transfer. The setters of the policy write both at
once; the doors for flags and for single settings do not look at the other half. -/

namespace SolanaStablecoin

open Transition

variable {rt : Runtime} {clock : Clock} {s s' : State} {c c' : StablecoinConfig} {a : Action}
  {i : Instruction} {M k : Pubkey} {n flag : UInt64}

/-! ## The two halves -/

namespace StablecoinConfig

/-- The policy is on only with a limit. -/
def Configured (c : StablecoinConfig) : Prop :=
  c.featureFlags &&& flagSpendPolicy ≠ 0 → 0 < c.maxTransferAmount

/-- Raising the flags turns the policy on while there is no limit. -/
def TurnsOn (c : StablecoinConfig) (flag : UInt64) : Prop :=
  flag &&& flagSpendPolicy ≠ 0 ∧ c.maxTransferAmount = 0

/-- The limit is taken away while the policy is on. -/
def Unlimits (c : StablecoinConfig) (n : UInt64) : Prop :=
  n = 0 ∧ c.featureFlags &&& flagSpendPolicy ≠ 0

theorem Configured.of_le (h : c.Configured) (hlimit : c'.maxTransferAmount = c.maxTransferAmount)
    (hflag : c'.featureFlags &&& flagSpendPolicy ≠ 0 → c.featureFlags &&& flagSpendPolicy ≠ 0) :
    c'.Configured := by
  intro hset
  rw [hlimit]
  exact h (hflag hset)

theorem Configured.congr (h : c.Configured) (hsettings : c'.settings = c.settings) :
    c'.Configured := by
  have hflags : c'.featureFlags = c.featureFlags := congrArg Settings.featureFlags hsettings
  exact h.of_le (congrArg Settings.maxTransferAmount hsettings) fun hset => hflags ▸ hset

/-- Flags other than its own leave the policy as it is. -/
theorem Configured.raise (h : c.Configured) (hflags : c'.featureFlags = c.featureFlags ||| flag)
    (hlimit : c'.maxTransferAmount = c.maxTransferAmount) (hflag : flag &&& flagSpendPolicy = 0) :
    c'.Configured := by
  refine h.of_le hlimit fun hset => ?_
  rw [hflags] at hset
  rcases or_and_ne_zero_cases hset with hset | hset
  · exact hset
  · exact absurd hflag hset

theorem Configured.lower (h : c.Configured) (hflags : c'.featureFlags = c.featureFlags &&& ~~~flag)
    (hlimit : c'.maxTransferAmount = c.maxTransferAmount) : c'.Configured := by
  refine h.of_le hlimit fun hset => ?_
  rw [hflags] at hset
  exact and_ne_zero_of_and_not hset

theorem configured_or (h : c.Configured) (hflags : c'.featureFlags = c.featureFlags ||| flag)
    (hlimit : c'.maxTransferAmount = c.maxTransferAmount) :
    c'.Configured ↔ ¬ c.TurnsOn flag := by
  rw [Configured, hflags, hlimit]
  constructor
  · intro hpos hturns
    have hset : (c.featureFlags ||| flag) &&& flagSpendPolicy ≠ 0 := by
      rw [UInt64.or_comm]
      exact or_and_ne_zero hturns.1
    have hlt := hpos hset
    rw [hturns.2] at hlt
    exact absurd hlt (by decide)
  · intro hnot hset
    rcases or_and_ne_zero_cases hset with hset | hset
    · exact h hset
    · exact UInt64.pos_iff_ne_zero.mpr fun hzero => hnot ⟨hset, hzero⟩

theorem configured_limit (hflags : c'.featureFlags = c.featureFlags)
    (hlimit : c'.maxTransferAmount = n) : c'.Configured ↔ ¬ c.Unlimits n := by
  rw [Configured, hflags, hlimit, Unlimits, UInt64.pos_iff_ne_zero]
  constructor
  · intro hpos hunlimits
    exact hpos hunlimits.2 hunlimits.1
  · intro hnot hset hzero
    exact hnot ⟨hzero, hset⟩

end StablecoinConfig

/-- The policy of `M` is on only with a limit. -/
def State.Configured (s : State) (M : Pubkey) : Prop :=
  ∀ c, s.configs (.stablecoinConfig M) = some c → c.Configured

/-- The step gives the policy of `M` one half without the other. -/
def HalfConfigures (M : Pubkey) (s : State) : Action → Prop
  | .call _ (.initializeStablecoin b p) =>
    b.mint.key = M ∧ p.featureFlags.getD 0 &&& flagSpendPolicy ≠ 0
  | .call _ (.setFeatureFlag b flag) =>
    b.mint = M ∧ ∃ c ∈ s.configs (.stablecoinConfig M), c.TurnsOn flag
  | .call _ (.executeTimelockedOp b) =>
    b.mint = M ∧ ∃ c ∈ s.configs (.stablecoinConfig M),
      (c.adminOpKind = adminOpSetFeatureFlag ∧ c.TurnsOn c.adminOpParam) ∨
      (c.adminOpKind = adminOpSetSpendLimit ∧ c.Unlimits c.adminOpParam)
  | .call _ (.executeAction b id) =>
    b.mint = M ∧ ∃ c ∈ s.configs (.stablecoinConfig M),
      ∃ p ∈ s.proposals (.daoProposal (.stablecoinConfig M) id),
        p.action = .setFeatureFlag ∧ c.TurnsOn p.param
  | _ => False

/-! ## Steps -/

theorem State.configured_put (h : s'.configs = put s.configs (.stablecoinConfig M) c') :
    s'.Configured M ↔ c'.Configured := by
  rw [State.Configured, h, put_self]
  simp

theorem State.configured_put_of_ne {mint : Pubkey} (hs : s.Configured M) (hne : mint ≠ M)
    (h : s'.configs = put s.configs (.stablecoinConfig mint) c') : s'.Configured M := by
  intro d hd
  rw [h, put_of_ne _ _ fun heq => hne (Pubkey.stablecoinConfig.inj heq).symm] at hd
  exact hs d hd

/-- What an operation of the timelock leaves of the policy. -/
theorem Operates.configured_iff (h : Operates c c') (hc : c.Configured) :
    c'.Configured ↔ ¬ ((c.adminOpKind = adminOpSetFeatureFlag ∧ c.TurnsOn c.adminOpParam) ∨
      (c.adminOpKind = adminOpSetSpendLimit ∧ c.Unlimits c.adminOpParam)) := by
  have of_other (hflag : c.adminOpKind ≠ adminOpSetFeatureFlag)
      (hlimit : c.adminOpKind ≠ adminOpSetSpendLimit) :
      ¬ ((c.adminOpKind = adminOpSetFeatureFlag ∧ c.TurnsOn c.adminOpParam) ∨
        (c.adminOpKind = adminOpSetSpendLimit ∧ c.Unlimits c.adminOpParam)) := by
    rintro (⟨hkind, -⟩ | ⟨hkind, -⟩)
    · exact hflag hkind
    · exact hlimit hkind
  cases h with
  | setFeatureFlag kind =>
    have hne : adminOpSetFeatureFlag ≠ adminOpSetSpendLimit := by decide
    refine Iff.trans (StablecoinConfig.configured_or hc rfl rfl) (not_congr ?_)
    simp [kind, hne]
  | setSpendLimit kind =>
    have hne : adminOpSetSpendLimit ≠ adminOpSetFeatureFlag := by decide
    refine Iff.trans (StablecoinConfig.configured_limit (c := c) rfl rfl) (not_congr ?_)
    simp [kind, hne]
  | clearFeatureFlag kind =>
    exact iff_of_true (hc.lower rfl rfl)
      (of_other (by rw [kind]; decide) (by rw [kind]; decide))
  | transferAuthority kind | setPythFeed kind | setOracleParams kind | setStabilityFee kind
  | setPsmFee kind | setBackstopParams kind | transferComplianceAuthority kind
  | setOracleConfig kind | setMinReserveRatio kind | setTravelRuleThreshold kind
  | setSanctionsParams kind | setTimelockDelay kind | pause kind =>
    exact iff_of_true (hc.of_le rfl id) (of_other (by rw [kind]; decide) (by rw [kind]; decide))

theorem StablecoinConfig.enact_configured_iff {action : ProposalAction}
    (h : c.enact n action = .ok c') (hc : c.Configured) :
    c'.Configured ↔ ¬ (action = .setFeatureFlag ∧ c.TurnsOn n) := by
  cases action with
  | setFeatureFlag =>
    cases h
    refine Iff.trans (configured_or hc rfl rfl) (not_congr ?_)
    simp
  | clearFeatureFlag =>
    simp only [enact, bind_eq_ok, require_eq_ok, pure_eq_ok] at h
    obtain ⟨-, -, -, -, rfl⟩ := h
    exact iff_of_true (hc.lower rfl rfl) (by simp)
  | pause | unpause | updateMinter | revokeMinter | drawInsurance =>
    cases h
    exact iff_of_true (hc.of_le rfl id) (by simp)

/-- Of the flags that come with what they switch on, none is that of the policy. -/
theorem Instruction.ownFlag_spendPolicy (h : i.ownFlag = some flag) :
    flag &&& flagSpendPolicy = 0 := by
  cases i with
  | initPidConfig | initZkCompliance | registerLegalEntity | initLiquidationBonusConfig
  | initYieldCollateral | initPsmCurveConfig | initInsuranceVault | initDaoCommittee
  | initOracleConsensus | initCredentialRegistry | initSquadsAuthority =>
    cases h
    decide
  | _ => cases h

/-- The instruction may write one half of the policy, or is given a limit. -/
def Instruction.halves : Instruction → Bool
  | setFeatureFlag .. | executeTimelockedOp .. | executeAction .. | setSpendLimit ..
  | initializeStablecoin .. => true
  | _ => false

theorem Resets.configured (h : Resets clock s k c i c') (hi : i.halves = false)
    (hc : c.Configured) : c'.Configured := by
  cases h with
  | direct sets =>
    cases i with
    | setFeatureFlag | setSpendLimit => cases hi
    | clearFeatureFlag =>
      cases sets
      exact hc.lower rfl rfl
    | clearSpendLimit =>
      cases sets
      intro hset
      refine absurd ?_ hset
      change c.featureFlags &&& ~~~flagSpendPolicy &&& flagSpendPolicy = 0
      rw [UInt64.and_assoc]
      exact UInt64.and_zero
    | setSanctionsOracle =>
      cases sets
      exact hc.raise rfl rfl (by decide)
    | setPythFeed | setOracleParams | setStabilityFee | setPsmFee | setBackstopParams
    | setOracleConfig | setTravelRuleThreshold =>
      cases sets
      exact hc.of_le rfl id
    | _ => cases sets
  | own sets settings =>
    exact hc.raise (congrArg Settings.featureFlags settings)
      (congrArg Settings.maxTransferAmount settings) (Instruction.ownFlag_spendPolicy sets)
  | control => exact hc.of_le rfl id
  | enact | execute => cases hi
  | clear => exact hc.lower rfl rfl

theorem setSpendLimitHandler_configured {b : AuthorityAndMint} (hs : s.Configured M)
    (h : setSpendLimitHandler s b n = .ok s') : s'.Configured M := by
  simp only [setSpendLimitHandler, bind_eq_ok, AuthorityAndMint.loadConfig_eq_ok, require_eq_ok,
    pure_eq_ok] at h
  obtain ⟨c, ⟨hc, -⟩, -, -, -, -, -, hpos, rfl⟩ := h
  by_cases hM : b.mint = M
  · subst hM
    exact (State.configured_put rfl).mpr fun _ => hpos
  · exact State.configured_put_of_ne hs hM rfl

/-- A fresh config has no limit. -/
theorem Initialize.fresh_configured {b : Initialize} {p : InitializeParams} :
    (b.fresh rt p).Configured ↔ p.featureFlags.getD 0 &&& flagSpendPolicy = 0 := by
  have hflags : (b.fresh rt p).featureFlags &&& flagSpendPolicy =
      p.featureFlags.getD 0 &&& flagSpendPolicy := by
    simp only [Initialize.fresh]
    split
    next =>
      rw [or_and_distrib_right]
      exact UInt64.or_zero
    next => rfl
  rw [StablecoinConfig.Configured, hflags]
  constructor
  · intro h
    by_contra hset
    exact absurd (h hset) (show ¬ (0 : UInt64) < 0 by decide)
  · intro hzero hset
    exact absurd hzero hset

/-- The others keep the policy whole. -/
theorem Instruction.exec_configured (hs : s.Configured M) (hi : i.halves = false)
    (h : i.exec rt clock s = .ok s') : s'.Configured M := by
  have hnew : ∀ b p, i ≠ .initializeStablecoin b p := by
    rintro b p rfl
    cases hi
  rcases Instruction.exec_resets hnew h with hsame | ⟨k, c, c', hc, hput, hresets⟩
  · intro c' hc'
    obtain ⟨c, hc, hsettings⟩ := hsame.config hc'
    exact (hs c hc).congr hsettings
  · intro d hd
    rw [hput] at hd
    rcases put_eq_some.mp hd with ⟨rfl, rfl⟩ | ⟨-, hd⟩
    · exact hresets.configured hi (hs c hc)
    · exact hs d hd

theorem exec_configured_iff (hs : s.Configured M) (h : a.exec rt s = .ok s') :
    s'.Configured M ↔ ¬ HalfConfigures M s a := by
  cases a with
  | world w =>
    refine iff_of_true (fun c hc => hs c ?_) id
    rwa [← World.exec_configs h]
  | call clock i =>
    change i.exec rt clock s = .ok s' at h
    cases hi : i.halves with
    | false =>
      refine iff_of_true (Instruction.exec_configured hs hi h) ?_
      cases i
      all_goals first
        | exact id
        | cases hi
    | true =>
      cases i
      case setSpendLimit => exact iff_of_true (setSpendLimitHandler_configured hs h) id
      case initializeStablecoin b p =>
        obtain ⟨-, hput, -⟩ := initializeHandler_fresh h
        by_cases hM : b.mint.key = M
        · subst hM
          rw [State.configured_put hput, Initialize.fresh_configured]
          simp [HalfConfigures]
        · exact iff_of_true (State.configured_put_of_ne hs hM hput) fun hhalf => hM hhalf.1
      case setFeatureFlag b flag =>
        obtain ⟨c, hc, -, hput⟩ := setFeatureFlagHandler_sets h
        by_cases hM : b.mint = M
        · subst hM
          rw [State.configured_put hput]
          refine Iff.trans (StablecoinConfig.configured_or (hs c hc) rfl rfl) (not_congr ?_)
          have hc' : s.configs (.stablecoinConfig b.mint) = some c := hc
          simp [HalfConfigures, hc']
        · exact iff_of_true (State.configured_put_of_ne hs hM hput) fun hhalf => hM hhalf.1
      case executeTimelockedOp b =>
        obtain ⟨mint, c, c', hgoverned⟩ := executeTimelockedOpHandler_ok h
        cases hgoverned.governs with
        | @execute _ d _ _ happlies =>
          have hc := hgoverned.config
          by_cases hM : b.mint = M
          · subst hM
            rw [State.configured_put hgoverned.configs]
            refine Iff.trans ((StablecoinConfig.applyTimelockedOp_operates
              happlies).configured_iff (hs c hc)) (not_congr ?_)
            simp [HalfConfigures, hc]
          · exact iff_of_true (State.configured_put_of_ne hs hM hgoverned.configs)
              fun hhalf => hM hhalf.1
        | takeOver kind => rcases kind with kind | kind <;> cases kind
      case executeAction b id =>
        obtain ⟨c, p, c', hc, hp, -, henact, hput, -⟩ := executeActionHandler_enacts h
        by_cases hM : b.mint = M
        · subst hM
          rw [State.configured_put hput]
          refine Iff.trans (StablecoinConfig.enact_configured_iff henact (hs c hc)) (not_congr ?_)
          have hp' : s.proposals (.daoProposal (.stablecoinConfig b.mint) id) = some p := hp
          have hc' : s.configs (.stablecoinConfig b.mint) = some c := hc
          simp [HalfConfigures, hc', hp']
        · exact iff_of_true (State.configured_put_of_ne hs hM hput) fun hhalf => hM hhalf.1
      all_goals cases hi

/-! ## Runs -/

/-- Along a run that begins before the stablecoin, the policy is on only with a limit exactly if no
step gives it one half without the other. -/
theorem spend_policy_configured (rt : Runtime) (M : Pubkey) {s : State}
    (hs : s.configs (.stablecoinConfig M) = none) (as : List Action) :
    (∀ init tail, as = init ++ tail →
      ∀ c, (run rt s init).configs (.stablecoinConfig M) = some c →
        c.featureFlags &&& flagSpendPolicy ≠ 0 → 0 < c.maxTransferAmount) ↔
      Along (Action.exec rt) (fun s a => (a.exec rt s).isOk → ¬ HalfConfigures M s a) s as := by
  have hfirst : s.Configured M := by
    intro c hc
    rw [hs] at hc
    cases hc
  exact forall_prefix_iff_along (I := fun s => s.Configured M) (J := fun _ => True)
    (fun _ _ => trivial) (fun _ hconfigured hexec => exec_configured_iff hconfigured hexec) trivial
    hfirst as

namespace Market

/-- Without a delay the setter is open. -/
def policed : List Action :=
  [ .call (day 0) (.initializeStablecoin
      { payer := authority, mint, tokenProgram := token2022Id }
      { preset := 1, decimals := 6, adminTimelockDelay := some 0 }),
    .call (day 0) (.setSpendLimit asAuthority 50) ]

/-- One operation of the timelock, proposed on day `n` and executed two days later. -/
def operate (kind : UInt8) (param : UInt64) (n : Nat) : List Action :=
  [ .call (day n) (.proposeTimelockedOp asAuthority kind param .default),
    .call (day (n + 2)) (.executeTimelockedOp asAuthority) ]

/-- First a limit of 50, then the flag. -/
def capped : List Action :=
  compliant 0 ++ operate adminOpSetSpendLimit 50 1 ++
    operate adminOpSetFeatureFlag flagSpendPolicy 3

/-- The limit is lifted again. -/
def lifted : List Action := capped ++ operate adminOpSetSpendLimit 0 5

end Market

open Market in
/-- The setter turns the policy on with its limit. -/
theorem spend_policy_configured_policed :
    (∀ init tail, policed = init ++ tail →
      ∀ c, (run localRuntime genesis init).configs config = some c →
        c.featureFlags &&& flagSpendPolicy ≠ 0 → 0 < c.maxTransferAmount) ∧
    ((run localRuntime genesis policed).configs config).any (fun c => decide
      (c.featureFlags &&& flagSpendPolicy ≠ 0 ∧ c.maxTransferAmount = 50)) = true := by
  refine ⟨(spend_policy_configured localRuntime mint.key rfl policed).mpr ⟨fun _ hhalf => ?_,
    fun _ hhalf => hhalf, trivial⟩, by decide +kernel⟩
  exact hhalf.2 (by decide)

open Market in
/-- A limit of nothing is no limit by the words of the operation, and stops every transfer. -/
theorem spend_policy_half :
    Genesis genesis ∧
    ¬ (∀ init tail, lifted = init ++ tail →
      ∀ c, (run localRuntime genesis init).configs (.stablecoinConfig mint.key) = some c →
        c.featureFlags &&& flagSpendPolicy ≠ 0 → 0 < c.maxTransferAmount) ∧
    (transferHookHandler (day 5) (run localRuntime genesis capped) (transferCall placed) 1).isOk =
      true ∧
    (transferHookHandler (day 7) (run localRuntime genesis lifted) (transferCall placed) 1).isOk =
      false := by
  have hend : ((run localRuntime genesis lifted).configs config).any (fun c => decide
      (c.featureFlags &&& flagSpendPolicy ≠ 0 ∧ c.maxTransferAmount = 0)) = true := by
    decide +kernel
  obtain ⟨c, hc, hset⟩ := (Option.any_eq_true ..).mp hend
  obtain ⟨hflag, hzero⟩ := of_decide_eq_true hset
  refine ⟨genesis_genesis, fun h => ?_, by decide +kernel, by decide +kernel⟩
  have hpos := h lifted [] (List.append_nil _).symm c hc hflag
  rw [hzero] at hpos
  exact absurd hpos (by decide)

end SolanaStablecoin
