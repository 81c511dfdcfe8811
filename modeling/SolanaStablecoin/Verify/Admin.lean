import SolanaStablecoin.Verify.Effects

/-! The administrative instructions leave supply, counters, vaults and positions alone. -/

namespace SolanaStablecoin

variable {rt : Runtime} {clock : Clock} {s s' : State} {c c' : StablecoinConfig} {k : Pubkey}
  {a : AuthorityAndMint} {n : UInt64}

/-- A transaction that writes neither configs nor tokens. -/
theorem Quiet.of_eq (htokens : s'.tokens = s.tokens) (hconfigs : s'.configs = s.configs)
    (hframe : Frame s s') : Quiet s s' :=
  { hframe with
    tokens := htokens ▸ .refl
    terms := .of_eq hconfigs
    offices := .of_eq hconfigs }

/-- A transaction that only moves tokens. -/
theorem Quiet.of_moves (htokens : s.tokens.Moves s'.tokens) (hconfigs : s'.configs = s.configs)
    (hframe : Frame s s') : Quiet s s' :=
  { hframe with
    tokens := htokens
    terms := .of_eq hconfigs
    offices := .of_eq hconfigs }

/-- A transaction that rewrites one config and keeps its terms and its office. -/
theorem Quiet.of_put (hc : s.configs k = some c) (hconfigs : s'.configs = put s.configs k c')
    (hterms : c'.terms = c.terms) (hoffice : c'.office = c.office) (htokens : s'.tokens = s.tokens)
    (hframe : Frame s s') : Quiet s s' :=
  { hframe with
    tokens := htokens ▸ .refl
    terms := .of_put hc hconfigs hterms
    offices := .of_put hc hconfigs hoffice }

/-! ## initialize -/

/-- Nothing is pending in a new config, and an SSS-3 one has its multisig. -/
structure StablecoinConfig.Fresh (c : StablecoinConfig) : Prop where
  adminOpKind : c.adminOpKind = adminOpNone
  pendingComplianceAuthority : c.pendingComplianceAuthority = .default
  multisig : c.preset = 3 → c.squadsMultisig ≠ .default
  stabilityFeeBps : c.stabilityFeeBps = 0

/-- A new mint under the authority of a new config with nothing issued. Accounts start frozen, and
no hook is named. -/
structure Initialized (s : State) (mint : Pubkey) (s' : State) : Prop extends Frame s s' where
  free : s.configs (.stablecoinConfig mint) = none
  created : ∃ m, m.mintAuthority = some (.stablecoinConfig mint) ∧ m.permanentDelegate = none ∧
    m.extended = false ∧ s.tokens.InitializesMint mint m s'.tokens
  closed : ∃ m, s'.tokens.mints mint = some m ∧ m.defaultFrozen = true ∧ m.transferHook = none
  config : ∃ c, s'.configs = put s.configs (.stablecoinConfig mint) c ∧ c.mint = mint ∧
    c.totalMinted = 0 ∧ c.totalBurned = 0 ∧ c.Fresh

theorem InitializeParams.multisig_of_check {p : InitializeParams} {u : Unit} (h : p.check = .ok u) :
    p.preset = 3 → p.squadsMultisig.getD .default ≠ .default := by
  simp only [InitializeParams.check, bind_eq_ok, requireWhen_eq_ok, require_eq_ok] at h
  obtain ⟨-, -, -, -, -, h₃, -⟩ := h
  intro hpreset
  obtain ⟨-, -, -, -, -, -, hset⟩ := h₃ hpreset
  exact hset

theorem initializeHandler_ok {a : Initialize} {p : InitializeParams}
    (h : initializeHandler rt s a p = .ok s') : Initialized s a.mint.key s' := by
  simp only [initializeHandler, bind_eq_ok, requireFree_eq_ok, require_eq_ok, Option.okOr_eq_ok,
    pure_eq_ok] at h
  obtain ⟨_, hfree, _, hcheck, -, -, t, ht, -, -, -, -, rfl⟩ := h
  have hmint := rt.token.initializeMint_ok ht
  have hset := hmint.2.2
  refine
    { vaults := rfl
      positions := rfl
      records := rfl
      free := hfree
      created := ⟨_, ?_, ?_, ?_, hmint⟩
      closed := ⟨_, by rw [hset, Tokens.setMint_mints, put_self], ?_, ?_⟩
      config := ⟨_, rfl, ?_, ?_, ?_, ⟨?_, ?_, p.multisig_of_check hcheck, ?_⟩⟩ }
  all_goals rfl

/-- The config that a stablecoin starts with. -/
def Initialize.fresh (a : Initialize) (rt : Runtime) (p : InitializeParams) : StablecoinConfig :=
  { mint := a.mint.key
    authority := a.payer.key
    complianceAuthority := a.payer.key
    preset := p.preset
    transferHookProgram := p.transferHookProgram.getD .default
    collateralMint := p.collateralMint.getD .default
    reserveVault := p.reserveVault.getD .default
    maxSupply := p.maxSupply.getD 0
    adminTimelockDelay := p.adminTimelockDelay.getD defaultAdminTimelockDelay
    squadsMultisig := p.squadsMultisig.getD .default
    featureFlags :=
      if p.squadsMultisig.getD .default ≠ .default then
        p.featureFlags.getD 0 ||| flagSquadsAuthority
      else p.featureFlags.getD 0
    auditorElgamalPubkey :=
      if p.featureFlags.getD 0 &&& flagConfidentialTransfers ≠ 0 then
        p.auditorElgamalPubkey.getD 0
      else 0
    supplyCapLocked := p.preset = 3
    version := currentVersion
    bump := rt.bump (.stablecoinConfig a.mint.key) }

theorem initializeHandler_fresh {a : Initialize} {p : InitializeParams}
    (h : initializeHandler rt s a p = .ok s') :
    s.configs (.stablecoinConfig a.mint.key) = none ∧
      s'.configs = put s.configs (.stablecoinConfig a.mint.key) (a.fresh rt p) ∧
      p.featureFlags.getD 0 &&& flagDaoCommittee = 0 := by
  simp only [initializeHandler, bind_eq_ok, requireFree_eq_ok, require_eq_ok, Option.okOr_eq_ok,
    pure_eq_ok] at h
  obtain ⟨_, hfree, _, -, -, -, t, -, -, -, -, hdao, rfl⟩ := h
  exact ⟨hfree, rfl, hdao⟩

/-! ## Minters, pause and feature flags -/

theorem updateMinterHandler_ok {a : UpdateMinter} (h : updateMinterHandler s a n = .ok s') :
    Quiet s s' := by
  simp [updateMinterHandler] at h
  obtain ⟨c, -, -, -, rfl⟩ := h
  exact .of_eq rfl rfl ⟨rfl, rfl, rfl⟩

theorem revokeMinterHandler_ok {a : UpdateMinter} (h : revokeMinterHandler s a = .ok s') :
    Quiet s s' := by
  simp [revokeMinterHandler] at h
  obtain ⟨c, -, -, -, -, rfl⟩ := h
  exact .of_eq rfl rfl ⟨rfl, rfl, rfl⟩

theorem pauseHandler_ok {paused : Bool} (h : pauseHandler s a paused = .ok s') : Quiet s s' := by
  simp [pauseHandler] at h
  obtain ⟨c, ⟨hc, -⟩, -, -, -, rfl⟩ := h
  exact .of_put hc rfl rfl rfl rfl ⟨rfl, rfl, rfl⟩

theorem setFeatureFlagHandler_ok (h : setFeatureFlagHandler s a n = .ok s') : Quiet s s' := by
  simp [setFeatureFlagHandler] at h
  obtain ⟨c, ⟨hc, -⟩, -, -, -, rfl⟩ := h
  exact .of_put hc rfl rfl rfl rfl ⟨rfl, rfl, rfl⟩

theorem clearFeatureFlagHandler_ok (h : clearFeatureFlagHandler s a n = .ok s') :
    Quiet s s' := by
  simp [clearFeatureFlagHandler] at h
  obtain ⟨c, ⟨hc, -⟩, -, -, -, -, -, rfl⟩ := h
  exact .of_put hc rfl rfl rfl rfl ⟨rfl, rfl, rfl⟩

theorem freezeHandler_ok {a : ComplianceAccounts} (h : freezeHandler rt s a = .ok s') :
    Quiet s s' := by
  simp [freezeHandler] at h
  obtain ⟨-, t, ht, rfl⟩ := h
  exact
    { vaults := rfl
      positions := rfl
      records := rfl
      tokens := .single (.freeze (rt.token.freezeAccount_ok ht))
      terms := .of_eq rfl
      offices := .of_eq rfl }

theorem thawHandler_ok {a : ComplianceAccounts} (h : thawHandler rt s a = .ok s') :
    ∃ t, s.tokens.Thaws a.targetTokenAccount a.mint (.stablecoinConfig a.mint) t ∧
      s' = { s with tokens := t } := by
  simp [thawHandler] at h
  obtain ⟨-, t, ht, rfl⟩ := h
  exact ⟨t, rt.token.thawAccount_ok ht, rfl⟩

/-! ## Price feed and oracle parameters -/

theorem setPythFeedHandler_ok {feed : Pubkey} (h : setPythFeedHandler s a feed = .ok s') :
    Quiet s s' := by
  simp [setPythFeedHandler] at h
  obtain ⟨c, ⟨hc, -⟩, -, rfl⟩ := h
  exact .of_put hc rfl rfl rfl rfl ⟨rfl, rfl, rfl⟩

theorem setOracleParamsHandler_ok {age : UInt32} {conf : UInt16}
    (h : setOracleParamsHandler s a age conf = .ok s') : Quiet s s' := by
  simp [setOracleParamsHandler] at h
  obtain ⟨c, ⟨hc, -⟩, -, rfl⟩ := h
  exact .of_put hc rfl rfl rfl rfl ⟨rfl, rfl, rfl⟩

/-! ## Stability fee parameters -/

theorem setStabilityFeeHandler_ok {a : AuthorityAndConfig} {fee : UInt16}
    (h : setStabilityFeeHandler s a fee = .ok s') : Quiet s s' := by
  simp [setStabilityFeeHandler] at h
  obtain ⟨c, ⟨⟨hc, -⟩, -⟩, -, -, -, rfl⟩ := h
  exact .of_put hc rfl rfl rfl rfl ⟨rfl, rfl, rfl⟩

theorem addAuthorizedKeeperHandler_ok {a : AuthorityAndConfig} {keeper : Pubkey}
    (h : addAuthorizedKeeperHandler s a keeper = .ok s') : Quiet s s' := by
  simp only [addAuthorizedKeeperHandler, bind_eq_ok, AuthorityAndConfig.loadSss3_eq_ok,
    AuthorityAndConfig.loadConfig_eq_ok] at h
  obtain ⟨c, ⟨⟨hc, -⟩, -⟩, -, -, h⟩ := h
  split at h
  · cases h
    exact .of_eq rfl rfl ⟨rfl, rfl, rfl⟩
  · simp at h
    obtain ⟨keepers, -, rfl⟩ := h
    exact .of_put hc rfl rfl rfl rfl ⟨rfl, rfl, rfl⟩

theorem removeAuthorizedKeeperHandler_ok {a : AuthorityAndConfig} {keeper : Pubkey}
    (h : removeAuthorizedKeeperHandler s a keeper = .ok s') : Quiet s s' := by
  simp [removeAuthorizedKeeperHandler] at h
  obtain ⟨c, ⟨⟨hc, -⟩, -⟩, keepers, -, rfl⟩ := h
  exact .of_put hc rfl rfl rfl rfl ⟨rfl, rfl, rfl⟩

/-! ## Oracles and the versioned interface -/

theorem setOracleConfigHandler_ok {type : UInt8} {feed : Pubkey}
    (h : setOracleConfigHandler s a type feed = .ok s') : Quiet s s' := by
  simp [setOracleConfigHandler] at h
  obtain ⟨c, ⟨hc, -⟩, -, -, -, rfl⟩ := h
  exact .of_put hc rfl rfl rfl rfl ⟨rfl, rfl, rfl⟩

theorem initCustomPriceFeedHandler_ok (h : initCustomPriceFeedHandler rt s a = .ok s') :
    Quiet s s' := by
  simp [initCustomPriceFeedHandler] at h
  obtain ⟨c, -, -, -, -, rfl⟩ := h
  exact .of_eq rfl rfl ⟨rfl, rfl, rfl⟩

theorem updateCustomPriceHandler_ok {price : Int64} {expo : Int32} {conf : UInt64}
    (h : updateCustomPriceHandler clock s a price expo conf = .ok s') : Quiet s s' := by
  simp [updateCustomPriceHandler] at h
  obtain ⟨c, -, feed, -, -, -, -, rfl⟩ := h
  exact .of_eq rfl rfl ⟨rfl, rfl, rfl⟩

theorem initInterfaceVersionHandler_ok (h : initInterfaceVersionHandler s a = .ok s') :
    Quiet s s' := by
  simp [initInterfaceVersionHandler] at h
  obtain ⟨c, -, -, -, -, -, rfl⟩ := h
  exact .of_eq rfl rfl ⟨rfl, rfl, rfl⟩

theorem updateInterfaceVersionHandler_ok {a : UpdateInterfaceVersion} {version : Option UInt8}
    {active : Option Bool} (h : updateInterfaceVersionHandler s a version active = .ok s') :
    Quiet s s' := by
  simp [updateInterfaceVersionHandler] at h
  obtain ⟨iv, -, c, -, -, -, -, -, rfl⟩ := h
  exact .of_eq rfl rfl ⟨rfl, rfl, rfl⟩

/-! ## Market makers, bridge, collateral, curve and queue parameters -/

theorem initMarketMakerConfigHandler_ok {mintLimit burnLimit : UInt64} {spread : UInt16}
    (h : initMarketMakerConfigHandler s a mintLimit burnLimit spread = .ok s') : Quiet s s' := by
  simp [initMarketMakerConfigHandler] at h
  obtain ⟨c, -, -, -, -, rfl⟩ := h
  exact .of_eq rfl rfl ⟨rfl, rfl, rfl⟩

theorem registerMarketMakerHandler_ok {mm : Pubkey}
    (h : registerMarketMakerHandler s a mm = .ok s') : Quiet s s' := by
  simp [registerMarketMakerHandler] at h
  obtain ⟨c, -, mmConfig, -, -, -, -, -, -, rfl⟩ := h
  exact .of_eq rfl rfl ⟨rfl, rfl, rfl⟩

theorem initBridgeConfigHandler_ok {type : UInt8} {program vault : Pubkey} {fee : UInt16}
    (h : initBridgeConfigHandler s a type program n fee vault = .ok s') : Quiet s s' := by
  simp [initBridgeConfigHandler] at h
  obtain ⟨c, -, -, -, -, -, -, rfl⟩ := h
  exact .of_eq rfl rfl ⟨rfl, rfl, rfl⟩

theorem registerCollateralHandler_ok {a : CollateralAdmin} {p : CollateralParams}
    (h : registerCollateralHandler s a p = .ok s') : Quiet s s' := by
  simp [registerCollateralHandler] at h
  obtain ⟨-, -, rfl⟩ := h
  exact .of_eq rfl rfl ⟨rfl, rfl, rfl⟩

theorem updateCollateralConfigHandler_ok {a : CollateralAdmin} {p : CollateralParams}
    (h : updateCollateralConfigHandler s a p = .ok s') : Quiet s s' := by
  simp [updateCollateralConfigHandler] at h
  obtain ⟨cc, -, -, -, rfl⟩ := h
  exact .of_eq rfl rfl ⟨rfl, rfl, rfl⟩

theorem initPsmCurveConfigHandler_ok {a : AuthorityAndConfig} {base max : UInt16}
    (h : initPsmCurveConfigHandler s a base n max = .ok s') : Quiet s s' := by
  simp [initPsmCurveConfigHandler] at h
  obtain ⟨c, ⟨⟨hc, -⟩, -⟩, -, -, -, rfl⟩ := h
  exact .of_put hc rfl rfl rfl rfl ⟨rfl, rfl, rfl⟩

theorem updatePsmCurveConfigHandler_ok {a : AuthorityAndConfig} {base max : UInt16}
    (h : updatePsmCurveConfigHandler s a base n max = .ok s') : Quiet s s' := by
  simp [updatePsmCurveConfigHandler] at h
  obtain ⟨c, -, psm, -, -, -, -, rfl⟩ := h
  exact .of_eq rfl rfl ⟨rfl, rfl, rfl⟩

theorem registerRedemptionPoolHandler_ok {a : AuthorityAndConfig} {vault : Pubkey}
    (h : registerRedemptionPoolHandler rt clock s a vault n = .ok s') : Quiet s s' := by
  simp [registerRedemptionPoolHandler] at h
  obtain ⟨c, -, -, -, rfl⟩ := h
  exact .of_eq rfl rfl ⟨rfl, rfl, rfl⟩

end SolanaStablecoin
