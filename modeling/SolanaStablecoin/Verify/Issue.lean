import SolanaStablecoin.Verify.Effects

/-! What minting and burning by minters, market makers and the bridge relayer do when they
succeed. -/

namespace SolanaStablecoin

variable {rt : Runtime} {clock : Clock} {s s' : State} {c : StablecoinConfig} {n : UInt64}

open StablecoinConfig

/-! ## mint and burn -/

theorem mintHandler_ok {a : MintTokens} (h : mintHandler rt clock s a n = .ok s') :
    ∃ c, Issued s c a.mint a.recipientTokenAccount n s' ∧ c.FitsCap n ∧ Frame s s' := by
  simp [mintHandler] at h
  obtain ⟨c, ⟨hc, -, hm⟩, -, -, -, -, -, -, -, hrun, hcb, -, -, ⟨_, hcap⟩, t, ht, x, hx, -, -,
    rfl⟩ := h
  refine ⟨c, ?_, fitsCap_of_checkMaxSupply hcap, rfl, rfl, rfl⟩
  exact { Posted.of_addMinted hc hm hx rfl with
    running := hrun, breaker := hcb, tokens := rt.token.mintTo_ok ht }

/-- The copy loads the accounts in another order and asks for the interface in between. -/
theorem cpiMintHandler_eq_ok {a : MintTokens} {v : UInt8} :
    cpiMintHandler rt clock s a n v = .ok s' ↔
      checkInterface s a.mint v = .ok () ∧ mintHandler rt clock s a n = .ok s' := by
  simp only [cpiMintHandler, mintHandler, bind_eq_ok, loadConfigOfMint_eq_ok, load_eq_ok,
    require_eq_ok, exists_const]
  constructor
  · rintro ⟨c, hc, m, hm, _, hmint, hcm, x, hx, hxm, _, hi, h⟩
    exact ⟨hi, c, ⟨hc, ⟨_, hmint⟩, hcm⟩, m, hm, x, hx, hxm, h⟩
  · rintro ⟨hi, c, ⟨hc, ⟨_, hmint⟩, hcm⟩, m, hm, x, hx, hxm, h⟩
    exact ⟨c, hc, m, hm, _, hmint, hcm, x, hx, hxm, _, hi, h⟩

theorem cpiMintHandler_ok {a : MintTokens} {v : UInt8}
    (h : cpiMintHandler rt clock s a n v = .ok s') : mintHandler rt clock s a n = .ok s' :=
  (cpiMintHandler_eq_ok.1 h).2

theorem burnHandler_ok {a : BurnTokens} (h : burnHandler rt s a n = .ok s') :
    ∃ c, Retired s c a.mint n s' ∧ c.paused = false ∧
      c.featureFlags &&& flagCircuitBreaker = 0 ∧ Frame s s' := by
  simp [burnHandler] at h
  obtain ⟨c, ⟨hc, -, hm⟩, -, -, -, -, -, -, -, hrun, hcb, t, ht, x, hx, rfl⟩ := h
  refine ⟨c, ?_, hrun, hcb, rfl, rfl, rfl⟩
  exact { Posted.of_addBurned hc hm hx rfl with
    tokens := .of_burn a.minter.isCustodian ht }

theorem cpiBurnHandler_eq_ok {a : BurnTokens} {v : UInt8} :
    cpiBurnHandler rt s a n v = .ok s' ↔
      checkInterface s a.mint v = .ok () ∧ burnHandler rt s a n = .ok s' := by
  simp only [cpiBurnHandler, burnHandler, bind_eq_ok, loadConfigOfMint_eq_ok, load_eq_ok,
    require_eq_ok, exists_const]
  constructor
  · rintro ⟨c, hc, m, hm, _, hmint, hcm, x, hx, hxm, hxo, _, hi, h⟩
    exact ⟨hi, c, ⟨hc, ⟨_, hmint⟩, hcm⟩, m, hm, x, hx, hxm, hxo, h⟩
  · rintro ⟨hi, c, ⟨hc, ⟨_, hmint⟩, hcm⟩, m, hm, x, hx, hxm, hxo, h⟩
    exact ⟨c, hc, m, hm, _, hmint, hcm, x, hx, hxm, hxo, _, hi, h⟩

theorem cpiBurnHandler_ok {a : BurnTokens} {v : UInt8}
    (h : cpiBurnHandler rt s a n v = .ok s') : burnHandler rt s a n = .ok s' :=
  (cpiBurnHandler_eq_ok.1 h).2

/-! ## Market makers -/

theorem MmAccounts.check_ok {a : MmAccounts} {mm : MarketMakerConfig}
    (h : a.check rt clock s n = .ok (c, mm)) :
    s.configs (.stablecoinConfig a.mint) = some c ∧ a.mint = c.mint ∧ c.paused = false ∧
      c.featureFlags &&& flagCircuitBreaker = 0 := by
  simp [MmAccounts.check] at h
  obtain ⟨⟨hc, -, hm⟩, hrun, -, _, -, -, -, -, -, hcb, -, -⟩ := h
  exact ⟨hc, hm, hrun, hcb⟩

/-- The capped sum does not saturate, because the counter of what was minted does not. -/
theorem fitsCap_of_getD {x : UInt64} (hx : x.toNat = c.totalMinted.toNat + n.toNat)
    (h : 0 < c.maxSupply →
      (c.netSupply.checkedAdd n).getD (.ofNat (2 ^ 64 - 1)) ≤ c.maxSupply) : c.FitsCap n := by
  apply fitsCap_of_netSupply
  intro hpos
  have hlt : c.netSupply.toNat + n.toNat < 2 ^ 64 := by
    have := x.toNat_lt
    rw [toNat_netSupply]
    omega
  have hsum : c.netSupply.checkedAdd n = some (c.netSupply + n) := by
    rw [UInt64.checkedAdd_eq_some, toNat_add_of_lt hlt]
  have hle := h hpos
  rw [hsum, Option.getD_some] at hle
  exact ⟨_, toNat_add_of_lt hlt, hle⟩

theorem mmMintHandler_ok {a : MmAccounts} (h : mmMintHandler rt clock s a n = .ok s') :
    ∃ c, Issued s c a.mint a.mmTokenAccount n s' ∧ c.FitsCap n ∧ Frame s s' := by
  simp [mmMintHandler] at h
  obtain ⟨c, mm, hcheck, -, -, -, hcap, t, ht, x, hx, rfl⟩ := h
  obtain ⟨hc, hm, hrun, hcb⟩ := MmAccounts.check_ok hcheck
  refine ⟨c, ?_, fitsCap_of_getD hx hcap, rfl, rfl, rfl⟩
  exact { Posted.of_addMinted hc hm hx rfl with
    running := hrun, breaker := hcb, tokens := rt.token.mintTo_ok ht }

theorem mmBurnHandler_ok {a : MmAccounts} (h : mmBurnHandler rt clock s a n = .ok s') :
    ∃ c, Retired s c a.mint n s' ∧ c.paused = false ∧
      c.featureFlags &&& flagCircuitBreaker = 0 ∧ Frame s s' := by
  simp [mmBurnHandler] at h
  obtain ⟨c, mm, hcheck, -, -, -, t, ht, x, hx, rfl⟩ := h
  obtain ⟨hc, hm, hrun, hcb⟩ := MmAccounts.check_ok hcheck
  refine ⟨c, ?_, hrun, hcb, rfl, rfl, rfl⟩
  exact { Posted.of_addBurned hc hm hx rfl with
    tokens := .of_burn a.marketMaker.isCustodian ht }

/-! ## The bridge -/

theorem requireBridge_ok {u : Unit} (h : c.requireBridge n = .ok u) :
    c.paused = false ∧ c.featureFlags &&& flagCircuitBreaker = 0 := by
  simp [requireBridge] at h
  exact ⟨h.2.1, h.2.2.1⟩

theorem bridgeInHandler_ok {a : BridgeTokensIn} {proof : List UInt8} {recipient : Pubkey}
    {id : BitVec 256} (h : bridgeInHandler rt s a proof n recipient id = .ok s') :
    ∃ c, Issued s c a.mint a.recipientTokenAccount n s' ∧ c.FitsCap n ∧ Frame s s' := by
  simp [bridgeInHandler] at h
  obtain ⟨c, ⟨hc, -, hm⟩, bc, -, -, -, _, -, -, ⟨_, hbridge⟩, -, -, -, ⟨_, hcap⟩, -, t, ht, x,
    hx, _, -, rfl⟩ := h
  obtain ⟨hrun, hcb⟩ := requireBridge_ok hbridge
  refine ⟨c, ?_, fitsCap_of_checkMaxSupply hcap, rfl, rfl, rfl⟩
  exact { Posted.of_addMinted hc hm hx rfl with
    running := hrun, breaker := hcb, tokens := rt.token.mintTo_ok ht }

theorem loadBridgeConfig_eq_ok {mint : Pubkey} {bc : BridgeConfig} :
    loadBridgeConfig s mint = .ok bc ↔
      s.bridgeConfigs (.bridgeConfig mint) = some bc ∧ bc.sssMint = mint := by
  rw [loadBridgeConfig, checked_eq_ok, load_eq_ok]

/-- Only what is left after the fee is burned. -/
theorem bridgeOutHandler_ok {a : BridgeTokensOut} (h : bridgeOutHandler rt s a n = .ok s') :
    ∃ c bc, s.bridgeConfigs (.bridgeConfig a.mint) = some bc ∧
      Retired s c a.mint (n - feeOf n bc.bridgeFeeBps) s' ∧ c.paused = false ∧
      c.featureFlags &&& flagCircuitBreaker = 0 ∧ Frame s s' := by
  simp [bridgeOutHandler, loadBridgeConfig_eq_ok] at h
  obtain ⟨c, ⟨hc, -, hm⟩, bc, ⟨hbc, -⟩, _, -, -, -, _, -, -, -, ⟨_, hbridge⟩, -, net, hnet, -, t,
    hfee, t', hburn, x, hx, _, -, rfl⟩ := h
  obtain rfl := UInt64.sub_eq_of_checkedSub hnet
  obtain ⟨hrun, hcb⟩ := requireBridge_ok hbridge
  have hmoves : s.tokens.Moves t := by
    rcases hfee with ⟨_, hfee⟩ | ⟨_, rfl⟩
    · exact .of_transfer a.sender.isCustodian hfee
    · exact .refl
  refine ⟨c, bc, hbc, ?_, hrun, hcb, rfl, rfl, rfl⟩
  exact { Posted.of_addBurned hc hm hx rfl with
    tokens := ⟨t, t', _, _, hmoves, a.sender.isCustodian, rt.token.burn_ok hburn, .refl⟩ }

end SolanaStablecoin
