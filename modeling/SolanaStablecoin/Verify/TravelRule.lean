import SolanaStablecoin.Verify.Policy

/-! The travel rule. A transfer from the threshold on must come with a record for it; the check that
is written for this is called from nowhere, so that the hook asks for everything else but the
record. -/

namespace SolanaStablecoin

open TransferHook

variable {clock : Clock} {s s' : State} {a : TransferHook} {n : UInt64} {c : StablecoinConfig}
  {bl : BlacklistState} {src dst : Pubkey}

/-! ## Records -/

/-- The verification takes the record for one of this transfer, to some beneficiary. -/
def TravelRuleRecord.Covers (r : TravelRuleRecord) (c : StablecoinConfig) (n : UInt64) : Prop :=
  ∃ vasp, verifyTravelRuleIfRequired c (some r) n vasp = .ok ()

/-- Among the supplied accounts is a record that covers the transfer. -/
def TransferHook.CarriesRecord (s : State) (c : StablecoinConfig) (a : TransferHook)
    (n : UInt64) : Prop :=
  ∃ i ∈ a.extras, ∃ nonce r, i.key = .travelRuleRecord a.mint nonce ∧
    s.travelRuleRecords i.key = some r ∧ r.Covers c n

/-- Whatever accounts are supplied, the transfer is accepted only with a record. -/
def TransferHook.RecordRequired (clock : Clock) (s : State) (c : StablecoinConfig)
    (a : TransferHook) (n : UInt64) : Prop :=
  ∀ extras s', transferHookHandler clock s { a with extras } n = .ok s' →
    CarriesRecord s c { a with extras } n

/-! ## What the hook asks for -/

/-- The accounts that the policies of the hook may ask for. -/
def TransferHook.bare (a : TransferHook) (src : Pubkey) : List AccountInfo :=
  [ .hook .blacklistState a.mint, .stablecoinConfig a.mint, .zkVerification a.mint src,
    .sanctionsRecord a.mint src, .credentialRecord a.mint src, .walletRateLimit a.mint src,
    .stablecoinConfig a.mint, .sssTokenProgram, .transferHookProgram, a.mint,
    .delegateConsent a.mint src ].map ({ key := ·, isWritable := true })

theorem TransferHook.bare_supplies (a : TransferHook) (c : StablecoinConfig) (src : Pubkey)
    (hmetas : a.extraAccountMetaList = .hook .extraAccountMetas a.mint) :
    ∃ remaining, Supplies { a with extras := a.bare src } c src remaining := by
  refine ⟨_, hmetas, ⟨_, _, _, rfl, rfl, rfl, fun _ => rfl⟩, fun _ _ => ⟨_, rfl, rfl⟩, fun _ => ?_,
    fun _ => ⟨?_, ?_, ?_, ?_, ?_⟩, fun _ _ => ?_⟩
  case refine_2 => exact ⟨{ key := .walletRateLimit a.mint src, isWritable := true }, by simp, rfl⟩
  all_goals simp [Supplied]

/-- No account but a record has the address of one. -/
theorem TransferHook.bare_carries_nothing (s : State) (c : StablecoinConfig) (a : TransferHook)
    (n : UInt64) (src : Pubkey) : ¬ CarriesRecord s c { a with extras := a.bare src } n := by
  intro h
  obtain ⟨i, hi, nonce, r, hkey, -⟩ := h
  obtain ⟨k, hk, rfl⟩ := List.mem_map.mp hi
  dsimp only at hkey
  subst hkey
  have hne : Pubkey.travelRuleRecord a.mint nonce ≠ a.mint := fun heq => by
    have hsize := congrArg sizeOf heq
    simp at hsize
    omega
  simp [hne] at hk
  rcases hk with hk | hk <;> cases hk

theorem TransferHook.Complies.accepts_bare (h : Complies clock s a n c bl src dst)
    (hmetas : a.extraAccountMetaList = .hook .extraAccountMetas a.mint) :
    ∃ s', transferHookHandler clock s { a with extras := a.bare src } n = .ok s' := by
  obtain ⟨remaining, hsupplies⟩ := a.bare_supplies c src hmetas
  have hcomplies := h.with_extras (a.bare src)
  by_cases hflag : c.featureFlags &&& flagWalletRateLimits = 0
  · exact ⟨s, transferHookHandler_eq_ok.mpr
      ⟨c, bl, src, dst, remaining, hcomplies, hsupplies, .unlimited hflag⟩⟩
  · obtain ⟨r', hr'⟩ := h.rateLimit hflag
    exact ⟨_, transferHookHandler_eq_ok.mpr
      ⟨c, bl, src, dst, remaining, hcomplies, hsupplies, .limited hflag hr'⟩⟩

/-- Under the travel rule a transfer from the threshold on needs a record exactly if the other
policies of the hook refuse it anyway. -/
theorem travel_rule_required (hc : s.configs (.stablecoinConfig a.mint) = some c) :
    c.checkFeatureFlag flagTravelRule = true → 0 < c.travelRuleThreshold →
      c.travelRuleThreshold ≤ n →
      (RecordRequired clock s c a n ↔
        (a.extraAccountMetaList = .hook .extraAccountMetas a.mint →
          ∀ bl src dst, ¬ Complies clock s a n c bl src dst)) := by
  intro _ _ _
  constructor
  · intro h hmetas bl src dst hcomplies
    obtain ⟨s', hs'⟩ := hcomplies.accepts_bare hmetas
    exact bare_carries_nothing s c a n src (h _ s' hs')
  · intro h extras s' hs'
    obtain ⟨c', bl, src, dst, remaining, hcomplies, hsupplies, -⟩ :=
      transferHookHandler_eq_ok.mp hs'
    have hsame : c' = c := by
      have hc' := hcomplies.config
      rw [hc] at hc'
      exact (Option.some.inj hc').symm
    subst hsame
    exact absurd (hcomplies.with_extras a.extras) (h hsupplies.metas bl src dst)

namespace Market

/-- A stablecoin of preset 2 under the travel rule from 10 on. -/
def ruled : State :=
  run localRuntime genesis (compliant flagTravelRule ++
    [ .call (day 1) (.proposeTimelockedOp asAuthority adminOpSetTravelRuleThreshold 10 .default),
      .call (day 3) (.executeTimelockedOp asAuthority) ])

/-- The user is blacklisted besides. -/
def ruledOut : State := run localRuntime ruled [.call (day 3) (.blacklistAdd asAuthority user.key)]

end Market

open Market in
/-- A blacklisted user sends nothing, and so nothing without a record. -/
theorem travel_rule_required_blacklisted :
    ∃ c, ruledOut.configs config = some c ∧
      RecordRequired (day 3) ruledOut c (transferCall placed) 50 := by
  have hruled : (ruledOut.configs config).any (fun c => decide
      (c.checkFeatureFlag flagTravelRule = true ∧ c.travelRuleThreshold = 10)) = true := by
    decide +kernel
  have hlisted : (ruledOut.blacklistStates (.hook .blacklistState mint.key)).map
      (·.blacklisted) = some [user.key] := by decide +kernel
  have howner : ruledOut.ownerOf userStable.key = some user.key := by decide +kernel
  obtain ⟨c, hc, hset⟩ := (Option.any_eq_true ..).mp hruled
  obtain ⟨hflag, hthreshold⟩ := of_decide_eq_true hset
  refine ⟨c, hc, (travel_rule_required hc hflag (hthreshold ▸ by decide)
    (hthreshold ▸ by decide)).mpr fun _ bl src dst hcomplies => ?_⟩
  have hsrc : user.key = src := Option.some.inj (howner.symm.trans hcomplies.source)
  have hbl := congrArg (Option.map (·.blacklisted)) hcomplies.blacklist
  rw [Option.map_some] at hbl
  have hmem : bl.blacklisted = [user.key] := (Option.some.inj (hlisted.symm.trans hbl)).symm
  refine hcomplies.sender ?_
  rw [hmem, ← hsrc]
  exact List.mem_singleton_self _

open Market in
/-- A transfer of five times the threshold is accepted with no record among its accounts. -/
theorem travel_rule_ignored :
    Genesis genesis ∧ ∃ c, ruled.configs config = some c ∧
      c.checkFeatureFlag flagTravelRule = true ∧ c.travelRuleThreshold = 10 ∧
      ¬ RecordRequired (day 3) ruled c (transferCall placed) 50 := by
  have hruled : (ruled.configs config).any (fun c => decide
      (c.checkFeatureFlag flagTravelRule = true ∧ c.travelRuleThreshold = 10)) = true := by
    decide +kernel
  have haccepted : (transferHookHandler (day 3) ruled (transferCall placed) 50).isOk = true := by
    decide +kernel
  obtain ⟨c, hc, hset⟩ := (Option.any_eq_true ..).mp hruled
  obtain ⟨hflag, hthreshold⟩ := of_decide_eq_true hset
  refine ⟨genesis_genesis, c, hc, hflag, hthreshold, fun h => ?_⟩
  obtain ⟨s', hs'⟩ := isOk_iff.mp haccepted
  obtain ⟨i, hi, nonce, r, hkey, -⟩ := h (transferCall placed).extras s' hs'
  obtain ⟨k, hk, rfl⟩ := List.mem_map.mp hi
  dsimp only at hkey
  subst hkey
  simp [placed, config] at hk

end SolanaStablecoin
