import SolanaStablecoin.Verify.Bridge
import SolanaStablecoin.Verify.Policy

/-! Sanctions on the way in over the bridge. The bridge looks for the flag of a sanctions record at
byte 72, as if the mint and the wallet stood before it; the record that the oracle writes ends with
byte 17, and a record that ends before byte 72 passes. -/

namespace SolanaStablecoin

variable {rt : Runtime} {clock : Clock} {s s' : State} {c : StablecoinConfig} {b : BridgeTokensIn}
  {n : UInt64} {recipient : Pubkey} {id : BitVec 256} {proof : List UInt8}

/-- Everything that the bridge asks of a call apart from what the record of the recipient says. -/
structure BridgeTokensIn.Admitted (rt : Runtime) (s : State) (c : StablecoinConfig)
    (b : BridgeTokensIn) (proof : List UInt8) (n : UInt64) (recipient : Pubkey)
    (id : BitVec 256) : Prop where
  config : loadConfigOfMint s b.mint = .ok c
  relayer : ∃ bc, loadBridgeConfig s b.mint = .ok bc ∧ b.relayer.key = bc.authority ∧
    bc.authority ≠ .default ∧ bc.totalBridgedIn.toNat + n.toNat < 2 ^ 64
  unused : s.consumedMessageIds (.consumedMessageId b.mint id) = none
  account : ∃ x, s.tokens.accounts b.recipientTokenAccount = some x ∧ x.mint = b.mint ∧
    x.owner = recipient
  opened : c.requireBridge n = .ok ()
  proof : 32 ≤ proof.length
  cap : c.checkMaxSupply n = .ok ()
  record : b.sanctionsRecord = some (.sanctionsRecord b.mint recipient)
  minted : (rt.token.mintTo s.tokens b.mint b.recipientTokenAccount (.stablecoinConfig b.mint)
    n).isSome
  total : c.totalMinted.toNat + n.toNat < 2 ^ 64

/-- No record is long enough to be looked at. -/
theorem length_sanctionsRecord (s : State) (mint wallet : Pubkey) :
    (s.data (.sanctionsRecord mint wallet)).length < 73 := by
  change (((s.sanctionsRecords (.sanctionsRecord mint wallet)).map SanctionsRecord.data).getD
    []).length < 73
  cases s.sanctionsRecords (.sanctionsRecord mint wallet) with
  | none => decide
  | some r =>
    rw [Option.map_some, Option.getD_some, SanctionsRecord.length_data]
    decide

theorem bridge_checkSanctions_eq_ok {mint : Pubkey} {record : Option Pubkey} {u : Unit}
    (hflag : c.featureFlags &&& flagSanctionsOracle ≠ 0) :
    checkSanctions s c mint recipient record = .ok u ↔
      record = some (.sanctionsRecord mint recipient) := by
  simp only [checkSanctions, requireWhen_eq_ok, bind_eq_ok, Option.okOr_eq_ok, require_eq_ok]
  constructor
  · intro h
    obtain ⟨_, hrecord, -, rfl, -⟩ := h hflag
    exact hrecord
  · intro hrecord _
    refine ⟨_, hrecord, (), rfl, fun hlong => ?_⟩
    exact absurd hlong (Nat.not_le.mpr (length_sanctionsRecord s mint recipient))

theorem bridgeInHandler_isOk_iff (hflag : c.featureFlags &&& flagSanctionsOracle ≠ 0)
    (hc : s.configs (.stablecoinConfig b.mint) = some c) :
    (∃ s', bridgeInHandler rt s b proof n recipient id = .ok s') ↔
      b.Admitted rt s c proof n recipient id := by
  simp only [bridgeInHandler, bind_eq_ok, requireFree_eq_ok, require_eq_ok, load_eq_ok,
    Option.okOr_eq_ok, UInt64.checkedAdd_eq_some, StablecoinConfig.addMinted_eq_ok, pure_eq_ok]
  constructor
  · intro h
    obtain ⟨s', c', hload, bc, hbc, -, hrelayer, -, hunused, x, hx, -, hmint, _, hopen, -, howner,
      -, hproof, -, hauthority, _, hcap, _, hsanctions, t, ht, _, ⟨y, hy, -⟩, z, hz, -⟩ := h
    obtain rfl : c' = c := by
      rw [loadConfigOfMint_eq_ok, hc] at hload
      exact (Option.some.inj hload.1).symm
    rw [bridge_checkSanctions_eq_ok hflag] at hsanctions
    exact {
      config := hload
      relayer := ⟨bc, hbc, hrelayer, hauthority, hz ▸ z.toNat_lt⟩
      unused := hunused
      account := ⟨x, hx, hmint, howner⟩
      opened := hopen
      proof := hproof
      cap := hcap
      record := hsanctions
      minted := Option.isSome_of_eq_some ht
      total := hy ▸ y.toNat_lt }
  · intro h
    obtain ⟨bc, hbc, hrelayer, hauthority, hin⟩ := h.relayer
    obtain ⟨x, hx, hmint, howner⟩ := h.account
    obtain ⟨t, ht⟩ := Option.isSome_iff_exists.mp h.minted
    exact ⟨_, c, h.config, bc, hbc, (), hrelayer, (), h.unused, x, hx, (), hmint, (), h.opened, (),
      howner, (), h.proof, (), hauthority, (), h.cap, (),
      (bridge_checkSanctions_eq_ok hflag).mpr h.record, t, ht, _,
      ⟨.ofNat _, UInt64.toNat_ofNat_of_lt' h.total, rfl⟩, .ofNat _,
      UInt64.toNat_ofNat_of_lt' hin, rfl⟩

/-- The bridge refuses a sanctioned recipient exactly if it would refuse anybody: if one of the
other conditions fails. -/
theorem bridgeIn_sanctioned (hc : s.configs (.stablecoinConfig b.mint) = some c)
    (hflag : c.checkFeatureFlag flagSanctionsOracle = true) :
    ∀ r, s.sanctionsRecords (.sanctionsRecord b.mint recipient) = some r →
      r.isSanctioned = true →
      ((∀ s', bridgeInHandler rt s b proof n recipient id ≠ .ok s') ↔
        ¬ b.Admitted rt s c proof n recipient id) := by
  intro r _ _
  have hset : c.featureFlags &&& flagSanctionsOracle ≠ 0 := by
    simpa [StablecoinConfig.checkFeatureFlag] using hflag
  rw [← bridgeInHandler_isOk_iff hset hc, not_exists]

namespace Market

/-- The other user is the oracle, and says that the user is sanctioned. -/
def sanctioned : List Action :=
  featured (flagBridgeEnabled ||| flagSanctionsOracle) ++
    [ .call (day 1) (.proposeTimelockedOp asAuthority adminOpSetSanctionsParams 0 other.key),
      .call (day 3) (.executeTimelockedOp asAuthority),
      .call (day 3) (.updateSanctionsRecord { oracle := other, config } user.key true),
      .call (day 3) (.initBridgeConfig asAuthority 0 (.key 70) 1000 100 otherStable.key) ]

/-- The relayer brings 500 for the user. -/
def bringIn (record : Option Pubkey) : BridgeTokensIn :=
  { relayer := authority, mint := mint.key, recipientTokenAccount := userStable.key
    sanctionsRecord := record }

end Market

open Market in
/-- Without the record of the user the call is refused. -/
theorem bridgeIn_sanctioned_unrecorded :
    Genesis genesis ∧
      ∀ s', bridgeInHandler localRuntime (run localRuntime genesis sanctioned) (bringIn none)
        (List.replicate 32 0) 500 user.key 1 ≠ .ok s' := by
  have hrecord : ((run localRuntime genesis sanctioned).sanctionsRecords
      (.sanctionsRecord mint.key user.key)).any (·.isSanctioned) = true := by decide +kernel
  have hconfig : ((run localRuntime genesis sanctioned).configs config).any
      (·.checkFeatureFlag flagSanctionsOracle) = true := by decide +kernel
  obtain ⟨r, hr, hsanctioned⟩ := (Option.any_eq_true ..).mp hrecord
  obtain ⟨c, hc, hflag⟩ := (Option.any_eq_true ..).mp hconfig
  refine ⟨genesis_genesis, (bridgeIn_sanctioned hc hflag r hr hsanctioned).mpr fun hadmitted => ?_⟩
  cases hadmitted.record

open Market in
/-- With the record at hand, the sanctioned user gets the tokens. -/
theorem bridgeIn_ignores_sanctions :
    Genesis genesis ∧
      ((run localRuntime genesis sanctioned).configs config).map
        (·.checkFeatureFlag flagSanctionsOracle) = some true ∧
      ((run localRuntime genesis sanctioned).sanctionsRecords
        (.sanctionsRecord mint.key user.key)).map (·.isSanctioned) = some true ∧
      (bridgeInHandler localRuntime (run localRuntime genesis sanctioned)
        (bringIn (some (.sanctionsRecord mint.key user.key))) (List.replicate 32 0) 500 user.key
        1).isOk = true :=
  ⟨genesis_genesis, by decide +kernel, by decide +kernel, by decide +kernel⟩

end SolanaStablecoin
