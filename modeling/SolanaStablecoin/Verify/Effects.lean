import SolanaStablecoin.Verify.Guards
import SolanaStablecoin.Verify.Tokens

/-! What an accepted transaction can do to the books of a stablecoin, said once for all handlers
that do the same. The handlers' own modules show which effect each of them has. -/

namespace SolanaStablecoin

/-- The part of a config that only issuing and retiring change. -/
structure Terms where
  mint : Pubkey
  maxSupply : UInt64
  totalMinted : UInt64
  totalBurned : UInt64

def StablecoinConfig.terms (c : StablecoinConfig) : Terms :=
  { mint := c.mint, maxSupply := c.maxSupply
    totalMinted := c.totalMinted, totalBurned := c.totalBurned }

variable {s s' s'' : State} {c c' : StablecoinConfig} {mint k : Pubkey} {n : UInt64}

/-- No config is created, and what `f` reads of them stays. -/
def SameConfigs {α : Type} (f : StablecoinConfig → α) (s s' : State) : Prop :=
  ∀ k, (s'.configs k).map f = (s.configs k).map f

abbrev SameTerms : State → State → Prop := SameConfigs StablecoinConfig.terms

abbrev SameOffices : State → State → Prop := SameConfigs StablecoinConfig.office

section SameConfigs

variable {α : Type} {f : StablecoinConfig → α}

theorem SameConfigs.of_eq (h : s'.configs = s.configs) : SameConfigs f s s' := fun k => by rw [h]

theorem SameConfigs.of_put (hc : s.configs k = some c) (h : s'.configs = put s.configs k c')
    (hf : f c' = f c) : SameConfigs f s s' := by
  intro k'
  rw [h]
  by_cases hk : k' = k
  · rw [hk, put_self, hc, Option.map_some, Option.map_some, hf]
  · rw [put_of_ne _ _ hk]

/-- The config a later state holds at `k` agrees with an earlier one. -/
theorem SameConfigs.config (h : SameConfigs f s s') (hc : s'.configs k = some c') :
    ∃ c, s.configs k = some c ∧ f c' = f c := by
  have := h k
  rw [hc, Option.map_some, eq_comm, Option.map_eq_some_iff] at this
  obtain ⟨c, hc, hf⟩ := this
  exact ⟨c, hc, hf.symm⟩

/-- And one that an earlier state holds is still there. -/
theorem SameConfigs.config' (h : SameConfigs f s s') (hc : s.configs k = some c) :
    ∃ c', s'.configs k = some c' ∧ f c' = f c := by
  have := h k
  rw [hc, Option.map_some, Option.map_eq_some_iff] at this
  exact this

end SameConfigs

theorem SameTerms.of_eq (h : s'.configs = s.configs) : SameTerms s s' := SameConfigs.of_eq h

/-- The accounts of the two escrows. -/
structure Escrows where
  probabilisticVaults : Pubkey → Option ProbabilisticVault
  paymentChannels : Pubkey → Option PaymentChannel
  proposedSettlements : Pubkey → Option ProposedSettlement

/-- The accounts of the credential registry, of the transfer hook and of the escrows, which keep to
themselves. -/
structure Files where
  credentialRegistries : Pubkey → Option CredentialRegistry
  credentialRecords : Pubkey → Option CredentialRecord
  blacklistStates : Pubkey → Option BlacklistState
  extraAccountMetaLists : Pubkey → Option (List ExtraAccountMeta)
  escrows : Escrows

/-- The accounts that few instructions write. -/
structure Records where
  redemptionQueues : Pubkey → Option RedemptionQueue
  redemptionEntries : Pubkey → Option RedemptionEntry
  files : Files

namespace State

def escrows (s : State) : Escrows :=
  { probabilisticVaults := s.probabilisticVaults, paymentChannels := s.paymentChannels
    proposedSettlements := s.proposedSettlements }

def files (s : State) : Files :=
  { credentialRegistries := s.credentialRegistries, credentialRecords := s.credentialRecords
    blacklistStates := s.blacklistStates, extraAccountMetaLists := s.extraAccountMetaLists
    escrows := s.escrows }

def records (s : State) : Records :=
  { redemptionQueues := s.redemptionQueues, redemptionEntries := s.redemptionEntries
    files := s.files }

end State

/-- No collateral vault, no position and none of the records is written. -/
structure Frame (s s' : State) : Prop where
  vaults : s'.collateralVaults = s.collateralVaults
  positions : s'.cdpPositions = s.cdpPositions
  records : s'.records = s.records

/-- Tokens may move, but no supply, no counter, no vault, no position and no record does, and no
config changes hands. -/
structure Quiet (s s' : State) : Prop extends Frame s s' where
  tokens : s.tokens.Moves s'.tokens
  terms : SameTerms s s'
  offices : SameOffices s s'

/-- Accounts may be thawed besides, the redemption queue may pay, and records and offices may
change. -/
structure Loose (s s' : State) : Prop where
  vaults : s'.collateralVaults = s.collateralVaults
  positions : s'.cdpPositions = s.cdpPositions
  tokens : s.tokens.Shifts s'.tokens
  terms : SameTerms s s'

theorem Quiet.loose (h : Quiet s s') : Loose s s' where
  vaults := h.vaults
  positions := h.positions
  tokens := h.tokens.shifts
  terms := h.terms

/-- The counters of the config of `mint` move by what was issued and retired. -/
structure Posted (s : State) (c : StablecoinConfig) (mint : Pubkey) (issued retired : Nat)
    (s' : State) : Prop where
  config : s.configs (.stablecoinConfig mint) = some c
  mint_eq : c.mint = mint
  configs : ∃ c', s'.configs = put s.configs (.stablecoinConfig mint) c' ∧
    c'.mint = mint ∧ c'.office = c.office ∧ c'.maxSupply = c.maxSupply ∧
    c'.totalMinted.toNat = c.totalMinted.toNat + issued ∧
    c'.totalBurned.toNat = c.totalBurned.toNat + retired

/-- `n` is minted under the authority of the config, which is neither paused nor stopped by the
circuit breaker. -/
structure Issued (s : State) (c : StablecoinConfig) (mint dst : Pubkey) (n : UInt64)
    (s' : State) : Prop extends Posted s c mint n.toNat 0 s' where
  running : c.paused = false
  breaker : c.featureFlags &&& flagCircuitBreaker = 0
  tokens : s.tokens.MintsTo mint dst (.stablecoinConfig mint) n s'.tokens

/-- `n` is burned by an authority that is not a custodian; other tokens may move before and
after. -/
def Tokens.Retires (t : Tokens) (mint : Pubkey) (n : UInt64) (t' : Tokens) : Prop :=
  ∃ t₁ t₂ src authority, t.Moves t₁ ∧ authority.isCustodian = false ∧
    t₁.Burns mint src authority n t₂ ∧ t₂.Moves t'

/-- The queue burns `n` from an escrow, and then somebody else pays. -/
def Tokens.Settles (t : Tokens) (mint escrow queue : Pubkey) (n : UInt64) (t' : Tokens) : Prop :=
  ∃ t₁, t.Burns mint escrow queue n t₁ ∧ t₁.Moves t'

/-- Both burn `n` without a vault's signature. -/
def Tokens.Reduces (t : Tokens) (mint : Pubkey) (n : UInt64) (t' : Tokens) : Prop :=
  ∃ t₁ t₂ src authority, t.Moves t₁ ∧ authority.isCollateralVault = false ∧
    t₁.Burns mint src authority n t₂ ∧ t₂.Moves t'

theorem Tokens.Retires.reduces {t t' : Tokens} (h : t.Retires mint n t') : t.Reduces mint n t' := by
  obtain ⟨t₁, t₂, src, authority, hmoves, hauth, hburn, hmoves'⟩ := h
  exact ⟨t₁, t₂, src, authority, hmoves, Pubkey.isCollateralVault_of_not_isCustodian hauth, hburn,
    hmoves'⟩

theorem Tokens.Settles.reduces {t t' : Tokens} {escrow queue : Pubkey}
    (hqueue : queue.isCollateralVault = false) (h : t.Settles mint escrow queue n t') :
    t.Reduces mint n t' := by
  obtain ⟨t₁, hburn, hmoves⟩ := h
  exact ⟨t, t₁, escrow, queue, .refl, hqueue, hburn, hmoves⟩

/-- `n` is burned and recorded as burned. -/
structure Retired (s : State) (c : StablecoinConfig) (mint : Pubkey) (n : UInt64)
    (s' : State) : Prop extends Posted s c mint 0 n.toNat s' where
  tokens : s.tokens.Retires mint n s'.tokens

variable {rt : Runtime} {src dst authority : Pubkey} {t t' : Tokens}

/-- A transfer signed by somebody who is not a custodian. -/
theorem Tokens.Moves.of_transfer (signed : authority.isCustodian = false)
    (h : rt.token.transferChecked t src mint dst authority n = some t') : t.Moves t' :=
  .single (.transfer signed rt.token.transferFee_le (rt.token.transferChecked_ok h))

/-- A burn that nothing else accompanies. -/
theorem Tokens.Retires.of_burn (signed : authority.isCustodian = false)
    (h : rt.token.burn t mint src authority n = some t') : t.Retires mint n t' :=
  ⟨t, t', src, authority, .refl, signed, rt.token.burn_ok h, .refl⟩

/-- A burn and the payout after it. -/
theorem Tokens.Retires.of_burn_moves {t'' : Tokens} (signed : authority.isCustodian = false)
    (h : rt.token.burn t mint src authority n = some t') (hmoves : t'.Moves t'') :
    t.Retires mint n t'' :=
  ⟨t, t', src, authority, .refl, signed, rt.token.burn_ok h, hmoves⟩

theorem Posted.of_addMinted {x : UInt64} (hc : s.configs (.stablecoinConfig mint) = some c)
    (hm : mint = c.mint) (hx : x.toNat = c.totalMinted.toNat + n.toNat)
    (h : s'.configs = put s.configs (.stablecoinConfig mint) { c with totalMinted := x }) :
    Posted s c mint n.toNat 0 s' :=
  ⟨hc, hm.symm, _, h, hm.symm, rfl, rfl, hx, rfl⟩

theorem Posted.of_addBurned {x y : UInt64} (hc : s.configs (.stablecoinConfig mint) = some c)
    (hm : mint = c.mint) (hx : x.toNat = c.totalBurned.toNat + n.toNat)
    (h : s'.configs = put s.configs (.stablecoinConfig mint)
      { c with
        totalBurned := x
        totalCollateral := y }) :
    Posted s c mint 0 n.toNat s' :=
  ⟨hc, hm.symm, _, h, hm.symm, rfl, rfl, rfl, hx⟩

end SolanaStablecoin
