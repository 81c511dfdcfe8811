import SolanaStablecoin.Verify.Admin

/-! What the instructions of the credential registry write: the registry of one mint, or the
record of one holder. -/

namespace SolanaStablecoin

variable {rt : Runtime} {clock : Clock} {s s' : State} {c : StablecoinConfig}

@[simp] theorem loadRegistry_eq_ok {k : Pubkey} {x : StablecoinConfig × CredentialRegistry} :
    loadRegistry s k = .ok x ↔
      s.configs k = some x.1 ∧ s.credentialRegistries (.credentialRegistry x.1.mint) = some x.2 ∧
        k = .stablecoinConfig x.1.mint := by
  simp only [loadRegistry, bind_eq_ok, load_eq_ok, require_eq_ok, pure_eq_ok]
  constructor
  · intro h
    obtain ⟨c, hc, r, hr, -, hk, rfl⟩ := h
    exact ⟨hc, hr, hk⟩
  · intro h
    obtain ⟨hc, hr, hk⟩ := h
    exact ⟨x.1, hc, x.2, hr, (), hk, rfl⟩

@[simp] theorem IssuerAndConfig.loadRegistry_eq_ok {a : IssuerAndConfig}
    {x : StablecoinConfig × CredentialRegistry} :
    a.loadRegistry s = .ok x ↔
      SolanaStablecoin.loadRegistry s a.config = .ok x ∧ x.2.issuer = a.issuer.key := by
  simp only [IssuerAndConfig.loadRegistry, bind_eq_ok, require_eq_ok, pure_eq_ok]
  constructor
  · intro h
    obtain ⟨y, hy, -, hissuer, rfl⟩ := h
    exact ⟨hy, hissuer⟩
  · intro h
    exact ⟨x, h.1, (), h.2, rfl⟩

/-- The registry that an instruction leaves for the mint of a config. -/
inductive SetsRegistry (clock : Clock) (s : State) (c : StablecoinConfig) :
    Instruction → CredentialRegistry → Prop where
  | init {a : AuthorityAndConfig} {p : InitCredentialRegistryParams}
    (free : s.credentialRegistries (.credentialRegistry c.mint) = none) :
    SetsRegistry clock s c (.initCredentialRegistry a p)
      { sssMint := c.mint, issuer := p.issuer, merkleRoot := p.merkleRoot
        credentialTtlSlots := p.credentialTtlSlots, updatedSlot := clock.slot }
  | rotate {a : IssuerAndConfig} {root : BitVec 256} {r : CredentialRegistry}
    (registry : s.credentialRegistries (.credentialRegistry c.mint) = some r)
    (issuer : r.issuer = a.issuer.key) :
    SetsRegistry clock s c (.rotateCredentialRoot a root)
      { r with merkleRoot := root, updatedSlot := clock.slot }

/-- The expiry slot of a record issued at a slot; zero is for ever. -/
def CredentialRegistry.Expires (r : CredentialRegistry) (slot expiresSlot : UInt64) : Prop :=
  r.credentialTtlSlots = 0 ∧ expiresSlot = 0 ∨
    r.credentialTtlSlots ≠ 0 ∧ expiresSlot.toNat = slot.toNat + r.credentialTtlSlots.toNat

/-- What an instruction leaves of the record of a holder. -/
inductive SetsCredential (clock : Clock) (s : State) (c : StablecoinConfig) :
    Instruction → Pubkey → Option CredentialRecord → Prop where
  | verify {a : VerifyZkCredential} {proof signals : List UInt8} {r : CredentialRegistry}
    {record : CredentialRecord} (config : a.config = .stablecoinConfig c.mint)
    (registry : s.credentialRegistries (.credentialRegistry c.mint) = some r)
    (issuer : r.issuer = a.issuer.key)
    (root : signals.take 32 = Layout.leBytes 32 r.merkleRoot.toNat)
    (holder : record.holder = a.holder.key) (valid : record.revoked = false)
    (expiry : r.Expires clock.slot record.expiresSlot) :
    SetsCredential clock s c (.verifyZkCredential a proof signals) a.holder.key (some record)
  | revoke {a : RevokeCredential} {r : CredentialRegistry} {record : CredentialRecord}
    (config : a.config = .stablecoinConfig c.mint)
    (registry : s.credentialRegistries (.credentialRegistry c.mint) = some r)
    (issuer : r.issuer = a.issuer.key)
    (stored : s.credentialRecords (.credentialRecord c.mint a.holder) = some record) :
    SetsCredential clock s c (.revokeCredential a) a.holder
      (some { record with revoked := true })
  | close {a : CloseCredentialRecord} (config : a.config = .stablecoinConfig c.mint) :
    SetsCredential clock s c (.closeCredentialRecord a) a.holder.key none

/-- A registry is set and no record, or a record and no registry. -/
inductive CertifiesFiles (clock : Clock) (s : State) (i : Instruction) (s' : State) : Prop where
  | registry {c : StablecoinConfig} {r : CredentialRegistry} (sets : SetsRegistry clock s c i r)
    (files : s'.files = { s.files with
      credentialRegistries := put s.credentialRegistries (.credentialRegistry c.mint) r })
  | credential {c : StablecoinConfig} {holder : Pubkey} {r : Option CredentialRecord}
    (sets : SetsCredential clock s c i holder r)
    (files : s'.files = { s.files with
      credentialRecords :=
        Function.update s.credentialRecords (.credentialRecord c.mint holder) r })

/-- The files of the registry change, and nothing else but a feature flag. -/
structure Certifies (clock : Clock) (s : State) (i : Instruction) (s' : State) : Prop
    extends Loose s s' where
  offices : SameOffices s s'
  tokens_eq : s'.tokens = s.tokens
  queues : s'.redemptionQueues = s.redemptionQueues
  entries : s'.redemptionEntries = s.redemptionEntries
  files : CertifiesFiles clock s i s'

/-- A handler that writes records and no config. -/
theorem Certifies.of_credential {i : Instruction} {holder : Pubkey} {r : Option CredentialRecord}
    (h : SetsCredential clock s c i holder r) :
    Certifies clock s i { s with
      credentialRecords :=
        Function.update s.credentialRecords (.credentialRecord c.mint holder) r } where
  vaults := rfl
  positions := rfl
  tokens := .refl
  terms := .of_eq rfl
  offices := .of_eq rfl
  tokens_eq := rfl
  queues := rfl
  entries := rfl
  files := .credential h rfl

theorem initCredentialRegistryHandler_ok {a : AuthorityAndConfig}
    {p : InitCredentialRegistryParams} (h : initCredentialRegistryHandler clock s a p = .ok s') :
    Certifies clock s (.initCredentialRegistry a p) s' := by
  simp [initCredentialRegistryHandler] at h
  obtain ⟨c, ⟨hc, -⟩, hfree, -, rfl⟩ := h
  exact
    { vaults := rfl
      positions := rfl
      tokens := .refl
      terms := .of_put hc rfl rfl
      offices := .of_put hc rfl rfl
      tokens_eq := rfl
      queues := rfl
      entries := rfl
      files := .registry (.init hfree) rfl }

theorem rotateCredentialRootHandler_ok {a : IssuerAndConfig} {root : BitVec 256}
    (h : rotateCredentialRootHandler clock s a root = .ok s') :
    Certifies clock s (.rotateCredentialRoot a root) s' := by
  simp [rotateCredentialRootHandler] at h
  obtain ⟨c, r, ⟨⟨-, hr, -⟩, hissuer⟩, rfl⟩ := h
  exact
    { vaults := rfl
      positions := rfl
      tokens := .refl
      terms := .of_eq rfl
      offices := .of_eq rfl
      tokens_eq := rfl
      queues := rfl
      entries := rfl
      files := .registry (.rotate hr hissuer) rfl }

theorem verifyZkCredentialHandler_ok {a : VerifyZkCredential} {proof signals : List UInt8}
    (h : verifyZkCredentialHandler rt clock s a proof signals = .ok s') :
    Certifies clock s (.verifyZkCredential a proof signals) s' := by
  simp only [verifyZkCredentialHandler, bind_eq_ok, IssuerAndConfig.loadRegistry_eq_ok,
    loadRegistry_eq_ok, require_eq_ok, validateProofStructure, onlyWhen_eq_ok, Option.okOr_eq_ok,
    UInt64.checkedAdd_eq_some, pure_eq_ok] at h
  obtain ⟨⟨c, r⟩, ⟨⟨-, hr, hk⟩, hissuer⟩, -, -, -, ⟨-, -, -, -, hroot⟩, x, hx, rfl⟩ := h
  have hexpiry : r.Expires clock.slot x := by
    rcases hx with ⟨hne, hx⟩ | ⟨hzero, hx⟩
    · exact .inr ⟨hne, hx⟩
    · exact .inl ⟨Decidable.not_not.mp hzero, hx.symm⟩
  exact .of_credential (.verify hk hr hissuer hroot rfl rfl hexpiry)

theorem revokeCredentialHandler_ok {a : RevokeCredential}
    (h : revokeCredentialHandler s a = .ok s') : Certifies clock s (.revokeCredential a) s' := by
  simp [revokeCredentialHandler] at h
  obtain ⟨c, ⟨r, ⟨-, hr, hk⟩, hissuer⟩, record, hrecord, rfl⟩ := h
  exact .of_credential (.revoke hk hr hissuer hrecord)

theorem closeCredentialRecordHandler_ok {a : CloseCredentialRecord}
    (h : closeCredentialRecordHandler s a = .ok s') :
    Certifies clock s (.closeCredentialRecord a) s' := by
  simp [closeCredentialRecordHandler] at h
  obtain ⟨c, -, hk, -, -, -, rfl⟩ := h
  exact .of_credential (.close hk)

end SolanaStablecoin
