import SolanaStablecoin.Verify.Credential
import SolanaStablecoin.Verify.Layout

/-! What the acceptance of a transfer by the hook says: each gate asks something of the accounts
that were handed in, and something of the state. The two are kept apart, as the caller chooses
only the first. -/

namespace SolanaStablecoin

open Cell Layout

variable {rt : Runtime} {clock : Clock} {s s' : State} {c : StablecoinConfig} {n : UInt64}
  {a : TransferHook} {w k : Pubkey} {remaining : List AccountInfo} {u : Unit}

/-! ## Accounts -/

/-- An account of that address was handed in. -/
def Supplied (remaining : List AccountInfo) (k : Pubkey) : Prop := ∃ i ∈ remaining, i.key = k

theorem findAccount_eq_ok {e : ProgramError} {i : AccountInfo} :
    findAccount remaining k e = .ok i ↔ remaining.find? (·.key = k) = some i := by
  rw [findAccount, Option.okOr_eq_ok]

theorem key_of_find? {i : AccountInfo} (h : remaining.find? (·.key = k) = some i) : i.key = k := by
  simpa using List.find?_some h

theorem exists_find?_iff :
    (∃ i, remaining.find? (·.key = k) = some i) ↔ Supplied remaining k := by
  rw [← Option.isSome_iff_exists, List.find?_isSome]
  simp [Supplied]

/-- The owner that the data of an account name. -/
def State.ownerOf (s : State) (k : Pubkey) : Option Pubkey :=
  if 64 ≤ (s.data k).length then key.read (s.data k) 32 else none

theorem readOwner_eq_ok {e : HookError} : readOwner s k e = .ok w ↔ s.ownerOf k = some w := by
  simp only [readOwner, State.ownerOf, bind_eq_ok, require_eq_ok, Option.okOr_eq_ok]
  split
  next hlen => exact ⟨fun h => h.choose_spec.2, fun h => ⟨(), hlen, h⟩⟩
  next hlen =>
    constructor
    · intro h
      exact absurd h.choose_spec.1 hlen
    · intro h
      cases h

/-- The data of a limit name no owner: its mint and its wallet lie across the place. -/
theorem State.ownerOf_walletRateLimit {m : Pubkey} : s.ownerOf (.walletRateLimit m w) = none := by
  rw [ownerOf]
  split
  next hlen =>
    cases hr : s.walletRateLimits (.walletRateLimit m w) with
    | none => simp [data, hr] at hlen
    | some r =>
      have hne : ¬ address r.sssMint 24 = address r.sssMint 0 := by simp
      have hread : key.read r.data 32 = none := if_neg fun h => hne (List.cons.inj h).1
      simp [data, hr, hread]
  next => rfl

/-- An owner is found where it was, whatever happens to the limits. -/
theorem State.ownerOf_of_limits {m : Pubkey → Option WalletRateLimit}
    (h : s.ownerOf k = some w) : { s with walletRateLimits := m }.ownerOf k = some w := by
  cases k with
  | walletRateLimit m' w' =>
    rw [ownerOf_walletRateLimit] at h
    cases h
  | _ => exact h

theorem State.data_config {m : Pubkey} (h : s.configs (.stablecoinConfig m) = some c) :
    s.data (.stablecoinConfig m) = c.data := by
  simp [State.data, h]

/-! ## The gates -/

namespace TransferHook

theorem checkSpendPolicy_eq_ok :
    checkSpendPolicy c.data c.featureFlags n = .ok u ↔
      (c.featureFlags &&& flagSpendPolicy ≠ 0 →
        c.featureFlags &&& flagConfidentialTransfers = 0 ∧ n ≤ c.maxTransferAmount) := by
  simp [checkSpendPolicy]

/-- The wallet has been verified, and still is. -/
def Verified (clock : Clock) (s : State) (mint w : Pubkey) : Prop :=
  ∃ r, s.verificationRecords (.zkVerification mint w) = some r ∧ clock.slot < r.expiresAtSlot

theorem checkZkCompliance_eq_ok {flags : UInt64} :
    a.checkZkCompliance clock s k w flags = .ok u ↔
      (flags &&& flagZkCompliance ≠ 0 →
        k = .zkVerification a.mint w ∧ Verified clock s a.mint w) := by
  simp only [checkZkCompliance, requireWhen_eq_ok, bind_eq_ok, require_eq_ok]
  refine forall_congr' fun _ => ?_
  constructor
  · intro h
    obtain ⟨-, rfl, -, hlen, x, hx, hexpiry⟩ := h
    refine ⟨rfl, ?_⟩
    cases hr : s.verificationRecords (.zkVerification a.mint w) with
    | none => simp [State.data, hr, zkRecordMinSize] at hlen
    | some r =>
      simp only [State.data, hr, Option.map_some, Option.getD_some,
        VerificationRecord.readU64_expiresAtSlot, Except.ok.injEq] at hx
      exact ⟨r, hr, hx ▸ hexpiry⟩
  · intro h
    obtain ⟨rfl, r, hr, hexpiry⟩ := h
    refine ⟨(), rfl, (), ?_, r.expiresAtSlot, ?_, hexpiry⟩
    · simp [State.data, hr, zkRecordMinSize]
    · simp [State.data, hr]

/-- No record of the oracle marks the wallet. -/
def Unsanctioned (s : State) (mint w : Pubkey) : Prop :=
  ∀ r, s.sanctionsRecords (.sanctionsRecord mint w) = some r → r.isSanctioned = false

theorem checkSanctions_eq_ok :
    a.checkSanctions clock s c.data w c.featureFlags remaining = .ok u ↔
      (c.featureFlags &&& flagSanctionsOracle ≠ 0 → c.sanctionsOracle ≠ .default →
        (∃ i, remaining.head? = some i ∧ i.key = .sanctionsRecord a.mint w) ∧
          Unsanctioned s a.mint w) := by
  simp only [checkSanctions, requireWhen_eq_ok, bind_eq_ok, require_eq_ok, Option.okOr_eq_ok,
    StablecoinConfig.read_sanctionsOracle, StablecoinConfig.readU64_sanctionsMaxStaleness]
  constructor
  · intro h hflag horacle
    obtain ⟨_, hread, _, -, h⟩ := h ⟨hflag, c.le_length_data⟩
    cases hread
    obtain ⟨i, hi, -, hkey, h⟩ := h horacle
    refine ⟨⟨i, hi, hkey⟩, ?_⟩
    intro r hr
    have hlen : (s.data i.key).length ≥ sanctionsRecordMinSize := by
      simp [State.data, hkey, hr, sanctionsRecordMinSize]
    obtain ⟨b, hb, h⟩ := h hlen
    simp only [State.data, hkey, hr, Option.map_some, Option.getD_some,
      SanctionsRecord.read_isSanctioned, Option.some.injEq] at hb
    cases hmark : r.isSanctioned with
    | false => rfl
    | true =>
      obtain ⟨-, -, h⟩ := h (hb.symm.trans hmark)
      cases h
  · intro h hactive
    refine ⟨_, rfl, _, rfl, ?_⟩
    intro horacle
    obtain ⟨⟨i, hi, hkey⟩, hclear⟩ := h hactive.1 horacle
    refine ⟨i, hi, (), hkey, ?_⟩
    intro hlen
    cases hr : s.sanctionsRecords (.sanctionsRecord a.mint w) with
    | none => simp [State.data, hkey, hr, sanctionsRecordMinSize] at hlen
    | some r =>
      refine ⟨r.isSanctioned, ?_, ?_⟩
      · simp [State.data, hkey, hr]
      · rw [hclear r hr]
        intro h
        cases h

/-- The wallet holds a credential that is neither revoked nor expired. -/
def Credentialed (clock : Clock) (s : State) (mint w : Pubkey) : Prop :=
  ∃ r, s.credentialRecords (.credentialRecord mint w) = some r ∧ r.revoked = false ∧
    (r.expiresSlot = 0 ∨ clock.slot ≤ r.expiresSlot)

theorem checkCredential_eq_ok {flags : UInt64} :
    a.checkCredential clock s w flags remaining = .ok u ↔
      (flags &&& flagZkCredentials ≠ 0 →
        Supplied remaining (.credentialRecord a.mint w) ∧ Credentialed clock s a.mint w) := by
  simp only [checkCredential, requireWhen_eq_ok, bind_eq_ok, require_eq_ok, Option.okOr_eq_ok,
    findAccount_eq_ok]
  refine forall_congr' fun _ => ?_
  rw [← exists_find?_iff]
  constructor
  · intro h
    obtain ⟨i, hi, -, hlen, b, hb, -, hvalid, x, hx, hexpiry⟩ := h
    refine ⟨⟨i, hi⟩, ?_⟩
    rw [key_of_find? hi] at hlen hb hx
    cases hr : s.credentialRecords (.credentialRecord a.mint w) with
    | none => simp [State.data, hr, crMinSize] at hlen
    | some r =>
      simp only [State.data, hr, Option.map_some, Option.getD_some, CredentialRecord.read_revoked,
        Option.some.injEq] at hb
      simp only [State.data, hr, Option.map_some, Option.getD_some,
        CredentialRecord.readU64_expiresSlot, Except.ok.injEq] at hx
      refine ⟨r, hr, hb.trans hvalid, ?_⟩
      rw [hx]
      by_cases hzero : x = 0
      · exact .inl hzero
      · exact .inr (hexpiry (UInt64.pos_iff_ne_zero.mpr hzero))
  · intro h
    obtain ⟨⟨i, hi⟩, r, hr, hvalid, hexpiry⟩ := h
    have hdata : s.data i.key = r.data := by simp [key_of_find? hi, State.data, hr]
    refine ⟨i, hi, (), ?_, r.revoked, ?_, (), hvalid, r.expiresSlot, ?_, ?_⟩
    · rw [hdata, CredentialRecord.length_data, crMinSize]
    · rw [hdata, CredentialRecord.read_revoked]
    · rw [hdata, CredentialRecord.readU64_expiresSlot]
    · intro hpos
      rcases hexpiry with hzero | hle
      · rw [hzero] at hpos
        cases hpos
      · exact hle

/-- The total of the window after the transfer, as the hook reckons it. -/
def reckoned (r : WalletRateLimit) (slot n : UInt64) : UInt64 :=
  if r.windowStartSlot = 0 ∨ slot ≥ r.windowStartSlot.saturatingAdd r.windowSlots then n
  else r.transferredThisWindow.saturatingAdd n

theorem preCheck_data (r : WalletRateLimit) :
    preCheck clock r.data n = .ok (decide (reckoned r clock.slot n ≤ r.maxTransferPerWindow)) := by
  have hlen : ¬ r.data.length < wrlMinSize := by
    rw [WalletRateLimit.length_data, wrlMinSize]
    decide
  rw [preCheck, if_neg hlen, WalletRateLimit.readU64_maxTransferPerWindow,
    WalletRateLimit.readU64_windowSlots, WalletRateLimit.readU64_transferredThisWindow,
    WalletRateLimit.readU64_windowStartSlot]
  rfl

end TransferHook

/-- The counters of a wallet after a transfer that the limit admits. -/
def WalletRateLimit.Admits (r : WalletRateLimit) (slot n : UInt64) (r' : WalletRateLimit) : Prop :=
  ∃ x : UInt64, x.toNat = (r.roll slot).transferredThisWindow.toNat + n.toNat ∧
    x ≤ (r.roll slot).maxTransferPerWindow ∧ r' = { r.roll slot with transferredThisWindow := x }

theorem updateWalletRateLimitHandler_eq_ok {b : UpdateWalletRateLimit} :
    updateWalletRateLimitHandler clock s b w n = .ok s' ↔
      ∃ c r r', s.configs (.stablecoinConfig b.mint) = some c ∧
        (∃ m, s.tokens.mints b.mint = some m) ∧ b.mint = c.mint ∧
        s.walletRateLimits (.walletRateLimit b.mint w) = some r ∧
        (b.caller = c.transferHookProgram ∨ b.caller = c.authority) ∧
        (b.caller = c.authority → b.isSigner = true) ∧ r.Admits clock.slot n r' ∧
        { s with walletRateLimits := put s.walletRateLimits (.walletRateLimit b.mint w) r' } =
          s' := by
  simp only [updateWalletRateLimitHandler, bind_eq_ok, loadConfigOfMint_eq_ok, load_eq_ok,
    require_eq_ok, requireWhen_eq_ok, Option.okOr_eq_ok, UInt64.checkedAdd_eq_some, pure_eq_ok]
  constructor
  · intro h
    obtain ⟨c, ⟨hc, hm, hmint⟩, r, hr, -, hcaller, -, hsigned, x, hx, -, hmax, rfl⟩ := h
    exact ⟨c, r, _, hc, hm, hmint, hr, hcaller, hsigned, ⟨x, hx, hmax, rfl⟩, rfl⟩
  · intro h
    obtain ⟨c, r, r', hc, hm, hmint, hr, hcaller, hsigned, ⟨x, hx, hmax, rfl⟩, rfl⟩ := h
    exact ⟨c, ⟨hc, hm, hmint⟩, r, hr, (), hcaller, (), hsigned, x, hx, (), hmax, rfl⟩

namespace TransferHook

/-- The accounts that the rate limit asks for. -/
structure SuppliesRateLimit (mint w : Pubkey) (remaining : List AccountInfo) : Prop where
  record : ∃ i, remaining.find? (·.key = .walletRateLimit mint w) = some i ∧ i.isWritable = true
  config : Supplied remaining (.stablecoinConfig mint)
  program : Supplied remaining .sssTokenProgram
  hook : Supplied remaining .transferHookProgram
  mint : Supplied remaining mint

/-- The hook and `sss-token` both reckon that the wallet may send that much, and `r'` is what is
left of its limit. The config must name this hook, and nobody may have made it the authority. -/
def WithinRateLimit (clock : Clock) (s : State) (mint w : Pubkey) (n : UInt64)
    (r' : WalletRateLimit) : Prop :=
  ∃ c r, s.configs (.stablecoinConfig mint) = some c ∧ (∃ m, s.tokens.mints mint = some m) ∧
    mint = c.mint ∧ c.transferHookProgram = .transferHookProgram ∧
    c.authority ≠ .transferHookProgram ∧
    s.walletRateLimits (.walletRateLimit mint w) = some r ∧
    reckoned r clock.slot n ≤ r.maxTransferPerWindow ∧ r.Admits clock.slot n r'

theorem recordTransfer_eq_ok {flags : UInt64} :
    a.recordTransfer clock s w flags n remaining = .ok s' ↔
      (flags &&& flagWalletRateLimits ≠ 0 ∧ SuppliesRateLimit a.mint w remaining ∧
        ∃ r', WithinRateLimit clock s a.mint w n r' ∧
          { s with walletRateLimits := put s.walletRateLimits (.walletRateLimit a.mint w) r' } =
            s') ∨
      (flags &&& flagWalletRateLimits = 0 ∧ s = s') := by
  simp only [recordTransfer, onlyWhen_eq_ok, bind_eq_ok, findAccount_eq_ok, require_eq_ok,
    mapError_eq_ok, updateWalletRateLimitHandler_eq_ok, ne_eq, Decidable.not_not]
  refine or_congr_left (and_congr_right fun _ => ?_)
  constructor
  · intro h
    obtain ⟨i, hi, -, hwrite, j, hj, p, hp, q, hq, b, hpre, -, hb, m, hm, c, r, r', hc, hmint,
      heq, hr, hcaller, hsigned, hadmit, rfl⟩ := h
    have hrecord : s.data i.key = r.data := by
      rw [key_of_find? hi]
      rw [key_of_find? hm] at hr
      simp [State.data, hr]
    rw [hrecord, preCheck_data, Except.ok.injEq] at hpre
    rw [key_of_find? hq] at hcaller hsigned
    rw [key_of_find? hm] at hc hmint heq hr ⊢
    have hnot : c.authority ≠ .transferHookProgram := by
      intro hauth
      cases hsigned hauth.symm
    have hhook : c.transferHookProgram = .transferHookProgram := by
      rcases hcaller with h | h
      · exact h.symm
      · exact absurd h.symm hnot
    refine ⟨⟨⟨i, hi, hwrite⟩, ?_, ?_, ?_, ?_⟩, r',
      ⟨c, r, hc, hmint, heq, hhook, hnot, hr, ?_, hadmit⟩, rfl⟩
    · exact exists_find?_iff.mp ⟨j, hj⟩
    · exact exists_find?_iff.mp ⟨p, hp⟩
    · exact exists_find?_iff.mp ⟨q, hq⟩
    · exact exists_find?_iff.mp ⟨m, hm⟩
    · exact of_decide_eq_true (hpre.trans hb)
  · intro h
    obtain ⟨⟨⟨i, hi, hwrite⟩, hj, hp, hq, hm⟩, r',
      ⟨c, r, hc, hmint, heq, hhook, hnot, hr, hpre, hadmit⟩, rfl⟩ := h
    obtain ⟨j, hj⟩ := exists_find?_iff.mpr hj
    obtain ⟨p, hp⟩ := exists_find?_iff.mpr hp
    obtain ⟨q, hq⟩ := exists_find?_iff.mpr hq
    obtain ⟨m, hm⟩ := exists_find?_iff.mpr hm
    have hrecord : s.data i.key = r.data := by
      rw [key_of_find? hi]
      simp [State.data, hr]
    refine ⟨i, hi, (), hwrite, j, hj, p, hp, q, hq, true, ?_, (), rfl, m, hm, c, r, r', ?_⟩
    · rw [hrecord, preCheck_data, decide_eq_true hpre]
    · rw [key_of_find? hm, key_of_find? hq]
      exact ⟨hc, hmint, heq, hr, .inl hhook.symm, fun h => absurd h.symm hnot, hadmit, rfl⟩

/-- There is a consent account. -/
def Consents (s : State) (mint w : Pubkey) : Prop := 8 ≤ (s.data (.delegateConsent mint w)).length

theorem checkOwnerConsent_eq_ok (howner : s.ownerOf a.sourceTokenAccount = some w) :
    a.checkOwnerConsent s c.data remaining = .ok u ↔
      (c.featureFlags &&& flagRequireOwnerConsent ≠ 0 → a.owner ≠ w →
        Supplied remaining (.delegateConsent a.mint w) ∧ Consents s a.mint w) := by
  have hlen : c.data.length ≥ featureFlagsOffset + 8 :=
    Nat.le_trans (by decide) c.le_length_data
  simp only [checkOwnerConsent, requireWhen_eq_ok, bind_eq_ok, require_eq_ok, readOwner_eq_ok,
    StablecoinConfig.readU64_featureFlags]
  constructor
  · intro h hflag hsigner
    obtain ⟨_, hread, h⟩ := h ⟨hlen, c.take_data⟩
    cases hread
    obtain ⟨w', hw', h⟩ := h hflag
    rw [howner] at hw'
    cases hw'
    obtain ⟨i, hi, hfound⟩ := List.any_eq_true.mp (h hsigner)
    obtain ⟨hkey, hsize⟩ := of_decide_eq_true hfound
    rw [hkey] at hsize
    exact ⟨⟨i, hi, hkey⟩, hsize⟩
  · intro h _
    refine ⟨_, rfl, ?_⟩
    intro hflag
    refine ⟨w, howner, ?_⟩
    intro hsigner
    obtain ⟨⟨i, hi, hkey⟩, hsize⟩ := h hflag hsigner
    have hfound : (s.data i.key).length ≥ 8 := by
      rw [hkey]
      exact hsize
    exact List.any_eq_true.mpr ⟨i, hi, decide_eq_true ⟨hkey, hfound⟩⟩

theorem split_eq_ok {x : AccountInfo × AccountInfo × AccountInfo × List AccountInfo} :
    a.split = .ok x ↔ a.extras = x.1 :: x.2.1 :: x.2.2.1 :: x.2.2.2 := by
  obtain ⟨b, g, v, remaining⟩ := x
  unfold split
  split
  next h => simp [h]
  next h =>
    constructor
    · intro hx
      cases hx
    · intro hx
      exact (h _ _ _ _ hx).elim

/-! ## The whole hook -/

/-- The transfer satisfies every policy that is active for the mint, under its blacklist and its
config. What the caller supplies has no part in it. -/
structure Complies (clock : Clock) (s : State) (a : TransferHook) (n : UInt64)
    (c : StablecoinConfig) (bl : BlacklistState) (src dst : Pubkey) : Prop where
  source : s.ownerOf a.sourceTokenAccount = some src
  destination : s.ownerOf a.destinationTokenAccount = some dst
  blacklist : s.blacklistStates (.hook .blacklistState a.mint) = some bl
  config : s.configs (.stablecoinConfig a.mint) = some c
  sender : src ∉ bl.blacklisted
  receiver : dst ∉ bl.blacklisted
  spendLimit : c.featureFlags &&& flagSpendPolicy ≠ 0 →
    c.featureFlags &&& flagConfidentialTransfers = 0 ∧ n ≤ c.maxTransferAmount
  verified : c.featureFlags &&& flagZkCompliance ≠ 0 → Verified clock s a.mint src
  unsanctioned : c.featureFlags &&& flagSanctionsOracle ≠ 0 → c.sanctionsOracle ≠ .default →
    Unsanctioned s a.mint src
  credentialed : c.featureFlags &&& flagZkCredentials ≠ 0 → Credentialed clock s a.mint src
  rateLimit : c.featureFlags &&& flagWalletRateLimits ≠ 0 →
    ∃ r', WithinRateLimit clock s a.mint src n r'
  consent : c.featureFlags &&& flagRequireOwnerConsent ≠ 0 → a.owner ≠ src →
    Consents s a.mint src

/-- Every account that an active policy of the config asks for is supplied, and stands where the
hook looks for it. -/
structure Supplies (a : TransferHook) (c : StablecoinConfig) (src : Pubkey)
    (remaining : List AccountInfo) : Prop where
  metas : a.extraAccountMetaList = .hook .extraAccountMetas a.mint
  placed : ∃ b g v, a.extras = b :: g :: v :: remaining ∧ b.key = .hook .blacklistState a.mint ∧
    g.key = .stablecoinConfig a.mint ∧
    (c.featureFlags &&& flagZkCompliance ≠ 0 → v.key = .zkVerification a.mint src)
  sanctions : c.featureFlags &&& flagSanctionsOracle ≠ 0 → c.sanctionsOracle ≠ .default →
    ∃ i, remaining.head? = some i ∧ i.key = .sanctionsRecord a.mint src
  credential : c.featureFlags &&& flagZkCredentials ≠ 0 →
    Supplied remaining (.credentialRecord a.mint src)
  rateLimit : c.featureFlags &&& flagWalletRateLimits ≠ 0 → SuppliesRateLimit a.mint src remaining
  consent : c.featureFlags &&& flagRequireOwnerConsent ≠ 0 → a.owner ≠ src →
    Supplied remaining (.delegateConsent a.mint src)

/-- The limit of the sender is drawn on, when the config says so. -/
inductive Draws (clock : Clock) (s : State) (mint : Pubkey) (n : UInt64) (c : StablecoinConfig)
    (src : Pubkey) : State → Prop where
  | limited {r' : WalletRateLimit} (flag : c.featureFlags &&& flagWalletRateLimits ≠ 0)
    (h : WithinRateLimit clock s mint src n r') :
    Draws clock s mint n c src
      { s with walletRateLimits := put s.walletRateLimits (.walletRateLimit mint src) r' }
  | unlimited (flag : c.featureFlags &&& flagWalletRateLimits = 0) : Draws clock s mint n c src s

theorem recordTransfer_iff :
    a.recordTransfer clock s w c.featureFlags n remaining = .ok s' ↔
      (c.featureFlags &&& flagWalletRateLimits ≠ 0 → SuppliesRateLimit a.mint w remaining) ∧
        Draws clock s a.mint n c w s' := by
  rw [recordTransfer_eq_ok]
  constructor
  · intro h
    rcases h with ⟨hflag, hsupplied, r', hr', rfl⟩ | ⟨hflag, rfl⟩
    · exact ⟨fun _ => hsupplied, .limited hflag hr'⟩
    · exact ⟨fun h => absurd hflag h, .unlimited hflag⟩
  · intro h
    obtain ⟨hsupplied, hdraws⟩ := h
    cases hdraws with
    | limited hflag hr' => exact .inl ⟨hflag, hsupplied hflag, _, hr', rfl⟩
    | unlimited hflag => exact .inr ⟨hflag, rfl⟩

/-- Drawing on a limit leaves the config, the owners and the consent alone. -/
theorem Draws.frame {m : Pubkey} (h : Draws clock s m n c w s') :
    (∀ k, s'.data (.stablecoinConfig k) = s.data (.stablecoinConfig k)) ∧
      (∀ k o, s.ownerOf k = some o → s'.ownerOf k = some o) ∧
      ∀ mint o, Consents s' mint o ↔ Consents s mint o := by
  cases h with
  | limited => exact ⟨fun _ => rfl, fun _ _ => State.ownerOf_of_limits, fun _ _ => .rfl⟩
  | unlimited => exact ⟨fun _ => rfl, fun _ _ h => h, fun _ _ => .rfl⟩

end TransferHook

open TransferHook

/-- An accepted transfer passed every gate. -/
theorem transferHookHandler_ok_imp (h : transferHookHandler clock s a n = .ok s') :
    ∃ c bl src dst remaining, Complies clock s a n c bl src dst ∧ Supplies a c src remaining ∧
      Draws clock s a.mint n c src s' := by
  simp only [transferHookHandler, bind_eq_ok, split_eq_ok, load_eq_ok, require_eq_ok,
    readOwner_eq_ok, pure_eq_ok] at h
  obtain ⟨⟨b, g, v, remaining⟩, hextras, bl, hbl, -, hmetas, -, hb, src, hsrc, -, hsender, dst,
    hdst, -, hreceiver, -, hg, -, hlen, -, -, flags, hflags, _, hspend, _, hzk, _, hsanctions, _,
    hcredential, t, hdraw, _, hconsent, rfl⟩ := h
  dsimp only at hextras hbl hb hg hlen hflags hspend hzk hsanctions hcredential hdraw hconsent
  rw [hb] at hbl
  rw [hg] at hlen hflags hspend hsanctions hconsent
  cases hc : s.configs (.stablecoinConfig a.mint) with
  | none => simp [State.data, hc, maxTransferAmountOffset] at hlen
  | some c =>
    rw [State.data_config hc] at hflags hspend hsanctions
    cases (c.readU64_featureFlags.symm.trans hflags)
    rw [checkSpendPolicy_eq_ok] at hspend
    rw [checkZkCompliance_eq_ok] at hzk
    rw [checkSanctions_eq_ok] at hsanctions
    rw [checkCredential_eq_ok] at hcredential
    obtain ⟨hsupplied, hdraws⟩ := recordTransfer_iff.mp hdraw
    obtain ⟨hdata, howner, hconsents⟩ := hdraws.frame
    rw [hdata, State.data_config hc, checkOwnerConsent_eq_ok (howner _ _ hsrc)] at hconsent
    refine ⟨c, bl, src, dst, remaining, ?_, ?_, hdraws⟩
    · exact
        { source := hsrc
          destination := hdst
          blacklist := hbl
          config := hc
          sender := by simpa [BlacklistState.isBlacklisted] using hsender
          receiver := by simpa [BlacklistState.isBlacklisted] using hreceiver
          spendLimit := hspend
          verified := fun h => (hzk h).2
          unsanctioned := fun h horacle => (hsanctions h horacle).2
          credentialed := fun h => (hcredential h).2
          rateLimit := fun h => by
            cases hdraws with
            | limited _ hr' => exact ⟨_, hr'⟩
            | unlimited hflag => exact absurd hflag h
          consent := fun h hsigner => (hconsents _ _).mp (hconsent h hsigner).2 }
    · exact
        { metas := hmetas
          placed := ⟨b, g, v, hextras, hb, hg, fun h => (hzk h).1⟩
          sanctions := fun h horacle => (hsanctions h horacle).1
          credential := fun h => (hcredential h).1
          rateLimit := hsupplied
          consent := fun h hsigner => (hconsent h hsigner).1 }

/-- No gate stops a transfer that complies when its accounts are supplied. -/
theorem transferHookHandler_eq_ok_of {bl : BlacklistState} {src dst : Pubkey}
    (hcomplies : Complies clock s a n c bl src dst) (hsupplies : Supplies a c src remaining)
    (hdraws : Draws clock s a.mint n c src s') : transferHookHandler clock s a n = .ok s' := by
  simp only [transferHookHandler, bind_eq_ok, split_eq_ok, load_eq_ok, require_eq_ok,
    readOwner_eq_ok, pure_eq_ok]
  obtain ⟨b, g, v, hextras, hb, hg, hv⟩ := hsupplies.placed
  obtain ⟨hdata, howner, hconsents⟩ := hdraws.frame
  have hc := State.data_config hcomplies.config
  have hlen : c.data.length ≥ maxTransferAmountOffset + 8 :=
    Nat.le_trans (by decide) c.le_length_data
  refine ⟨(b, g, v, remaining), hextras, bl, ?_, (), hsupplies.metas, (), hb, src,
    hcomplies.source, (), ?_, dst, hcomplies.destination, (), ?_, (), hg, (), ?_, (), ?_,
    c.featureFlags, ?_, (), ?_, (), ?_, (), ?_, (), ?_, s', ?_, (), ?_, rfl⟩
  · rw [hb, hcomplies.blacklist]
  · simpa [BlacklistState.isBlacklisted] using hcomplies.sender
  · simpa [BlacklistState.isBlacklisted] using hcomplies.receiver
  · rw [hg, hc]
    exact hlen
  · rw [hg, hc]
    exact c.take_data
  · rw [hg, hc, c.readU64_featureFlags]
  · rw [hg, hc, checkSpendPolicy_eq_ok]
    exact hcomplies.spendLimit
  · rw [checkZkCompliance_eq_ok]
    exact fun h => ⟨hv h, hcomplies.verified h⟩
  · rw [hg, hc, checkSanctions_eq_ok]
    exact fun h horacle => ⟨hsupplies.sanctions h horacle, hcomplies.unsanctioned h horacle⟩
  · rw [checkCredential_eq_ok]
    exact fun h => ⟨hsupplies.credential h, hcomplies.credentialed h⟩
  · exact recordTransfer_iff.mpr ⟨hsupplies.rateLimit, hdraws⟩
  · rw [hg, hdata, hc, checkOwnerConsent_eq_ok (howner _ _ hcomplies.source)]
    exact fun h hsigner =>
      ⟨hsupplies.consent h hsigner, (hconsents _ _).mpr (hcomplies.consent h hsigner)⟩

/-- The hook accepts a transfer when it complies and every account is supplied, and writes no
more than the limit of the sender. -/
theorem transferHookHandler_eq_ok :
    transferHookHandler clock s a n = .ok s' ↔
      ∃ c bl src dst remaining, Complies clock s a n c bl src dst ∧ Supplies a c src remaining ∧
        Draws clock s a.mint n c src s' := by
  constructor
  · exact transferHookHandler_ok_imp
  · intro h
    obtain ⟨c, bl, src, dst, remaining, hcomplies, hsupplies, hdraws⟩ := h
    exact transferHookHandler_eq_ok_of hcomplies hsupplies hdraws

/-! ## What the limits and the hook write -/

theorem transferHookHandler_ok (h : transferHookHandler clock s a n = .ok s') : Quiet s s' := by
  obtain ⟨c, bl, src, dst, remaining, -, -, hdraws⟩ := transferHookHandler_eq_ok.mp h
  cases hdraws with
  | limited => exact .of_eq rfl rfl ⟨rfl, rfl, rfl⟩
  | unlimited => exact .of_eq rfl rfl ⟨rfl, rfl, rfl⟩

theorem setWalletRateLimitHandler_ok {b : AuthorityAndMint} {p : SetWalletRateLimitParams}
    (h : setWalletRateLimitHandler rt s b p = .ok s') : Quiet s s' := by
  simp [setWalletRateLimitHandler] at h
  obtain ⟨c, -, -, -, -, -, rfl⟩ := h
  exact .of_eq rfl rfl ⟨rfl, rfl, rfl⟩

theorem removeWalletRateLimitHandler_ok {b : AuthorityAndMint}
    (h : removeWalletRateLimitHandler s b w = .ok s') : Quiet s s' := by
  simp [removeWalletRateLimitHandler] at h
  obtain ⟨c, -, -, -, rfl⟩ := h
  exact .of_eq rfl rfl ⟨rfl, rfl, rfl⟩

theorem updateWalletRateLimitHandler_ok {b : UpdateWalletRateLimit}
    (h : updateWalletRateLimitHandler clock s b w n = .ok s') : Quiet s s' := by
  obtain ⟨c, r, r', -, -, -, -, -, -, -, rfl⟩ := updateWalletRateLimitHandler_eq_ok.mp h
  exact .of_eq rfl rfl ⟨rfl, rfl, rfl⟩

/-- The list with one more address. -/
def BlacklistState.add (bl : BlacklistState) (k : Pubkey) : BlacklistState :=
  if k ∈ bl.blacklisted then bl else { bl with blacklisted := bl.blacklisted ++ [k] }

/-- The list without an address. -/
def BlacklistState.remove (bl : BlacklistState) (k : Pubkey) : BlacklistState :=
  { bl with blacklisted := bl.blacklisted.filter (· ≠ k) }

@[simp] theorem loadBlacklist_eq_ok {b : AuthorityAndMint} {bl : BlacklistState} :
    loadBlacklist s b = .ok bl ↔
      s.blacklistStates (.hook .blacklistState b.mint) = some bl ∧
        bl.authority = b.authority.key := by
  rw [loadBlacklist, checked_eq_ok, load_eq_ok]

/-- The blacklist that an instruction leaves for a mint. -/
inductive SetsBlacklist (s : State) : Instruction → Pubkey → BlacklistState → Prop where
  | init {b : AuthorityAndMint} (free : s.blacklistStates (.hook .blacklistState b.mint) = none) :
    SetsBlacklist s (.initializeExtraAccountMetaList b) b.mint
      { mint := b.mint, authority := b.authority.key, blacklisted := [] }
  | migrate {b : AuthorityAndMint} {bl : BlacklistState}
    (stored : s.blacklistStates (.hook .blacklistState b.mint) = some bl)
    (authority : bl.authority = b.authority.key) :
    SetsBlacklist s (.migrateHookExtraAccounts b) b.mint bl
  | add {b : AuthorityAndMint} {k : Pubkey} {bl : BlacklistState}
    (stored : s.blacklistStates (.hook .blacklistState b.mint) = some bl)
    (authority : bl.authority = b.authority.key) :
    SetsBlacklist s (.blacklistAdd b k) b.mint (bl.add k)
  | addAndFreeze {b : ComplianceAccounts} {blacklist hook : Pubkey} {bl : BlacklistState}
    {acc : TokenAccount} (stored : s.blacklistStates (.hook .blacklistState b.mint) = some bl)
    (authority : bl.authority = b.complianceAuthority.key)
    (target : s.tokens.accounts b.targetTokenAccount = some acc) :
    SetsBlacklist s (.blacklistAddAndFreeze b blacklist hook) b.mint (bl.add acc.owner)
  | remove {b : AuthorityAndMint} {k : Pubkey} {bl : BlacklistState}
    (stored : s.blacklistStates (.hook .blacklistState b.mint) = some bl)
    (authority : bl.authority = b.authority.key) :
    SetsBlacklist s (.blacklistRemove b k) b.mint (bl.remove k)

/-- One blacklist is written and perhaps its list of extra accounts, and an account may be
frozen. -/
structure Lists (s : State) (i : Instruction) (s' : State) : Prop extends Loose s s' where
  offices : SameOffices s s'
  moves : s.tokens.Moves s'.tokens
  configs : s'.configs = s.configs
  queues : s'.redemptionQueues = s.redemptionQueues
  entries : s'.redemptionEntries = s.redemptionEntries
  registries : s'.credentialRegistries = s.credentialRegistries
  credentials : s'.credentialRecords = s.credentialRecords
  escrows : s'.escrows = s.escrows
  blacklists : ∃ mint bl, SetsBlacklist s i mint bl ∧
    s'.blacklistStates = put s.blacklistStates (.hook .blacklistState mint) bl
  metas : s'.extraAccountMetaLists = s.extraAccountMetaLists ∨ ∃ mint,
    s'.extraAccountMetaLists =
      put s.extraAccountMetaLists (.hook .extraAccountMetas mint) accountMetas

/-- A handler that writes a blacklist and a list of extra accounts. -/
theorem Lists.of_sets {i : Instruction} {mint : Pubkey} {bl : BlacklistState}
    {metas : Pubkey → Option (List ExtraAccountMeta)} (h : SetsBlacklist s i mint bl)
    (hmetas : metas = s.extraAccountMetaLists ∨ ∃ mint,
      metas = put s.extraAccountMetaLists (.hook .extraAccountMetas mint) accountMetas) :
    Lists s i { s with
      extraAccountMetaLists := metas
      blacklistStates := put s.blacklistStates (.hook .blacklistState mint) bl } where
  vaults := rfl
  positions := rfl
  tokens := .refl
  terms := .of_eq rfl
  offices := .of_eq rfl
  moves := .refl
  configs := rfl
  queues := rfl
  entries := rfl
  registries := rfl
  credentials := rfl
  escrows := rfl
  blacklists := ⟨mint, bl, h, rfl⟩
  metas := hmetas

theorem initializeExtraAccountMetaListHandler_ok {b : AuthorityAndMint}
    (h : initializeExtraAccountMetaListHandler s b = .ok s') :
    Lists s (.initializeExtraAccountMetaList b) s' := by
  simp [initializeExtraAccountMetaListHandler] at h
  obtain ⟨hfree, -, rfl⟩ := h
  exact .of_sets (.init hfree) (.inr ⟨b.mint, rfl⟩)

theorem migrateHookExtraAccountsHandler_ok {b : AuthorityAndMint}
    (h : migrateHookExtraAccountsHandler s b = .ok s') :
    Lists s (.migrateHookExtraAccounts b) s' := by
  simp [migrateHookExtraAccountsHandler] at h
  obtain ⟨⟨bl, hbl, hauth⟩, rfl⟩ := h
  have hlists := Lists.of_sets (.migrate hbl hauth) (.inr ⟨b.mint, rfl⟩)
  rwa [put_eq_self hbl] at hlists

/-- The list is written, or has the address already. -/
theorem blacklistAddHandler_eq {b : AuthorityAndMint}
    (h : blacklistAddHandler s b k = .ok s') :
    ∃ bl, s.blacklistStates (.hook .blacklistState b.mint) = some bl ∧
      bl.authority = b.authority.key ∧
      s' = { s with
        blacklistStates := put s.blacklistStates (.hook .blacklistState b.mint) (bl.add k) } := by
  simp only [blacklistAddHandler, bind_eq_ok, loadBlacklist_eq_ok] at h
  obtain ⟨bl, ⟨hbl, hauth⟩, h⟩ := h
  refine ⟨bl, hbl, hauth, ?_⟩
  split at h
  next hmem =>
    cases h
    rw [BlacklistState.add, if_pos hmem, put_eq_self hbl]
  next hmem =>
    simp only [bind_eq_ok, require_eq_ok, pure_eq_ok] at h
    obtain ⟨-, -, rfl⟩ := h
    rw [BlacklistState.add, if_neg hmem]

theorem blacklistAddHandler_ok {b : AuthorityAndMint} (h : blacklistAddHandler s b k = .ok s') :
    Lists s (.blacklistAdd b k) s' := by
  obtain ⟨bl, hbl, hauth, rfl⟩ := blacklistAddHandler_eq h
  exact .of_sets (.add hbl hauth) (.inl rfl)

theorem blacklistRemoveHandler_ok {b : AuthorityAndMint}
    (h : blacklistRemoveHandler s b k = .ok s') : Lists s (.blacklistRemove b k) s' := by
  simp only [blacklistRemoveHandler, bind_eq_ok, loadBlacklist_eq_ok, pure_eq_ok] at h
  obtain ⟨bl, ⟨hbl, hauth⟩, rfl⟩ := h
  exact .of_sets (.remove hbl hauth) (.inl rfl)

theorem blacklistAddAndFreezeHandler_ok {b : ComplianceAccounts} {blacklist hook : Pubkey}
    (h : blacklistAddAndFreezeHandler rt s b blacklist hook = .ok s') :
    Lists s (.blacklistAddAndFreeze b blacklist hook) s' := by
  simp only [blacklistAddAndFreezeHandler, bind_eq_ok, load_eq_ok, require_eq_ok,
    Option.okOr_eq_ok, pure_eq_ok] at h
  obtain ⟨c, -, -, -, -, -, -, -, acc, hacc, -, -, -, -, -, -, -, -, s₁, hadd, t, ht, rfl⟩ := h
  obtain ⟨bl, hbl, hauth, rfl⟩ := blacklistAddHandler_eq hadd
  have hmoves : s.tokens.Moves t := .single (.freeze (rt.token.freezeAccount_ok ht))
  exact
    { vaults := rfl
      positions := rfl
      tokens := hmoves.shifts
      terms := .of_eq rfl
      offices := .of_eq rfl
      moves := hmoves
      configs := rfl
      queues := rfl
      entries := rfl
      registries := rfl
      credentials := rfl
      escrows := rfl
      blacklists := ⟨b.mint, _, .addAndFreeze hbl hauth hacc, rfl⟩
      metas := .inl rfl }

end SolanaStablecoin
