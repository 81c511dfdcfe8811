import SolanaStablecoin.Program.Token2022
import SolanaStablecoin.Verify.Hook

/-! What the caller of the hook can bring about by the choice of the extra accounts: nothing that
the policies of the mint forbid. -/

namespace SolanaStablecoin

variable {clock : Clock} {s s' : State} {a : TransferHook} {n : UInt64}

namespace TransferHook

/-- The policies do not look at the extra accounts. -/
theorem Complies.with_extras {c : StablecoinConfig} {bl : BlacklistState} {src dst : Pubkey}
    (h : Complies clock s a n c bl src dst) (extras : List AccountInfo) :
    Complies clock s { a with extras } n c bl src dst where
  source := h.source
  destination := h.destination
  blacklist := h.blacklist
  config := h.config
  sender := h.sender
  receiver := h.receiver
  spendLimit := h.spendLimit
  verified := h.verified
  unsanctioned := h.unsanctioned
  credentialed := h.credentialed
  rateLimit := h.rateLimit
  consent := h.consent

/-- The extra accounts are all that the active policies of the config ask for, each where the hook
looks for it. -/
def Complete (s : State) (a : TransferHook) : Prop :=
  ∀ c src, s.configs (.stablecoinConfig a.mint) = some c →
    s.ownerOf a.sourceTokenAccount = some src →
    a.extraAccountMetaList = .hook .extraAccountMetas a.mint →
    ∃ remaining, Supplies a c src remaining

/-- With a complete list the hook accepts what any other list is accepted for. -/
theorem Complete.accepts (hcomplete : Complete s a) {extras : List AccountInfo}
    (h : transferHookHandler clock s { a with extras } n = .ok s') :
    transferHookHandler clock s a n = .ok s' := by
  obtain ⟨c, bl, src, dst, _, hcomplies, hsupplies, hdraws⟩ := transferHookHandler_eq_ok.mp h
  have hcomplies := hcomplies.with_extras a.extras
  obtain ⟨remaining, hsupplied⟩ := hcomplete c src hcomplies.config hcomplies.source hsupplies.metas
  exact transferHookHandler_eq_ok.mpr ⟨c, bl, src, dst, remaining, hcomplies, hsupplied, hdraws⟩

end TransferHook

open TransferHook

/-- A transfer that the hook accepts satisfies every active policy, whatever accounts were
supplied; and one that it rejects with all accounts in their places is rejected with every other
list of accounts too. -/
theorem transferHook_not_deceived (clock : Clock) (s : State) (a : TransferHook) (n : UInt64) :
    (∀ s', transferHookHandler clock s a n = .ok s' →
      ∃ c bl src dst, Complies clock s a n c bl src dst) ∧
    (Complete s a → (∀ s', transferHookHandler clock s a n ≠ .ok s') →
      ∀ extras s', transferHookHandler clock s { a with extras } n ≠ .ok s') := by
  constructor
  · intro s' h
    obtain ⟨c, bl, src, dst, -, hcomplies, -⟩ := transferHookHandler_eq_ok.mp h
    exact ⟨c, bl, src, dst, hcomplies⟩
  · intro hcomplete hrejects extras s' h
    exact hrejects s' (hcomplete.accepts h)

namespace Market

/-- A token account of the other user. -/
def otherStable : Signer := ⟨.key 34, rfl⟩

def thaw (account : Signer) : Action :=
  .call (day 0) (.thawAccount
    { complianceAuthority := authority, mint := mint.key, targetTokenAccount := account.key })

/-- A stablecoin with a feature. The user has 100. -/
def featured (flag : UInt64) : List Action :=
  [ .call (day 0) (.initializeStablecoin
      { payer := authority, mint, tokenProgram := token2022Id }
      { preset := 1, decimals := 6, featureFlags := some flag }),
    .world (.createAccount userStable mint.key user.key),
    thaw userStable,
    .world (.createAccount otherStable mint.key other.key),
    thaw otherStable,
    .call (day 0) (.updateMinter { asAuthority with minter := authority.key } 1000),
    .call (day 0) (.mint
      { minter := authority, mint := mint.key, recipientTokenAccount := userStable.key } 100) ]

/-- A stablecoin of preset 2 that names this hook, with its list of extra accounts. The user
has 100. -/
def compliant (featureFlags : UInt64) : List Action :=
  [ .call (day 0) (.initializeStablecoin
      { payer := authority, mint, tokenProgram := token2022Id }
      { preset := 2, decimals := 6, transferHookProgram := some .transferHookProgram
        featureFlags := some featureFlags }),
    .call (day 0) (.initializeExtraAccountMetaList asAuthority),
    .world (.createAccount userStable mint.key user.key),
    thaw userStable,
    .world (.createAccount otherStable mint.key other.key),
    thaw otherStable,
    .call (day 0) (.updateMinter { asAuthority with minter := authority.key } 1000),
    .call (day 0) (.mint
      { minter := authority, mint := mint.key, recipientTokenAccount := userStable.key } 100) ]

/-- The same with an oracle for sanctions. -/
def screened : State :=
  run localRuntime genesis (compliant flagSanctionsOracle ++
    [ .call (day 1) (.proposeTimelockedOp asAuthority adminOpSetSanctionsParams 0 feed),
      .call (day 3) (.executeTimelockedOp asAuthority) ])

/-- The user sends to the other user. -/
def transferCall (extras : List Pubkey) : TransferHook :=
  { sourceTokenAccount := userStable.key, mint := mint.key
    destinationTokenAccount := otherStable.key, owner := user.key
    extraAccountMetaList := .hook .extraAccountMetas mint.key
    extras := extras.map ({ key := ·, isWritable := false }) }

/-- The three accounts that have a place of their own. -/
def placed : List Pubkey :=
  [ .hook .blacklistState mint.key, config, .zkVerification mint.key user.key ]

end Market

open Market in
/-- A list that is rejected is accepted when two of its accounts change places: the sanctions
record must come first. -/
theorem transferHook_reordered :
    ∃ extras extras' : List Pubkey, extras.Perm extras' ∧
      (transferHookHandler (day 3) screened (transferCall extras) 1).isOk = false ∧
      (transferHookHandler (day 3) screened (transferCall extras') 1).isOk = true := by
  refine ⟨placed ++ [feed, .sanctionsRecord mint.key user.key],
    placed ++ [.sanctionsRecord mint.key user.key, feed], ?_, ?_, ?_⟩
  · exact (List.Perm.swap ..).append_left placed
  · decide +kernel
  · decide +kernel

end SolanaStablecoin
