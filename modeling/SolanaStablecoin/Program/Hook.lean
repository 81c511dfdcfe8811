import SolanaStablecoin.Program.Data
import SolanaStablecoin.Program.RateLimit

/-! The `transfer-hook` program: what it asks of a transfer, and the blacklist and the list of
extra accounts it keeps for each mint. It shares no code with `sss-token` and reads the accounts
of that program by offset. -/

namespace SolanaStablecoin

open Cell Layout

variable (rt : Runtime) (clock : Clock) (s : State)

/-! ## Offsets -/

def featureFlagsOffset : Nat := 298
def maxTransferAmountOffset : Nat := 306
def sanctionsOracleOffset : Nat := 524
def sanctionsMaxStalenessOffset : Nat := 556
def sanctionsConfigMinSize : Nat := 564

def zkRecordExpiresOffset : Nat := 72
def zkRecordMinSize : Nat := 80

def sanctionsIsSanctionedOffset : Nat := 8
def sanctionsUpdatedSlotOffset : Nat := 9
def sanctionsRecordMinSize : Nat := 17

def crExpiresSlotOffset : Nat := 80
def crRevokedOffset : Nat := 88
def crMinSize : Nat := 90

def wrlMaxTransferOffset : Nat := 72
def wrlWindowSlotsOffset : Nat := 80
def wrlTransferredOffset : Nat := 88
def wrlWindowStartOffset : Nat := 96
def wrlMinSize : Nat := 104

/-- A slice that is not there panics. -/
def readU64 (data : List Cell) (off : Nat) : Result UInt64 := (u64.read data off).okOr .panic

/-! ## transfer_hook -/

namespace BlacklistState

def isBlacklisted (bl : BlacklistState) (k : Pubkey) : Bool := k ∈ bl.blacklisted

end BlacklistState

structure AccountInfo where
  key : Pubkey
  isWritable : Bool
deriving DecidableEq

/-- The five accounts that Token-2022 passes, and whatever the caller has put behind them: first
the blacklist, the config and the verification record, then the remaining accounts. -/
structure TransferHook where
  sourceTokenAccount : Pubkey
  mint : Pubkey
  destinationTokenAccount : Pubkey
  owner : Pubkey
  extraAccountMetaList : Pubkey
  extras : List AccountInfo
deriving DecidableEq

/-- The first of the remaining accounts at an address. -/
def findAccount (remaining : List AccountInfo) (k : Pubkey) (e : ProgramError) :
    Result AccountInfo :=
  (remaining.find? (·.key = k)).okOr e

/-- The owner that a token account records. -/
def readOwner (account : Pubkey) (e : HookError) : Result Pubkey := do
  let data := s.data account
  require (data.length ≥ 64) .panic
  (key.read data 32).okOr (.hook e)

namespace TransferHook

variable (a : TransferHook)

/-- Encrypted transfers hide the amount, so they are refused under a spend limit. -/
def checkSpendPolicy (configData : List Cell) (featureFlags amount : UInt64) : Result Unit :=
  requireWhen (featureFlags &&& flagSpendPolicy ≠ 0) do
    require (featureFlags &&& flagConfidentialTransfers = 0) (.hook .spendLimitExceeded)
    let maxTransferAmount ← readU64 configData maxTransferAmountOffset
    require (amount ≤ maxTransferAmount) (.hook .spendLimitExceeded)

def checkZkCompliance (verificationRecord srcOwner : Pubkey) (featureFlags : UInt64) :
    Result Unit :=
  requireWhen (featureFlags &&& flagZkCompliance ≠ 0) do
    require (verificationRecord = .zkVerification a.mint srcOwner) (.hook .zkRecordMissing)
    let vrData := s.data verificationRecord
    require (vrData.length ≥ zkRecordMinSize) (.hook .zkRecordMissing)
    let expiresAt ← readU64 vrData zkRecordExpiresOffset
    require (clock.slot < expiresAt) (.hook .zkRecordExpired)

/-- The record must be the first of the remaining accounts. An empty one means that the sender is
not known to the oracle. -/
def checkSanctions (configData : List Cell) (srcOwner : Pubkey) (featureFlags : UInt64)
    (remaining : List AccountInfo) : Result Unit :=
  requireWhen (featureFlags &&& flagSanctionsOracle ≠ 0 ∧
      configData.length ≥ sanctionsConfigMinSize) do
    let sanctionsOracle ← (key.read configData sanctionsOracleOffset).okOr .panic
    let maxStaleness ← readU64 configData sanctionsMaxStalenessOffset
    requireWhen (sanctionsOracle ≠ .default) do
      let sr ← remaining.head?.okOr (.hook .sanctionsRecordMissing)
      require (sr.key = .sanctionsRecord a.mint srcOwner) (.hook .sanctionsRecordMissing)
      let srData := s.data sr.key
      requireWhen (srData.length ≥ sanctionsRecordMinSize) do
        let isSanctioned ← (bool.read srData sanctionsIsSanctionedOffset).okOr .panic
        requireWhen isSanctioned do
          requireWhen (maxStaleness > 0) do
            let updatedSlot ← readU64 srData sanctionsUpdatedSlotOffset
            require (clock.slot.saturatingSub updatedSlot ≤ maxStaleness)
              (.hook .sanctionsRecordStale)
          .error (.hook .sanctionedAddress)

def checkCredential (srcOwner : Pubkey) (featureFlags : UInt64) (remaining : List AccountInfo) :
    Result Unit :=
  requireWhen (featureFlags &&& flagZkCredentials ≠ 0) do
    let cr ← findAccount remaining (.credentialRecord a.mint srcOwner) (.hook .credentialRequired)
    let crData := s.data cr.key
    require (crData.length ≥ crMinSize) (.hook .credentialRequired)
    let revoked ← (bool.read crData crRevokedOffset).okOr .panic
    require (revoked = false) (.hook .credentialRevoked)
    let expiresSlot ← readU64 crData crExpiresSlotOffset
    requireWhen (expiresSlot > 0) <|
      require (clock.slot ≤ expiresSlot) (.hook .credentialExpired)

/-- The total of the window after a transfer of `amount`, as the hook reckons it in advance. -/
def preCheck (wrlData : List Cell) (amount : UInt64) : Result Bool :=
  if wrlData.length < wrlMinSize then .ok false
  else do
    let maxTransfer ← readU64 wrlData wrlMaxTransferOffset
    let windowSlots ← readU64 wrlData wrlWindowSlotsOffset
    let transferred ← readU64 wrlData wrlTransferredOffset
    let windowStart ← readU64 wrlData wrlWindowStartOffset
    let newTransferred :=
      if windowStart = 0 ∨ clock.slot ≥ windowStart.saturatingAdd windowSlots then amount
      else transferred.saturatingAdd amount
    pure (newTransferred ≤ maxTransfer)

/-- The counters are written by `sss-token`, which is called with the hook's own address as the
caller. -/
def recordTransfer (srcOwner : Pubkey) (featureFlags amount : UInt64)
    (remaining : List AccountInfo) : Result State :=
  onlyWhen (featureFlags &&& flagWalletRateLimits ≠ 0) s do
    let wrl ← findAccount remaining (.walletRateLimit a.mint srcOwner)
      (.hook .walletRateLimitAccountNotWritable)
    require wrl.isWritable (.hook .walletRateLimitAccountNotWritable)
    let _ ← findAccount remaining (.stablecoinConfig a.mint) (.hook .invalidConfig)
    let _ ← findAccount remaining .sssTokenProgram (.hook .invalidConfig)
    let hookProgram ← findAccount remaining .transferHookProgram
      (.hook .walletRateLimitAccountNotWritable)
    let preCheckOk ← preCheck clock (s.data wrl.key) amount
    require preCheckOk (.hook .walletRateLimitExceeded)
    let mint ← findAccount remaining a.mint .invalidAccountData
    (updateWalletRateLimitHandler clock s
      { caller := hookProgram.key, isSigner := false, canSign := nofun, mint := mint.key }
      srcOwner amount).mapError fun _ => .hook .walletRateLimitAccountNotWritable

/-- A transfer that the owner does not sign needs a consent account. The flags are read again. -/
def checkOwnerConsent (configData : List Cell) (remaining : List AccountInfo) : Result Unit :=
  requireWhen (configData.length ≥ featureFlagsOffset + 8 ∧
      configData.take 8 = stablecoinConfigDiscriminator) do
    let featureFlags ← readU64 configData featureFlagsOffset
    requireWhen (featureFlags &&& flagRequireOwnerConsent ≠ 0) do
      let srcOwner ← readOwner s a.sourceTokenAccount .ownerConsentRequired
      requireWhen (a.owner ≠ srcOwner) <|
        require (remaining.any fun i =>
          i.key = .delegateConsent a.mint srcOwner ∧ (s.data i.key).length ≥ 8)
          (.hook .ownerConsentRequired)

/-- The extra accounts that have a place of their own, and the remaining ones. -/
def split : Result (AccountInfo × AccountInfo × AccountInfo × List AccountInfo) :=
  match a.extras with
  | blacklist :: config :: verification :: remaining =>
    .ok (blacklist, config, verification, remaining)
  | _ => .error (.anchor .accountNotEnoughKeys)

end TransferHook

def transferHookHandler (a : TransferHook) (amount : UInt64) : Result State := do
  let (blacklistState, stablecoinConfig, verificationRecord, remaining) ← a.split
  let blacklist ← load s.blacklistStates blacklistState.key
  require (a.extraAccountMetaList = .hook .extraAccountMetas a.mint) (.anchor .constraintSeeds)
  require (blacklistState.key = .hook .blacklistState a.mint) (.anchor .constraintSeeds)
  let srcOwner ← readOwner s a.sourceTokenAccount .senderBlacklisted
  require (blacklist.isBlacklisted srcOwner = false) (.hook .senderBlacklisted)
  let dstOwner ← readOwner s a.destinationTokenAccount .receiverBlacklisted
  require (blacklist.isBlacklisted dstOwner = false) (.hook .receiverBlacklisted)
  require (stablecoinConfig.key = .stablecoinConfig a.mint) (.hook .invalidConfig)
  let configData := s.data stablecoinConfig.key
  require (configData.length ≥ maxTransferAmountOffset + 8) (.hook .invalidConfig)
  require (configData.take 8 = stablecoinConfigDiscriminator) (.hook .invalidConfig)
  let featureFlags ← readU64 configData featureFlagsOffset
  TransferHook.checkSpendPolicy configData featureFlags amount
  a.checkZkCompliance clock s verificationRecord.key srcOwner featureFlags
  a.checkSanctions clock s configData srcOwner featureFlags remaining
  a.checkCredential clock s srcOwner featureFlags remaining
  let s' ← a.recordTransfer clock s srcOwner featureFlags amount remaining
  a.checkOwnerConsent s' (s'.data stablecoinConfig.key) remaining
  pure s'

/-! ## The list of extra accounts -/

/-- What `initialize_extra_account_meta_list` registers, and the migration again. -/
def accountMetas : List ExtraAccountMeta :=
  [ { seeds := [.literal .blacklistState, .accountKey 1], isSigner := false, isWritable := false },
    { seeds := [.literal .stablecoinConfig, .accountKey 1], isSigner := false
      isWritable := false },
    { seeds := [.literal .zkVerification, .accountKey 1, .accountData 0 32 32], isSigner := false
      isWritable := false } ]

/-- Anybody may call it, and is the authority of the blacklist from then on. -/
def initializeExtraAccountMetaListHandler (a : AuthorityAndMint) : Result State := do
  requireFree s.blacklistStates (.hook .blacklistState a.mint)
  requireFree s.extraAccountMetaLists (.hook .extraAccountMetas a.mint)
  pure { s with
    extraAccountMetaLists :=
      put s.extraAccountMetaLists (.hook .extraAccountMetas a.mint) accountMetas
    blacklistStates := put s.blacklistStates (.hook .blacklistState a.mint)
      { mint := a.mint, authority := a.authority.key, blacklisted := [] } }

/-- The blacklist of the mint, for its authority. -/
def loadBlacklist (a : AuthorityAndMint) : Result BlacklistState := do
  let bl ← load s.blacklistStates (.hook .blacklistState a.mint)
  require (bl.authority = a.authority.key) (.hook .unauthorized)
  pure bl

def migrateHookExtraAccountsHandler (a : AuthorityAndMint) : Result State := do
  let _ ← loadBlacklist s a
  pure { s with
    extraAccountMetaLists :=
      put s.extraAccountMetaLists (.hook .extraAccountMetas a.mint) accountMetas }

/-! ## The blacklist -/

/-- The account has room for that many addresses. -/
def BlacklistState.maxAddresses : Nat := 100

def blacklistAddHandler (a : AuthorityAndMint) (address : Pubkey) : Result State := do
  let bl ← loadBlacklist s a
  if address ∈ bl.blacklisted then pure s
  else do
    require (bl.blacklisted.length < BlacklistState.maxAddresses)
      (.anchor .accountDidNotSerialize)
    pure { s with
      blacklistStates := put s.blacklistStates (.hook .blacklistState a.mint)
        { bl with blacklisted := bl.blacklisted ++ [address] } }

def blacklistRemoveHandler (a : AuthorityAndMint) (address : Pubkey) : Result State := do
  let bl ← loadBlacklist s a
  pure { s with
    blacklistStates := put s.blacklistStates (.hook .blacklistState a.mint)
      { bl with blacklisted := bl.blacklisted.filter (· ≠ address) } }

/-- `blacklist_add_and_freeze` of `sss-token`: the owner of the account is listed under the
signature of the compliance authority, and the account is frozen. -/
def blacklistAddAndFreezeHandler (a : ComplianceAccounts) (blacklistState hookProgram : Pubkey) :
    Result State := do
  let config ← load s.configs (.stablecoinConfig a.mint)
  require (config.complianceAuthority = a.complianceAuthority.key) (.sss .unauthorizedCompliance)
  let _ ← load s.tokens.mints a.mint
  require (a.mint = config.mint) (.sss .invalidMint)
  let target ← load s.tokens.accounts a.targetTokenAccount
  require (target.mint = a.mint) (.sss .invalidMint)
  require (hookProgram = config.transferHookProgram) (.sss .invalidTransferHookProgram)
  -- only this program's own hook derives addresses that are modelled
  require (hookProgram = .transferHookProgram) (.sss .invalidBlacklistState)
  require (blacklistState = .hook .blacklistState a.mint) (.sss .invalidBlacklistState)
  let s ← blacklistAddHandler s { authority := a.complianceAuthority, mint := a.mint }
    target.owner
  let tokens ← (rt.token.freezeAccount s.tokens a.targetTokenAccount a.mint
    (.stablecoinConfig a.mint)).okOr .token
  pure { s with tokens }

end SolanaStablecoin
