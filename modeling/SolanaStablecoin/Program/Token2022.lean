import Mathlib.Data.Option.Basic
import SolanaStablecoin.Program.Step

/-! A token program and a price-feed reader that run: every instruction is accepted as soon as
its documented checks hold, and no transfer fee is charged. They show that what is asked of the
parameters can be met, and concrete transactions execute on them. -/

namespace SolanaStablecoin

namespace Token2022

def mintTo (t : Tokens) (mint dst authority : Pubkey) (n : UInt64) : Option Tokens := do
  let m ← t.mints mint
  let a ← t.accounts dst
  guard (m.mintAuthority = some authority ∧ a.mint = mint ∧ a.frozen = false ∧
    m.supply.toNat + n.toNat < 2 ^ 64 ∧ a.amount.toNat + n.toNat < 2 ^ 64)
  some ((t.setMint mint { m with supply := m.supply + n }).setAccount dst (a.credit n))

def burn (t : Tokens) (mint src authority : Pubkey) (n : UInt64) : Option Tokens := do
  let m ← t.mints mint
  let a ← t.accounts src
  guard (a.mint = mint ∧ a.frozen = false ∧ a.authorizes m authority n = true ∧
    n ≤ a.amount ∧ n ≤ m.supply)
  some ((t.setMint mint { m with supply := m.supply - n }).setAccount src (a.debit m authority n))

def transferChecked (t : Tokens) (src mint dst authority : Pubkey) (n : UInt64) :
    Option Tokens := do
  let m ← t.mints mint
  let a ← t.accounts src
  let b ← t.accounts dst
  guard (a.mint = mint ∧ b.mint = mint ∧ a.frozen = false ∧ b.frozen = false ∧
    a.authorizes m authority n = true ∧ n ≤ a.amount ∧
    (src ≠ dst → b.amount.toNat + (n - 0).toNat < 2 ^ 64))
  some (if src = dst then t else
    (t.setAccount src (a.debit m authority n)).setAccount dst (b.credit (n - 0)))

def thawAccount (t : Tokens) (account mint authority : Pubkey) : Option Tokens := do
  let m ← t.mints mint
  let a ← t.accounts account
  guard (a.mint = mint ∧ m.freezeAuthority = some authority ∧ a.frozen = true)
  some (t.setAccount account { a with frozen := false })

def freezeAccount (t : Tokens) (account mint authority : Pubkey) : Option Tokens := do
  let m ← t.mints mint
  let a ← t.accounts account
  guard (a.mint = mint ∧ m.freezeAuthority = some authority ∧ a.frozen = false)
  some (t.setAccount account { a with frozen := true })

def approve (t : Tokens) (account delegate authority : Pubkey) (n : UInt64) :
    Option Tokens := do
  let a ← t.accounts account
  guard (a.owner = authority ∧ a.frozen = false)
  some (t.setAccount account { a with delegate := some delegate, delegatedAmount := n })

def setAccountOwner (t : Tokens) (account newOwner authority : Pubkey) : Option Tokens := do
  let a ← t.accounts account
  guard (a.owner = authority ∧ a.frozen = false)
  some (t.setAccount account { a with owner := newOwner, delegate := none, delegatedAmount := 0 })

def initializeAccount (t : Tokens) (account mint owner : Pubkey) : Option Tokens := do
  let m ← t.mints mint
  guard ((t.accounts account).isNone = true)
  some (t.setAccount account
    { mint, owner, amount := 0, delegate := none, delegatedAmount := 0
      frozen := m.defaultFrozen })

def initializeMint (t : Tokens) (mint : Pubkey) (m : Mint) : Option Tokens := do
  guard ((t.mints mint).isNone = true ∧ m.supply = 0)
  some (t.setMint mint m)

end Token2022

open Token2022 in
/-- The token program that performs exactly the documented checks. -/
def token2022 : TokenProgram where
  mintTo := mintTo
  burn := burn
  transferChecked := transferChecked
  transferFee _ _ _ := 0
  thawAccount := thawAccount
  freezeAccount := freezeAccount
  approve := approve
  setAccountOwner := setAccountOwner
  initializeAccount := initializeAccount
  initializeMint := initializeMint
  mintTo_ok h := by
    simp only [mintTo, Option.bind_eq_bind, Option.bind_eq_some_iff,
      Option.guard_eq_some'] at h
    obtain ⟨m, hm, a, ha, -, ⟨h₁, h₂, h₃, h₄, h₅⟩, h⟩ := h
    exact ⟨m, a, hm, ha, h₁, h₂, h₃, h₄, h₅, (Option.some.inj h).symm⟩
  burn_ok h := by
    simp only [burn, Option.bind_eq_bind, Option.bind_eq_some_iff,
      Option.guard_eq_some'] at h
    obtain ⟨m, hm, a, ha, -, ⟨h₁, h₂, h₃, h₄, h₅⟩, h⟩ := h
    exact ⟨m, a, hm, ha, h₁, h₂, h₃, h₄, h₅, (Option.some.inj h).symm⟩
  transferChecked_ok h := by
    simp only [transferChecked, Option.bind_eq_bind, Option.bind_eq_some_iff,
      Option.guard_eq_some'] at h
    obtain ⟨m, hm, a, ha, b, hb, -, ⟨h₁, h₂, h₃, h₄, h₅, h₆, h₇⟩, h⟩ := h
    exact ⟨m, a, b, hm, ha, hb, h₁, h₂, h₃, h₄, h₅, h₆, h₇, (Option.some.inj h).symm⟩
  transferFee_le := UInt64.zero_le
  thawAccount_ok h := by
    simp only [thawAccount, Option.bind_eq_bind, Option.bind_eq_some_iff,
      Option.guard_eq_some'] at h
    obtain ⟨m, hm, a, ha, -, ⟨h₁, h₂, h₃⟩, h⟩ := h
    exact ⟨m, a, hm, ha, h₁, h₂, h₃, (Option.some.inj h).symm⟩
  freezeAccount_ok h := by
    simp only [freezeAccount, Option.bind_eq_bind, Option.bind_eq_some_iff,
      Option.guard_eq_some'] at h
    obtain ⟨m, hm, a, ha, -, ⟨h₁, h₂, h₃⟩, h⟩ := h
    exact ⟨m, a, hm, ha, h₁, h₂, h₃, (Option.some.inj h).symm⟩
  approve_ok h := by
    simp only [approve, Option.bind_eq_bind, Option.bind_eq_some_iff,
      Option.guard_eq_some'] at h
    obtain ⟨a, ha, -, ⟨h₁, h₂⟩, h⟩ := h
    exact ⟨a, ha, h₁, h₂, (Option.some.inj h).symm⟩
  setAccountOwner_ok h := by
    simp only [setAccountOwner, Option.bind_eq_bind, Option.bind_eq_some_iff,
      Option.guard_eq_some'] at h
    obtain ⟨a, ha, -, ⟨h₁, h₂⟩, h⟩ := h
    exact ⟨a, ha, h₁, h₂, (Option.some.inj h).symm⟩
  initializeAccount_ok h := by
    simp only [initializeAccount, Option.bind_eq_bind, Option.bind_eq_some_iff,
      Option.guard_eq_some'] at h
    obtain ⟨m, hm, -, h₁, h⟩ := h
    exact ⟨m, hm, Option.isNone_iff_eq_none.mp h₁, (Option.some.inj h).symm⟩
  initializeMint_ok h := by
    simp only [initializeMint, Option.bind_eq_bind, Option.bind_eq_some_iff,
      Option.guard_eq_some'] at h
    obtain ⟨-, ⟨h₁, h₂⟩, h⟩ := h
    exact ⟨Option.isNone_iff_eq_none.mp h₁, h₂, (Option.some.inj h).symm⟩
  burn_plain _ _ _ _ h := by
    obtain ⟨m, a, hm, ha, h₁, h₂, h₃, h₄, h₅, rfl⟩ := h
    simp only [burn, Option.bind_eq_bind, Option.bind_eq_some_iff, Option.guard_eq_some']
    exact ⟨m, hm, a, ha, (), ⟨h₁, h₂, h₃, h₄, h₅⟩, rfl⟩

/-- A feed is read when it was published at most `age` seconds ago. -/
def getPriceNoOlderThan (feed : Price) (now : Int64) (age : UInt64) : Option Price :=
  if (now.toInt - feed.publishTime.toInt).natAbs ≤ age.toNat then some feed else none

/-- The hash of 32 zero bytes; no other data are hashed here. -/
def blake3OfZeros : BitVec 256 :=
  0x2ada83c1819a5372dae1238fc1ded123c8104fdaa15862aaee69428a1820fcda

def localRuntime : Runtime where
  token := token2022
  getPriceNoOlderThan := getPriceNoOlderThan
  bump _ := 255
  blake3 {n} data := if n = 256 ∧ data = 0 then blake3OfZeros else 0

/-! ## A market to run -/

namespace Market

/-- No account at all. -/
def genesis : State where
  tokens := { mints := fun _ => none, accounts := fun _ => none }
  configs _ := none
  minterInfos _ := none
  collateralVaults _ := none
  cdpPositions _ := none
  interfaceVersions _ := none
  yieldCollateralConfigs _ := none
  collateralConfigs _ := none
  customPriceFeeds _ := none
  proofsOfReserves _ := none
  oracleConsensuses _ := none
  sanctionsRecords _ := none
  psmCurveConfigs _ := none
  redemptionPools _ := none
  redemptionQueues _ := none
  redemptionEntries _ := none
  redemptionGuarantees _ := none
  redemptionRequests _ := none
  marketMakerConfigs _ := none
  bridgeConfigs _ := none
  consumedMessageIds _ := none
  verificationRecords _ := none
  credentialRegistries _ := none
  credentialRecords _ := none
  walletRateLimits _ := none
  keeperConfigs _ := none
  authorityRotationRequests _ := none
  squadsMultisigConfigs _ := none
  blacklistStates _ := none
  extraAccountMetaLists _ := none
  travelRuleRecords _ := none
  zkComplianceConfigs _ := none
  issuerRegistries _ := none
  pidConfigs _ := none
  liquidationBonusConfigs _ := none
  reserveCompositions _ := none
  insuranceVaults _ := none
  daoCommittees _ := none
  proposals _ := none
  guardianConfigs _ := none
  pauseProposals _ := none
  probabilisticVaults _ := none
  paymentChannels _ := none
  proposedSettlements _ := none
  pythPriceFeeds _ := none

theorem genesis_genesis : Genesis genesis where
  configs _ := rfl
  collateralVaults _ := rfl
  cdpPositions _ := rfl
  tokens _ _ h := nomatch h

/-- The authority, which is also the multisig; a user; another user. -/
def authority : Signer := ⟨.key 10, rfl⟩
def user : Signer := ⟨.key 11, rfl⟩
def other : Signer := ⟨.key 12, rfl⟩

/-- The stablecoin and two collaterals. -/
def mint : Signer := ⟨.key 20, rfl⟩
def gold : Signer := ⟨.key 21, rfl⟩
def silver : Signer := ⟨.key 22, rfl⟩

/-- Token accounts of the user. -/
def userStable : Signer := ⟨.key 30, rfl⟩
def userGold : Signer := ⟨.key 31, rfl⟩
def userSilver : Signer := ⟨.key 32, rfl⟩

/-- Token accounts of the user's vaults, two of them for gold. -/
def goldAccount : Signer := ⟨.key 40, rfl⟩
def goldAccount' : Signer := ⟨.key 41, rfl⟩
def silverAccount : Signer := ⟨.key 42, rfl⟩

/-- The reserve, owned by the config; the vault of a redemption pool, and where it is filled
from. -/
def reserve : Signer := ⟨.key 50, rfl⟩
def poolVault : Signer := ⟨.key 51, rfl⟩
def reserveSource : Signer := ⟨.key 52, rfl⟩

def feed : Pubkey := .key 60

def config : Pubkey := .stablecoinConfig mint.key
def goldVault : Pubkey := .collateralVault mint.key user.key gold.key
def silverVault : Pubkey := .collateralVault mint.key user.key silver.key

/-- The clock after so many days of 216000 slots. -/
def day (n : Nat) : Clock :=
  { slot := .ofNat (216000 * n), epoch := 0, unixTimestamp := .ofNat (86400 * n) }

def asAuthority : AuthorityAndMint := { authority, mint := mint.key }

def collateral (issuer : Signer) : Mint :=
  { mintAuthority := some issuer.key, supply := 0, decimals := 6, freezeAuthority := none
    permanentDelegate := none, defaultFrozen := false, extended := false }

/-- A stablecoin of preset 3 with a cap, backed by gold, and a dollar price on day `n`. -/
def opening (cap : UInt64) : List Action :=
  [ .world (.createMint gold (collateral authority)),
    .world (.createMint silver (collateral authority)),
    .call (day 0) (.initializeStablecoin
      { payer := authority, mint, tokenProgram := token2022Id }
      { preset := 3, decimals := 6, collateralMint := some gold.key
        reserveVault := some reserve.key, maxSupply := some cap
        adminTimelockDelay := some 216000, squadsMultisig := some authority.key }),
    .world (.createAccount userStable mint.key user.key),
    .call (day 0) (.thawAccount
      { complianceAuthority := authority, mint := mint.key, targetTokenAccount := userStable.key }),
    .world (.createAccount userGold gold.key user.key),
    .world (.mintTo authority gold.key userGold.key 1000) ]

/-- The user's gold goes to the user's vault. -/
def depositGold (amount : UInt64) (account : Signer) : Action :=
  .call (day 0) (.cdpDepositCollateral
    { user, sssMint := mint.key, collateralMint := gold.key, vaultTokenAccount := account.key
      userCollateralAccount := userGold.key } amount)

/-- The price of gold on day `n`. -/
def publish (price : Int64) (n : Nat) : Action :=
  .world (.publishPythPrice feed
    { price, conf := 0, expo := 0, publishTime := (day n).unixTimestamp })

def borrower : CdpBorrowStable :=
  { user, sssMint := mint.key, collateralMint := gold.key, userSssAccount := userStable.key
    pythPriceFeed := feed }

def borrow (amount : UInt64) (n : Nat) : Action :=
  .call (day n) (.cdpBorrowStable borrower amount)

def repay (amount : UInt64) (collateralMint vault account : Pubkey) : Action :=
  .call (day 0) (.cdpRepayStable
    { user, sssMint := mint.key, userSssAccount := userStable.key, collateralMint
      vaultTokenAccount := vault, userCollateralAccount := account } amount)

/-- The user has 500 of gold in the vault, at one dollar. -/
def deposited (cap : UInt64) : List Action :=
  opening cap ++
    [ .world (.createAccount goldAccount gold.key goldVault), depositGold 500 goldAccount,
      publish 1 0 ]

/-- The user has borrowed 100 against it. -/
def funded (cap : UInt64) : List Action := deposited cap ++ [borrow 100 0]

/-- A loan of 100 of which 40 are repaid. -/
def repaid : List Action := funded 1000 ++ [repay 40 gold.key goldAccount.key userGold.key]

/-- A redemption pool with 500 of gold. -/
def pool : List Action :=
  [ .world (.createAccount poolVault gold.key (.vaultAuthority mint.key)),
    .world (.createAccount reserveSource gold.key authority.key),
    .world (.mintTo authority gold.key reserveSource.key 1000),
    .call (day 0) (.seedRedemptionPool
      { authority, config, reserveVault := poolVault.key, reserveSource := reserveSource.key }
      500 0 0) ]

/-- An admin operation goes through the timelock: proposed on day `n`, executed a day later. -/
def timelocked (kind : UInt8) (param : UInt64) (n : Nat) : List Action :=
  [ .call (day n) (.proposeTimelockedOp asAuthority kind param .default),
    .call (day (n + 1)) (.executeTimelockedOp asAuthority) ]

/-- The reserve with 200 of gold, and a flat curve for the peg stability module. -/
def reserves : List Action :=
  [ .world (.createAccount reserve gold.key config),
    .call (day 0) (.depositCollateral
      { depositor := user, sssMint := mint.key, collateralMint := gold.key
        depositorCollateral := userGold.key, reserveVault := reserve.key } 200),
    .call (day 0) (.initPsmCurveConfig { authority, config } 0 0 0) ]

def swap (amount : UInt64) : Instruction :=
  .psmDynamicSwap
    { redeemer := user, sssMint := mint.key, redeemerSssAccount := userStable.key
      collateralMint := gold.key, reserveVault := reserve.key
      redeemerCollateral := userGold.key } amount

def redeemPool (amount : UInt64) : Instruction :=
  .instantRedemption
    { user, config, userTokenAccount := userStable.key, reserveVault := poolVault.key
      userReserveAccount := userGold.key } amount

/-- A queue with one entry for 1. -/
def queue : List Action :=
  [ .call (day 2) (.initRedemptionQueue { authority, config }),
    .call (day 2) (.enqueueRedemption
      { user, config, userStableAta := userStable.key, stableMint := mint.key } 1) ]

def processHead : Instruction :=
  .processRedemption
    { keeper := other, config, reserveVault := userGold.key, reserveVaultAuthority := user
      userCollateralAta := goldAccount.key, stableMint := mint.key, collateralMint := gold.key } 0

/-- Pool, reserve and queue are open, and then the circuit breaker trips. -/
def tripped : State :=
  run localRuntime genesis (funded 1000 ++ pool ++ reserves ++
    timelocked adminOpSetFeatureFlag (flagCircuitBreaker ||| flagRedemptionQueue) 1 ++ queue)

/-- The same without the circuit breaker, and then paused. -/
def halted : State :=
  run localRuntime genesis (funded 1000 ++ pool ++ reserves ++
    timelocked adminOpSetFeatureFlag flagRedemptionQueue 1 ++ queue ++
    timelocked adminOpPause 0 2)

/-- Halted, with an open request of 10 in escrow, to be paid from the user's own gold. -/
def requested : State := { halted with
  tokens := halted.tokens.setAccount (.redemptionEscrow mint.key user.key)
    { mint := mint.key, owner := .redemptionGuarantee mint.key, amount := 10, delegate := none
      delegatedAmount := 0, frozen := false }
  redemptionGuarantees := put halted.redemptionGuarantees (.redemptionGuarantee mint.key)
    { sssMint := mint.key, reserveVault := userGold.key }
  redemptionRequests := put halted.redemptionRequests (.redemptionRequest mint.key user.key)
    { sssMint := mint.key, user := user.key, amount := 10, requestedSlot := (day 2).slot
      expirySlot := (day 4).slot } }

def fulfill : Instruction :=
  .fulfillRedemption
    { fulfiller := user, config, redemptionRequest := .redemptionRequest mint.key user.key
      reserveVault := userGold.key, userCollateralAta := goldAccount.key
      burnDestination := userStable.key, stableMint := mint.key, collateralMint := gold.key }

end Market

end SolanaStablecoin
