import SolanaStablecoin.Program.Raw

/-! `migrate_config` on the bytes and the lamports of an account, whatever its size (`upgrade.rs`).
An address is its 32 bytes here. -/

namespace SolanaStablecoin

open Cell Layout

/-- Borsh takes no other bytes for a flag. -/
def Cell.flag : Codec Cell Bool where
  size := 1
  encode b := [byte (if b then 1 else 0)]
  decode
    | [byte b] => if b = 0 then some false else if b = 1 then some true else none
    | _ => none
  length_encode := bool.length_encode
  decode_encode b := by cases b <;> rfl

/-! ## The two layouts -/

/-- The fields of version 0, as the transfer hook documents them. -/
structure ConfigV0 where
  mint : BitVec 256
  authority : BitVec 256
  complianceAuthority : BitVec 256
  preset : UInt8
  paused : Bool
  totalMinted : UInt64
  totalBurned : UInt64
  transferHookProgram : BitVec 256
  collateralMint : BitVec 256
  reserveVault : BitVec 256
  totalCollateral : UInt64
  maxSupply : UInt64
  pendingAuthority : BitVec 256
  pendingComplianceAuthority : BitVec 256
  featureFlags : UInt64
  maxTransferAmount : UInt64
  bump : UInt8
deriving DecidableEq

/-- The current fields; those that were added have their documented defaults. -/
structure ConfigV1 extends ConfigV0 where
  expectedPythFeed : BitVec 256 := 0
  adminOpMatureSlot : UInt64 := 0
  adminOpKind : UInt8 := 0
  adminOpParam : UInt64 := 0
  adminOpTarget : BitVec 256 := 0
  adminTimelockDelay : UInt64 := defaultAdminTimelockDelay
  maxOracleAgeSecs : UInt32 := 0
  maxOracleConfBps : UInt16 := 0
  stabilityFeeBps : UInt16 := 0
  redemptionFeeBps : UInt16 := 0
  insuranceFundPubkey : BitVec 256 := 0
  maxBackstopBps : UInt16 := 0
  auditorElgamalPubkey : BitVec 256 := 0
  oracleType : UInt8 := 0
  oracleFeed : BitVec 256 := 0
  supplyCapLocked : Bool := false
  version : UInt8 := currentVersion
  minReserveRatioBps : UInt16 := 0
  travelRuleThreshold : UInt64 := 0
  sanctionsOracle : BitVec 256 := 0
  sanctionsMaxStalenessSlots : UInt64 := 0
  authorizedKeepers : List (BitVec 256) := []
  squadsMultisig : BitVec 256 := 0
  expectedUpgradeAuthority : BitVec 256 := 0
deriving DecidableEq

namespace ConfigV0

/-- What the two layouts have in common: everything up to the bump. -/
def front (c : ConfigV0) : List (List Cell) :=
  [ stablecoinConfigDiscriminator,
    bytes32.encode c.mint,
    bytes32.encode c.authority,
    bytes32.encode c.complianceAuthority,
    u8.encode c.preset,
    flag.encode c.paused,
    u64.encode c.totalMinted,
    u64.encode c.totalBurned,
    bytes32.encode c.transferHookProgram,
    bytes32.encode c.collateralMint,
    bytes32.encode c.reserveVault,
    u64.encode c.totalCollateral,
    u64.encode c.maxSupply,
    bytes32.encode c.pendingAuthority,
    bytes32.encode c.pendingComplianceAuthority,
    u64.encode c.featureFlags,
    u64.encode c.maxTransferAmount ]

def fields (c : ConfigV0) : List (List Cell) := c.front ++ [u8.encode c.bump]

/-- The account has no byte after the bump. -/
def data (c : ConfigV0) : List Cell := c.fields.flatten

end ConfigV0

namespace ConfigV1

/-- The fields in the order of their declaration. -/
def fields (c : ConfigV1) : List (List Cell) :=
  c.front ++
  [ bytes32.encode c.expectedPythFeed,
    u64.encode c.adminOpMatureSlot,
    u8.encode c.adminOpKind,
    u64.encode c.adminOpParam,
    bytes32.encode c.adminOpTarget,
    u64.encode c.adminTimelockDelay,
    u32.encode c.maxOracleAgeSecs,
    u16.encode c.maxOracleConfBps,
    u16.encode c.stabilityFeeBps,
    u16.encode c.redemptionFeeBps,
    bytes32.encode c.insuranceFundPubkey,
    u16.encode c.maxBackstopBps,
    bytes32.encode c.auditorElgamalPubkey,
    u8.encode c.oracleType,
    bytes32.encode c.oracleFeed,
    flag.encode c.supplyCapLocked,
    u8.encode c.version,
    u16.encode c.minReserveRatioBps,
    u64.encode c.travelRuleThreshold,
    bytes32.encode c.sanctionsOracle,
    u64.encode c.sanctionsMaxStalenessSlots,
    u32.encode (.ofNat c.authorizedKeepers.length),
    c.authorizedKeepers.flatMap bytes32.encode,
    bytes32.encode c.squadsMultisig,
    bytes32.encode c.expectedUpgradeAuthority,
    u8.encode c.bump ]

/-- `try_deserialize`: the discriminator, then one field after another. What follows the record is
not looked at. -/
def deserialize (data : List Cell) : Option ConfigV1 := do
  if data.take 8 ≠ stablecoinConfigDiscriminator then none
  let (mint, data) ← bytes32.next (data.drop 8)
  let (authority, data) ← bytes32.next data
  let (complianceAuthority, data) ← bytes32.next data
  let (preset, data) ← u8.next data
  let (paused, data) ← flag.next data
  let (totalMinted, data) ← u64.next data
  let (totalBurned, data) ← u64.next data
  let (transferHookProgram, data) ← bytes32.next data
  let (collateralMint, data) ← bytes32.next data
  let (reserveVault, data) ← bytes32.next data
  let (totalCollateral, data) ← u64.next data
  let (maxSupply, data) ← u64.next data
  let (pendingAuthority, data) ← bytes32.next data
  let (pendingComplianceAuthority, data) ← bytes32.next data
  let (featureFlags, data) ← u64.next data
  let (maxTransferAmount, data) ← u64.next data
  let (expectedPythFeed, data) ← bytes32.next data
  let (adminOpMatureSlot, data) ← u64.next data
  let (adminOpKind, data) ← u8.next data
  let (adminOpParam, data) ← u64.next data
  let (adminOpTarget, data) ← bytes32.next data
  let (adminTimelockDelay, data) ← u64.next data
  let (maxOracleAgeSecs, data) ← u32.next data
  let (maxOracleConfBps, data) ← u16.next data
  let (stabilityFeeBps, data) ← u16.next data
  let (redemptionFeeBps, data) ← u16.next data
  let (insuranceFundPubkey, data) ← bytes32.next data
  let (maxBackstopBps, data) ← u16.next data
  let (auditorElgamalPubkey, data) ← bytes32.next data
  let (oracleType, data) ← u8.next data
  let (oracleFeed, data) ← bytes32.next data
  let (supplyCapLocked, data) ← flag.next data
  let (version, data) ← u8.next data
  let (minReserveRatioBps, data) ← u16.next data
  let (travelRuleThreshold, data) ← u64.next data
  let (sanctionsOracle, data) ← bytes32.next data
  let (sanctionsMaxStalenessSlots, data) ← u64.next data
  let (n, data) ← u32.next data
  let (authorizedKeepers, data) ← bytes32.nextN n.toNat data
  let (squadsMultisig, data) ← bytes32.next data
  let (expectedUpgradeAuthority, data) ← bytes32.next data
  let (bump, _) ← u8.next data
  some
    { mint, authority, complianceAuthority, preset, paused, totalMinted, totalBurned
      transferHookProgram, collateralMint, reserveVault, totalCollateral, maxSupply
      pendingAuthority, pendingComplianceAuthority, featureFlags, maxTransferAmount
      expectedPythFeed, adminOpMatureSlot, adminOpKind, adminOpParam, adminOpTarget
      adminTimelockDelay, maxOracleAgeSecs, maxOracleConfBps, stabilityFeeBps
      redemptionFeeBps, insuranceFundPubkey, maxBackstopBps, auditorElgamalPubkey
      oracleType, oracleFeed, supplyCapLocked, version, minReserveRatioBps
      travelRuleThreshold, sanctionsOracle, sanctionsMaxStalenessSlots, authorizedKeepers
      squadsMultisig, expectedUpgradeAuthority, bump }

end ConfigV1

/-! ## migrate_config -/

/-- `verify_squads_signer`, where the flag is known to be set. -/
def ConfigV1.verifySquadsSigner (c : ConfigV1) (signer : BitVec 256) : Result Unit := do
  require (c.squadsMultisig ≠ 0) (.sss .squadsMultisigPdaInvalid)
  require (signer = c.squadsMultisig) (.sss .squadsSignerMismatch)

/-- What the config account holds. -/
structure ConfigAccount where
  data : List Cell
  lamports : UInt64

/-- The account of the authority. A wallet belongs to the system program, not to this one. -/
structure PayerAccount where
  lamports : UInt64
  ownedByProgram : Bool := false

/-- What is missing for the rent is taken out of the authority's account, which the runtime refuses
at the end of the instruction unless the account belongs to the program. -/
def fundRent (needed : UInt64) (config : ConfigAccount) (authority : PayerAccount) :
    Result (ConfigAccount × PayerAccount) :=
  if config.lamports < needed then do
    let diff := needed - config.lamports
    let lamports ← (authority.lamports.checkedSub diff).okOr .panic
    require authority.ownedByProgram .externalAccountLamportSpend
    pure ({ config with lamports := config.lamports + diff }, { authority with lamports })
  else pure (config, authority)

section
variable (bytes : Pubkey → BitVec 256) (minimumBalance : Nat → UInt64) (a : MigrateConfig)

/-- `bytes` is what an address looks like, and `minimumBalance` the rent of a size. An account that
is too small is extended with zeros, and nothing in it is moved. -/
def migrateConfigAccount (config : ConfigAccount) (authority : PayerAccount) :
    Result (ConfigAccount × PayerAccount) := do
  let data := config.data
  require (a.config = .stablecoinConfig a.mint) (.sss .unauthorized)
  require (data.length ≥ v0MinRead) (.sss .unauthorized)
  require (data.take 8 = stablecoinConfigDiscriminator) (.sss .unauthorized)
  let rawVersion ← readVersion data
  let rawAuthority ← (bytes32.read data offsetAuthority).okOr (.sss .unauthorized)
  require (rawAuthority = bytes a.authority.key) (.sss .unauthorized)
  if rawVersion ≥ currentVersion then pure (config, authority)
  else do
    requireWhen (data.length ≥ StablecoinConfig.space) do
      let config ← (ConfigV1.deserialize data).okOr (.anchor .accountDidNotDeserialize)
      requireWhen (config.featureFlags &&& flagSquadsAuthority ≠ 0) <|
        config.verifySquadsSigner (bytes a.authority.key)
    let (config, authority) ← onlyWhen (data.length < StablecoinConfig.space) (config, authority) <|
      fundRent (minimumBalance StablecoinConfig.space)
        { config with
          data := data ++ List.replicate (StablecoinConfig.space - data.length) (byte 0) }
        authority
    pure ({ config with data := u8.write config.data offsetVersion currentVersion }, authority)

end

end SolanaStablecoin
