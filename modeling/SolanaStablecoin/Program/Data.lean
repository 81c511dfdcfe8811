import SolanaStablecoin.Base.Layout
import SolanaStablecoin.Program.State

/-! Account data: an 8-byte discriminator, then the fields in declaration order. -/

namespace SolanaStablecoin

open Layout

namespace Cell

/-- The bytes of a number; parts of an address are not taken for one. -/
def bytes : List Cell → Option (List UInt8)
  | [] => some []
  | byte b :: cs => (bytes cs).map (b :: ·)
  | address .. :: _ => none

theorem bytes_map (bs : List UInt8) : bytes (bs.map byte) = some bs := by
  induction bs with
  | nil => rfl
  | cons b bs ih => rw [List.map_cons, bytes, ih, Option.map_some]

/-! ## Codecs -/

/-- An unsigned number of `w` bytes. -/
def word {β : Type} (w : Nat) (toNat : β → Nat) (ofNat : Nat → β) (lt : ∀ b, toNat b < 256 ^ w)
    (inv : ∀ b, ofNat (toNat b) = b) : Codec Cell β where
  size := w
  encode b := (leBytes w (toNat b)).map byte
  decode data :=
    if data.length = w then (bytes data).map (fun bs => ofNat (ofLeBytes bs)) else none
  length_encode b := by rw [List.length_map, length_leBytes]
  decode_encode b := by
    rw [if_pos (by rw [List.length_map, length_leBytes]), bytes_map, Option.map_some,
      ofLeBytes_leBytes_of_lt (lt b), inv]

def u8 : Codec Cell UInt8 :=
  word 1 UInt8.toNat UInt8.ofNat UInt8.toNat_lt fun _ => UInt8.ofNat_toNat

def u16 : Codec Cell UInt16 :=
  word 2 UInt16.toNat UInt16.ofNat UInt16.toNat_lt fun _ => UInt16.ofNat_toNat

def u32 : Codec Cell UInt32 :=
  word 4 UInt32.toNat UInt32.ofNat UInt32.toNat_lt fun _ => UInt32.ofNat_toNat

def u64 : Codec Cell UInt64 :=
  word 8 UInt64.toNat UInt64.ofNat UInt64.toNat_lt fun _ => UInt64.ofNat_toNat

def i32 : Codec Cell Int32 :=
  word 4 (fun x => x.toUInt32.toNat) (fun n => (UInt32.ofNat n).toInt32)
    (fun x => x.toUInt32.toNat_lt) fun x => by rw [UInt32.ofNat_toNat, Int32.toInt32_toUInt32]

def i64 : Codec Cell Int64 :=
  word 8 (fun x => x.toUInt64.toNat) (fun n => (UInt64.ofNat n).toInt64)
    (fun x => x.toUInt64.toNat_lt) fun x => by rw [UInt64.ofNat_toNat, Int64.toInt64_toUInt64]

def bytes32 : Codec Cell (BitVec 256) :=
  word 32 BitVec.toNat (BitVec.ofNat 256) BitVec.isLt fun x => by
    rw [BitVec.ofNat_toNat, BitVec.setWidth_eq]

/-- A flag is read as set unless its byte is zero. -/
def bool : Codec Cell Bool where
  size := 1
  encode b := [byte (if b then 1 else 0)]
  decode
    | [byte b] => some (b != 0)
    | _ => none
  length_encode _ := rfl
  decode_encode b := by cases b <;> rfl

def keyCells (k : Pubkey) : List Cell := (List.range 32).map (address k)

def key : Codec Cell Pubkey where
  size := 32
  encode := keyCells
  decode data :=
    match data with
    | address k _ :: _ => if data = keyCells k then some k else none
    | _ => none
  length_encode _ := by rw [keyCells, List.length_map, List.length_range]
  decode_encode k := by
    have h : keyCells k = address k 0 :: (List.range' 1 31).map (address k) := rfl
    simp [h]

/-- A vector: its length in four bytes, then its elements. -/
def keys (ks : List Pubkey) : List Cell :=
  u32.encode (.ofNat ks.length) ++ ks.flatMap key.encode

end Cell

open Cell

/-! ## The records -/

/-- The first eight bytes of the hash of `account:` and the name of the record. -/
def discriminator (bs : List UInt8) : List Cell := bs.map byte

/-- `STABLECOIN_CONFIG_DISCRIMINATOR` -/
def stablecoinConfigDiscriminator : List Cell :=
  discriminator [0x7f, 0x19, 0xf4, 0xd5, 0x01, 0xc0, 0x65, 0x06]

namespace StablecoinConfig

def fields (c : StablecoinConfig) : List (List Cell) :=
  [ stablecoinConfigDiscriminator,
    key.encode c.mint,
    key.encode c.authority,
    key.encode c.complianceAuthority,
    u8.encode c.preset,
    bool.encode c.paused,
    u64.encode c.totalMinted,
    u64.encode c.totalBurned,
    key.encode c.transferHookProgram,
    key.encode c.collateralMint,
    key.encode c.reserveVault,
    u64.encode c.totalCollateral,
    u64.encode c.maxSupply,
    key.encode c.pendingAuthority,
    key.encode c.pendingComplianceAuthority,
    u64.encode c.featureFlags,
    u64.encode c.maxTransferAmount,
    key.encode c.expectedPythFeed,
    u64.encode c.adminOpMatureSlot,
    u8.encode c.adminOpKind,
    u64.encode c.adminOpParam,
    key.encode c.adminOpTarget,
    u64.encode c.adminTimelockDelay,
    u32.encode c.maxOracleAgeSecs,
    u16.encode c.maxOracleConfBps,
    u16.encode c.stabilityFeeBps,
    u16.encode c.redemptionFeeBps,
    key.encode c.insuranceFundPubkey,
    u16.encode c.maxBackstopBps,
    bytes32.encode c.auditorElgamalPubkey,
    u8.encode c.oracleType,
    key.encode c.oracleFeed,
    bool.encode c.supplyCapLocked,
    u8.encode c.version,
    u16.encode c.minReserveRatioBps,
    u64.encode c.travelRuleThreshold,
    key.encode c.sanctionsOracle,
    u64.encode c.sanctionsMaxStalenessSlots,
    keys c.authorizedKeepers,
    key.encode c.squadsMultisig,
    key.encode c.expectedUpgradeAuthority,
    u8.encode c.bump ]

/-- `8 + StablecoinConfig::INIT_SPACE`, with room for eight keepers. -/
def space : Nat := 889

/-- The record, and zeros up to the size of the account. -/
def data (c : StablecoinConfig) : List Cell :=
  c.fields.flatten ++ List.replicate (space - c.fields.flatten.length) (byte 0)

end StablecoinConfig

namespace VerificationRecord

def fields (r : VerificationRecord) : List (List Cell) :=
  [ discriminator [0xf7, 0x0e, 0x48, 0x5d, 0xb8, 0x24, 0x9a, 0xd7],
    key.encode r.sssMint,
    key.encode r.user,
    u64.encode r.expiresAtSlot,
    u8.encode r.bump ]

def data (r : VerificationRecord) : List Cell := r.fields.flatten

end VerificationRecord

namespace SanctionsRecord

def fields (r : SanctionsRecord) : List (List Cell) :=
  [ discriminator [0x50, 0xd3, 0x18, 0xcf, 0xc1, 0xdc, 0x9c, 0xcb],
    bool.encode r.isSanctioned,
    u64.encode r.updatedSlot,
    u8.encode r.bump ]

def data (r : SanctionsRecord) : List Cell := r.fields.flatten

end SanctionsRecord

namespace CredentialRecord

def fields (r : CredentialRecord) : List (List Cell) :=
  [ discriminator [0x73, 0xe7, 0x2d, 0xa3, 0xf8, 0xe0, 0x6a, 0xcf],
    key.encode r.sssMint,
    key.encode r.holder,
    u64.encode r.issuedSlot,
    u64.encode r.expiresSlot,
    bool.encode r.revoked,
    u8.encode r.bump ]

def data (r : CredentialRecord) : List Cell := r.fields.flatten

end CredentialRecord

namespace WalletRateLimit

def fields (r : WalletRateLimit) : List (List Cell) :=
  [ discriminator [0x26, 0xf0, 0x2b, 0x5e, 0x5b, 0x24, 0x65, 0xb3],
    key.encode r.sssMint,
    key.encode r.wallet,
    u64.encode r.maxTransferPerWindow,
    u64.encode r.windowSlots,
    u64.encode r.transferredThisWindow,
    u64.encode r.windowStartSlot,
    u8.encode r.bump ]

def data (r : WalletRateLimit) : List Cell := r.fields.flatten

end WalletRateLimit

namespace CustomPriceFeed

def fields (f : CustomPriceFeed) : List (List Cell) :=
  [ discriminator [0x95, 0xbc, 0x75, 0x53, 0x32, 0x51, 0x34, 0x48],
    key.encode f.authority,
    i64.encode f.price,
    i32.encode f.expo,
    u64.encode f.conf,
    u64.encode f.lastUpdateSlot,
    i64.encode f.lastUpdateUnixTimestamp,
    u8.encode f.bump ]

def data (f : CustomPriceFeed) : List Cell := f.fields.flatten

end CustomPriceFeed

namespace TokenAccount

/-- The layout of the token program: no discriminator, and optional fields behind a tag of four
bytes. No account is wrapped SOL or has a close authority. -/
def fields (a : TokenAccount) : List (List Cell) :=
  [ key.encode a.mint,
    key.encode a.owner,
    u64.encode a.amount,
    u32.encode (if a.delegate.isSome then 1 else 0),
    (a.delegate.map key.encode).getD (List.replicate 32 (byte 0)),
    u8.encode (if a.frozen then 2 else 1),
    List.replicate 12 (byte 0),
    u64.encode a.delegatedAmount,
    List.replicate 36 (byte 0) ]

def data (a : TokenAccount) : List Cell := a.fields.flatten

end TokenAccount

/-- What the account at `k` holds, empty when there is none. The address decides the record, as
only this program creates accounts at its derived addresses, and those of the other accounts where
it has price feeds are the token program's or belong to any other program. -/
def State.data (s : State) (k : Pubkey) : List Cell :=
  match k with
  | .stablecoinConfig .. => ((s.configs k).map StablecoinConfig.data).getD []
  | .zkVerification .. => ((s.verificationRecords k).map VerificationRecord.data).getD []
  | .sanctionsRecord .. => ((s.sanctionsRecords k).map SanctionsRecord.data).getD []
  | .credentialRecord .. => ((s.credentialRecords k).map CredentialRecord.data).getD []
  | .walletRateLimit .. => ((s.walletRateLimits k).map WalletRateLimit.data).getD []
  | _ =>
    ((s.tokens.accounts k).map TokenAccount.data <|>
      (s.customPriceFeeds k).map CustomPriceFeed.data).getD (s.otherData k)

end SolanaStablecoin
