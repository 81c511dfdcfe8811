import SolanaStablecoin.Program.Admin
import SolanaStablecoin.Program.Data
import SolanaStablecoin.Program.Oracle

/-! The two places where the program itself reads account data by offset: the migration of a
config (`upgrade.rs`), and the custom source of the oracle consensus (`multi_oracle.rs`). -/

namespace SolanaStablecoin

open Cell

/-! ## migrate_config -/

def offsetMint : Nat := 8
def offsetAuthority : Nat := 40
def offsetVersion : Nat := 513

/-- Up to the authority. -/
def v0MinRead : Nat := 72

/-- An account that ends before the version field is of version 0. -/
def readVersion (data : List Cell) : Result UInt8 :=
  if data.length ≤ offsetVersion then .ok 0 else (u8.read data offsetVersion).okOr .panic

structure MigrateConfig where
  authority : Signer
  mint : Pubkey
  config : Pubkey

/-- The version byte is set, unless it already is current. Configs of this model have their full
size, so none is resized; the multisig is checked for those only. -/
def migrateConfigHandler (s : State) (a : MigrateConfig) : Result State := do
  let config ← load s.configs a.config
  require (a.config = .stablecoinConfig a.mint) (.sss .unauthorized)
  let data := s.data a.config
  require (data.length ≥ v0MinRead) (.sss .unauthorized)
  require (data.take 8 = stablecoinConfigDiscriminator) (.sss .unauthorized)
  let rawVersion ← readVersion data
  let rawAuthority ← (key.read data offsetAuthority).okOr (.sss .unauthorized)
  require (rawAuthority = a.authority.key) (.sss .unauthorized)
  if rawVersion ≥ currentVersion then pure s
  else do
    requireWhen (data.length ≥ StablecoinConfig.space) <| checkSquads config a.authority.key
    pure { s with configs := put s.configs a.config { config with version := currentVersion } }

/-! ## read_source_price -/

def priceOff : Nat := 40
def slotOff : Nat := 60

def customFeedMinLen : Nat := 77

/-- The `ORACLE_CUSTOM` branch: the price and the slot of its last update, unless the price is
not positive. -/
def readCustomSource (data : List Cell) : Result (Option (UInt64 × UInt64)) :=
  if data.length < customFeedMinLen then .ok none
  else do
    let price ← (i64.read data priceOff).okOr .panic
    let lastSlot ← (u64.read data slotOff).okOr .panic
    pure (if price ≤ 0 then none else some (price.toUInt64, lastSlot))

end SolanaStablecoin
