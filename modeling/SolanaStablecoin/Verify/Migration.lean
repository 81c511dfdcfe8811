import SolanaStablecoin.Program.Migration
import SolanaStablecoin.Program.Token2022
import SolanaStablecoin.Verify.Layout

/-! What the migration makes of an account of version 0. The fields that were added stand before the
bump, and the migration moves no byte, so that the old bump is read as part of one of them and the
new bump is a zero. -/

namespace SolanaStablecoin

open Cell Layout

variable {bytes : Pubkey → BitVec 256} {minimumBalance : Nat → UInt64} {a : MigrateConfig}

/-! ## The two layouts -/

namespace Cell

@[simp] theorem size_flag : flag.size = 1 := rfl

end Cell

namespace ConfigV0

theorem front_length (c : ConfigV0) : c.front.flatten.length = 314 := by
  simp only [front, List.length_flatten, List.map_cons, List.map_nil, Codec.length_encode,
    length_stablecoinConfigDiscriminator, List.sum_cons, List.sum_nil]
  rfl

theorem data_length (c : ConfigV0) : c.data.length = 315 := by
  rw [data, fields, List.flatten_append, List.length_append, front_length]
  rfl

theorem authority_at : Locates fields offsetAuthority bytes32 authority
    fun c k => { c with authority := k } :=
  .of_field 2 (fun _ => rfl) (fun _ => by simp [offset, fields, front, offsetAuthority])
    (fun _ _ => rfl)

/-- The record with all that the documentation promises. -/
def upgraded (c : ConfigV0) : ConfigV1 := { c with }

/-- The record that the bytes of version 0 and zeros are taken for. -/
def misread (c : ConfigV0) (version : UInt8) : ConfigV1 :=
  { c with
    expectedPythFeed := BitVec.ofNat 256 c.bump.toNat, adminTimelockDelay := 0, version, bump := 0 }

end ConfigV0

namespace ConfigV1

theorem authority_at : Locates fields offsetAuthority bytes32 (·.authority)
    fun c k => { c with authority := k } :=
  .of_field 2 (fun _ => rfl) (fun _ => by simp [offset, fields, ConfigV0.front, offsetAuthority])
    (fun _ _ => rfl)

theorem version_at : Locates fields offsetVersion u8 version fun c n => { c with version := n } :=
  .of_field 33 (fun _ => rfl) (fun _ => by simp [offset, fields, ConfigV0.front, offsetVersion])
    (fun _ _ => rfl)

/-- What is stored is read back, whatever follows. -/
theorem deserialize_fields (c : ConfigV1) (h : c.authorizedKeepers.length < 2 ^ 32)
    (rest : List Cell) : deserialize (c.fields.flatten ++ rest) = some c := by
  have hlen : (UInt32.ofNat c.authorizedKeepers.length).toNat = c.authorizedKeepers.length :=
    UInt32.toNat_ofNat_of_lt' h
  have hsplit : c.fields.flatten ++ rest =
      stablecoinConfigDiscriminator ++ ((c.fields.drop 1).flatten ++ rest) := by
    rw [← List.append_assoc]
    rfl
  have htake : (c.fields.flatten ++ rest).take 8 = stablecoinConfigDiscriminator := by
    rw [hsplit, ← length_stablecoinConfigDiscriminator, List.take_left]
  have hdrop : (c.fields.flatten ++ rest).drop 8 = (c.fields.drop 1).flatten ++ rest := by
    rw [hsplit, ← length_stablecoinConfigDiscriminator, List.drop_left]
  rw [deserialize, htake, hdrop]
  simp only [fields, ConfigV0.front, List.cons_append, List.nil_append, List.drop_succ_cons,
    List.drop_zero, List.flatten_cons, List.flatten_nil, List.append_assoc, List.append_nil]
  rw [if_neg (not_not.mpr rfl)]
  repeat refine Codec.bind_next ?_
  refine Codec.bind_nextN hlen ?_
  repeat refine Codec.bind_next ?_
  rfl

end ConfigV1

/-! ## What the migration does -/

namespace ConfigV0

/-- What comes after a record without keepers. -/
def slack : List Cell := List.replicate 256 (byte 0)

/-- The old bump is the first byte of the field that comes next. -/
theorem bump_encode (b : UInt8) :
    u8.encode b ++ List.replicate 31 (byte 0) = bytes32.encode (BitVec.ofNat 256 b.toNat) := by
  have hlt := b.toNat_lt
  have hfits : (BitVec.ofNat 256 b.toNat).toNat = b.toNat := by
    rw [BitVec.toNat_ofNat, Nat.mod_eq_of_lt]
    omega
  have hrest : b.toNat / 256 = 0 := Nat.div_eq_of_lt hlt
  have hbytes : leBytes 32 b.toNat = .ofNat b.toNat :: leBytes 31 0 := by rw [leBytes, hrest]
  change (leBytes 1 b.toNat).map byte ++ _ = (leBytes 32 (BitVec.ofNat 256 b.toNat).toNat).map byte
  rw [hfits, hbytes]
  rfl

theorem zero_u64 : u64.encode 0 = List.replicate 8 (byte 0) := rfl

theorem zero_u32 : u32.encode 0 = List.replicate 4 (byte 0) := rfl

theorem zero_u16 : u16.encode 0 = List.replicate 2 (byte 0) := rfl

theorem zero_u8 : u8.encode 0 = List.replicate 1 (byte 0) := rfl

theorem zero_flag : flag.encode false = List.replicate 1 (byte 0) := rfl

theorem zero_bytes32 : bytes32.encode 0 = List.replicate 32 (byte 0) := rfl

theorem zero_length : u32.encode (.ofNat ([] : List (BitVec 256)).length) =
    List.replicate 4 (byte 0) := rfl

/-- The other fields that were added, and the new bump, are read as zeros. -/
theorem misread_drop (c : ConfigV0) :
    ((c.misread 0).fields.drop 18).flatten = List.replicate 287 (byte 0) := by
  simp only [ConfigV1.fields, misread, front, List.cons_append, List.nil_append,
    List.drop_succ_cons, List.drop_zero, List.flatten_cons, List.flatten_nil, List.append_nil,
    List.flatMap_nil, zero_u64, zero_u32, zero_u16, zero_u8, zero_flag, zero_bytes32, zero_length,
    List.replicate_append_replicate]

theorem extended (c : ConfigV0) :
    c.data ++ List.replicate (StablecoinConfig.space - c.data.length) (byte 0) =
      (c.misread 0).fields.flatten ++ slack := by
  have hfields : (c.misread 0).fields = c.front ++
      bytes32.encode (BitVec.ofNat 256 c.bump.toNat) :: (c.misread 0).fields.drop 18 := rfl
  have hpad : List.replicate (StablecoinConfig.space - c.data.length) (byte 0) =
      List.replicate 31 (byte 0) ++ (List.replicate 287 (byte 0) ++ slack) := by
    rw [data_length, slack, List.replicate_append_replicate, List.replicate_append_replicate]
    rfl
  rw [hpad, data, fields, hfields, List.flatten_append, List.flatten_append, List.flatten_cons,
    List.flatten_cons, misread_drop, ← bump_encode]
  simp only [List.flatten_nil, List.append_nil, List.append_assoc]

theorem take_data (c : ConfigV0) : c.data.take 8 = stablecoinConfigDiscriminator := rfl

theorem migrate_data (hkey : a.config = .stablecoinConfig a.mint) {c : ConfigV0}
    (hauth : c.authority = bytes a.authority.key) (lamports : UInt64) (authority : PayerAccount) :
    migrateConfigAccount bytes minimumBalance a { data := c.data, lamports } authority =
      fundRent (minimumBalance StablecoinConfig.space)
        { data := (c.misread 0).fields.flatten ++ slack, lamports } authority >>= fun x =>
          pure ({ x.1 with data := u8.write x.1.data offsetVersion currentVersion }, x.2) := by
  have hsize : c.data.length ≥ v0MinRead := by
    rw [c.data_length]
    decide
  have hversion : readVersion c.data = .ok 0 := by
    rw [readVersion, c.data_length]
    rfl
  have hsmall : ¬ c.data.length ≥ StablecoinConfig.space := by
    rw [c.data_length]
    decide
  have hread : bytes32.read c.data offsetAuthority = some c.authority := authority_at.read_record c
  rw [migrateConfigAccount, require_pos hkey, ok_bind, require_pos hsize, ok_bind,
    require_pos c.take_data, ok_bind, hversion, ok_bind, hread, Option.okOr, ok_bind,
    require_pos hauth, ok_bind, if_neg (by decide), requireWhen, if_neg hsmall, ok_bind,
    onlyWhen, if_pos (not_le.mp hsmall), extended]

end ConfigV0

/-- A record of the current version is left alone, whatever its size. -/
theorem ConfigV1.migrate_current (hkey : a.config = .stablecoinConfig a.mint) {c : ConfigV1}
    (hauth : c.authority = bytes a.authority.key) (hversion : currentVersion ≤ c.version)
    (rest : List Cell) (lamports : UInt64) (authority : PayerAccount) :
    migrateConfigAccount bytes minimumBalance a
      { data := c.fields.flatten ++ rest, lamports } authority =
        .ok ({ data := c.fields.flatten ++ rest, lamports }, authority) := by
  have hend : offset c.fields 34 = 514 := by simp [offset, fields, ConfigV0.front]
  have hlong : 514 ≤ (c.fields.flatten ++ rest).length := by
    have hle := offset_le_length c.fields 34
    rw [List.length_append]
    omega
  have hsize : (c.fields.flatten ++ rest).length ≥ v0MinRead := le_trans (by decide) hlong
  have hread : readVersion (c.fields.flatten ++ rest) = .ok c.version := by
    rw [readVersion, if_neg (not_le.mpr hlong), version_at.read]
    rfl
  have htake : (c.fields.flatten ++ rest).take 8 = stablecoinConfigDiscriminator := rfl
  rw [migrateConfigAccount, require_pos hkey, ok_bind, require_pos hsize, ok_bind,
    require_pos htake, ok_bind, hread, ok_bind, authority_at.read, Option.okOr, ok_bind,
    require_pos hauth, ok_bind, if_pos hversion]
  rfl

theorem deserialize_misread (c : ConfigV0) (version : UInt8) (rest : List Cell) :
    ConfigV1.deserialize ((c.misread version).fields.flatten ++ rest) =
      some (c.misread version) :=
  (c.misread version).deserialize_fields (show 0 < 2 ^ 32 by decide) rest

/-! ## Who pays the rent -/

/-- The rent is there, or an account of the program's own pays what is missing. -/
def Funded (needed lamports : UInt64) (authority : PayerAccount) : Prop :=
  needed ≤ lamports ∨ authority.ownedByProgram = true ∧ needed - lamports ≤ authority.lamports

theorem fundRent_isOk {needed : UInt64} {config : ConfigAccount} {authority : PayerAccount} :
    (fundRent needed config authority).isOk = true ↔ Funded needed config.lamports authority := by
  rw [fundRent, Funded]
  split
  next hshort =>
    have hmissing : ¬ needed ≤ config.lamports := UInt64.not_le.mpr hshort
    rw [or_iff_right hmissing, isOk_iff]
    constructor
    · rintro ⟨x, h⟩
      simp only [bind_eq_ok, Option.okOr_eq_ok, require_eq_ok] at h
      obtain ⟨left, hleft, -, howned, -⟩ := h
      refine ⟨howned, ?_⟩
      rw [UInt64.le_iff_toNat_le, UInt64.checkedSub_eq_some.mp hleft]
      exact Nat.le_add_left ..
    · rintro ⟨howned, hle⟩
      have hleft : authority.lamports.checkedSub (needed - config.lamports) = some _ :=
        if_pos (UInt64.le_iff_toNat_le.mp hle)
      dsimp only
      rw [hleft, Option.okOr, ok_bind, require_pos howned]
      exact ⟨_, rfl⟩
  next hshort => exact iff_of_true rfl (.inl (UInt64.not_lt.mp hshort))

theorem fundRent_of_le {needed : UInt64} {config : ConfigAccount} {authority : PayerAccount}
    (h : needed ≤ config.lamports) : fundRent needed config authority = .ok (config, authority) :=
  if_neg (UInt64.not_lt.mpr h)

/-- Paying moves no data. -/
theorem fundRent_data {needed : UInt64} {config : ConfigAccount} {authority : PayerAccount}
    {x : ConfigAccount × PayerAccount} (h : fundRent needed config authority = .ok x) :
    x.1.data = config.data := by
  rw [fundRent] at h
  refine ite_ok_cases (fun _ h => ?_) (fun _ h => ?_) h
  · simp only [bind_eq_ok, pure_eq_ok] at h
    obtain ⟨-, -, -, -, rfl⟩ := h
    rfl
  · cases h
    rfl

/-- Where the rent is there, only the data change. -/
theorem ConfigV0.migrate_prefunded (hkey : a.config = .stablecoinConfig a.mint) {c : ConfigV0}
    (hauth : c.authority = bytes a.authority.key) {lamports : UInt64}
    (hrent : minimumBalance StablecoinConfig.space ≤ lamports) (authority : PayerAccount) :
    migrateConfigAccount bytes minimumBalance a { data := c.data, lamports } authority =
      .ok ({ data := (c.misread currentVersion).fields.flatten ++ slack, lamports },
        authority) := by
  have hwrite : u8.write ((c.misread 0).fields.flatten ++ slack) offsetVersion currentVersion =
      (c.misread currentVersion).fields.flatten ++ slack :=
    ConfigV1.version_at.write (c.misread 0) currentVersion slack
  rw [migrate_data hkey hauth, fundRent_of_le hrent, ok_bind]
  dsimp only
  rw [hwrite]
  rfl

/-! ## What was promised -/

/-- The account becomes one of the current version with all its fields and the documented defaults,
and the migration is not done twice. -/
def MigratesWell (bytes : Pubkey → BitVec 256) (minimumBalance : Nat → UInt64) (a : MigrateConfig)
    (c : ConfigV0) (lamports : UInt64) (authority : PayerAccount) : Prop :=
  ∃ config' authority',
    migrateConfigAccount bytes minimumBalance a { data := c.data, lamports } authority =
      .ok (config', authority') ∧
    ConfigV1.deserialize config'.data = some c.upgraded ∧
    migrateConfigAccount bytes minimumBalance a config' authority' = .ok (config', authority')

/-- The migration goes through exactly if the rent of the larger account is there already, or an
account of the program's own pays it. Of every account it makes one whose bump is 0, whose Pyth feed
begins with the old bump, and which has no timelock; a second migration changes nothing. -/
theorem config_migration (hkey : a.config = .stablecoinConfig a.mint) {c : ConfigV0}
    (hauth : c.authority = bytes a.authority.key) (lamports : UInt64) (authority : PayerAccount) :
    ((migrateConfigAccount bytes minimumBalance a { data := c.data, lamports } authority).isOk =
        true ↔ Funded (minimumBalance StablecoinConfig.space) lamports authority) ∧
      (∀ config' authority',
        migrateConfigAccount bytes minimumBalance a { data := c.data, lamports } authority =
          .ok (config', authority') →
        ConfigV1.deserialize config'.data = some (c.misread currentVersion) ∧
        ∀ payer, migrateConfigAccount bytes minimumBalance a config' payer = .ok (config', payer)) ∧
      ¬ MigratesWell bytes minimumBalance a c lamports authority := by
  have hmigrate : migrateConfigAccount bytes minimumBalance a { data := c.data, lamports }
      authority = _ := ConfigV0.migrate_data hkey hauth lamports authority
  have hfunded : (fundRent (minimumBalance StablecoinConfig.space)
      { data := (c.misread 0).fields.flatten ++ ConfigV0.slack, lamports } authority).isOk = true ↔
        Funded (minimumBalance StablecoinConfig.space) lamports authority := fundRent_isOk
  have hresult {config' : ConfigAccount} {authority' : PayerAccount}
      (h : migrateConfigAccount bytes minimumBalance a { data := c.data, lamports } authority =
        .ok (config', authority')) :
      config'.data = (c.misread currentVersion).fields.flatten ++ ConfigV0.slack := by
    rw [hmigrate, bind_eq_ok] at h
    obtain ⟨x, hx, h⟩ := h
    cases h
    rw [fundRent_data hx]
    exact ConfigV1.version_at.write (c.misread 0) currentVersion ConfigV0.slack
  have hread {config' : ConfigAccount} {authority' : PayerAccount}
      (h : migrateConfigAccount bytes minimumBalance a { data := c.data, lamports } authority =
        .ok (config', authority')) :
      ConfigV1.deserialize config'.data = some (c.misread currentVersion) := by
    rw [hresult h]
    exact deserialize_misread c currentVersion ConfigV0.slack
  refine ⟨?_, fun config' authority' h => ⟨hread h, fun payer => ?_⟩, ?_⟩
  · rw [hmigrate, ← hfunded]
    cases fundRent _ _ authority <;> rfl
  · obtain ⟨data, lamports'⟩ := config'
    obtain rfl : data = _ := hresult h
    exact ConfigV1.migrate_current (c := c.misread currentVersion) hkey hauth (UInt8.le_refl _)
      ConfigV0.slack lamports' payer
  · rintro ⟨config', authority', h, hupgraded, -⟩
    have heq : (0 : UInt64) = defaultAdminTimelockDelay :=
      congrArg ConfigV1.adminTimelockDelay (Option.some.inj ((hread h).symm.trans hupgraded))
    exact absurd heq (by decide)

namespace Market

/-- The bytes of a wallet's address. -/
def keyBytes : Pubkey → BitVec 256
  | .key n => .ofNat 256 n
  | _ => 0

def migration : MigrateConfig := { authority, mint := mint.key, config }

/-- The config as an old build has left it. -/
def configV0 : ConfigV0 :=
  { mint := keyBytes mint.key, authority := keyBytes authority.key
    complianceAuthority := keyBytes authority.key, preset := 1, paused := false
    totalMinted := 1000, totalBurned := 10, transferHookProgram := 0, collateralMint := 0
    reserveVault := 0, totalCollateral := 0, maxSupply := 0, pendingAuthority := 0
    pendingComplianceAuthority := 0, featureFlags := 0, maxTransferAmount := 0, bump := 254 }

/-- 6 960 lamports for each byte and for 128 more. -/
def rentOf (size : Nat) : UInt64 := .ofNat ((128 + size) * 6960)

/-- Somebody has paid the rent of a config of the current size in advance. -/
def prefunded : ConfigAccount := { data := configV0.data, lamports := 7078320 }

/-- A wallet with one SOL. -/
def wallet : PayerAccount := { lamports := 1000000000 }

end Market

open Market in
theorem config_migration_misread :
    ((migrateConfigAccount keyBytes rentOf migration prefunded wallet).isOk = true ↔
        Funded 7078320 7078320 wallet) ∧
      (∀ config' authority', migrateConfigAccount keyBytes rentOf migration prefunded wallet =
          .ok (config', authority') →
        ConfigV1.deserialize config'.data = some (configV0.misread currentVersion) ∧
        ∀ payer, migrateConfigAccount keyBytes rentOf migration config' payer =
          .ok (config', payer)) ∧
      ¬ MigratesWell keyBytes rentOf migration configV0 7078320 wallet :=
  config_migration rfl rfl 7078320 wallet

open Market in
/-- The bump was 254, and the migrated config says 0. -/
theorem config_migration_bump : ∃ config' c,
    migrateConfigAccount keyBytes rentOf migration prefunded wallet = .ok (config', wallet) ∧
      ConfigV1.deserialize config'.data = some c ∧ configV0.bump = 254 ∧ c.bump = 0 ∧
      c.expectedPythFeed = 254 ∧ c.adminTimelockDelay = 0 :=
  ⟨_, configV0.misread currentVersion, ConfigV0.migrate_prefunded rfl rfl (by decide) wallet,
    deserialize_misread .., rfl, rfl, rfl, rfl⟩

open Market in
-- the rent of the small account is not enough, and the wallet cannot be made to pay
example : migrateConfigAccount keyBytes rentOf migration
    { data := configV0.data, lamports := 3083280 } wallet =
      .error .externalAccountLamportSpend := by
  rw [ConfigV0.migrate_data rfl rfl]
  rfl

end SolanaStablecoin
