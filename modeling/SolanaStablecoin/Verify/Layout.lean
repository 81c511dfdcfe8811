import SolanaStablecoin.Verify.Guards

/-! The offsets that the transfer hook, the migration and the multi-oracle reader are written with
are where the fields of those names lie. -/

namespace SolanaStablecoin

open Cell Layout

/-! ## Sizes -/

attribute [simp] Codec.length_encode

namespace Cell

@[simp] theorem size_u8 : u8.size = 1 := rfl

@[simp] theorem size_u16 : u16.size = 2 := rfl

@[simp] theorem size_u32 : u32.size = 4 := rfl

@[simp] theorem size_u64 : u64.size = 8 := rfl

@[simp] theorem size_i32 : i32.size = 4 := rfl

@[simp] theorem size_i64 : i64.size = 8 := rfl

@[simp] theorem size_bytes32 : bytes32.size = 32 := rfl

@[simp] theorem size_bool : bool.size = 1 := rfl

@[simp] theorem size_key : key.size = 32 := rfl

end Cell

@[simp] theorem length_stablecoinConfigDiscriminator :
    stablecoinConfigDiscriminator.length = 8 := rfl

/-! ## Where the fields lie -/

namespace StablecoinConfig

theorem mint_at : Locates fields offsetMint key mint fun c k => { c with mint := k } :=
  .of_field 1 (fun _ => rfl) (fun _ => by simp [offset, fields, offsetMint])
    (fun _ _ => rfl)

theorem authority_at :
    Locates fields offsetAuthority key authority fun c k => { c with authority := k } :=
  .of_field 2 (fun _ => rfl) (fun _ => by simp [offset, fields, offsetAuthority])
    (fun _ _ => rfl)

theorem featureFlags_at :
    Locates fields featureFlagsOffset u64 featureFlags fun c n => { c with featureFlags := n } :=
  .of_field 15 (fun _ => rfl) (fun _ => by simp [offset, fields, featureFlagsOffset])
    (fun _ _ => rfl)

theorem maxTransferAmount_at :
    Locates fields maxTransferAmountOffset u64 maxTransferAmount
      fun c n => { c with maxTransferAmount := n } :=
  .of_field 16 (fun _ => rfl) (fun _ => by simp [offset, fields, maxTransferAmountOffset])
    (fun _ _ => rfl)

theorem version_at : Locates fields offsetVersion u8 version fun c n => { c with version := n } :=
  .of_field 33 (fun _ => rfl) (fun _ => by simp [offset, fields, offsetVersion])
    (fun _ _ => rfl)

theorem sanctionsOracle_at :
    Locates fields sanctionsOracleOffset key sanctionsOracle
      fun c k => { c with sanctionsOracle := k } :=
  .of_field 36 (fun _ => rfl) (fun _ => by simp [offset, fields, sanctionsOracleOffset])
    (fun _ _ => rfl)

theorem sanctionsMaxStaleness_at :
    Locates fields sanctionsMaxStalenessOffset u64 sanctionsMaxStalenessSlots
      fun c n => { c with sanctionsMaxStalenessSlots := n } :=
  .of_field 37 (fun _ => rfl) (fun _ => by simp [offset, fields, sanctionsMaxStalenessOffset])
    (fun _ _ => rfl)

end StablecoinConfig

theorem VerificationRecord.expiresAtSlot_at :
    Locates fields zkRecordExpiresOffset u64 expiresAtSlot
      fun r n => { r with expiresAtSlot := n } :=
  .of_field 3 (fun _ => rfl) (fun _ => rfl) (fun _ _ => rfl)

namespace SanctionsRecord

theorem isSanctioned_at :
    Locates fields sanctionsIsSanctionedOffset bool isSanctioned
      fun r b => { r with isSanctioned := b } :=
  .of_field 1 (fun _ => rfl) (fun _ => rfl) (fun _ _ => rfl)

theorem updatedSlot_at :
    Locates fields sanctionsUpdatedSlotOffset u64 updatedSlot
      fun r n => { r with updatedSlot := n } :=
  .of_field 2 (fun _ => rfl) (fun _ => rfl) (fun _ _ => rfl)

end SanctionsRecord

namespace CredentialRecord

theorem expiresSlot_at :
    Locates fields crExpiresSlotOffset u64 expiresSlot fun r n => { r with expiresSlot := n } :=
  .of_field 4 (fun _ => rfl) (fun _ => rfl) (fun _ _ => rfl)

theorem revoked_at :
    Locates fields crRevokedOffset bool revoked fun r b => { r with revoked := b } :=
  .of_field 5 (fun _ => rfl) (fun _ => rfl) (fun _ _ => rfl)

end CredentialRecord

namespace WalletRateLimit

theorem maxTransferPerWindow_at :
    Locates fields wrlMaxTransferOffset u64 maxTransferPerWindow
      fun r n => { r with maxTransferPerWindow := n } :=
  .of_field 3 (fun _ => rfl) (fun _ => rfl) (fun _ _ => rfl)

theorem windowSlots_at :
    Locates fields wrlWindowSlotsOffset u64 windowSlots fun r n => { r with windowSlots := n } :=
  .of_field 4 (fun _ => rfl) (fun _ => rfl) (fun _ _ => rfl)

theorem transferredThisWindow_at :
    Locates fields wrlTransferredOffset u64 transferredThisWindow
      fun r n => { r with transferredThisWindow := n } :=
  .of_field 5 (fun _ => rfl) (fun _ => rfl) (fun _ _ => rfl)

theorem windowStartSlot_at :
    Locates fields wrlWindowStartOffset u64 windowStartSlot
      fun r n => { r with windowStartSlot := n } :=
  .of_field 6 (fun _ => rfl) (fun _ => rfl) (fun _ _ => rfl)

end WalletRateLimit

namespace CustomPriceFeed

theorem price_at : Locates fields priceOff i64 price fun f x => { f with price := x } :=
  .of_field 2 (fun _ => rfl) (fun _ => rfl) (fun _ _ => rfl)

theorem lastUpdateSlot_at :
    Locates fields slotOff u64 lastUpdateSlot fun f n => { f with lastUpdateSlot := n } :=
  .of_field 5 (fun _ => rfl) (fun _ => rfl) (fun _ _ => rfl)

end CustomPriceFeed

/-- Each offset that is read or written by hand is the place of the field it is named after. -/
theorem offsets_locate_fields :
    (Locates StablecoinConfig.fields offsetMint key (·.mint) fun c k => { c with mint := k }) ∧
    (Locates StablecoinConfig.fields offsetAuthority key (·.authority)
      fun c k => { c with authority := k }) ∧
    (Locates StablecoinConfig.fields featureFlagsOffset u64 (·.featureFlags)
      fun c n => { c with featureFlags := n }) ∧
    (Locates StablecoinConfig.fields maxTransferAmountOffset u64 (·.maxTransferAmount)
      fun c n => { c with maxTransferAmount := n }) ∧
    (Locates StablecoinConfig.fields offsetVersion u8 (·.version)
      fun c n => { c with version := n }) ∧
    (Locates StablecoinConfig.fields sanctionsOracleOffset key (·.sanctionsOracle)
      fun c k => { c with sanctionsOracle := k }) ∧
    (Locates StablecoinConfig.fields sanctionsMaxStalenessOffset u64 (·.sanctionsMaxStalenessSlots)
      fun c n => { c with sanctionsMaxStalenessSlots := n }) ∧
    (Locates VerificationRecord.fields zkRecordExpiresOffset u64 (·.expiresAtSlot)
      fun r n => { r with expiresAtSlot := n }) ∧
    (Locates SanctionsRecord.fields sanctionsIsSanctionedOffset bool (·.isSanctioned)
      fun r b => { r with isSanctioned := b }) ∧
    (Locates SanctionsRecord.fields sanctionsUpdatedSlotOffset u64 (·.updatedSlot)
      fun r n => { r with updatedSlot := n }) ∧
    (Locates CredentialRecord.fields crExpiresSlotOffset u64 (·.expiresSlot)
      fun r n => { r with expiresSlot := n }) ∧
    (Locates CredentialRecord.fields crRevokedOffset bool (·.revoked)
      fun r b => { r with revoked := b }) ∧
    (Locates WalletRateLimit.fields wrlMaxTransferOffset u64 (·.maxTransferPerWindow)
      fun r n => { r with maxTransferPerWindow := n }) ∧
    (Locates WalletRateLimit.fields wrlWindowSlotsOffset u64 (·.windowSlots)
      fun r n => { r with windowSlots := n }) ∧
    (Locates WalletRateLimit.fields wrlTransferredOffset u64 (·.transferredThisWindow)
      fun r n => { r with transferredThisWindow := n }) ∧
    (Locates WalletRateLimit.fields wrlWindowStartOffset u64 (·.windowStartSlot)
      fun r n => { r with windowStartSlot := n }) ∧
    (Locates CustomPriceFeed.fields priceOff i64 (·.price) fun f x => { f with price := x }) ∧
    (Locates CustomPriceFeed.fields slotOff u64 (·.lastUpdateSlot)
      fun f n => { f with lastUpdateSlot := n }) :=
  ⟨StablecoinConfig.mint_at, StablecoinConfig.authority_at, StablecoinConfig.featureFlags_at,
    StablecoinConfig.maxTransferAmount_at, StablecoinConfig.version_at,
    StablecoinConfig.sanctionsOracle_at, StablecoinConfig.sanctionsMaxStaleness_at,
    VerificationRecord.expiresAtSlot_at, SanctionsRecord.isSanctioned_at,
    SanctionsRecord.updatedSlot_at, CredentialRecord.expiresSlot_at, CredentialRecord.revoked_at,
    WalletRateLimit.maxTransferPerWindow_at, WalletRateLimit.windowSlots_at,
    WalletRateLimit.transferredThisWindow_at, WalletRateLimit.windowStartSlot_at,
    CustomPriceFeed.price_at, CustomPriceFeed.lastUpdateSlot_at⟩

/-! ## What the readers find

Every record is long enough for its readers, so that none of them takes it for a missing one. -/

theorem readU64_of_locates {γ : Type} {fields : γ → List (List Cell)} {off : Nat}
    {get : γ → UInt64} {set : γ → UInt64 → γ} (h : Locates fields off u64 get set) (r : γ)
    (rest : List Cell) : readU64 ((fields r).flatten ++ rest) off = .ok (get r) := by
  rw [readU64, h.read]
  rfl

theorem readU64_record {γ : Type} {fields : γ → List (List Cell)} {off : Nat} {get : γ → UInt64}
    {set : γ → UInt64 → γ} (h : Locates fields off u64 get set) (r : γ) :
    readU64 (fields r).flatten off = .ok (get r) := by
  rw [readU64, h.read_record]
  rfl

namespace StablecoinConfig

variable (c : StablecoinConfig)

/-- The fields before `authorized_keepers` have 564 bytes, whatever they hold. -/
theorem le_length_data : sanctionsConfigMinSize ≤ c.data.length := by
  have hstart : offset c.fields 38 = sanctionsConfigMinSize := by
    simp [offset, fields, sanctionsConfigMinSize]
  have hle := offset_le_length c.fields 38
  rw [data, List.length_append]
  omega

theorem take_data : c.data.take 8 = stablecoinConfigDiscriminator := rfl

@[simp] theorem readU64_featureFlags : readU64 c.data featureFlagsOffset = .ok c.featureFlags :=
  readU64_of_locates featureFlags_at c _

@[simp] theorem readU64_maxTransferAmount :
    readU64 c.data maxTransferAmountOffset = .ok c.maxTransferAmount :=
  readU64_of_locates maxTransferAmount_at c _

@[simp] theorem readU64_sanctionsMaxStaleness :
    readU64 c.data sanctionsMaxStalenessOffset = .ok c.sanctionsMaxStalenessSlots :=
  readU64_of_locates sanctionsMaxStaleness_at c _

@[simp] theorem read_sanctionsOracle :
    key.read c.data sanctionsOracleOffset = some c.sanctionsOracle := sanctionsOracle_at.read c _

@[simp] theorem read_version : u8.read c.data offsetVersion = some c.version := version_at.read c _

@[simp] theorem read_authority : key.read c.data offsetAuthority = some c.authority :=
  authority_at.read c _

end StablecoinConfig

namespace VerificationRecord

variable (r : VerificationRecord)

@[simp] theorem length_data : r.data.length = 81 := by simp [data, fields, discriminator]

@[simp] theorem readU64_expiresAtSlot :
    readU64 r.data zkRecordExpiresOffset = .ok r.expiresAtSlot :=
  readU64_record expiresAtSlot_at r

end VerificationRecord

namespace SanctionsRecord

variable (r : SanctionsRecord)

@[simp] theorem length_data : r.data.length = 18 := by simp [data, fields, discriminator]

@[simp] theorem read_isSanctioned :
    bool.read r.data sanctionsIsSanctionedOffset = some r.isSanctioned :=
  isSanctioned_at.read_record r

@[simp] theorem readU64_updatedSlot :
    readU64 r.data sanctionsUpdatedSlotOffset = .ok r.updatedSlot :=
  readU64_record updatedSlot_at r

end SanctionsRecord

namespace CredentialRecord

variable (r : CredentialRecord)

@[simp] theorem length_data : r.data.length = 90 := by simp [data, fields, discriminator]

@[simp] theorem readU64_expiresSlot : readU64 r.data crExpiresSlotOffset = .ok r.expiresSlot :=
  readU64_record expiresSlot_at r

@[simp] theorem read_revoked : bool.read r.data crRevokedOffset = some r.revoked :=
  revoked_at.read_record r

end CredentialRecord

namespace WalletRateLimit

variable (r : WalletRateLimit)

@[simp] theorem length_data : r.data.length = 105 := by simp [data, fields, discriminator]

@[simp] theorem readU64_maxTransferPerWindow :
    readU64 r.data wrlMaxTransferOffset = .ok r.maxTransferPerWindow :=
  readU64_record maxTransferPerWindow_at r

@[simp] theorem readU64_windowSlots : readU64 r.data wrlWindowSlotsOffset = .ok r.windowSlots :=
  readU64_record windowSlots_at r

@[simp] theorem readU64_transferredThisWindow :
    readU64 r.data wrlTransferredOffset = .ok r.transferredThisWindow :=
  readU64_record transferredThisWindow_at r

@[simp] theorem readU64_windowStartSlot :
    readU64 r.data wrlWindowStartOffset = .ok r.windowStartSlot :=
  readU64_record windowStartSlot_at r

end WalletRateLimit

/-- The owner of a token account lies behind its mint. -/
theorem TokenAccount.read_owner (a : TokenAccount) : key.read a.data 32 = some a.owner := by
  have hat : Locates fields 32 key owner fun a k => { a with owner := k } :=
    .of_field 1 (fun _ => rfl) (fun _ => rfl) (fun _ _ => rfl)
  exact hat.read_record a

end SolanaStablecoin
