import SolanaStablecoin.Base.Ensures
import SolanaStablecoin.Program.Step

/-! What the success of a shared guard or loader says. These lemmas are `simp` lemmas, so that the
success of a handler unfolds into its checks and nothing of the guards themselves. -/

namespace SolanaStablecoin

variable {s : State} {c c' : StablecoinConfig} {m : Mint} {mint owner collateralMint k : Pubkey}
  {n : UInt64} {u : Unit}

/-! ## Configs -/

namespace StablecoinConfig

@[simp] theorem requireVersion_eq_ok :
    c.requireVersion = .ok u ↔ minSupportedVersion ≤ c.version := require_eq_ok

@[simp] theorem requireNotPaused_eq_ok : c.requireNotPaused = .ok u ↔ c.paused = false :=
  require_eq_ok

@[simp] theorem requireNoCircuitBreaker_eq_ok :
    c.requireNoCircuitBreaker = .ok u ↔ c.featureFlags &&& flagCircuitBreaker = 0 :=
  require_eq_ok

@[simp] theorem requireQueueFlag_eq_ok :
    c.requireQueueFlag = .ok u ↔ c.featureFlags &&& flagRedemptionQueue ≠ 0 := require_eq_ok

@[simp] theorem addMinted_eq_ok :
    c.addMinted n = .ok c' ↔
      ∃ x, x.toNat = c.totalMinted.toNat + n.toNat ∧ { c with totalMinted := x } = c' := by
  simp [addMinted, UInt64.checkedAdd_eq_some]

@[simp] theorem addBurned_eq_ok :
    c.addBurned n = .ok c' ↔
      ∃ x, x.toNat = c.totalBurned.toNat + n.toNat ∧ { c with totalBurned := x } = c' := by
  simp [addBurned, UInt64.checkedAdd_eq_some]

/-- The cap, when there is one, has room for the amount. -/
def FitsCap (c : StablecoinConfig) (n : UInt64) : Prop :=
  0 < c.maxSupply.toNat → c.totalMinted.toNat + n.toNat - c.totalBurned.toNat ≤ c.maxSupply.toNat

theorem toNat_netSupply (c : StablecoinConfig) :
    c.netSupply.toNat = c.totalMinted.toNat - c.totalBurned.toNat :=
  UInt64.toNat_saturatingSub ..

theorem fitsCap_of_netSupply
    (h : 0 < c.maxSupply → ∃ x : UInt64, x.toNat = c.netSupply.toNat + n.toNat ∧ x ≤ c.maxSupply) :
    c.FitsCap n := by
  intro hpos
  obtain ⟨x, hx, hle⟩ := h (UInt64.lt_iff_toNat_lt.mpr hpos)
  have := UInt64.le_iff_toNat_le.mp hle
  rw [hx, toNat_netSupply] at this
  omega

theorem fitsCap_of_checkMaxSupply (h : c.checkMaxSupply n = .ok u) : c.FitsCap n := by
  simp only [checkMaxSupply, requireWhen_eq_ok, bind_eq_ok, Option.okOr_eq_ok,
    UInt64.checkedAdd_eq_some, require_eq_ok] at h
  exact fitsCap_of_netSupply h

end StablecoinConfig

@[simp] theorem requireAmount_eq_ok : requireAmount n = .ok u ↔ 0 < n := require_eq_ok

@[simp] theorem loadConfigOfMint_eq_ok :
    loadConfigOfMint s mint = .ok c ↔
      s.configs (.stablecoinConfig mint) = some c ∧ (∃ m, s.tokens.mints mint = some m) ∧
        mint = c.mint := by
  simp only [loadConfigOfMint, bind_eq_ok, load_eq_ok, require_eq_ok, pure_eq_ok]
  constructor
  · rintro ⟨_, hc, m, hm, _, hmint, rfl⟩
    exact ⟨hc, ⟨m, hm⟩, hmint⟩
  · rintro ⟨hc, ⟨m, hm⟩, hmint⟩
    exact ⟨c, hc, m, hm, (), hmint, rfl⟩

@[simp] theorem loadOwnConfig_eq_ok :
    loadOwnConfig s k = .ok c ↔ s.configs k = some c ∧ k = .stablecoinConfig c.mint := by
  rw [loadOwnConfig, checked_eq_ok, load_eq_ok]

@[simp] theorem loadSss3_eq_ok :
    loadSss3 s mint = .ok c ↔ s.configs (.stablecoinConfig mint) = some c ∧ c.preset = 3 := by
  rw [loadSss3, checked_eq_ok, load_eq_ok]

@[simp] theorem loadSss3OfMint_eq_ok :
    loadSss3OfMint s mint = .ok (c, m) ↔
      s.configs (.stablecoinConfig mint) = some c ∧ c.preset = 3 ∧
        s.tokens.mints mint = some m ∧ mint = c.mint := by
  simp only [loadSss3OfMint, bind_eq_ok, loadSss3_eq_ok, load_eq_ok, require_eq_ok, pure_eq_ok]
  constructor
  · rintro ⟨_, ⟨hc, hp⟩, _, hm, _, hmint, h⟩
    cases h
    exact ⟨hc, hp, hm, hmint⟩
  · rintro ⟨hc, hp, hm, hmint⟩
    exact ⟨c, ⟨hc, hp⟩, m, hm, (), hmint, rfl⟩

@[simp] theorem AuthorityAndMint.loadConfig_eq_ok {a : AuthorityAndMint} :
    a.loadConfig s = .ok c ↔
      s.configs (.stablecoinConfig a.mint) = some c ∧ c.authority = a.authority.key ∧
        (∃ m, s.tokens.mints a.mint = some m) ∧ a.mint = c.mint := by
  simp only [AuthorityAndMint.loadConfig, AuthorityAndMint.config, bind_eq_ok, load_eq_ok,
    require_eq_ok, pure_eq_ok]
  constructor
  · rintro ⟨_, hc, _, ha, m, hm, _, hmint, rfl⟩
    exact ⟨hc, ha, ⟨m, hm⟩, hmint⟩
  · rintro ⟨hc, ha, ⟨m, hm⟩, hmint⟩
    exact ⟨c, hc, (), ha, m, hm, (), hmint, rfl⟩

@[simp] theorem AuthorityAndConfig.loadConfig_eq_ok {a : AuthorityAndConfig} :
    a.loadConfig s = .ok c ↔
      s.configs a.config = some c ∧ a.config = .stablecoinConfig c.mint ∧
        c.authority = a.authority.key := by
  rw [AuthorityAndConfig.loadConfig, checked_twice_eq_ok, load_eq_ok]

@[simp] theorem AuthorityAndConfig.loadSss3_eq_ok {a : AuthorityAndConfig} :
    a.loadSss3 s = .ok c ↔ a.loadConfig s = .ok c ∧ c.preset = 3 := by
  rw [AuthorityAndConfig.loadSss3, checked_eq_ok]

/-! ## The redemption queue -/

@[simp] theorem loadQueue_eq_ok {rq : RedemptionQueue} :
    loadQueue s c = .ok rq ↔
      s.redemptionQueues (.redemptionQueue c.mint) = some rq ∧ rq.sssMint = c.mint := by
  rw [loadQueue, checked_eq_ok, load_eq_ok]

@[simp] theorem loadEntry_eq_ok {re : RedemptionEntry} :
    loadEntry s c n = .ok re ↔
      s.redemptionEntries (.redemptionEntry c.mint n) = some re ∧ re.fulfilled = false ∧
        re.cancelled = false := by
  rw [loadEntry, checked_twice_eq_ok, load_eq_ok]

/-! ## Accounts -/

section Errors

variable {P : ProgramError → Prop} {α : Type} {f : Pubkey → Option α}

theorem load_failsOnly (hP : ∀ e, P (.anchor e)) : FailsOnly (load f k) P := .okOr (hP _)

theorem requireFree_failsOnly (hP : ∀ e, P (.anchor e)) : FailsOnly (requireFree f k) P :=
  .guard (hP _)

theorem loadOwnConfig_failsOnly (hP : ∀ e, P (.anchor e)) : FailsOnly (loadOwnConfig s k) P :=
  .bind (load_failsOnly hP) fun _ => .bind (.guard (hP _)) fun _ => .pure

theorem requireTokenOf_failsOnly (hP : ∀ e, P (.anchor e)) :
    FailsOnly (requireTokenOf s k mint owner) P :=
  .bind (load_failsOnly hP) fun _ => .bind (.guard (hP _)) fun _ => .guard (hP _)

end Errors

@[simp] theorem requireTokenAccount_eq_ok :
    requireTokenAccount s k mint owner = .ok u ↔
      ∃ a, s.tokens.accounts k = some a ∧ a.mint = mint ∧ a.owner = owner := by
  simp [requireTokenAccount]

@[simp] theorem requireTokenOf_eq_ok :
    requireTokenOf s k mint owner = .ok u ↔
      ∃ a, s.tokens.accounts k = some a ∧ a.mint = mint ∧ a.owner = owner := by
  simp [requireTokenOf]

@[simp] theorem requirePoolAccount_eq_ok :
    requirePoolAccount s c k owner = .ok u ↔
      ∃ a, s.tokens.accounts k = some a ∧ a.owner = owner ∧ a.mint = c.collateralMint := by
  simp [requirePoolAccount]

@[simp] theorem loadPosition_eq_ok {p : CdpPosition} :
    loadPosition s mint owner = .ok p ↔
      s.cdpPositions (.cdpPosition mint owner) = some p ∧ p.owner = owner ∧ p.sssMint = mint := by
  rw [loadPosition, checked_twice_eq_ok, load_eq_ok]

@[simp] theorem loadVault_eq_ok {v : CollateralVault} :
    loadVault s mint owner collateralMint = .ok v ↔
      s.collateralVaults (.collateralVault mint owner collateralMint) = some v ∧
        v.owner = owner ∧ v.collateralMint = collateralMint := by
  rw [loadVault, checked_twice_eq_ok, load_eq_ok]

@[simp] theorem requireVaultTokenAccount_eq_ok {v : CollateralVault} :
    requireVaultTokenAccount s v k collateralMint = .ok u ↔
      ∃ a, s.tokens.accounts k = some a ∧ k = v.vaultTokenAccount ∧ a.mint = collateralMint := by
  simp [requireVaultTokenAccount]

/-! ## Committees, guardians and vaults -/

@[simp] theorem CallerAndMint.loadCommittee_eq_ok {a : CallerAndMint}
    {x : StablecoinConfig × DaoCommitteeConfig} :
    a.loadCommittee s = .ok x ↔
      loadConfigOfMint s a.mint = .ok x.1 ∧
        s.daoCommittees (.daoCommittee (.stablecoinConfig a.mint)) = some x.2 := by
  obtain ⟨c, d⟩ := x
  simp [CallerAndMint.loadCommittee, CallerAndMint.config]

@[simp] theorem CallerAndMint.loadGuardians_eq_ok {a : CallerAndMint}
    {x : StablecoinConfig × GuardianConfig} :
    a.loadGuardians s = .ok x ↔
      loadConfigOfMint s a.mint = .ok x.1 ∧
        s.guardianConfigs (.guardianConfig (.stablecoinConfig a.mint)) = some x.2 := by
  obtain ⟨c, g⟩ := x
  simp [CallerAndMint.loadGuardians, CallerAndMint.config]

@[simp] theorem AuthorityAndSssMint.loadConfig_eq_ok {a : AuthorityAndSssMint} :
    a.loadConfig s = .ok c ↔
      s.configs (.stablecoinConfig a.sssMint) = some c ∧ c.authority = a.authority.key ∧
        c.preset = 3 ∧ ∃ m, s.tokens.mints a.sssMint = some m := by
  simp only [AuthorityAndSssMint.loadConfig, bind_eq_ok, load_eq_ok, require_eq_ok, pure_eq_ok]
  constructor
  · intro h
    obtain ⟨_, hc, _, hauth, _, hpreset, m, hm, rfl⟩ := h
    exact ⟨hc, hauth, hpreset, m, hm⟩
  · intro h
    obtain ⟨hc, hauth, hpreset, m, hm⟩ := h
    exact ⟨c, hc, (), hauth, (), hpreset, m, hm, rfl⟩

/-! ## Steps of a handler -/

/-- What `x` returns contains, as its `π`, the config that is stored at `k`. -/
class ReadsConfig {β : Type} (x : Result β) (s : outParam State) (k : outParam Pubkey)
    (π : outParam (β → StablecoinConfig)) : Prop where
  stored : ∀ b, x = .ok b → s.configs k = some (π b)

namespace ReadsConfig

instance load : ReadsConfig (load s.configs k) s k fun c => c :=
  ⟨fun _ h => load_eq_ok.mp h⟩

instance configOfMint :
    ReadsConfig (loadConfigOfMint s mint) s (.stablecoinConfig mint) fun c => c :=
  ⟨fun _ h => (loadConfigOfMint_eq_ok.mp h).1⟩

instance ownConfig : ReadsConfig (loadOwnConfig s k) s k fun c => c :=
  ⟨fun _ h => (loadOwnConfig_eq_ok.mp h).1⟩

instance sss3 : ReadsConfig (loadSss3 s mint) s (.stablecoinConfig mint) fun c => c :=
  ⟨fun _ h => (loadSss3_eq_ok.mp h).1⟩

instance sss3OfMint : ReadsConfig (loadSss3OfMint s mint) s (.stablecoinConfig mint) Prod.fst :=
  ⟨fun _ h => (loadSss3OfMint_eq_ok.mp h).1⟩

instance authorityAndMint {a : AuthorityAndMint} :
    ReadsConfig (a.loadConfig s) s a.config fun c => c :=
  ⟨fun _ h => (AuthorityAndMint.loadConfig_eq_ok.mp h).1⟩

instance authorityAndConfig {a : AuthorityAndConfig} :
    ReadsConfig (a.loadConfig s) s a.config fun c => c :=
  ⟨fun _ h => (AuthorityAndConfig.loadConfig_eq_ok.mp h).1⟩

instance authorityAndConfigSss3 {a : AuthorityAndConfig} :
    ReadsConfig (a.loadSss3 s) s a.config fun c => c :=
  ⟨fun _ h => (AuthorityAndConfig.loadConfig_eq_ok.mp (AuthorityAndConfig.loadSss3_eq_ok.mp h).1).1⟩

instance authorityAndSssMint {a : AuthorityAndSssMint} :
    ReadsConfig (a.loadConfig s) s (.stablecoinConfig a.sssMint) fun c => c :=
  ⟨fun _ h => (AuthorityAndSssMint.loadConfig_eq_ok.mp h).1⟩

instance committee {a : CallerAndMint} : ReadsConfig (a.loadCommittee s) s a.config Prod.fst :=
  ⟨fun _ h => (loadConfigOfMint_eq_ok.mp (CallerAndMint.loadCommittee_eq_ok.mp h).1).1⟩

instance guardians {a : CallerAndMint} : ReadsConfig (a.loadGuardians s) s a.config Prod.fst :=
  ⟨fun _ h => (loadConfigOfMint_eq_ok.mp (CallerAndMint.loadGuardians_eq_ok.mp h).1).1⟩

end ReadsConfig

namespace Ensures

variable {α β : Type} {P : α → Prop} {f : StablecoinConfig → Result α}

theorem bind_reads {x : Result β} {π : β → StablecoinConfig} [ReadsConfig x s k π]
    {f : β → Result α} (h : ∀ b, s.configs k = some (π b) → Ensures (f b) P) :
    Ensures (x >>= f) P :=
  .bind fun b hb => h b (ReadsConfig.stored b hb)

theorem bind_reads_pair {x : Result (StablecoinConfig × β)} [ReadsConfig x s k Prod.fst]
    {f : StablecoinConfig × β → Result α}
    (h : ∀ c b, s.configs k = some c → Ensures (f (c, b)) P) : Ensures (x >>= f) P :=
  bind_reads fun (c, b) hc => h c b hc

theorem bind_addMinted (h : ∀ x, Ensures (f { c with totalMinted := x }) P) :
    Ensures (c.addMinted n >>= f) P := by
  refine .bind fun c' hc => ?_
  obtain ⟨x, -, rfl⟩ := StablecoinConfig.addMinted_eq_ok.mp hc
  exact h x

theorem bind_addBurned (h : ∀ x, Ensures (f { c with totalBurned := x }) P) :
    Ensures (c.addBurned n >>= f) P := by
  refine .bind fun c' hc => ?_
  obtain ⟨x, -, rfl⟩ := StablecoinConfig.addBurned_eq_ok.mp hc
  exact h x

end Ensures

end SolanaStablecoin
