import SolanaStablecoin.Program.Token2022
import SolanaStablecoin.Verify.Layout
import SolanaStablecoin.Verify.Settings

/-! What becomes of a config in the long run. It is never removed and never created anew; what it
was initialised with stays, and its counters and its version only grow. -/

namespace SolanaStablecoin

open Transition

/-- What no instruction changes of a config. -/
structure Charter where
  mint : Pubkey
  transferHookProgram : Pubkey
  collateralMint : Pubkey
  reserveVault : Pubkey
  maxSupply : UInt64
  auditorElgamalPubkey : BitVec 256
  supplyCapLocked : Bool
  bump : UInt8

def StablecoinConfig.charter (c : StablecoinConfig) : Charter :=
  { mint := c.mint
    transferHookProgram := c.transferHookProgram
    collateralMint := c.collateralMint
    reserveVault := c.reserveVault
    maxSupply := c.maxSupply
    auditorElgamalPubkey := c.auditorElgamalPubkey
    supplyCapLocked := c.supplyCapLocked
    bump := c.bump }

namespace ConfigField

variable {α : Type} [Inhabited α] {fs : List ConfigField} {field : ConfigField}

theorem hide_eq {x : α} (h : fs.contains field = false) : hide fs field x = x := by
  rw [hide, h, cond_false]

def charter : List ConfigField :=
  [.mint, .transferHookProgram, .collateralMint, .reserveVault, .maxSupply, .auditorElgamalPubkey,
    .supplyCapLocked, .bump]

end ConfigField

variable {rt : Runtime} {clock : Clock} {s s' : State} {k : Pubkey} {c c' c'' : StablecoinConfig}

theorem StablecoinConfig.charter_without {fs : List ConfigField}
    (h : ∀ field ∈ ConfigField.charter, fs.contains field = false) (c : StablecoinConfig) :
    (c.without fs).charter = c.charter := by
  simp only [ConfigField.charter, List.forall_mem_cons] at h
  obtain ⟨hmint, hhook, hcollateral, hreserve, hmax, hauditor, hlocked, hbump, -⟩ := h
  simp only [charter, without, ConfigField.hide_eq, *]

namespace Instruction

theorem charter_not_mem_fields (i : Instruction) :
    ∀ field ∈ ConfigField.charter, i.fields.contains field = false := by
  have h : ConfigField.charter.all (fun field => !i.fields.contains field) = true := by
    cases i <;> rfl
  simpa using h

theorem eq_migrateConfig {i : Instruction} (h : i.fields.contains .version = true) :
    ∃ a, i = .migrateConfig a := by
  cases i with
  | migrateConfig a => exact ⟨a, rfl⟩
  | _ => cases h

theorem eq_initSquadsAuthority {i : Instruction}
    (h : i.fields.contains .preset = true ∨ i.fields.contains .squadsMultisig = true) :
    ∃ a p, i = .initSquadsAuthority a p := by
  cases i with
  | initSquadsAuthority a p => exact ⟨a, p, rfl⟩
  | _ => rcases h with h | h <;> cases h

end Instruction

/-- What `c` may become. -/
structure StablecoinConfig.Succeeds (c c' : StablecoinConfig) : Prop where
  charter : c'.charter = c.charter
  minted : c.totalMinted.toNat ≤ c'.totalMinted.toNat
  burned : c.totalBurned.toNat ≤ c'.totalBurned.toNat
  version : c.version.toNat ≤ c'.version.toNat
  multisig : c.squadsMultisig ≠ .default →
    c'.squadsMultisig = c.squadsMultisig ∧ c'.preset = c.preset
  preset : c'.preset = c.preset ∨ c'.preset = presetInstitutional

namespace StablecoinConfig.Succeeds

theorem refl (c : StablecoinConfig) : c.Succeeds c :=
  ⟨rfl, le_rfl, le_rfl, le_rfl, fun _ => ⟨rfl, rfl⟩, .inl rfl⟩

theorem trans (h : c.Succeeds c') (h' : c'.Succeeds c'') : c.Succeeds c'' where
  charter := h'.charter.trans h.charter
  minted := h.minted.trans h'.minted
  burned := h.burned.trans h'.burned
  version := h.version.trans h'.version
  multisig hset := by
    obtain ⟨hsame, hpreset⟩ := h.multisig hset
    obtain ⟨hsame', hpreset'⟩ := h'.multisig (hsame ▸ hset)
    exact ⟨hsame'.trans hsame, hpreset'.trans hpreset⟩
  preset := by
    rcases h'.preset with hpreset | hpreset
    · rw [hpreset]
      exact h.preset
    · exact .inr hpreset

end StablecoinConfig.Succeeds

/-- The counters of a config only grow. -/
theorem Step.counters {a : Action} (h : Step rt s a s') (hc : s.configs k = some c)
    (hc' : s'.configs k = some c') :
    c.totalMinted.toNat ≤ c'.totalMinted.toNat ∧ c.totalBurned.toNat ≤ c'.totalBurned.toNat := by
  cases h.configs with
  | terms h =>
    obtain ⟨c₁, hc₁, hterms⟩ := h.config' hc
    rw [hc'] at hc₁
    cases hc₁
    have hminted : c'.totalMinted = c.totalMinted := congrArg Terms.totalMinted hterms
    have hburned : c'.totalBurned = c.totalBurned := congrArg Terms.totalBurned hterms
    rw [hminted, hburned]
    exact ⟨le_rfl, le_rfl⟩
  | @posted c₀ mint i r h =>
    obtain ⟨c₁, hput, -, -, -, hminted, hburned⟩ := h.configs
    rw [hput, put_eq_some] at hc'
    rcases hc' with ⟨rfl, rfl⟩ | ⟨-, hc'⟩
    · rw [h.config] at hc
      cases hc
      rw [hminted, hburned]
      exact ⟨Nat.le_add_right .., Nat.le_add_right ..⟩
    · rw [hc] at hc'
      cases hc'
      exact ⟨le_rfl, le_rfl⟩
  | initialized h =>
    obtain ⟨c₁, hput, -⟩ := h.config
    rw [hput, put_eq_some] at hc'
    rcases hc' with ⟨rfl, -⟩ | ⟨-, hc'⟩
    · rw [h.free] at hc
      cases hc
    · rw [hc] at hc'
      cases hc'
      exact ⟨le_rfl, le_rfl⟩

theorem readVersion_data (c : StablecoinConfig) : readVersion c.data = .ok c.version := by
  have hlong : ¬ c.data.length ≤ offsetVersion := by
    have hle := c.le_length_data
    rw [sanctionsConfigMinSize] at hle
    rw [offsetVersion]
    omega
  rw [readVersion, if_neg hlong, c.read_version]
  rfl

theorem migrateConfigHandler_version {a : MigrateConfig}
    (h : migrateConfigHandler s a = .ok s') (hc : s.configs k = some c)
    (hc' : s'.configs k = some c') : c.version.toNat ≤ c'.version.toNat := by
  simp only [migrateConfigHandler, bind_eq_ok, load_eq_ok, require_eq_ok] at h
  obtain ⟨c₀, hc₀, -, hkey, -, -, -, -, version, hversion, -, -, -, -, h⟩ := h
  have hdata : s.data a.config = c₀.data := by
    rw [hkey] at hc₀ ⊢
    rw [State.data, hc₀]
    rfl
  rw [hdata, readVersion_data] at hversion
  cases hversion
  refine ite_ok_cases (fun _ h => ?_) (fun hold h => ?_) h
  · cases h
    rw [hc] at hc'
    cases hc'
    exact le_rfl
  · simp only [bind_eq_ok, pure_eq_ok] at h
    obtain ⟨-, -, rfl⟩ := h
    rcases put_eq_some.mp hc' with ⟨rfl, rfl⟩ | ⟨-, hc'⟩
    · rw [hc₀] at hc
      cases hc
      exact UInt8.le_iff_toNat_le.mp (UInt8.le_of_lt (UInt8.not_le.mp hold))
    · rw [hc] at hc'
      cases hc'
      exact le_rfl

theorem initSquadsAuthorityHandler_multisig {a : AuthorityAndMint} {p : InitSquadsAuthorityParams}
    (h : initSquadsAuthorityHandler s a p = .ok s') (hc : s.configs k = some c)
    (hc' : s'.configs k = some c') :
    c' = c ∨ c.squadsMultisig = .default ∧ c'.preset = presetInstitutional := by
  simp only [initSquadsAuthorityHandler, bind_eq_ok, load_eq_ok, require_eq_ok, pure_eq_ok] at h
  obtain ⟨c₀, hc₀, -, -, -, hnone, -, -, -, -, -, -, -, -, rfl⟩ := h
  rcases put_eq_some.mp hc' with ⟨rfl, rfl⟩ | ⟨-, hc'⟩
  · rw [hc₀] at hc
    cases hc
    exact .inr ⟨hnone, rfl⟩
  · rw [hc] at hc'
    cases hc'
    exact .inl rfl

theorem Instruction.exec_succeeds {i : Instruction} (h : i.exec rt clock s = .ok s')
    (hc : s.configs k = some c) : ∃ c', s'.configs k = some c' ∧ c.Succeeds c' := by
  by_cases hi : ∃ a p, i = .initializeStablecoin a p
  · obtain ⟨a, p, rfl⟩ := hi
    have hinit : Initialized s a.mint.key s' := initializeHandler_ok h
    obtain ⟨c₁, hput, -⟩ := hinit.config
    refine ⟨c, ?_, .refl c⟩
    rw [hput, put_of_ne, hc]
    rintro rfl
    rw [hinit.free] at hc
    cases hc
  · obtain ⟨c', hc', hfields⟩ :=
      (Instruction.exec_fields (fun a p heq => hi ⟨a, p, heq⟩) s' h).config' hc
    obtain ⟨hminted, hburned⟩ := (Instruction.exec_step h).counters hc hc'
    refine ⟨c', hc', ?_⟩
    have hcharter : c'.charter = c.charter := by
      have hnot := i.charter_not_mem_fields
      rw [← StablecoinConfig.charter_without hnot c', hfields,
        StablecoinConfig.charter_without hnot c]
    have hversion : c.version.toNat ≤ c'.version.toNat := by
      cases hv : i.fields.contains .version with
      | true =>
        obtain ⟨a, rfl⟩ := eq_migrateConfig hv
        exact migrateConfigHandler_version h hc hc'
      | false =>
        have hsame := congrArg StablecoinConfig.version hfields
        simp only [StablecoinConfig.without, ConfigField.hide_eq hv] at hsame
        rw [hsame]
    by_cases hsquads : i.fields.contains .preset = true ∨ i.fields.contains .squadsMultisig = true
    · obtain ⟨a, p, rfl⟩ := eq_initSquadsAuthority hsquads
      rcases initSquadsAuthorityHandler_multisig h hc hc' with rfl | ⟨hnone, hpreset⟩
      · exact .refl _
      · exact ⟨hcharter, hminted, hburned, hversion, fun hset => absurd hnone hset, .inr hpreset⟩
    · obtain ⟨hpreset, hmultisig⟩ := not_or.mp hsquads
      have hpreset' := congrArg StablecoinConfig.preset hfields
      have hmultisig' := congrArg StablecoinConfig.squadsMultisig hfields
      simp only [StablecoinConfig.without, ConfigField.hide_eq (Bool.eq_false_iff.mpr hpreset),
        ConfigField.hide_eq (Bool.eq_false_iff.mpr hmultisig)] at hpreset' hmultisig'
      exact ⟨hcharter, hminted, hburned, hversion, fun _ => ⟨hmultisig', hpreset'⟩, .inl hpreset'⟩

theorem exec_succeeds {a : Action} (h : Action.exec rt s a = .ok s') (hc : s.configs k = some c) :
    ∃ c', s'.configs k = some c' ∧ c.Succeeds c' := by
  cases a with
  | call clock i => exact Instruction.exec_succeeds h hc
  | world w => exact ⟨c, by rw [World.exec_configs h, hc], .refl c⟩

/-- A config is there for good, and becomes only what succeeds it, in any run. -/
theorem run_succeeds (as : List Action) (hc : s.configs k = some c) :
    ∃ c', (run rt s as).configs k = some c' ∧ c.Succeeds c' := by
  refine invariant_run_of_forall
    (I := fun s : State => ∃ c', s.configs k = some c' ∧ c.Succeeds c') (fun hI h => ?_) as
    ⟨c, hc, .refl c⟩
  obtain ⟨c₁, hc₁, hsucc⟩ := hI
  obtain ⟨c', hc', hnext⟩ := exec_succeeds h hc₁
  exact ⟨c', hc', hsucc.trans hnext⟩

/-- The collateralised stablecoins have a multisig from the start. -/
def State.Chaired (s : State) : Prop :=
  ∀ k c, s.configs k = some c → c.preset = 3 → c.squadsMultisig ≠ .default

theorem exec_chaired {a : Action} (hs : s.Chaired) (h : Action.exec rt s a = .ok s') :
    s'.Chaired := by
  intro k c' hc' hpreset
  rcases (exec_step h).config_origin hc' with ⟨c, hc, -⟩ | hfresh
  · obtain ⟨c₁, hc₁, hsucc⟩ := exec_succeeds h hc
    rw [hc'] at hc₁
    cases hc₁
    by_cases hset : c.squadsMultisig = .default
    · rcases hsucc.preset with hsame | hinstitutional
      · exact absurd hset (hs k c hc (hsame ▸ hpreset))
      · rw [hinstitutional] at hpreset
        exact absurd hpreset (by decide)
    · rw [(hsucc.multisig hset).1]
      exact hset
  · exact hfresh.multisig hpreset

/-- A stablecoin that is collateralised stays so. -/
theorem collateralised_forever (hs : Genesis s) (as bs : List Action)
    (hc : (run rt s as).configs k = some c) (hpreset : c.preset = 3) :
    ∃ c', (run rt s (as ++ bs)).configs k = some c' ∧ c'.preset = 3 ∧ c.Succeeds c' := by
  have hchaired : (run rt s as).Chaired :=
    invariant_run_of_forall exec_chaired as fun k c hc => by
      rw [hs.configs] at hc
      cases hc
  obtain ⟨c', hc', hsucc⟩ := run_succeeds bs hc
  refine ⟨c', ?_, (hsucc.multisig (hchaired k c hc hpreset)).2.trans hpreset, hsucc⟩
  rw [run, run_append]
  exact hc'

open Market in
theorem opening_collateralised :
    ∃ c, (run localRuntime genesis (opening 1000 ++ timelocked adminOpPause 0 1)).configs config =
      some c ∧ c.preset = 3 ∧ c.maxSupply = 1000 := by
  obtain ⟨c, hc, h⟩ := (Option.any_eq_true
    (fun c : StablecoinConfig => c.preset = 3 ∧ c.maxSupply = 1000)
    ((run localRuntime genesis (opening 1000)).configs config)).mp (by decide +kernel)
  obtain ⟨hpreset, hmax⟩ := of_decide_eq_true h
  obtain ⟨c', hc', hpreset', hsucc⟩ := collateralised_forever genesis_genesis (opening 1000)
    (timelocked adminOpPause 0 1) hc hpreset
  exact ⟨c', hc', hpreset', (congrArg Charter.maxSupply hsucc.charter).trans hmax⟩

end SolanaStablecoin
