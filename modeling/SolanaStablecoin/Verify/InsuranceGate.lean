import SolanaStablecoin.Verify.Insurance
import SolanaStablecoin.Verify.Interface
import SolanaStablecoin.Verify.SupplyChange

/-! The insurance vault as a gate. Nothing that mints looks at the vault, and whether the vault is
marked as seeded is decided anew only by the vault's own instructions; so the gate holds as far as
what is minted and burned was foreseen when the vault was filled. -/

namespace SolanaStablecoin

open Transition

variable {rt : Runtime} {clock : Clock} {s s' : State} {a : Action} {i : Instruction} {M : Pubkey}
  {c c' : StablecoinConfig} {v : InsuranceVault} {n : UInt64}

/-! ## Seeds -/

/-- `FLAG_INSURANCE_VAULT_REQUIRED` is set. -/
def State.Gated (s : State) (M : Pubkey) : Prop :=
  ∃ c ∈ s.configs (.stablecoinConfig M), c.featureFlags &&& flagInsuranceVaultRequired ≠ 0

/-- The vault holds the seed that the supply asks for. -/
def State.Seeded (s : State) (M : Pubkey) : Prop :=
  ∃ c ∈ s.configs (.stablecoinConfig M), ∃ v ∈ s.insuranceVault M,
    v.requiredSeedAmount c.netSupply ≤ v.currentBalance

/-- A vault is marked as seeded exactly if it is. -/
def State.Marked (s : State) (M : Pubkey) : Prop :=
  ∀ v ∈ s.insuranceVault M, ∃ c ∈ s.configs (.stablecoinConfig M),
    (v.adequatelySeeded = true ↔ v.requiredSeedAmount c.netSupply ≤ v.currentBalance)

instance State.Gated.decidable : Decidable (s.Gated M) :=
  inferInstanceAs (Decidable (∃ c ∈ s.configs (.stablecoinConfig M), _))

instance State.Seeded.decidable : Decidable (s.Seeded M) :=
  inferInstanceAs (Decidable (∃ c ∈ s.configs (.stablecoinConfig M), _))

instance State.Marked.decidable : Decidable (s.Marked M) :=
  inferInstanceAs (Decidable (∀ v ∈ s.insuranceVault M, _))

theorem InsuranceVault.toNat_requiredSeedAmount (v : InsuranceVault) (n : UInt64) :
    (v.requiredSeedAmount n).toNat = min (n.toNat * v.minSeedBps.toNat / 10000) (2 ^ 64 - 1) := by
  rw [requiredSeedAmount]
  split
  next hzero =>
    rw [hzero, UInt16.toNat_zero, Nat.mul_zero]
    rfl
  next =>
    have hlt : n.toNat * v.minSeedBps.toNat ≤ 2 ^ 128 - 1 := by
      have h := Nat.mul_le_mul n.toNat_lt.le v.minSeedBps.toNat_lt.le
      exact h.trans (by decide)
    rw [UInt64.toNat_ofNat_of_lt' (Nat.lt_of_le_of_lt (Nat.min_le_right _ _) (by decide)),
      U128.saturatingMul, Nat.min_eq_left hlt]

/-- What is in the vault covers the seed of a supply: `supply * min_seed_bps / 10_000` is no more,
or the balance is the most that there can be. -/
def InsuranceVault.Covers (v : InsuranceVault) (supply : Nat) : Prop :=
  supply * v.minSeedBps.toNat < 10000 * (v.currentBalance.toNat + 1) ∨
    v.currentBalance.toNat = 2 ^ 64 - 1

instance InsuranceVault.Covers.decidable {supply : Nat} : Decidable (v.Covers supply) :=
  inferInstanceAs (Decidable (_ ∨ _))

theorem InsuranceVault.covers_iff (v : InsuranceVault) (n : UInt64) :
    v.Covers n.toNat ↔ v.requiredSeedAmount n ≤ v.currentBalance := by
  have hlt := v.currentBalance.toNat_lt
  rw [UInt64.le_iff_toNat_le, v.toNat_requiredSeedAmount, Covers]
  omega

theorem InsuranceVault.requiredSeedAmount_mono {m : UInt64} (v : InsuranceVault) (h : m ≤ n) :
    v.requiredSeedAmount m ≤ v.requiredSeedAmount n := by
  rw [UInt64.le_iff_toNat_le, v.toNat_requiredSeedAmount, v.toNat_requiredSeedAmount]
  have hdiv : m.toNat * v.minSeedBps.toNat / 10000 ≤ n.toNat * v.minSeedBps.toNat / 10000 :=
    Nat.div_le_div_right (Nat.mul_le_mul_right _ (UInt64.le_iff_toNat_le.mp h))
  omega

/-! ## What marks the vault -/

/-- The seed that an instruction which opens the vault of `M` sets, in basis points. -/
def Action.opens (M : Pubkey) : Action → Option UInt16
  | .call _ (.initInsuranceVault b _ minSeedBps _) =>
    if b.sssMint = M then some minSeedBps else none
  | _ => none

/-- What a successful transaction does to the vault of `M` and to what it is measured against. -/
inductive MarkStep (M : Pubkey) (s : State) (a : Action) (s' : State) : Prop where
  | kept (unopened : a.opens M = none) (vault : s'.insuranceVault M = s.insuranceVault M)
    (supply : SupplyChange M s a s')
  | opened {c c' : StablecoinConfig} {v : InsuranceVault} (seed : a.opens M = some v.minSeedBps)
    (quiet : a.issued M = []) (idle : a.retired s M = 0)
    (old : s.configs (.stablecoinConfig M) = some c)
    (stored : s'.configs (.stablecoinConfig M) = some c') (terms : c'.terms = c.terms)
    (vault : s'.insuranceVault M = some v) (balance : v.currentBalance = 0)
    (mark : v.adequatelySeeded = decide (v.minSeedBps = 0)) : MarkStep M s a s'
  | weighed {c : StablecoinConfig} {v : InsuranceVault} (unopened : a.opens M = none)
    (quiet : a.issued M = []) (idle : a.retired s M = 0)
    (old : s.configs (.stablecoinConfig M) = some c)
    (stored : s'.configs (.stablecoinConfig M) = some c) (vault : s'.insuranceVault M = some v)
    (mark : v.adequatelySeeded = true ↔ v.requiredSeedAmount c.netSupply ≤ v.currentBalance) :
    MarkStep M s a s'

theorem initInsuranceVaultHandler_markStep {b : AuthorityAndSssMint} {account : Pubkey}
    {seed draw : UInt16} (h : initInsuranceVaultHandler s b account seed draw = .ok s')
    (hsupply : SupplyChange M s (.call clock (.initInsuranceVault b account seed draw)) s') :
    MarkStep M s (.call clock (.initInsuranceVault b account seed draw)) s' := by
  simp only [initInsuranceVaultHandler, AuthorityAndSssMint.loadConfig, bind_eq_ok, load_eq_ok,
    pure_eq_ok] at h
  obtain ⟨c, ⟨_, hc, -, -, -, -, -, -, rfl⟩, _, -, -, -, -, -, -, -, rfl⟩ := h
  by_cases hM : b.sssMint = M
  · subst hM
    refine .opened ?_ rfl rfl hc (put_self ..) rfl
      ((State.insuranceVault_put rfl).trans (if_pos rfl)) rfl rfl
    exact if_pos rfl
  · exact .kept (if_neg hM) ((State.insuranceVault_put rfl).trans (if_neg hM)) hsupply

theorem Rebalances.markStep {mint : Pubkey} {balance drawn : UInt64}
    (h : Rebalances mint c v balance drawn s s') (hunopened : a.opens M = none)
    (hquiet : a.issued M = []) (hidle : a.retired s M = 0) : MarkStep M s a s' := by
  by_cases hM : mint = M
  · subst hM
    refine .weighed hunopened hquiet hidle h.config (h.configs ▸ h.config)
      ((State.insuranceVault_put h.written).trans (if_pos rfl)) ?_
    exact decide_eq_true_iff
  · exact .kept hunopened ((State.insuranceVault_put h.written).trans (if_neg hM))
      (.of_terms hquiet hidle (.of_eq h.configs))

theorem exec_markStep (h : a.exec rt s = .ok s') : MarkStep M s a s' := by
  have hsupply : SupplyChange M s a s' := exec_supplyChange h
  cases a with
  | world w =>
    obtain ⟨t, p, q, d, rfl⟩ := World.exec_outside h
    exact .kept rfl rfl hsupply
  | call clock i =>
    cases hi : i.insures with
    | false =>
      have hunopened : (Action.call clock i).opens M = none := by
        cases i with
        | initInsuranceVault => cases hi
        | _ => rfl
      exact .kept hunopened
        (State.insuranceVault_eq ((Instruction.exec_funds h).insuranceVaults hi)) hsupply
    | true =>
      cases i with
      | initInsuranceVault => exact initInsuranceVaultHandler_markStep h hsupply
      | seedInsuranceVault | replenishInsuranceVault =>
        obtain ⟨c, v, balance, hre, -⟩ := seedInsuranceVaultHandler_rebalances h
        exact hre.markStep rfl rfl rfl
      | drawInsurance =>
        obtain ⟨c, v, balance, drawn, hre, -⟩ := drawInsuranceHandler_rebalances h
        exact hre.markStep rfl rfl rfl
      | _ => cases hi

/-! ## The gate -/

/-- A step that was foreseen when the vault was filled: what it is to mint leaves the seed in place,
what it is to burn does not bring the requirement down to a vault that lacks its seed, and a vault
that it opens asks for none or for some of the supply that there is. -/
structure Foreseen (M : Pubkey) (s : State) (a : Action) : Prop where
  issued : ∀ n ∈ a.issued M,
    (s.Gated M ∨ ∃ v ∈ s.insuranceVault M, v.adequatelySeeded = true) →
      ∃ c ∈ s.configs (.stablecoinConfig M), ∃ v ∈ s.insuranceVault M,
        v.Covers (c.totalMinted.toNat + n.toNat - c.totalBurned.toNat)
  retired : 0 < a.retired s M → ∀ c ∈ s.configs (.stablecoinConfig M),
    ∀ v ∈ s.insuranceVault M, v.adequatelySeeded = false →
      ¬ v.Covers (c.totalMinted.toNat - (c.totalBurned.toNat + a.retired s M))
  opened : ∀ minSeedBps ∈ a.opens M, ∀ c ∈ s.configs (.stablecoinConfig M),
    minSeedBps = 0 ∨ 10000 ≤ c.netSupply.toNat * minSeedBps.toNat

instance Foreseen.decidable : Decidable (Foreseen M s a) :=
  -- amounts are finitely many, but too many to go through
  have _ {P : UInt64 → Prop} [DecidablePred P] : Decidable (∀ n ∈ a.issued M, P n) :=
    List.decidableBAll ..
  have _ {P : UInt16 → Prop} [DecidablePred P] : Decidable (∀ b ∈ a.opens M, P b) :=
    Option.decidableForallMem ..
  decidable_of_iff ((∀ n ∈ a.issued M, _ → _) ∧ (0 < a.retired s M → _) ∧ ∀ b ∈ a.opens M, _)
    ⟨fun h => ⟨h.1, h.2.1, h.2.2⟩, fun h => ⟨h.issued, h.retired, h.opened⟩⟩

/-- The law of the gate: a vault stays marked for what it is, and where the flag is set what is
minted leaves the seed in place. -/
structure Gate (M : Pubkey) (s : State) (a : Action) (s' : State) : Prop where
  marked : s'.Marked M
  seeded : a.issued M ≠ [] → s.Gated M → s'.Seeded M

theorem StablecoinConfig.netSupply_congr (h : c'.terms = c.terms) : c'.netSupply = c.netSupply := by
  have hminted := congrArg Terms.totalMinted h
  have hburned := congrArg Terms.totalBurned h
  change c'.totalMinted = c.totalMinted at hminted
  change c'.totalBurned = c.totalBurned at hburned
  rw [netSupply, netSupply, hminted, hburned]

/-- What leaves the supply alone leaves the mark right. -/
theorem State.Marked.kept (hs : s.Marked M) (hvault : s'.insuranceVault M = s.insuranceVault M)
    (h : (s'.configs (.stablecoinConfig M)).map (·.terms) =
      (s.configs (.stablecoinConfig M)).map (·.terms)) : s'.Marked M := by
  intro v hv
  rw [hvault] at hv
  obtain ⟨c, hc, hmark⟩ := hs v hv
  rw [hc] at h
  obtain ⟨c', hc', hterms⟩ := Option.map_eq_some_iff.mp h
  exact ⟨c', hc', by rw [StablecoinConfig.netSupply_congr hterms, hmark]⟩

namespace Moved

/-- After a mint the vault is seeded and marked exactly if the amount was foreseen. -/
theorem gate_iff (h : Moved M s c n.toNat 0 s' c') (hs : s.Marked M)
    (hvault : s'.insuranceVault M = s.insuranceVault M) :
    (s'.Marked M ∧ (s.Gated M → s'.Seeded M)) ↔
      ((s.Gated M ∨ ∃ v ∈ s.insuranceVault M, v.adequatelySeeded = true) →
        ∃ c ∈ s.configs (.stablecoinConfig M), ∃ v ∈ s.insuranceVault M,
          v.Covers (c.totalMinted.toNat + n.toNat - c.totalBurned.toNat)) := by
  have hsupply : c'.netSupply.toNat = c.totalMinted.toNat + n.toNat - c.totalBurned.toNat :=
    h.toNat_netSupply
  constructor
  · rintro ⟨hmarked, hseeded⟩ (hgated | ⟨v, hv, hmark⟩)
    · obtain ⟨c₁, hc₁, v, hv, hle⟩ := hseeded hgated
      cases h.stored.symm.trans hc₁
      rw [hvault] at hv
      rw [← v.covers_iff, hsupply] at hle
      exact ⟨c, h.old, v, hv, hle⟩
    · obtain ⟨c₁, hc₁, hiff⟩ := hmarked v (hvault ▸ hv)
      cases h.stored.symm.trans hc₁
      rw [← v.covers_iff, hsupply] at hiff
      exact ⟨c, h.old, v, hv, hiff.mp hmark⟩
  · intro hforeseen
    have hcovers (hgate : s.Gated M ∨ ∃ v ∈ s.insuranceVault M, v.adequatelySeeded = true) :
        ∃ v ∈ s.insuranceVault M, v.requiredSeedAmount c'.netSupply ≤ v.currentBalance := by
      obtain ⟨c₁, hc₁, v, hv, hle⟩ := hforeseen hgate
      cases h.old.symm.trans hc₁
      exact ⟨v, hv, by rwa [← v.covers_iff, hsupply]⟩
    refine ⟨fun v hv => ⟨c', h.stored, ?_⟩, fun hgated => ?_⟩
    · rw [hvault] at hv
      obtain ⟨c₁, hc₁, hiff⟩ := hs v hv
      cases h.old.symm.trans hc₁
      constructor
      · intro hmark
        obtain ⟨v₁, hv₁, hle⟩ := hcovers (.inr ⟨v, hv, hmark⟩)
        cases hv.symm.trans hv₁
        exact hle
      · intro hle
        exact hiff.mpr
          (UInt64.le_trans (v.requiredSeedAmount_mono h.netSupply_le_of_issued) hle)
    · obtain ⟨v, hv, hle⟩ := hcovers (.inl hgated)
      exact ⟨c', h.stored, v, hvault ▸ hv, hle⟩

/-- After a burn the vault is marked right exactly if the amount was foreseen. -/
theorem marked_iff {r : Nat} (h : Moved M s c 0 r s' c') (hs : s.Marked M)
    (hvault : s'.insuranceVault M = s.insuranceVault M) :
    s'.Marked M ↔ ∀ v ∈ s.insuranceVault M, v.adequatelySeeded = false →
      ¬ v.Covers (c.totalMinted.toNat - (c.totalBurned.toNat + r)) := by
  have hsupply : c'.netSupply.toNat = c.totalMinted.toNat - (c.totalBurned.toNat + r) :=
    h.toNat_netSupply
  constructor
  · intro hmarked v hv hunmarked
    obtain ⟨c₁, hc₁, hiff⟩ := hmarked v (hvault ▸ hv)
    cases h.stored.symm.trans hc₁
    rw [hunmarked, ← v.covers_iff, hsupply] at hiff
    exact fun hcovers => Bool.false_ne_true (hiff.mpr hcovers)
  · intro hforeseen v hv
    rw [hvault] at hv
    obtain ⟨c₁, hc₁, hiff⟩ := hs v hv
    cases h.old.symm.trans hc₁
    refine ⟨c', h.stored, ?_⟩
    cases hmark : v.adequatelySeeded with
    | true =>
      have hle := UInt64.le_trans (v.requiredSeedAmount_mono h.netSupply_le_of_retired)
        (hiff.mp hmark)
      exact iff_of_true rfl hle
    | false =>
      have hlacks := hforeseen v hv hmark
      rw [← hsupply, v.covers_iff] at hlacks
      exact iff_of_false Bool.false_ne_true hlacks

end Moved

theorem requiredSeedAmount_le_zero_iff :
    (v.minSeedBps = 0 ↔ v.requiredSeedAmount n ≤ 0) ↔
      (v.minSeedBps = 0 ∨ 10000 ≤ n.toNat * v.minSeedBps.toNat) := by
  have hle : v.requiredSeedAmount n ≤ 0 ↔ n.toNat * v.minSeedBps.toNat < 10000 := by
    rw [UInt64.le_iff_toNat_le, v.toNat_requiredSeedAmount, UInt64.toNat_zero]
    omega
  rw [hle]
  by_cases hzero : v.minSeedBps = 0
  · rw [hzero, UInt16.toNat_zero, Nat.mul_zero]
    simp
  · simp [hzero]

theorem gate_of_unissued (hquiet : a.issued M = []) : Gate M s a s' ↔ s'.Marked M :=
  ⟨Gate.marked, fun h => ⟨h, fun hne => absurd hquiet hne⟩⟩

theorem foreseen_of_unissued (hquiet : a.issued M = []) (hunopened : a.opens M = none) :
    Foreseen M s a ↔ (0 < a.retired s M → ∀ c ∈ s.configs (.stablecoinConfig M),
      ∀ v ∈ s.insuranceVault M, v.adequatelySeeded = false →
        ¬ v.Covers (c.totalMinted.toNat - (c.totalBurned.toNat + a.retired s M))) := by
  refine ⟨Foreseen.retired, fun h => ⟨?_, h, ?_⟩⟩
  · rw [hquiet]
    exact fun n hn => absurd hn List.not_mem_nil
  · rw [hunopened]
    exact fun n hn => absurd hn (Option.not_mem_none n)

theorem foreseen_of_quiet (hquiet : a.issued M = []) (hunopened : a.opens M = none)
    (hidle : a.retired s M = 0) : Foreseen M s a := by
  rw [foreseen_of_unissued hquiet hunopened, hidle]
  exact fun hpos => absurd hpos (Nat.lt_irrefl 0)

/-- The step lemma. -/
theorem SupplyChange.gate_iff (h : SupplyChange M s a s') (hs : s.Marked M)
    (hunopened : a.opens M = none) (hvault : s'.insuranceVault M = s.insuranceVault M) :
    Gate M s a s' ↔ Foreseen M s a := by
  cases h with
  | kept quiet idle hterms =>
    rw [gate_of_unissued quiet]
    exact iff_of_true (hs.kept hvault hterms) (foreseen_of_quiet quiet hunopened idle)
  | @issued c c' n amount idle moved =>
    have hiff := moved.gate_iff hs hvault
    constructor
    · rintro ⟨hmarked, hseeded⟩
      refine ⟨?_, ?_, ?_⟩
      · rw [amount]
        intro n' hn'
        cases List.mem_singleton.mp hn'
        exact hiff.mp ⟨hmarked, hseeded (amount ▸ List.cons_ne_nil _ _)⟩
      · rw [idle]
        exact fun hpos => absurd hpos (Nat.lt_irrefl 0)
      · rw [hunopened]
        exact fun seed hseed => absurd hseed (Option.not_mem_none seed)
    · rintro ⟨hissued, -, -⟩
      obtain ⟨hmarked, hseeded⟩ := hiff.mpr (hissued n (amount ▸ List.mem_singleton_self n))
      exact ⟨hmarked, fun _ => hseeded⟩
  | @retired c c' quiet moved =>
    rw [gate_of_unissued quiet, foreseen_of_unissued quiet hunopened, moved.marked_iff hs hvault]
    constructor
    · intro h _ c₁ hc₁
      cases moved.old.symm.trans hc₁
      exact h
    · intro h v hv hmark
      by_cases hr : 0 < a.retired s M
      · exact h hr c moved.old v hv hmark
      · obtain ⟨c₁, hc₁, hiff⟩ := hs v hv
        cases moved.old.symm.trans hc₁
        rw [Nat.eq_zero_of_not_pos hr, Nat.add_zero, ← c.toNat_netSupply, v.covers_iff]
        rw [hmark] at hiff
        exact fun hle => Bool.false_ne_true (hiff.mpr hle)
  | created quiet _ free =>
    rw [gate_of_unissued quiet, foreseen_of_unissued quiet hunopened]
    refine iff_of_true (fun v hv => ?_) fun _ c hc => ?_
    · obtain ⟨c, hc, -⟩ := hs v (hvault ▸ hv)
      cases free.symm.trans hc
    · cases free.symm.trans hc

theorem MarkStep.gate_iff (h : MarkStep M s a s') (hs : s.Marked M) :
    Gate M s a s' ↔ Foreseen M s a := by
  cases h with
  | kept unopened vault supply => exact supply.gate_iff hs unopened vault
  | @opened c c' v seed quiet idle old stored terms vault balance mark =>
    have hmarked : s'.Marked M ↔ (v.minSeedBps = 0 ↔ v.requiredSeedAmount c.netSupply ≤ 0) := by
      have hseed : v.adequatelySeeded = true ↔ v.minSeedBps = 0 := by
        rw [mark, decide_eq_true_iff]
      rw [← StablecoinConfig.netSupply_congr terms, ← balance, ← hseed]
      constructor
      · intro h
        obtain ⟨c₁, hc₁, hiff⟩ := h v vault
        cases stored.symm.trans hc₁
        exact hiff
      · intro hiff v₁ hv₁
        cases vault.symm.trans hv₁
        exact ⟨c', stored, hiff⟩
    rw [gate_of_unissued quiet, hmarked, requiredSeedAmount_le_zero_iff]
    constructor
    · intro hseed
      refine ⟨?_, ?_, ?_⟩
      · rw [quiet]
        exact fun n hn => absurd hn List.not_mem_nil
      · rw [idle]
        exact fun hpos => absurd hpos (Nat.lt_irrefl 0)
      · intro minSeedBps hopens c₁ hc₁
        cases seed.symm.trans hopens
        cases old.symm.trans hc₁
        exact hseed
    · intro hforeseen
      exact hforeseen.opened v.minSeedBps seed c old
  | @weighed c v unopened quiet idle old stored vault mark =>
    rw [gate_of_unissued quiet]
    refine iff_of_true (fun v₁ hv₁ => ?_) (foreseen_of_quiet quiet unopened idle)
    cases vault.symm.trans hv₁
    exact ⟨c, stored, mark⟩

/-- From a state in which the vault, if there is one yet, is marked for what it is, the law of the
gate is kept in a run exactly if each step that succeeds was foreseen. -/
theorem insurance_gate (as : List Action) (hs : s.Marked M) :
    Along (Action.exec rt) (fun s a => Ensures (a.exec rt s) (Gate M s a)) s as ↔
      Along (Action.exec rt) (fun s a => (a.exec rt s).isOk → Foreseen M s a) s as := by
  refine along_iff_of_invariant (I := fun s => s.Marked M) (fun {s a} hi => ?_)
    (fun _ hgate hexec => (hgate _ hexec).marked) hs
  constructor
  · intro hgate hok
    obtain ⟨s', hexec⟩ := isOk_iff.mp hok
    exact ((exec_markStep hexec).gate_iff hi).mp (hgate s' hexec)
  · intro hforeseen s' hexec
    exact ((exec_markStep hexec).gate_iff hi).mpr (hforeseen (isOk_iff.mpr ⟨s', hexec⟩))

namespace Market

/-- A vault is opened for a supply of 100. It asks for a tenth of it and is empty. -/
def gated : List Action :=
  interfaced ++
    [ .call (day 1) (.mint issue 100),
      .world (.createAccount insuranceAccount gold.key (.insuranceVault mint.key)),
      .call (day 1) (.initInsuranceVault { authority, sssMint := mint.key } insuranceAccount.key
        1000 1000) ]

def seed (amount : UInt64) : Action :=
  .call (day 1) (.seedInsuranceVault
    { depositor := user, sssMint := mint.key, depositorTokenAccount := userGold.key
      vaultTokenAccount := insuranceAccount.key } amount)

def issueMore : Action := .call (day 1) (.mint issue 100)

end Market

open Market in
/-- What is paid in for a supply of 200 is enough for it, and marked so. -/
theorem insurance_gate_foreseen :
    Along (Action.exec localRuntime)
      (fun s a => Ensures (a.exec localRuntime s) (Gate mint.key s a))
      (run localRuntime genesis gated) [seed 20, issueMore] :=
  (insurance_gate [seed 20, issueMore] (by decide +kernel)).mpr (by decide +kernel)

open Market in
/-- It is minted against the empty vault; and after a seed for what there is, the mark stays when
more is minted. -/
theorem insurance_gate_open :
    Genesis genesis ∧ (run localRuntime genesis gated).Gated mint.key ∧
      (issueMore.exec localRuntime (run localRuntime genesis gated)).isOk ∧
      ¬ (run localRuntime genesis (gated ++ [issueMore])).Seeded mint.key ∧
      (run localRuntime genesis (gated ++ [seed 10])).Marked mint.key ∧
      (issueMore.exec localRuntime (run localRuntime genesis (gated ++ [seed 10]))).isOk ∧
      ¬ (run localRuntime genesis (gated ++ [seed 10, issueMore])).Marked mint.key :=
  ⟨genesis_genesis, by decide +kernel, by decide +kernel, by decide +kernel, by decide +kernel,
    by decide +kernel, by decide +kernel⟩

end SolanaStablecoin
