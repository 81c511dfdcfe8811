import SolanaStablecoin.Program.Token2022
import SolanaStablecoin.Verify.Step

/-! What a collateral vault records as deposited lies in the token account it has registered. -/

namespace SolanaStablecoin

open Transition

variable {rt : Runtime} {s s' : State} {a : Action} {c : StablecoinConfig} {t t' : Tokens}
  {k : Pubkey} {n : UInt64} {v : CollateralVault}

/-- The registered account belongs to the vault and holds what the vault records. -/
def CollateralVault.Backed (v : CollateralVault) (k : Pubkey) (t : Tokens) : Prop :=
  ∃ b, t.accounts v.vaultTokenAccount = some b ∧ b.owner = k ∧ b.mint = v.collateralMint ∧
    v.depositedAmount ≤ b.amount

/-- Every vault is in use and backed, and nobody else can spend from its accounts. -/
structure Custody (s : State) : Prop where
  guarded : s.tokens.Guarded
  vault : ∀ k v, s.collateralVaults k = some v →
    k.isCollateralVault = true ∧ v.owner ≠ .default ∧ v.Backed k s.tokens

/-! ## What keeps a vault backed -/

/-- Enough is left in the registered account. -/
theorem CollateralVault.Backed.of_keeps (h : v.Backed k t) (hk : k.isCollateralVault = true)
    {P : Pubkey → Prop} (hkeep : t.KeepsExcept t' P) (hP : ¬ P v.vaultTokenAccount) :
    v.Backed k t' := by
  obtain ⟨b, hb, howner, hmint, hle⟩ := h
  obtain ⟨b', hb', hkept⟩ := hkeep _ b hb (by rw [howner, hk]) hP
  refine ⟨b', hb', hkept.owner.trans howner, hkept.mint.trans hmint, ?_⟩
  rw [UInt64.le_iff_toNat_le] at hle ⊢
  exact hle.trans hkept.amount

/-- A transaction that writes no vault and takes nothing from their accounts. -/
theorem Custody.of_keeps (h : Custody s) (hv : s'.collateralVaults = s.collateralVaults)
    (ht : s'.tokens.Guarded ∧ s.tokens.Keeps s'.tokens) : Custody s' where
  guarded := ht.1
  vault k v hkv := by
    obtain ⟨hk, howner, hback⟩ := h.vault k v (by rwa [← hv])
    exact ⟨hk, howner, hback.of_keeps hk ht.2 id⟩

theorem Tokens.Reduces.guarded {mint : Pubkey} (h : t.Reduces mint n t') (hg : t.Guarded) :
    t'.Guarded ∧ t.Keeps t' := by
  obtain ⟨t₁, t₂, src, authority, hmoves, signed, hburn, hmoves'⟩ := h
  obtain ⟨hg₁, hkeep₁⟩ := hmoves.shifts.guarded hg
  obtain ⟨hg₂, hkeep₂⟩ := hburn.guarded hg₁ signed
  obtain ⟨hg₃, hkeep₃⟩ := hmoves'.shifts.guarded hg₂
  exact ⟨hg₃, (hkeep₁.trans hkeep₂).trans hkeep₃⟩

theorem Tokens.InitializesMint.guarded {mint : Pubkey} {m : Mint}
    (h : t.InitializesMint mint m t') (hm : m.permanentDelegate = none) (hg : t.Guarded) :
    t'.Guarded ∧ t.Keeps t' := by
  obtain ⟨-, -, rfl⟩ := h
  exact ⟨hg.setMint _ hm, keeps_setMint t mint m⟩

/-- A vault pays `paid` out of its registered account and records at least that much less. -/
theorem Custody.pay (h : Custody s) (hv : s.collateralVaults k = some v) {t : Tokens}
    {mint dst : Pubkey} {paid fee x : UInt64} (ht : t.Guarded) (hkeep : s.tokens.Keeps t)
    (htransfer : t.Transfers v.vaultTokenAccount mint dst k paid fee s'.tokens)
    (hvaults : s'.collateralVaults = put s.collateralVaults k { v with depositedAmount := x })
    (hx : x.toNat + paid.toNat ≤ v.depositedAmount.toNat ∨ x = 0) : Custody s' := by
  obtain ⟨hk, howner, hback⟩ := h.vault k v hv
  obtain ⟨hg, hexcept⟩ := htransfer.guarded ht
  obtain ⟨b, hb, hbo, hbm, hle⟩ := hback.of_keeps hk hkeep id
  refine ⟨hg, fun k' v' hkv' => ?_⟩
  rw [hvaults] at hkv'
  rcases put_eq_some.mp hkv' with ⟨rfl, rfl⟩ | ⟨hne, hkv'⟩
  · obtain ⟨b₀, b', hb₀, hb', hm, ho, hpaid, hrest⟩ := htransfer.source
    rw [hb] at hb₀
    cases hb₀
    refine ⟨hk, howner, b', hb', ho.trans hbo, hm.trans hbm, ?_⟩
    rw [UInt64.le_iff_toNat_le] at hle ⊢
    show x.toNat ≤ b'.amount.toNat
    rcases hx with hx | rfl
    · omega
    · exact Nat.zero_le _
  · -- another vault has registered another account, since the owners differ
    obtain ⟨hk', howner', hback'⟩ := h.vault k' v' hkv'
    have hback' := hback'.of_keeps hk' hkeep id
    refine ⟨hk', howner', hback'.of_keeps hk' hexcept fun hsame => ?_⟩
    obtain ⟨b', hb', hbo', -⟩ := hback'
    rw [hsame, hb] at hb'
    cases hb'
    exact hne (hbo'.symm.trans hbo)

theorem Repaid.custody {b : CdpRepayStable} {p : CdpPosition} {released : UInt64}
    (hr : Repaid rt s b n s' c p v released) (h : Custody s) : Custody s' := by
  obtain ⟨total, t, -, -, hburn, htokens⟩ := hr.burned
  obtain ⟨hg, hkeep⟩ := hburn.guarded h.guarded b.user.isCollateralVault
  obtain ⟨x, hx, hvaults⟩ := hr.vaults
  rcases htokens with ⟨-, htransfer⟩ | ⟨hzero, htokens⟩
  · rw [hr.registered] at htransfer
    exact h.pay hr.vault hg hkeep htransfer hvaults (.inl hx.symm.le)
  · have hx' : x = v.depositedAmount := by
      rw [hzero] at hx
      exact UInt64.toNat_inj.mp hx.symm
    have hsame : s'.collateralVaults = s.collateralVaults := by
      rw [hvaults, hx']
      exact Function.update_eq_self_iff.mpr hr.vault.symm
    rw [← htokens] at hg hkeep
    exact h.of_keeps hsame ⟨hg, hkeep⟩

theorem Liquidated.custody {b : CdpLiquidate} {p p' : CdpPosition} {burned seized : UInt64}
    (hl : Liquidated rt s b s' c p p' v burned seized) (h : Custody s) : Custody s' := by
  obtain ⟨t, hburn, htransfer⟩ := hl.tokens
  obtain ⟨hg, hkeep⟩ := hburn.guarded h.guarded b.liquidator.isCollateralVault
  rw [hl.registered] at htransfer
  apply h.pay hl.vault hg hkeep htransfer hl.vaults
  by_cases hle : seized.toNat ≤ v.depositedAmount.toNat
  · left
    rw [UInt64.toNat_saturatingSub]
    omega
  · right
    rw [← UInt64.toNat_inj, UInt64.toNat_saturatingSub]
    show v.depositedAmount.toNat - seized.toNat = 0
    omega

/-! ## Deposits -/

/-- A deposit that arrives in full in the account its vault has registered. -/
def CdpDepositCollateral.Registered (b : CdpDepositCollateral) (rt : Runtime) (s : State)
    (n : UInt64) : Prop :=
  rt.token.transferFee s.tokens b.collateralMint n = 0 ∧
    ∀ v, s.collateralVaults (.collateralVault b.sssMint b.user.key b.collateralMint) = some v →
      b.vaultTokenAccount = v.vaultTokenAccount

/-- The receiving account gets the amount less the fee. -/
theorem Deposited.arrives {b : CdpDepositCollateral} (hd : Deposited rt s b n s') :
    ∃ a a', s.tokens.accounts b.vaultTokenAccount = some a ∧ a.mint = b.collateralMint ∧
      a.owner = .collateralVault b.sssMint b.user.key b.collateralMint ∧
      s'.tokens.accounts b.vaultTokenAccount = some a' ∧ a'.mint = a.mint ∧ a'.owner = a.owner ∧
      a'.amount.toNat + (rt.token.transferFee s.tokens b.collateralMint n).toNat =
        a.amount.toNat + n.toNat := by
  obtain ⟨a₁, ha₁, ho₁⟩ := hd.source
  obtain ⟨a₂, ha₂, hm₂, ho₂⟩ := hd.destination
  have hne : b.userCollateralAccount ≠ b.vaultTokenAccount := by
    intro heq
    rw [heq, ha₂] at ha₁
    cases ha₁
    have := b.user.isCollateralVault
    rw [← ho₁, ho₂] at this
    cases this
  obtain ⟨a, a', ha, ha', hm', ho', hamount⟩ := hd.tokens.destination rt.token.transferFee_le hne
  rw [ha₂] at ha
  cases ha
  exact ⟨a₂, a', ha₂, hm₂, ho₂, ha', hm', ho', hamount⟩

/-- What the vault recorded before the deposit is in the account that receives it. -/
theorem Custody.initialise {b : CdpDepositCollateral} {a : TokenAccount} (h : Custody s)
    (hreg : b.Registered rt s n) (ha : s.tokens.accounts b.vaultTokenAccount = some a)
    (hm : a.mint = b.collateralMint) (hv : v = ((s.collateralVaults
      (.collateralVault b.sssMint b.user.key b.collateralMint)).getD {}).initialise b.user.key
        b.collateralMint b.vaultTokenAccount) :
    v.owner ≠ .default ∧ v.vaultTokenAccount = b.vaultTokenAccount ∧
      v.collateralMint = b.collateralMint ∧ v.depositedAmount ≤ a.amount := by
  cases hold : s.collateralVaults (.collateralVault b.sssMint b.user.key b.collateralMint) with
  | none =>
    rw [hold, Option.getD_none, CollateralVault.initialise, if_pos rfl] at hv
    subst hv
    exact ⟨b.user.ne_default, rfl, rfl, UInt64.zero_le⟩
  | some w =>
    obtain ⟨-, howner, a', ha', -, hmint, hle⟩ := h.vault _ w hold
    rw [hold, Option.getD_some, CollateralVault.initialise, if_neg howner] at hv
    subst hv
    have hacc := hreg.2 v hold
    rw [← hacc, ha] at ha'
    cases ha'
    exact ⟨howner, hacc.symm, hmint.symm.trans hm, hle⟩

theorem Deposited.custody {b : CdpDepositCollateral} (hd : Deposited rt s b n s')
    (hreg : b.Registered rt s n) (h : Custody s) : Custody s' := by
  obtain ⟨hg, -⟩ := hd.tokens.guarded h.guarded
  have hkeep := hd.tokens.keeps h.guarded b.user.isCollateralVault
  obtain ⟨a, a', ha, hm, ho, ha', hm', ho', hamount⟩ := hd.arrives
  obtain ⟨v, x, hv, hx, hvaults⟩ := hd.vaults
  obtain ⟨howner, hacc, hmint, hle⟩ := h.initialise hreg ha hm hv
  refine ⟨hg, fun k' v' hkv' => ?_⟩
  rw [hvaults] at hkv'
  rcases put_eq_some.mp hkv' with ⟨rfl, rfl⟩ | ⟨-, hkv'⟩
  · refine ⟨rfl, howner, a', ?_, ho'.trans ho, ?_, ?_⟩
    · show s'.tokens.accounts v.vaultTokenAccount = some a'
      rw [hacc, ha']
    · show a'.mint = v.collateralMint
      rw [hm', hm, hmint]
    · rw [hreg.1] at hamount
      have hzero : (0 : UInt64).toNat = 0 := rfl
      rw [UInt64.le_iff_toNat_le] at hle ⊢
      show x.toNat ≤ a'.amount.toNat
      omega
  · obtain ⟨hk', howner', hback'⟩ := h.vault k' v' hkv'
    exact ⟨hk', howner', hback'.of_keeps hk' hkeep id⟩

/-! ## Runs -/

/-- The transaction fails, or a deposit in it is registered and a mint created by it has no
permanent delegate. -/
def KeepsRegistered (rt : Runtime) (s : State) (a : Action) : Prop :=
  ∀ s', Action.exec rt s a = .ok s' → match a with
    | .call _ (.cdpDepositCollateral b n) => b.Registered rt s n
    | .world (.createMint _ m) => m.permanentDelegate = none
    | _ => True

theorem Custody.step (h : Custody s) (hreg : KeepsRegistered rt s a)
    (hok : Action.exec rt s a = .ok s') : Custody s' := by
  have hreg := hreg s' hok
  cases exec_step hok with
  | quiet hq => exact h.of_keeps hq.vaults (hq.tokens.shifts.guarded h.guarded)
  | aside ha => exact h.of_keeps ha.loose.vaults (ha.loose.tokens.guarded h.guarded)
  | createMint hm _ frame => exact h.of_keeps frame.vaults (hm.guarded hreg h.guarded)
  | initializeStablecoin hi =>
    obtain ⟨m, -, hdelegate, -, hm⟩ := hi.created
    exact h.of_keeps hi.vaults (hm.guarded hdelegate h.guarded)
  | mintElsewhere hm _ frame => exact h.of_keeps frame.vaults (hm.guarded h.guarded)
  | issue hi _ frame => exact h.of_keeps frame.vaults (hi.tokens.guarded h.guarded)
  | retire hr frame => exact h.of_keeps frame.vaults (hr.tokens.reduces.guarded h.guarded)
  | redeemInstantly _ _ _ tokens _ frame =>
    exact h.of_keeps frame.vaults (tokens.reduces.guarded h.guarded)
  | process _ hp => exact h.of_keeps hp.vaults ((hp.tokens.reduces rfl).guarded h.guarded)
  | deposit hd => exact hd.custody hreg h
  | borrow hb => exact h.of_keeps hb.vaults (hb.tokens.guarded h.guarded)
  | repay hr => exact hr.custody h
  | liquidate _ hl => exact hl.custody h
  | collect _ _ accrued books =>
    rcases books with ⟨ht, -⟩ | ⟨n, hr⟩
    · apply h.of_keeps accrued.vaults
      rw [ht]
      exact ⟨h.guarded, .refl _ _⟩
    · exact h.of_keeps accrued.vaults (hr.tokens.reduces.guarded h.guarded)

theorem Genesis.custody (h : Genesis s)
    (hmints : ∀ k m, s.tokens.mints k = some m → m.permanentDelegate = none) : Custody s where
  guarded :=
    { undelegated := fun k b hb ho => h.tokens k b hb (by
        cases hk : b.owner.canSign with
        | false => rfl
        | true =>
          rw [Pubkey.isCollateralVault_of_canSign hk] at ho
          cases ho)
      noPermanentDelegate := hmints }
  vault k v hv := by
    rw [h.collateralVaults] at hv
    cases hv

/-- In every run whose deposits arrive in full in the registered accounts, and in which no mint
has a permanent delegate, every vault's registered account belongs to it and holds at least what
it records as deposited. -/
theorem vault_backing {as : List Action} (hs : Genesis s)
    (hmints : ∀ k m, s.tokens.mints k = some m → m.permanentDelegate = none)
    (H : Along (Action.exec rt) (KeepsRegistered rt) s as)
    (hv : (run rt s as).collateralVaults k = some v) :
    ∃ b, (run rt s as).tokens.accounts v.vaultTokenAccount = some b ∧ b.owner = k ∧
      b.mint = v.collateralMint ∧ v.depositedAmount ≤ b.amount :=
  ((invariant_run (fun h hreg hok => h.step hreg hok) (hs.custody hmints) H).vault k v hv).2.2

namespace Market

/-- A vault whose first deposit of 500 has registered its account. -/
def registered : List Action :=
  opening 1000 ++
    [.world (.createAccount goldAccount gold.key goldVault), depositGold 500 goldAccount]

/-- Two deposits to the registered account. -/
def depositedTwice : List Action := registered ++ [depositGold 300 goldAccount]

/-- A second deposit to another account of the vault. -/
def depositedElsewhere : List Action :=
  registered ++
    [.world (.createAccount goldAccount' gold.key goldVault), depositGold 300 goldAccount']

end Market

open Market in
theorem vault_backing_twice :
    ∃ v b, (run localRuntime genesis depositedTwice).collateralVaults goldVault = some v ∧
      v.depositedAmount = 800 ∧
      (run localRuntime genesis depositedTwice).tokens.accounts v.vaultTokenAccount = some b ∧
      v.depositedAmount ≤ b.amount := by
  obtain ⟨v, hv, hamount⟩ : ∃ v,
      (run localRuntime genesis depositedTwice).collateralVaults goldVault = some v ∧
      v.depositedAmount = 800 := ⟨_, rfl, rfl⟩
  have H : Along (Action.exec localRuntime) (KeepsRegistered localRuntime) genesis
      depositedTwice := by
    refine along_append.mpr ⟨along_append.mpr ⟨along_of_forall fun a ha s s' _ => ?_, ?_, ?_,
      trivial⟩, ?_, trivial⟩
    · simp only [opening, List.mem_cons, List.not_mem_nil, or_false] at ha
      rcases ha with rfl | rfl | rfl | rfl | rfl | rfl | rfl
      all_goals first | exact rfl | trivial
    · intro _ _
      trivial
    · -- the first deposit finds no vault
      intro _ _
      refine ⟨rfl, fun w hw => ?_⟩
      cases hw
    · -- the second finds the account that the first has registered
      intro _ _
      refine ⟨rfl, fun w hw => ?_⟩
      cases hw
      rfl
  have hmints : ∀ k m, genesis.tokens.mints k = some m → m.permanentDelegate = none :=
    fun _ _ h => nomatch h
  obtain ⟨b, hb, -, -, hle⟩ := vault_backing genesis_genesis hmints H hv
  exact ⟨v, b, hv, hamount, hb, hle⟩

open Market in
/-- 800 are recorded, and 500 are in the registered account. -/
theorem deposit_elsewhere_unbacked :
    ∃ v b, Genesis genesis ∧
      (run localRuntime genesis depositedElsewhere).collateralVaults goldVault = some v ∧
      (run localRuntime genesis depositedElsewhere).tokens.accounts v.vaultTokenAccount = some b ∧
      v.depositedAmount = 800 ∧ b.amount = 500 ∧ ¬ v.depositedAmount ≤ b.amount :=
  ⟨_, _, genesis_genesis, rfl, rfl, rfl, rfl, by decide⟩

end SolanaStablecoin
