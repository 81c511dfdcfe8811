import SolanaStablecoin.Verify.Reserve

/-! The fee on what is redeemed against the reserve. The peg stability module has a curve for it,
which only its own instruction looks at: `redeem` goes on taking the flat fee of the config, and the
redemption queue takes none. -/

namespace SolanaStablecoin

variable {rt : Runtime} {clock : Clock} {s s' : State} {c : StablecoinConfig} {i : Instruction}
  {psm : PsmCurveConfig} {vault : TokenAccount}

/-- Stablecoins that are redeemed, and the vault that pays for them. -/
structure Redemption where
  sssMint : Pubkey
  reserveVault : Pubkey
  amount : UInt64

def Redeem.redemption (a : Redeem) (n : UInt64) : Redemption :=
  { sssMint := a.sssMint, reserveVault := a.reserveVault, amount := n }

def Instruction.redemption (s : State) : Instruction → Option Redemption
  | redeem a n | psmDynamicSwap a n => some (a.redemption n)
  | processRedemption a j => do
    let c ← s.configs a.config
    let re ← s.redemptionEntries (.redemptionEntry c.mint j)
    pure { sssMint := c.mint, reserveVault := a.reserveVault, amount := re.amount }
  | _ => none

/-- What a stablecoin counts as its collateral. -/
def State.backing (s : State) (M : Pubkey) : Nat :=
  ((s.configs (.stablecoinConfig M)).map (·.totalCollateral.toNat)).getD 0

/-- What of the redeemed amount the reserve does not pay out. -/
def feeCharged (s s' : State) (r : Redemption) : Nat :=
  r.amount.toNat - (s.backing r.sssMint - s'.backing r.sssMint)

/-- What the curve takes of an amount, for the reserves as they are. -/
def PsmCurveConfig.feeFor (psm : PsmCurveConfig) (c : StablecoinConfig) (vault : TokenAccount)
    (n : UInt64) : UInt64 :=
  feeOf n (psm.computeFee vault.amount c.totalCollateral)

/-- The redemption is against the reserve of a stablecoin that has a curve. -/
structure DynamicFees (s : State) (r : Redemption) (c : StablecoinConfig) (psm : PsmCurveConfig)
    (vault : TokenAccount) : Prop where
  config : s.configs (.stablecoinConfig r.sssMint) = some c
  flag : c.checkFeatureFlag flagPsmDynamicFees = true
  curve : s.psmCurveConfigs (.psmCurveConfig r.sssMint) = some psm
  against : r.reserveVault = c.reserveVault
  vault : s.tokens.accounts c.reserveVault = some vault

/-- What the code takes of a redemption is enough for what is due by the curve. -/
def Instruction.Covers (c : StablecoinConfig) (due : UInt64) : Instruction → Prop
  | redeem _ n => due ≤ feeOf n c.redemptionFeeBps
  | processRedemption .. => due = 0
  | _ => True

/-! ## What is charged -/

/-- What an exchange sends out of the reserve is no fee. -/
theorem Exchanged.feeCharged {x : Exchange} {out fee : UInt64} {c' : StablecoinConfig}
    {r : Redemption} (h : Exchanged rt s x out c c' s') (hx : x.paidIn = none)
    (hmint : x.sssMint = r.sssMint) (hsplit : r.amount.toNat = out.toNat + fee.toNat) :
    feeCharged s s' r = fee.toNat := by
  have hbefore : s.backing r.sssMint = c.totalCollateral.toNat := by
    rw [State.backing, ← hmint, h.config]
    rfl
  have hafter : s'.backing r.sssMint = c'.totalCollateral.toNat := by
    rw [State.backing, ← hmint, h.configs, put_self]
    rfl
  have hreleased := h.released hx
  rw [SolanaStablecoin.feeCharged, hbefore, hafter]
  omega

/-- Some stablecoins are burned, and then `n` tokens are sent out of the account. -/
def PaysOut (rt : Runtime) (s s' : State) (account : Pubkey) (n : Nat) : Prop :=
  ∃ (t : Tokens) (mint dst authority : Pubkey) (out : UInt64), out.toNat = n ∧
    (∃ stable source owner burned, s.tokens.Burns stable source owner burned t) ∧
    t.Transfers account mint dst authority out (rt.token.transferFee t mint out) s'.tokens

/-- The reserve pays what is left of the amount after the fee. -/
theorem Exchanged.charges {x : Exchange} {out fee : UInt64} {c' : StablecoinConfig}
    {r : Redemption} (h : Exchanged rt s x out c c' s') (hx : x.paidIn = none)
    (hburned : x.burned.isSome = true) (hmint : x.sssMint = r.sssMint)
    (hsrc : x.src = r.reserveVault) (hsplit : r.amount.toNat = out.toNat + fee.toNat) :
    SolanaStablecoin.feeCharged s s' r = fee.toNat ∧
      PaysOut rt s s' r.reserveVault (r.amount.toNat - SolanaStablecoin.feeCharged s s' r) := by
  have hfee := h.feeCharged hx hmint hsplit
  obtain ⟨t, authority, ⟨hnone, -⟩ | ⟨stable, source, owner, burned, -, hburn⟩, htransfer⟩ :=
    h.tokens
  · rw [hnone] at hburned
    cases hburned
  · refine ⟨hfee, t, x.mint, x.dst, authority, out, ?_, ⟨stable, source, owner, burned, hburn⟩,
      hsrc ▸ htransfer⟩
    rw [hfee, hsplit, Nat.add_sub_cancel]

/-- The fee that the code takes when `due` is what the curve asks for. -/
def Instruction.feeTaken (c : StablecoinConfig) (due : UInt64) : Instruction → UInt64
  | redeem _ n => feeOf n c.redemptionFeeBps
  | processRedemption .. => 0
  | _ => due

theorem Instruction.exec_charged {r : Redemption} (hi : i.redemption s = some r)
    (hd : DynamicFees s r c psm vault) (h : i.exec rt clock s = .ok s') :
    feeCharged s s' r = (i.feeTaken c (psm.feeFor c vault r.amount)).toNat ∧
      PaysOut rt s s' r.reserveVault (r.amount.toNat - feeCharged s s' r) := by
  cases i with
  | redeem a n =>
    cases hi
    obtain ⟨d, d', out, hsplit, h⟩ := redeemHandler_pays h
    cases hd.config.symm.trans h.config
    exact h.charges rfl rfl rfl rfl hsplit
  | psmDynamicSwap a n =>
    cases hi
    obtain ⟨d, d', q, w, out, hq, hw, hsplit, h⟩ := psmDynamicSwapHandler_pays h
    cases hd.config.symm.trans h.config
    cases hd.curve.symm.trans hq
    have hvault := hd.vault
    rw [← hd.against] at hvault
    cases hvault.symm.trans hw
    exact h.charges rfl rfl rfl rfl hsplit
  | processRedemption a j =>
    obtain ⟨d, d', re, hconfig, hre, h⟩ := processRedemptionHandler_pays h
    simp only [redemption, hconfig, hre, Option.bind_eq_bind, Option.bind_some,
      Option.pure_def, Option.some.injEq] at hi
    subst hi
    have hsplit : re.amount.toNat = re.amount.toNat + (0 : UInt64).toNat := rfl
    exact h.charges rfl rfl rfl rfl hsplit
  | _ => cases hi

/-- A redemption is charged what the curve asks for exactly when its own fee covers that. -/
theorem redemption_fee {r : Redemption} (hi : i.redemption s = some r)
    (hd : DynamicFees s r c psm vault) (h : i.exec rt clock s = .ok s') :
    PaysOut rt s s' r.reserveVault (r.amount.toNat - feeCharged s s' r) ∧
      ((psm.feeFor c vault r.amount).toNat ≤ feeCharged s s' r ↔
        i.Covers c (psm.feeFor c vault r.amount)) := by
  obtain ⟨hfee, hpays⟩ := Instruction.exec_charged hi hd h
  refine ⟨hpays, ?_⟩
  rw [hfee]
  cases i with
  | redeem a n => exact UInt64.le_iff_toNat_le.symm
  | psmDynamicSwap a n => exact iff_of_true le_rfl trivial
  | processRedemption a j =>
    rw [Instruction.feeTaken, Instruction.Covers, UInt64.toNat_zero, Nat.le_zero]
    exact UInt64.toNat_inj (b := 0)
  | _ => cases hi

namespace Market

/-- Redemptions against the reserve of 200, under a curve that starts at one percent. -/
def curved : List Action :=
  funded 1000 ++ reserves ++
    [.call (day 0) (.updatePsmCurveConfig { authority, config } 100 0 100)]

def redemption : Redeem :=
  { redeemer := user, sssMint := mint.key, redeemerSssAccount := userStable.key
    collateralMint := gold.key, reserveVault := reserve.key, redeemerCollateral := userGold.key }

end Market

open Market in
/-- One percent of 100. -/
theorem curved_fee : ∃ c psm vault,
    DynamicFees (run localRuntime genesis curved) (redemption.redemption 100) c psm vault ∧
      (psm.feeFor c vault 100).toNat = 1 := by
  have hread : ((run localRuntime genesis curved).psmCurveConfigs (.psmCurveConfig mint.key)).bind
      (fun psm => ((run localRuntime genesis curved).configs config).bind fun c =>
        ((run localRuntime genesis curved).tokens.accounts c.reserveVault).map fun vault =>
          (c.checkFeatureFlag flagPsmDynamicFees, c.reserveVault, (psm.feeFor c vault 100).toNat)) =
      some (true, reserve.key, 1) := by decide +kernel
  obtain ⟨psm, hpsm, hread⟩ := Option.bind_eq_some_iff.mp hread
  obtain ⟨c, hc, hread⟩ := Option.bind_eq_some_iff.mp hread
  obtain ⟨vault, hvault, heq⟩ := Option.map_eq_some_iff.mp hread
  simp only [Prod.mk.injEq] at heq
  obtain ⟨hflag, hreserve, hfee⟩ := heq
  exact ⟨c, psm, vault, ⟨hc, hflag, hpsm, hreserve.symm, hvault⟩, hfee⟩

open Market in
theorem redemption_fee_swap :
    ∃ s', (Instruction.psmDynamicSwap redemption 100).exec localRuntime (day 0)
        (run localRuntime genesis curved) = .ok s' ∧
      1 ≤ feeCharged (run localRuntime genesis curved) s' (redemption.redemption 100) := by
  obtain ⟨c, psm, vault, hd, hdue⟩ := curved_fee
  obtain ⟨s', h⟩ : ∃ s', (Instruction.psmDynamicSwap redemption 100).exec localRuntime (day 0)
    (run localRuntime genesis curved) = .ok s' := isOk_iff.mp (by decide +kernel)
  refine ⟨s', h, ?_⟩
  rw [← hdue]
  exact (redemption_fee rfl hd h).2.mpr trivial

open Market in
/-- Redeemed the plain way, the same amount pays nothing. -/
theorem redemption_fee_avoided :
    Genesis genesis ∧ ∃ c psm vault s',
      DynamicFees (run localRuntime genesis curved) (redemption.redemption 100) c psm vault ∧
      (Instruction.redeem redemption 100).exec localRuntime (day 0)
        (run localRuntime genesis curved) = .ok s' ∧
      feeCharged (run localRuntime genesis curved) s' (redemption.redemption 100) <
        (psm.feeFor c vault 100).toNat := by
  obtain ⟨c, psm, vault, hd, hdue⟩ := curved_fee
  have hcharged : (((Instruction.redeem redemption 100).exec localRuntime (day 0)
      (run localRuntime genesis curved)).map fun s' =>
        feeCharged (run localRuntime genesis curved) s' (redemption.redemption 100)).toOption =
      some 0 := by decide +kernel
  obtain ⟨s', h, hzero⟩ := toOption_map_eq_some.mp hcharged
  refine ⟨genesis_genesis, c, psm, vault, s', hd, h, ?_⟩
  rw [hzero, hdue]
  exact Nat.one_pos

end SolanaStablecoin
