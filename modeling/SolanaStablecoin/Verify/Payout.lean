import SolanaStablecoin.Verify.Apc
import SolanaStablecoin.Verify.Tokens

/-! What a settled redemption pays. Two instructions burn from an escrow and pay collateral for it;
both take mints and token accounts from whoever calls them. -/

namespace SolanaStablecoin

variable {rt : Runtime} {clock : Clock} {s s' : State} {i : Instruction}

/-! ## Balances after a burn and a transfer -/

namespace Tokens

variable {t t₁ t' : Tokens} {mint collateralMint src dst authority escrow M C k : Pubkey}
  {n fee : UInt64} {a : TokenAccount}

theorem balance_of_mint_ne (ha : t.accounts k = some a) (hne : a.mint ≠ M) :
    t.balance M k = 0 := by
  simp [balance, ha, hne]

theorem Burns.balance (h : t.Burns mint src authority n t') :
    n.toNat ≤ t.balance mint src ∧ ∀ M k,
      t'.balance M k = t.balance M k - if M = mint ∧ k = src then n.toNat else 0 := by
  obtain ⟨m, a, hm, ha, rfl, -, -, hle, -, rfl⟩ := h
  have hbal := balance_eq ha
  refine ⟨by rw [hbal]; exact UInt64.le_iff_toNat_le.mp hle, fun M k => ?_⟩
  rw [balance_setAccount, a.debit_mint, a.debit_amount, toNat_sub_of_le hle]
  show Function.update (t.balance M) src _ k = _
  by_cases hk : k = src
  · subst hk
    rw [Function.update_self]
    by_cases hM : M = a.mint
    · rw [if_pos hM.symm, if_pos ⟨hM, rfl⟩, hM, hbal]
    · rw [if_neg (Ne.symm hM), if_neg fun h => hM h.1, balance_of_mint_ne ha (Ne.symm hM)]
  · rw [Function.update_of_ne hk, if_neg fun h => hk h.2, Nat.sub_zero]

theorem Transfers.balance (h : t.Transfers src mint dst authority n fee t') (hfee : fee ≤ n)
    (hne : src ≠ dst) :
    n.toNat ≤ t.balance mint src ∧ ∀ M k,
      t'.balance M k = t.balance M k + (if M = mint ∧ k = dst then n.toNat - fee.toNat else 0) -
        if M = mint ∧ k = src then n.toNat else 0 := by
  obtain ⟨m, a, b, hm, ha, hb, rfl, hbm, -, -, -, hle, hlt, rfl⟩ := h
  have hsrc := balance_eq ha
  have hdst := balance_eq hb
  refine ⟨by rw [hsrc]; exact UInt64.le_iff_toNat_le.mp hle, fun M k => ?_⟩
  have hcredit : (b.credit (n - fee)).amount.toNat = b.amount.toNat + (n.toNat - fee.toNat) := by
    rw [TokenAccount.credit, toNat_add_of_lt (hlt hne), toNat_sub_of_le hfee]
  have hmint : (b.credit (n - fee)).mint = a.mint := hbm
  rw [if_neg hne, balance_setAccount, balance_setAccount, hcredit, hmint, a.debit_mint,
    a.debit_amount, toNat_sub_of_le hle]
  by_cases hd : k = dst
  · subst hd
    have hs : ¬ (M = a.mint ∧ k = src) := fun h => hne h.2.symm
    rw [Function.update_self, if_neg hs, Nat.sub_zero]
    by_cases hM : M = a.mint
    · rw [if_pos hM.symm, if_pos ⟨hM, rfl⟩, hM, ← hbm, hdst]
    · rw [if_neg (Ne.symm hM), if_neg fun h => hM h.1,
        balance_of_mint_ne hb (by rw [hbm]; exact Ne.symm hM)]
  · have hd' : ¬ (M = a.mint ∧ k = dst) := fun h => hd h.2
    rw [Function.update_of_ne hd, if_neg hd', Nat.add_zero]
    by_cases hs : k = src
    · subst hs
      rw [Function.update_self]
      by_cases hM : M = a.mint
      · rw [if_pos hM.symm, if_pos ⟨hM, rfl⟩, hM, hsrc]
      · rw [if_neg (Ne.symm hM), if_neg fun h => hM h.1, balance_of_mint_ne ha (Ne.symm hM)]
    · rw [Function.update_of_ne hs, if_neg fun h => hs h.2, Nat.sub_zero]

/-- A burn leaves every account its mint. -/
theorem Burns.mint_eq (h : t.Burns mint src authority n t') (ha : t'.accounts k = some a) :
    ∃ b, t.accounts k = some b ∧ b.mint = a.mint := by
  obtain ⟨m, b, -, hb, -, -, -, -, -, rfl⟩ := h
  rcases put_eq_some.mp ha with ⟨rfl, rfl⟩ | ⟨-, ha⟩
  · exact ⟨b, hb, (b.debit_mint ..).symm⟩
  · exact ⟨a, ha, rfl⟩

theorem Burns.exists_account (h : t.Burns mint src authority n t') :
    ∃ a, t.accounts src = some a ∧ a.mint = mint := by
  obtain ⟨_, a, _, ha, hmint, _⟩ := h
  exact ⟨a, ha, hmint⟩

theorem Transfers.of_self (h : t.Transfers src mint src authority n fee t') : t' = t := by
  obtain ⟨_, _, _, _, _, _, _, _, _, _, _, _, _, rfl⟩ := h
  exact if_pos rfl

/-! A burn of `n` at `escrow`, and then a transfer of `n` from `src` to `dst`. -/

section Settles

variable {authority' : Pubkey} (hburn : t.Burns mint escrow authority n t₁)
  (hsend : t₁.Transfers src collateralMint dst authority' n fee t') (hfee : fee ≤ n)

include hburn hsend

/-- An account that is both escrow and part of the transfer is of both mints. -/
theorem settles_mint_eq (h : src = escrow ∨ dst = escrow) : collateralMint = mint := by
  obtain ⟨e, he, hem⟩ := hburn.exists_account
  obtain ⟨_, x, y, _, hx, hy, hxm, hym, _⟩ := hsend
  rcases h with rfl | rfl
  · obtain ⟨b, hb, hbm⟩ := hburn.mint_eq hx
    rw [he] at hb
    cases hb
    rw [← hxm, ← hbm, hem]
  · obtain ⟨b, hb, hbm⟩ := hburn.mint_eq hy
    rw [he] at hb
    cases hb
    rw [← hym, ← hbm, hem]

include hfee

theorem settles_of_zero (hn : n = 0) (M k : Pubkey) : t'.balance M k = t.balance M k := by
  have hzero : n.toNat = 0 := by rw [hn]; rfl
  have hb : t₁.balance M k = t.balance M k := by
    rw [hburn.balance.2, hzero, ite_self, Nat.sub_zero]
  by_cases hne : src = dst
  · subst hne
    rw [hsend.of_self, hb]
  · rw [(hsend.balance hfee hne).2, hb, hzero, Nat.zero_sub, ite_self, ite_self, Nat.sub_zero,
      Nat.add_zero]

theorem settles_of_balances (hn : n.toNat ≠ 0)
    (hleaves : t.balance M escrow = t'.balance M escrow + n.toNat)
    (hcredited : t'.balance C dst = t.balance C dst + n.toNat) :
    mint = M ∧ collateralMint = C ∧ src ≠ dst ∧ src ≠ escrow ∧ dst ≠ escrow ∧ fee = 0 := by
  have hb := hburn.balance.2
  have hfee' := UInt64.le_iff_toNat_le.mp hfee
  have hM : mint = M := by
    by_contra hne
    obtain ⟨e, he, hem⟩ := hburn.exists_account
    rw [balance_of_mint_ne he (by rw [hem]; exact hne)] at hleaves
    omega
  have hne : src ≠ dst := by
    rintro rfl
    rw [hsend.of_self, hb] at hcredited
    omega
  obtain ⟨hle, hs⟩ := hsend.balance hfee hne
  have hC : collateralMint = C := by
    by_contra hCne
    rw [hs, if_neg fun h => hCne h.1.symm, hb] at hcredited
    omega
  subst hM hC
  rw [hs, hb] at hleaves hcredited
  rw [hb] at hle
  have hsrc : src ≠ escrow := by
    intro heq
    have hmint := settles_mint_eq hburn hsend (.inl heq)
    subst heq hmint
    simp only [hne, and_false, if_false, and_self, if_true] at hleaves hle
    omega
  have hdst : dst ≠ escrow := by
    intro heq
    have hmint := settles_mint_eq hburn hsend (.inr heq)
    subst heq hmint
    simp only [Ne.symm hne, and_false, if_false, and_self, if_true] at hcredited hleaves
    omega
  refine ⟨rfl, rfl, hne, hsrc, hdst, UInt64.toNat_inj.mp ?_⟩
  simp only [hdst, Ne.symm hne, and_false, if_false, and_self, if_true] at hcredited
  show fee.toNat = 0
  omega

end Settles

/-- Seen through the balances of two mints, the one at `escrow` and the other at `dst`, both legs
are what they should be only if the mints are these two, the accounts are three and nothing is
withheld. -/
theorem settles_iff (hburn : t.Burns mint escrow authority n t₁) {authority' : Pubkey}
    (hsend : t₁.Transfers src collateralMint dst authority' n fee t') (hfee : fee ≤ n) :
    (t.balance M escrow = t'.balance M escrow + n.toNat ∧
      t'.balance C dst = t.balance C dst + n.toNat) ↔
    n = 0 ∨ mint = M ∧ collateralMint = C ∧ src ≠ dst ∧ src ≠ escrow ∧ dst ≠ escrow ∧ fee = 0 := by
  by_cases hn : n = 0
  · have hsame := settles_of_zero hburn hsend hfee hn
    rw [hsame, hsame, hn]
    exact ⟨fun _ => .inl rfl, fun _ => ⟨rfl, rfl⟩⟩
  constructor
  · rintro ⟨hleaves, hcredited⟩
    have hpos : n.toNat ≠ 0 := fun h => hn (UInt64.toNat_inj.mp h)
    exact .inr (settles_of_balances hburn hsend hfee hpos hleaves hcredited)
  · intro h
    rcases h with h | ⟨rfl, rfl, hne, hsrc, hdst, rfl⟩
    · exact absurd h hn
    · obtain ⟨hle, hb⟩ := hburn.balance
      have hs := (hsend.balance hfee hne).2
      rw [hs, hs, hb, hb]
      simp only [hdst, Ne.symm hne, Ne.symm hsrc, Ne.symm hdst, and_false, if_false, and_self,
        if_true]
      refine ⟨by omega, ?_⟩
      show _ + (n.toNat - 0) - 0 = _
      omega

end Tokens

/-! ## The two settlements -/

/-- What a settlement is about: the request, as the program has recorded it, and the accounts that
the caller supplies. -/
structure Payout where
  config : StablecoinConfig
  escrow : Pubkey
  requester : Pubkey
  amount : UInt64
  stableMint : Pubkey
  collateralMint : Pubkey
  reserveVault : Pubkey
  userCollateralAta : Pubkey

def ProcessRedemption.payout (a : ProcessRedemption) (config : StablecoinConfig) (i : UInt64)
    (re : RedemptionEntry) : Payout :=
  { config, escrow := .queueEscrow config.mint i, requester := re.owner, amount := re.amount
    stableMint := a.stableMint, collateralMint := a.collateralMint
    reserveVault := a.reserveVault, userCollateralAta := a.userCollateralAta }

def FulfillRedemption.payout (a : FulfillRedemption) (config : StablecoinConfig)
    (rr : RedemptionRequest) : Payout :=
  { config, escrow := .redemptionEscrow config.mint rr.user, requester := rr.user
    amount := rr.amount, stableMint := a.stableMint, collateralMint := a.collateralMint
    reserveVault := a.reserveVault, userCollateralAta := a.userCollateralAta }

def Instruction.payout (s : State) : Instruction → Option Payout
  | processRedemption a i => do
    let config ← s.configs a.config
    let re ← s.redemptionEntries (.redemptionEntry config.mint i)
    some (a.payout config i re)
  | fulfillRedemption a => do
    let config ← s.configs a.config
    let rr ← s.redemptionRequests a.redemptionRequest
    some (a.payout config rr)
  | _ => none

def Instruction.settles : Instruction → Bool
  | processRedemption .. | fulfillRedemption .. => true
  | _ => false

namespace Payout

/-- Both legs are as they should be: the amount leaves the escrow in the stablecoin, and arrives
in the collateral at an account of the requester. -/
structure Paid (p : Payout) (s s' : State) : Prop where
  left : s.tokens.balance p.config.mint p.escrow =
    s'.tokens.balance p.config.mint p.escrow + p.amount.toNat
  owner : ∃ acc, s.tokens.accounts p.userCollateralAta = some acc ∧ acc.owner = p.requester
  credited : s'.tokens.balance p.config.collateralMint p.userCollateralAta =
    s.tokens.balance p.config.collateralMint p.userCollateralAta + p.amount.toNat

/-- The caller pays the requester, and with the mints of the config: from an account that is
neither the one paid nor the escrow, in a collateral that withholds nothing. -/
structure Honest (rt : Runtime) (p : Payout) (s : State) : Prop where
  owner : ∃ acc, s.tokens.accounts p.userCollateralAta = some acc ∧ acc.owner = p.requester
  accounts : p.amount = 0 ∨ p.stableMint = p.config.mint ∧
    p.collateralMint = p.config.collateralMint ∧ p.reserveVault ≠ p.userCollateralAta ∧
    p.reserveVault ≠ p.escrow ∧ p.userCollateralAta ≠ p.escrow ∧
    rt.token.transferFee s.tokens p.collateralMint p.amount = 0

end Payout

/-- A burn does not change what a mint withholds from transfers. -/
def TokenProgram.SteadyFee (p : TokenProgram) : Prop :=
  ∀ {t t' : Tokens} {mint src authority k : Pubkey} {n x : UInt64},
    t.Burns mint src authority n t' → p.transferFee t' k x = p.transferFee t k x

/-- A settlement burns in one mint and sends in another, both of the caller's choice. -/
structure Settlement (rt : Runtime) (p : Payout) (s s' : State) : Prop where
  legs : ∃ t authority authority',
    s.tokens.Burns p.stableMint p.escrow authority p.amount t ∧
    t.Transfers p.reserveVault p.collateralMint p.userCollateralAta authority' p.amount
      (rt.token.transferFee t p.collateralMint p.amount) s'.tokens

theorem Settlement.paid_iff {p : Payout} (hfee : rt.token.SteadyFee) (h : Settlement rt p s s') :
    p.Paid s s' ↔ p.Honest rt s := by
  obtain ⟨t, authority, authority', hburn, hsend⟩ := h.legs
  have hiff := Tokens.settles_iff (M := p.config.mint) (C := p.config.collateralMint) hburn hsend
    rt.token.transferFee_le
  rw [hfee hburn] at hiff
  constructor
  · intro hpaid
    exact ⟨hpaid.owner, hiff.mp ⟨hpaid.left, hpaid.credited⟩⟩
  · intro hhonest
    obtain ⟨hleft, hcredited⟩ := hiff.mpr hhonest.accounts
    exact ⟨hleft, hhonest.owner, hcredited⟩

theorem processRedemptionHandler_settlement {a : ProcessRedemption} {j : UInt64}
    (h : processRedemptionHandler rt clock s a j = .ok s') :
    ∃ p, (Instruction.processRedemption a j).payout s = some p ∧ Settlement rt p s s' := by
  simp [processRedemptionHandler] at h
  obtain ⟨c, ⟨hc, -⟩, -, rq, -, re, ⟨hre, -⟩, -, vault, -, -, m, -, -, -, -, -, t, hburn, t',
    htransfer, x, -, y, -, rfl⟩ := h
  have hsend := rt.token.transferChecked_ok htransfer
  exact ⟨a.payout c j re, by simp [Instruction.payout, hc, hre],
    ⟨t, _, _, rt.token.burn_ok hburn, hsend⟩⟩

theorem fulfillRedemptionHandler_settlement {a : FulfillRedemption}
    (h : fulfillRedemptionHandler rt clock s a = .ok s') :
    ∃ p, (Instruction.fulfillRedemption a).payout s = some p ∧ Settlement rt p s s' := by
  simp [fulfillRedemptionHandler, loadRequest] at h
  obtain ⟨c, ⟨hc, -⟩, rg, -, rr, hrr, -, -, -, -, -, -, _, -, -, -, -, -, t, hburn, t', htransfer,
    x, -, rfl⟩ := h
  have hsend := rt.token.transferChecked_ok htransfer
  exact ⟨a.payout c rr, by simp [Instruction.payout, hc, hrr],
    ⟨t, _, _, rt.token.burn_ok hburn, hsend⟩⟩

theorem exec_settlement (hi : i.settles = true) (h : i.exec rt clock s = .ok s') :
    ∃ p, i.payout s = some p ∧ Settlement rt p s s' := by
  cases i with
  | processRedemption => exact processRedemptionHandler_settlement h
  | fulfillRedemption => exact fulfillRedemptionHandler_settlement h
  | _ => cases hi

/-- A settled request is paid as it should be exactly if the caller was honest. -/
theorem redemption_payout (hfee : rt.token.SteadyFee) (hi : i.settles = true)
    (h : i.exec rt clock s = .ok s') :
    ∃ p, i.payout s = some p ∧ (p.Paid s s' ↔ p.Honest rt s) := by
  obtain ⟨p, hp, hs⟩ := exec_settlement hi h
  exact ⟨p, hp, hs.paid_iff hfee⟩

namespace Market

def otherGold : Signer := ⟨.key 33, rfl⟩

/-- A redemption of 1 is due, and another user has some gold. -/
def due : State :=
  run localRuntime genesis (funded 1000 ++ reserves ++
    timelocked adminOpSetFeatureFlag flagRedemptionQueue 1 ++ queue ++
    [ .world (.createAccount otherGold gold.key other.key),
      .world (.mintTo authority gold.key otherGold.key 10) ])

/-- The keeper pays in gold of the keeper, to `account`. -/
def payTo (account : Pubkey) : Instruction :=
  .processRedemption
    { keeper := other, config, reserveVault := otherGold.key, reserveVaultAuthority := other
      userCollateralAta := account, stableMint := mint.key, collateralMint := gold.key } 0

end Market

open Market in
/-- Paid to the user. -/
theorem redemption_payout_due :
    ∃ s' p, (payTo userGold.key).exec localRuntime (day 3) due = .ok s' ∧
      (payTo userGold.key).payout due = some p ∧ (p.Paid due s' ↔ p.Honest localRuntime due) := by
  obtain ⟨s', h⟩ : ∃ s', (payTo userGold.key).exec localRuntime (day 3) due = .ok s' :=
    isOk_iff.mp (by decide +kernel)
  obtain ⟨p, hp, hiff⟩ := redemption_payout (fun _ => rfl) rfl h
  exact ⟨s', p, h, hp, hiff⟩

open Market in
/-- The keeper pays itself: the tokens in escrow are burned, and the user gets nothing. -/
theorem redemption_diverted :
    ∃ s' p, (payTo otherGold.key).exec localRuntime (day 3) due = .ok s' ∧
      (payTo otherGold.key).payout due = some p ∧ ¬ p.Paid due s' := by
  obtain ⟨s', h⟩ : ∃ s', (payTo otherGold.key).exec localRuntime (day 3) due = .ok s' :=
    isOk_iff.mp (by decide +kernel)
  have hpayee : ((payTo otherGold.key).payout due).map
      (fun p => (p.userCollateralAta, p.requester)) = some (otherGold.key, user.key) := by
    decide +kernel
  have howner : (due.tokens.accounts otherGold.key).map (·.owner) = some other.key := by
    decide +kernel
  obtain ⟨p, hp, heq⟩ := Option.map_eq_some_iff.mp hpayee
  simp only [Prod.mk.injEq] at heq
  refine ⟨s', p, h, hp, fun hpaid => ?_⟩
  obtain ⟨acc, hacc, hrequester⟩ := hpaid.owner
  rw [heq.1] at hacc
  rw [hacc, Option.map_some, hrequester, heq.2] at howner
  exact absurd (Option.some.inj howner) (by decide)

end SolanaStablecoin
