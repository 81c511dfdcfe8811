import SolanaStablecoin.Verify.Tokens

/-! What stays in an account whose owner is a custodian: such an owner makes no delegate, so
nobody but the owner, or a permanent delegate of the mint, takes anything out. -/

namespace SolanaStablecoin

namespace Tokens

variable {t t' : Tokens} {k M o src dst mint account authority : Pubkey} {n fee : UInt64} {N : Nat}

/-- The account at `k` is one of `M` and belongs to `o`, who has no delegate there, and it holds
at least `N`. -/
def Holds (t : Tokens) (k M o : Pubkey) (N : Nat) : Prop :=
  ∃ a, t.accounts k = some a ∧ a.mint = M ∧ a.owner = o ∧ a.delegate = none ∧ N ≤ a.amount.toNat

/-- Nobody signs for all accounts of the mint. -/
def Undelegated (t : Tokens) (M : Pubkey) : Prop :=
  ∀ m, t.mints M = some m → m.permanentDelegate = none

theorem Holds.zero (h : t.Holds k M o N) : t.Holds k M o 0 := by
  obtain ⟨a, ha, hmint, howner, hdelegate, -⟩ := h
  exact ⟨a, ha, hmint, howner, hdelegate, Nat.zero_le _⟩

theorem Undelegated.of_eq (h : t.Undelegated M) (hm : t'.mints = t.mints) : t'.Undelegated M := by
  intro m hM
  rw [hm] at hM
  exact h m hM

theorem Holds.setMint (h : t.Holds k M o N) (m : Mint) : (t.setMint mint m).Holds k M o N := h

/-- Writing an account that keeps its owner and stays without a delegate. -/
theorem Holds.setAccount {a a' : TokenAccount} (h : t.Holds k M o N)
    (ha : t.accounts account = some a) (hmint : a'.mint = a.mint) (howner : a'.owner = a.owner)
    (hdelegate : a.delegate = none → a'.delegate = none)
    (hle : account = k → N ≤ a.amount.toNat → N ≤ a'.amount.toNat) :
    (t.setAccount account a').Holds k M o N := by
  obtain ⟨b, hb, hbm, hbo, hbd, hN⟩ := h
  by_cases hk : account = k
  · subst hk
    rw [ha] at hb
    cases hb
    exact ⟨a', put_self .., hmint.trans hbm, howner.trans hbo, hdelegate hbd, hle rfl hN⟩
  · exact ⟨b, by rw [setAccount_accounts, put_of_ne _ _ (Ne.symm hk), hb], hbm, hbo, hbd, hN⟩

/-- The owner, who has no delegate, does not sign, and the mint has no permanent delegate. -/
theorem Holds.not_authorizes {a : TokenAccount} {m : Mint} (h : t.Holds k M o N)
    (ha : t.accounts k = some a) (hsign : authority ≠ o)
    (hm : m.permanentDelegate ≠ some authority) : a.authorizes m authority n = false := by
  obtain ⟨b, hb, -, hbo, hbd, -⟩ := h
  rw [ha] at hb
  cases hb
  simp [TokenAccount.authorizes, hm, hbd, hbo, Ne.symm hsign]

theorem MintsTo.holds (h : t.MintsTo mint dst authority n t') (hk : t.Holds k M o N) :
    t'.Holds k M o N := by
  obtain ⟨m, a, -, ha, -, -, -, -, hlt, rfl⟩ := h
  refine Holds.setAccount (hk.setMint _) ha rfl rfl id fun _ hN => ?_
  rw [TokenAccount.credit, toNat_add_of_lt hlt]
  omega

/-- The account is spared if nothing is asked of it, or if somebody signs who may not. -/
def Spared (t : Tokens) (k o : Pubkey) (N : Nat) (mint src authority : Pubkey) : Prop :=
  N ≠ 0 → src = k →
    authority ≠ o ∧ ∀ m, t.mints mint = some m → m.permanentDelegate ≠ some authority

theorem Spared.of_ne (h : src ≠ k) : t.Spared k o N mint src authority := fun _ hk => absurd hk h

theorem Spared.zero : t.Spared k o 0 mint src authority := fun h => absurd rfl h

theorem Burns.holds (h : t.Burns mint src authority n t') (hk : t.Holds k M o N)
    (hs : t.Spared k o N mint src authority) : t'.Holds k M o N := by
  obtain ⟨m, a, hm, ha, -, -, hauth, -, -, rfl⟩ := h
  refine Holds.setAccount (hk.setMint _) ha (a.debit_mint ..) (a.debit_owner ..)
    TokenAccount.debit_delegate fun hsrc hN => ?_
  by_cases hzero : N = 0
  · rw [hzero]
    exact Nat.zero_le _
  · obtain ⟨hsign, hdelegate⟩ := hs hzero hsrc
    rw [hk.not_authorizes (hsrc ▸ ha) hsign (hdelegate m hm)] at hauth
    cases hauth

theorem Transfers.holds (h : t.Transfers src mint dst authority n fee t') (hk : t.Holds k M o N)
    (hs : t.Spared k o N mint src authority) : t'.Holds k M o N := by
  obtain ⟨m, a, b, hm, ha, hb, -, -, -, -, hauth, -, hlt, rfl⟩ := h
  split
  · exact hk
  next hne =>
    have hdebit : (t.setAccount src (a.debit m authority n)).Holds k M o N := by
      refine hk.setAccount ha (a.debit_mint ..) (a.debit_owner ..) TokenAccount.debit_delegate
        fun hsrc hN => ?_
      by_cases hzero : N = 0
      · rw [hzero]
        exact Nat.zero_le _
      · obtain ⟨hsign, hdelegate⟩ := hs hzero hsrc
        rw [hk.not_authorizes (hsrc ▸ ha) hsign (hdelegate m hm)] at hauth
        cases hauth
    have hb' : (t.setAccount src (a.debit m authority n)).accounts dst = some b := by
      rw [setAccount_accounts, put_of_ne _ _ (Ne.symm hne), hb]
    refine hdebit.setAccount hb' rfl rfl id fun _ hN => ?_
    rw [TokenAccount.credit, toNat_add_of_lt (hlt hne)]
    omega

theorem Thaws.holds (h : t.Thaws account mint authority t') (hk : t.Holds k M o N) :
    t'.Holds k M o N := by
  obtain ⟨m, a, -, ha, -, -, -, rfl⟩ := h
  exact hk.setAccount ha rfl rfl id fun _ => id

theorem InitializesAccount.holds {owner : Pubkey} (h : t.InitializesAccount account mint owner t')
    (hk : t.Holds k M o N) : t'.Holds k M o N := by
  obtain ⟨m, -, hfree, rfl⟩ := h
  obtain ⟨b, hb, hrest⟩ := hk
  refine ⟨b, ?_, hrest⟩
  rw [setAccount_accounts, put_of_ne, hb]
  rintro rfl
  rw [hfree] at hb
  cases hb

/-- Whoever owns the account does not sign, since custodians sign no move. -/
theorem Holds.owner_ne {a : TokenAccount} (h : t.Holds k M o N) (ho : o.isCustodian = true)
    (ha : t.accounts account = some a) (howner : a.owner = authority)
    (signed : authority.isCustodian = false) : account ≠ k := by
  rintro rfl
  obtain ⟨b, hb, -, hbo, -⟩ := h
  rw [ha] at hb
  cases hb
  rw [← howner, hbo, ho] at signed
  cases signed

/-- A signature that is not the owner's takes nothing out, unless it is a permanent delegate's. -/
theorem Holds.spared {a : TokenAccount} (h : t.Holds k M o N) (hM : N ≠ 0 → t.Undelegated M)
    (hsign : authority ≠ o) (ha : t.accounts src = some a) (hmint : a.mint = mint) :
    t.Spared k o N mint src authority := by
  intro hN hsrc
  refine ⟨hsign, fun m hm => ?_⟩
  obtain ⟨b, hb, hbm, -⟩ := h
  rw [← hsrc, ha] at hb
  cases hb
  rw [hM hN m (by rw [← hbm, hmint, hm])]
  exact (Option.some_ne_none _).symm

theorem Burns.holds_of_ne (h : t.Burns mint src authority n t') (hk : t.Holds k M o N)
    (hM : N ≠ 0 → t.Undelegated M) (hsign : authority ≠ o) : t'.Holds k M o N := by
  refine h.holds hk ?_
  obtain ⟨_, a, _, ha, hmint, _⟩ := h
  exact hk.spared hM hsign ha hmint

theorem Transfers.holds_of_ne (h : t.Transfers src mint dst authority n fee t')
    (hk : t.Holds k M o N) (hM : N ≠ 0 → t.Undelegated M) (hsign : authority ≠ o) :
    t'.Holds k M o N := by
  refine h.holds hk ?_
  obtain ⟨_, a, _, _, ha, _, hmint, _⟩ := h
  exact hk.spared hM hsign ha hmint

theorem Burns.undelegated (h : t.Burns mint src authority n t') (hM : t.Undelegated M) :
    t'.Undelegated M := by
  obtain ⟨m, hm, -, hput⟩ := h.mints
  intro m' hm'
  rw [hput] at hm'
  rcases put_eq_some.mp hm' with ⟨rfl, rfl⟩ | ⟨-, hm'⟩
  · exact hM m hm
  · exact hM m' hm'

theorem ne_of_isCustodian (ho : o.isCustodian = true) (signed : authority.isCustodian = false) :
    authority ≠ o := by
  rintro rfl
  rw [ho] at signed
  cases signed

/-- Custodians approve nobody and hand nothing over. -/
theorem Holds.setAccount_of_signed {a b : TokenAccount} (h : t.Holds k M o N)
    (ho : o.isCustodian = true) (ha : t.accounts account = some a) (howner : a.owner = authority)
    (signed : authority.isCustodian = false) : (t.setAccount account b).Holds k M o N := by
  have hne := h.owner_ne ho ha howner signed
  obtain ⟨c, hc, hrest⟩ := h
  exact ⟨c, by rw [setAccount_accounts, put_of_ne _ _ (Ne.symm hne), hc], hrest⟩

theorem Move.holds (h : t.Move t') (ho : o.isCustodian = true) (hk : t.Holds k M o N)
    (hM : N ≠ 0 → t.Undelegated M) : t'.Holds k M o N := by
  cases h with
  | transfer signed _ h => exact h.holds_of_ne hk hM (ne_of_isCustodian ho signed)
  | freeze h =>
    obtain ⟨m, a, -, ha, -, -, -, rfl⟩ := h
    exact hk.setAccount ha rfl rfl id fun _ => id
  | approve signed h =>
    obtain ⟨a, ha, howner, -, rfl⟩ := h
    exact hk.setAccount_of_signed ho ha howner signed
  | initializeAccount h => exact h.holds hk

theorem Moves.holds (h : t.Moves t') (ho : o.isCustodian = true) (hk : t.Holds k M o N)
    (hM : N ≠ 0 → t.Undelegated M) : t'.Holds k M o N := by
  induction h with
  | refl => exact hk
  | tail moves step ih =>
    exact step.holds ho ih fun hN => (hM hN).of_eq (Moves.mints moves)

theorem SetsAccountOwner.holds {newOwner : Pubkey}
    (h : t.SetsAccountOwner account newOwner authority t') (ho : o.isCustodian = true)
    (hk : t.Holds k M o N) (signed : authority.isCustodian = false) : t'.Holds k M o N := by
  obtain ⟨a, ha, howner, -, rfl⟩ := h
  exact hk.setAccount_of_signed ho ha howner signed

/-- Whatever happens, the account stays with a custodian who owns it. -/
theorem Changes.held (h : t.Changes t') (ho : o.isCustodian = true) (hk : t.Holds k M o 0) :
    t'.Holds k M o 0 := by
  induction h with
  | refl => exact hk
  | tail _ step ih =>
    cases step with
    | shift h =>
      cases h with
      | move h => exact h.holds ho ih fun h => absurd rfl h
      | thaw h => exact h.holds ih
      | setAccountOwner signed h => exact h.holds ho ih signed
      | pay _ _ h => exact h.holds ih .zero
    | mintTo h => exact h.holds ih
    | burn h => exact h.holds ih .zero
    | transfer _ h => exact h.holds ih .zero
    | initializeMint h =>
      obtain ⟨-, -, rfl⟩ := h
      exact ih.setMint _

end Tokens

end SolanaStablecoin
