import SolanaStablecoin.Base.Conservation
import SolanaStablecoin.Program.Token

/-! What accepted instructions of the token program do to mints, to the accounts that a collateral
vault owns, and to the total of all balances. -/

namespace SolanaStablecoin

open Conservation

variable {t t' t'' : Tokens} {src dst mint account authority owner delegate k M : Pubkey}
  {n fee : UInt64} {m : Mint} {a : TokenAccount}

theorem toNat_add_of_lt {a b : UInt64} (h : a.toNat + b.toNat < 2 ^ 64) :
    (a + b).toNat = a.toNat + b.toNat := by
  rw [UInt64.toNat_add, Nat.mod_eq_of_lt h]

theorem toNat_sub_of_le {a b : UInt64} (h : b ≤ a) : (a - b).toNat = a.toNat - b.toNat :=
  UInt64.toNat_sub_of_le _ _ h

/-! ## Mints -/

/-- Every mint of `t` is still there with its authorities; only its supply may differ. -/
def Tokens.KeepsMints (t t' : Tokens) : Prop :=
  ∀ k m, t.mints k = some m → ∃ n, t'.mints k = some { m with supply := n }

namespace Tokens

theorem KeepsMints.of_eq (h : t'.mints = t.mints) : t.KeepsMints t' :=
  fun _ m hm => ⟨m.supply, by rw [h, hm]⟩

theorem KeepsMints.refl (t : Tokens) : t.KeepsMints t := .of_eq rfl

theorem KeepsMints.trans (h : t.KeepsMints t') (h' : t'.KeepsMints t'') : t.KeepsMints t'' := by
  intro k m hm
  obtain ⟨n, hn⟩ := h k m hm
  obtain ⟨n', hn'⟩ := h' k _ hn
  exact ⟨n', hn'⟩

theorem MintsTo.mints (h : t.MintsTo mint dst authority n t') :
    ∃ m, t.mints mint = some m ∧ m.mintAuthority = some authority ∧
      m.supply.toNat + n.toNat < 2 ^ 64 ∧
      t'.mints = put t.mints mint { m with supply := m.supply + n } := by
  obtain ⟨m, a, hm, _, hauth, _, _, hs, _, rfl⟩ := h
  exact ⟨m, hm, hauth, hs, rfl⟩

theorem Burns.mints (h : t.Burns mint src authority n t') :
    ∃ m, t.mints mint = some m ∧ n ≤ m.supply ∧
      t'.mints = put t.mints mint { m with supply := m.supply - n } := by
  obtain ⟨m, a, hm, _, _, _, _, _, hs, rfl⟩ := h
  exact ⟨m, hm, hs, rfl⟩

theorem Transfers.mints (h : t.Transfers src mint dst authority n fee t') :
    t'.mints = t.mints := by
  obtain ⟨m, a, b, _, _, _, _, _, _, _, _, _, _, rfl⟩ := h
  split <;> rfl

theorem KeepsMints.of_put (hm : t.mints mint = some m)
    (h : t'.mints = put t.mints mint { m with supply := n }) : t.KeepsMints t' := by
  intro k m' hm'
  rw [h]
  by_cases hk : k = mint
  · subst hk
    rw [hm] at hm'
    cases hm'
    exact ⟨n, put_self ..⟩
  · exact ⟨m'.supply, by rw [put_of_ne _ _ hk, hm']⟩

theorem MintsTo.keepsMints (h : t.MintsTo mint dst authority n t') : t.KeepsMints t' := by
  obtain ⟨m, hm, _, _, h⟩ := h.mints
  exact .of_put hm h

theorem Burns.keepsMints (h : t.Burns mint src authority n t') : t.KeepsMints t' := by
  obtain ⟨m, hm, _, h⟩ := h.mints
  exact .of_put hm h

theorem InitializesMint.keepsMints (h : t.InitializesMint mint m t') : t.KeepsMints t' := by
  obtain ⟨hfree, _, rfl⟩ := h
  intro k m' hm'
  refine ⟨m'.supply, ?_⟩
  rw [setMint_mints, put_of_ne _ _ (fun hk => ?_), hm']
  rw [hk, hfree] at hm'
  cases hm'

end Tokens

/-! ## Accounts of collateral vaults -/

/-- Nobody but the owner can take anything out of an account of a collateral vault. -/
structure Tokens.Guarded (t : Tokens) : Prop where
  undelegated : ∀ k a, t.accounts k = some a → a.owner.isCollateralVault = true →
    a.delegate = none
  noPermanentDelegate : ∀ k m, t.mints k = some m → m.permanentDelegate = none

/-- The same account with at least the same balance. -/
structure TokenAccount.Keeps (a a' : TokenAccount) : Prop where
  mint : a'.mint = a.mint
  owner : a'.owner = a.owner
  amount : a.amount.toNat ≤ a'.amount.toNat

theorem TokenAccount.Keeps.refl (a : TokenAccount) : a.Keeps a := ⟨rfl, rfl, le_rfl⟩

theorem TokenAccount.Keeps.trans {a b c : TokenAccount} (h : a.Keeps b) (h' : b.Keeps c) :
    a.Keeps c :=
  ⟨h'.mint.trans h.mint, h'.owner.trans h.owner, h.amount.trans h'.amount⟩

/-- The accounts of collateral vaults lose nothing, except possibly the account at `src`. -/
def Tokens.KeepsExcept (t t' : Tokens) (P : Pubkey → Prop) : Prop :=
  ∀ k a, t.accounts k = some a → a.owner.isCollateralVault = true → ¬ P k →
    ∃ a', t'.accounts k = some a' ∧ a.Keeps a'

abbrev Tokens.Keeps (t t' : Tokens) : Prop := t.KeepsExcept t' fun _ => False

theorem TokenAccount.debit_delegate {k : Pubkey} (h : a.delegate = none) :
    (a.debit m k n).delegate = none := by
  unfold TokenAccount.debit
  split
  next hc => exact absurd (h.symm.trans hc.2) (by simp)
  next => exact h

namespace Tokens

theorem KeepsExcept.refl (t : Tokens) (P : Pubkey → Prop) : t.KeepsExcept t P :=
  fun _ a ha _ _ => ⟨a, ha, .refl a⟩

theorem KeepsExcept.trans {P : Pubkey → Prop} (h : t.KeepsExcept t' P)
    (h' : t'.KeepsExcept t'' P) : t.KeepsExcept t'' P := by
  intro k a ha ho hk
  obtain ⟨a', ha', hkeep⟩ := h k a ha ho hk
  obtain ⟨a'', ha'', hkeep'⟩ := h' k a' ha' (by rwa [hkeep.owner]) hk
  exact ⟨a'', ha'', hkeep.trans hkeep'⟩

theorem KeepsExcept.mono {P Q : Pubkey → Prop} (hPQ : ∀ k, P k → Q k)
    (h : t.KeepsExcept t' P) : t.KeepsExcept t' Q :=
  fun k a ha ho hk => h k a ha ho fun hP => hk (hPQ k hP)

/-- Only the vault itself is accepted as the authority over its account. -/
theorem Guarded.authority_eq (h : t.Guarded) (hm : t.mints mint = some m)
    (ha : t.accounts src = some a) (ho : a.owner.isCollateralVault = true)
    (hauth : a.authorizes m authority n = true) : authority = a.owner := by
  have hd := h.undelegated _ _ ha ho
  have hp := h.noPermanentDelegate _ _ hm
  simp only [TokenAccount.authorizes, hp, hd, reduceCtorEq, decide_false, Bool.false_or,
    if_false, decide_eq_true_eq] at hauth
  exact hauth.symm

/-- Writing one account that keeps what was there. -/
theorem keeps_setAccount {a a' : TokenAccount} (ha : t.accounts k = some a)
    (h : a.Keeps a') : t.Keeps (t.setAccount k a') := by
  intro k' b hb _ _
  rw [setAccount_accounts]
  by_cases hk : k' = k
  · subst hk
    rw [ha] at hb
    cases hb
    exact ⟨a', put_self .., h⟩
  · exact ⟨b, by rw [put_of_ne _ _ hk, hb], .refl b⟩

theorem keepsExcept_setAccount (t : Tokens) (k : Pubkey) (a : TokenAccount) :
    t.KeepsExcept (t.setAccount k a) (· = k) := by
  intro k' b hb _ hk
  exact ⟨b, by rw [setAccount_accounts, put_of_ne _ _ hk, hb], .refl b⟩

/-- Writing an account that a vault never owned. -/
theorem keeps_setAccount_of_not_vault {b : TokenAccount}
    (h : ∀ a, t.accounts k = some a → a.owner.isCollateralVault = false) :
    t.Keeps (t.setAccount k b) := by
  intro k' a ha ho _
  refine ⟨a, ?_, .refl a⟩
  rw [setAccount_accounts, put_of_ne _ _ (fun hk => ?_), ha]
  rw [h a (hk ▸ ha)] at ho
  cases ho

theorem keeps_setMint (t : Tokens) (k : Pubkey) (m : Mint) : t.Keeps (t.setMint k m) :=
  fun _ a ha _ _ => ⟨a, ha, .refl a⟩

theorem Guarded.setAccount (h : t.Guarded) (k : Pubkey) {a : TokenAccount}
    (ha : a.owner.isCollateralVault = true → a.delegate = none) :
    (t.setAccount k a).Guarded where
  undelegated k' a' h' ho := by
    rcases put_eq_some.mp h' with ⟨_, rfl⟩ | ⟨_, h'⟩
    · exact ha ho
    · exact h.undelegated _ _ h' ho
  noPermanentDelegate := h.noPermanentDelegate

theorem Guarded.setMint (h : t.Guarded) (k : Pubkey) {m : Mint}
    (hm : m.permanentDelegate = none) : (t.setMint k m).Guarded where
  undelegated := h.undelegated
  noPermanentDelegate k' m' h' := by
    rcases put_eq_some.mp h' with ⟨_, rfl⟩ | ⟨_, h'⟩
    · exact hm
    · exact h.noPermanentDelegate _ _ h'

/-- Writing an account that is there, with its owner and at most the old delegate. -/
theorem Guarded.rewriteAccount {a' : TokenAccount} (h : t.Guarded) (ha : t.accounts k = some a)
    (ho : a'.owner = a.owner) (hd : a.delegate = none → a'.delegate = none) :
    (t.setAccount k a').Guarded :=
  h.setAccount k fun hv => hd (h.undelegated _ _ ha (by rwa [← ho]))

/-- Writing the supply of a mint that is there. -/
theorem Guarded.rewriteMint (h : t.Guarded) (hm : t.mints mint = some m) (n : UInt64) :
    (t.setMint mint { m with supply := n }).Guarded := by
  have hp := h.noPermanentDelegate _ _ hm
  exact h.setMint mint hp

theorem credit_keeps (h : a.amount.toNat + n.toNat < 2 ^ 64) : a.Keeps (a.credit n) :=
  ⟨rfl, rfl, by rw [TokenAccount.credit, toNat_add_of_lt h]; exact Nat.le_add_right _ _⟩

theorem MintsTo.guarded (h : t.MintsTo mint dst authority n t') (hg : t.Guarded) :
    t'.Guarded ∧ t.Keeps t' := by
  obtain ⟨m, a, hm, ha, _, _, _, _, hlt, rfl⟩ := h
  refine ⟨(hg.rewriteMint hm _).rewriteAccount ha rfl id, ?_⟩
  exact (keeps_setMint t mint _).trans (keeps_setAccount ha (credit_keeps hlt))

theorem Burns.guarded (h : t.Burns mint src authority n t') (hg : t.Guarded)
    (hauth : authority.isCollateralVault = false) : t'.Guarded ∧ t.Keeps t' := by
  obtain ⟨m, a, hm, ha, _, _, hok, _, _, rfl⟩ := h
  have ho : a.owner.isCollateralVault = false := by
    by_contra hv
    rw [Bool.not_eq_false] at hv
    rw [hg.authority_eq hm ha hv hok, hv] at hauth
    cases hauth
  refine ⟨(hg.rewriteMint hm _).rewriteAccount ha (a.debit_owner ..) TokenAccount.debit_delegate,
    ?_⟩
  refine (keeps_setMint t mint _).trans (keeps_setAccount_of_not_vault fun b hb => ?_)
  rw [setMint_accounts, ha] at hb
  cases hb
  exact ho

/-- A transfer takes from its source only. -/
theorem Transfers.guarded (h : t.Transfers src mint dst authority n fee t') (hg : t.Guarded) :
    t'.Guarded ∧ t.KeepsExcept t' (· = src) := by
  obtain ⟨m, a, b, hm, ha, hb, _, _, _, _, _, _, hlt, rfl⟩ := h
  split
  · exact ⟨hg, .refl _ _⟩
  next hne =>
    have hga : (t.setAccount src (a.debit m authority n)).Guarded :=
      hg.rewriteAccount ha (a.debit_owner ..) TokenAccount.debit_delegate
    have hb' : (t.setAccount src (a.debit m authority n)).accounts dst = some b := by
      rw [setAccount_accounts, put_of_ne _ _ (Ne.symm hne), hb]
    refine ⟨hga.rewriteAccount hb' rfl id, ?_⟩
    have hcredit := keeps_setAccount hb' (credit_keeps (hlt hne))
    exact (keepsExcept_setAccount t src _).trans (hcredit.mono fun _ => False.elim)

/-- Signed by somebody who is not a vault, it takes nothing from the vaults. -/
theorem Transfers.keeps (h : t.Transfers src mint dst authority n fee t') (hg : t.Guarded)
    (hauth : authority.isCollateralVault = false) : t.Keeps t' := by
  have hkeep := (h.guarded hg).2
  obtain ⟨m, a, b, hm, ha, _, _, _, _, _, hok, _, _, _⟩ := h
  intro k a' ha' ho _
  apply hkeep k a' ha' ho
  intro hk
  rw [hk, ha] at ha'
  cases ha'
  rw [hg.authority_eq hm ha ho hok, ho] at hauth
  cases hauth

/-- The source keeps all but the amount sent. -/
theorem Transfers.source (h : t.Transfers src mint dst authority n fee t') :
    ∃ a a', t.accounts src = some a ∧ t'.accounts src = some a' ∧ a'.mint = a.mint ∧
      a'.owner = a.owner ∧ n.toNat ≤ a.amount.toNat ∧
      a.amount.toNat ≤ a'.amount.toNat + n.toNat := by
  obtain ⟨m, a, b, _, ha, _, _, _, _, _, _, hle, _, rfl⟩ := h
  have hn : n.toNat ≤ a.amount.toNat := UInt64.le_iff_toNat_le.mp hle
  split
  · exact ⟨a, a, ha, ha, rfl, rfl, hn, Nat.le_add_right _ _⟩
  next hne =>
    refine ⟨a, a.debit m authority n, ha, ?_, a.debit_mint .., a.debit_owner .., hn, ?_⟩
    · rw [setAccount_accounts, put_of_ne _ _ hne, setAccount_accounts, put_self]
    · rw [TokenAccount.debit_amount, toNat_sub_of_le hle]
      omega

/-- The destination receives what is not withheld, unless it is the source. -/
theorem Transfers.destination (h : t.Transfers src mint dst authority n fee t') (hfee : fee ≤ n)
    (hne : src ≠ dst) :
    ∃ b b', t.accounts dst = some b ∧ t'.accounts dst = some b' ∧ b'.mint = b.mint ∧
      b'.owner = b.owner ∧ b'.amount.toNat + fee.toNat = b.amount.toNat + n.toNat := by
  obtain ⟨m, a, b, _, _, hb, _, _, _, _, _, _, hlt, rfl⟩ := h
  rw [if_neg hne]
  refine ⟨b, b.credit (n - fee), hb, put_self .., rfl, rfl, ?_⟩
  have := UInt64.le_iff_toNat_le.mp hfee
  rw [TokenAccount.credit, toNat_add_of_lt (hlt hne), toNat_sub_of_le hfee]
  omega

/-! ## Instructions that move no supply -/

/-- A transfer or approval that no custodian signs, an account that is frozen, or a new one. -/
inductive Move (t t' : Tokens) : Prop where
  | transfer {src mint dst authority : Pubkey} {n fee : UInt64}
    (signed : authority.isCustodian = false) (fee_le : fee ≤ n)
    (h : t.Transfers src mint dst authority n fee t')
  | freeze {account mint authority : Pubkey} (h : t.Freezes account mint authority t')
  | approve {account delegate authority : Pubkey} {n : UInt64}
    (signed : authority.isCustodian = false) (h : t.Approves account delegate authority n t')
  | initializeAccount {account mint owner : Pubkey} (h : t.InitializesAccount account mint owner t')

abbrev Moves : Tokens → Tokens → Prop := Relation.ReflTransGen Move

/-- Accounts may also be thawed or handed over, and custodians other than vaults may pay. -/
inductive Shift (t t' : Tokens) : Prop where
  | move (h : t.Move t')
  | thaw {account mint authority : Pubkey} (h : t.Thaws account mint authority t')
  | setAccountOwner {account newOwner authority : Pubkey}
    (signed : authority.isCustodian = false)
    (h : t.SetsAccountOwner account newOwner authority t')
  | pay {src mint dst authority : Pubkey} {n fee : UInt64}
    (signed : authority.isCollateralVault = false) (fee_le : fee ≤ n)
    (h : t.Transfers src mint dst authority n fee t')

abbrev Shifts : Tokens → Tokens → Prop := Relation.ReflTransGen Shift

theorem Moves.shifts (h : t.Moves t') : t.Shifts t' :=
  Relation.ReflTransGen.mono (fun _ _ => .move) _ _ h

theorem Move.mints (h : t.Move t') : t'.mints = t.mints := by
  cases h with
  | transfer _ _ h => exact h.mints
  | freeze h => obtain ⟨_, _, _, _, _, _, _, rfl⟩ := h; rfl
  | approve _ h => obtain ⟨_, _, _, _, rfl⟩ := h; rfl
  | initializeAccount h => obtain ⟨_, _, _, rfl⟩ := h; rfl

theorem Shift.mints (h : t.Shift t') : t'.mints = t.mints := by
  cases h with
  | move h => exact h.mints
  | thaw h => obtain ⟨_, _, _, _, _, _, _, rfl⟩ := h; rfl
  | setAccountOwner _ h => obtain ⟨_, _, _, _, rfl⟩ := h; rfl
  | pay _ _ h => exact h.mints

theorem Shifts.mints (h : t.Shifts t') : t'.mints = t.mints := by
  induction h with
  | refl => rfl
  | tail _ step ih => exact step.mints.trans ih

theorem Moves.mints (h : t.Moves t') : t'.mints = t.mints := h.shifts.mints

theorem Move.guarded (h : t.Move t') (hg : t.Guarded) : t'.Guarded ∧ t.Keeps t' := by
  cases h with
  | transfer signed _ h =>
    exact ⟨(h.guarded hg).1, h.keeps hg (Pubkey.isCollateralVault_of_not_isCustodian signed)⟩
  | freeze h =>
    obtain ⟨m, a, _, ha, _, _, _, rfl⟩ := h
    exact ⟨hg.rewriteAccount ha rfl id, keeps_setAccount ha ⟨rfl, rfl, le_rfl⟩⟩
  | approve signed h =>
    obtain ⟨a, ha, ho, _, rfl⟩ := h
    refine ⟨hg.setAccount _ fun h' => ?_, keeps_setAccount ha ⟨rfl, rfl, le_rfl⟩⟩
    rw [ho, Pubkey.isCollateralVault_of_not_isCustodian signed] at h'
    cases h'
  | initializeAccount h =>
    obtain ⟨m, _, hfree, rfl⟩ := h
    refine ⟨hg.setAccount _ fun _ => rfl, keeps_setAccount_of_not_vault fun a ha => ?_⟩
    rw [hfree] at ha
    cases ha

theorem Shift.guarded (h : t.Shift t') (hg : t.Guarded) : t'.Guarded ∧ t.Keeps t' := by
  cases h with
  | move h => exact h.guarded hg
  | thaw h =>
    obtain ⟨m, a, _, ha, _, _, _, rfl⟩ := h
    exact ⟨hg.rewriteAccount ha rfl id, keeps_setAccount ha ⟨rfl, rfl, le_rfl⟩⟩
  | setAccountOwner signed h =>
    obtain ⟨a, ha, ho, _, rfl⟩ := h
    refine ⟨hg.setAccount _ fun _ => rfl, keeps_setAccount_of_not_vault fun b hb => ?_⟩
    rw [ha] at hb
    cases hb
    rw [ho, Pubkey.isCollateralVault_of_not_isCustodian signed]
  | pay signed _ h => exact ⟨(h.guarded hg).1, h.keeps hg signed⟩

theorem Shifts.guarded (h : t.Shifts t') (hg : t.Guarded) : t'.Guarded ∧ t.Keeps t' := by
  induction h with
  | refl => exact ⟨hg, .refl _ _⟩
  | tail _ step ih =>
    obtain ⟨hg', hkeep⟩ := ih
    obtain ⟨hg'', hkeep'⟩ := step.guarded hg'
    exact ⟨hg'', hkeep.trans hkeep'⟩

/-! ## Balances and supply -/

/-- What the account at `k` holds of `mint`. -/
def balance (t : Tokens) (mint k : Pubkey) : Nat :=
  match t.accounts k with
  | some a => if a.mint = mint then a.amount.toNat else 0
  | none => 0

/-- The supply of every mint covers all accounts of it, and no account is of a missing mint. -/
structure Sound (t : Tokens) : Prop where
  mint : ∀ k a, t.accounts k = some a → ∃ m, t.mints a.mint = some m
  bounded : ∀ mint m, t.mints mint = some m → Bounded (t.balance mint) m.supply.toNat

theorem balance_eq (ha : t.accounts k = some a) : t.balance a.mint k = a.amount.toNat := by
  simp [balance, ha]

theorem Sound.amount_le (h : t.Sound) (ha : t.accounts k = some a)
    (hm : t.mints a.mint = some m) : a.amount.toNat ≤ m.supply.toNat := by
  have hle := (h.bounded _ _ hm).le k
  rwa [balance_eq ha] at hle

theorem balance_setAccount (t : Tokens) (k : Pubkey) (a : TokenAccount) (M : Pubkey) :
    (t.setAccount k a).balance M =
      Function.update (t.balance M) k (if a.mint = M then a.amount.toNat else 0) := by
  funext k'
  by_cases hk : k' = k
  · subst hk
    simp [balance, setAccount]
  · rw [Function.update_of_ne hk, balance, setAccount_accounts, put_of_ne _ _ hk, balance]

/-- Rewriting an account leaves the balances of all other mints alone. -/
theorem balance_rewrite {a' : TokenAccount} (ha : t.accounts k = some a)
    (hmint : a'.mint = a.mint) (hne : M ≠ a.mint) :
    (t.setAccount k a').balance M = t.balance M := by
  rw [balance_setAccount, if_neg (by rw [hmint]; exact hne.symm)]
  apply Function.update_eq_self_iff.mpr
  simp [balance, ha, hne.symm]

/-- An account and the supply of its mint are rewritten together. -/
theorem Sound.rewrite {a' : TokenAccount} {x : UInt64} (h : t.Sound) (ha : t.accounts k = some a)
    (hmint : a'.mint = a.mint)
    (hb : Bounded (Function.update (t.balance a.mint) k a'.amount.toNat) x.toNat) :
    ((t.setMint a.mint { m with supply := x }).setAccount k a').Sound where
  mint k' b hb' := by
    rw [setAccount_mints, setMint_mints]
    by_cases hM : b.mint = a.mint
    · exact ⟨_, by rw [hM, put_self]⟩
    · rw [put_of_ne _ _ hM]
      rcases put_eq_some.mp hb' with ⟨-, rfl⟩ | ⟨-, hb'⟩
      · exact absurd hmint hM
      · exact h.mint k' b hb'
  bounded M m' hm' := by
    rw [setAccount_mints, setMint_mints] at hm'
    rcases put_eq_some.mp hm' with ⟨rfl, rfl⟩ | ⟨hne, hm'⟩
    · rw [balance_setAccount, if_pos hmint]
      exact hb
    · change Bounded ((t.setAccount k a').balance M) _
      rw [balance_rewrite ha hmint hne]
      exact h.bounded M m' hm'

/-- The flags of an account change, and not what it holds. -/
theorem Sound.reflag {a' : TokenAccount} (h : t.Sound) (ha : t.accounts k = some a)
    (hmint : a'.mint = a.mint) (hn : a'.amount = a.amount) : (t.setAccount k a').Sound := by
  obtain ⟨m, hm⟩ := h.mint k a ha
  have hset : t.setMint a.mint m = t := by
    rw [setMint, put, Function.update_eq_self_iff.mpr hm.symm]
  have hb : Bounded (Function.update (t.balance a.mint) k a'.amount.toNat) m.supply.toNat := by
    rw [hn, ← balance_eq ha, Function.update_eq_self]
    exact h.bounded _ _ hm
  have hrewrite := h.rewrite (m := m) ha hmint hb
  rwa [show { m with supply := m.supply } = m from rfl, hset] at hrewrite

theorem MintsTo.sound (h : t.MintsTo mint dst authority n t') (hs : t.Sound) : t'.Sound := by
  obtain ⟨m, a, hm, ha, -, rfl, -, hsupply, hamount, rfl⟩ := h
  refine hs.rewrite ha rfl ?_
  rw [TokenAccount.credit, toNat_add_of_lt hamount, toNat_add_of_lt hsupply, ← balance_eq ha]
  exact (hs.bounded _ _ hm).add dst n.toNat

theorem Burns.sound (h : t.Burns mint src authority n t') (hs : t.Sound) : t'.Sound := by
  obtain ⟨m, a, hm, ha, rfl, -, -, hamount, hsupply, rfl⟩ := h
  refine hs.rewrite ha (a.debit_mint ..) ?_
  rw [TokenAccount.debit_amount, toNat_sub_of_le hamount, toNat_sub_of_le hsupply, ← balance_eq ha]
  apply (hs.bounded _ _ hm).sub
  rw [balance_eq ha]
  exact UInt64.le_iff_toNat_le.mp hamount

theorem Transfers.sound (h : t.Transfers src mint dst authority n fee t') (hfee : fee ≤ n)
    (hs : t.Sound) : t'.Sound := by
  obtain ⟨m, a, b, hm, ha, hb, rfl, hbm, -, -, -, hle, hlt, rfl⟩ := h
  split
  · exact hs
  next hne =>
    have hn := UInt64.le_iff_toNat_le.mp hle
    have hsrc := balance_eq ha
    have hdst := balance_eq hb
    rw [hbm] at hdst
    -- both sides of the transfer at once
    have hmoved := (hs.bounded _ _ hm).move (hn.trans_eq hsrc.symm)
      (Nat.sub_le n.toNat fee.toNat) (Ne.symm hne)
    rw [hsrc, hdst, ← toNat_sub_of_le hle, ← toNat_sub_of_le hfee, ← toNat_add_of_lt (hlt hne),
      ← a.debit_amount m authority] at hmoved
    have hb' : (t.setAccount src (a.debit m authority n)).accounts dst = some b := by
      rw [setAccount_accounts, put_of_ne _ _ (Ne.symm hne), hb]
    have hcredit : (b.credit (n - fee)).mint = a.mint := hbm
    refine ⟨fun k c hc => ?_, fun M m' hm' => ?_⟩
    · rcases put_eq_some.mp hc with ⟨-, rfl⟩ | ⟨-, hc⟩
      · exact ⟨m, by rw [hcredit]; exact hm⟩
      rcases put_eq_some.mp hc with ⟨-, rfl⟩ | ⟨-, hc⟩
      · exact ⟨m, by rw [a.debit_mint]; exact hm⟩
      · exact hs.mint k c hc
    · by_cases hM : M = a.mint
      · subst hM
        cases hm.symm.trans hm'
        rw [balance_setAccount, balance_setAccount, if_pos (a.debit_mint ..), if_pos hcredit]
        exact hmoved
      · rw [balance_rewrite hb' (hcredit.trans hbm.symm) (by rwa [hbm]),
          balance_rewrite ha (a.debit_mint ..) hM]
        exact hs.bounded M m' hm'

theorem InitializesMint.sound (h : t.InitializesMint mint m t') (hs : t.Sound) : t'.Sound := by
  obtain ⟨hfree, hzero, rfl⟩ := h
  have hother : ∀ k a, t.accounts k = some a → a.mint ≠ mint := by
    rintro k a ha rfl
    obtain ⟨m', hm'⟩ := hs.mint k a ha
    rw [hfree] at hm'
    cases hm'
  refine ⟨fun k a ha => ?_, fun M m' hm' => ?_⟩
  · obtain ⟨m', hm'⟩ := hs.mint k a ha
    exact ⟨m', by rw [setMint_mints, put_of_ne _ _ (hother k a ha), hm']⟩
  · rcases put_eq_some.mp hm' with ⟨rfl, rfl⟩ | ⟨-, hm'⟩
    · rw [hzero]
      apply bounded_zero
      intro k
      cases ha : t.accounts k with
      | none => simp [balance, ha]
      | some a => simp [balance, ha, hother k a ha]
    · exact hs.bounded M m' hm'

theorem Move.sound (h : t.Move t') (hs : t.Sound) : t'.Sound := by
  cases h with
  | transfer _ hfee h => exact h.sound hfee hs
  | freeze h =>
    obtain ⟨m, a, _, ha, _, _, _, rfl⟩ := h
    exact hs.reflag ha rfl rfl
  | approve _ h =>
    obtain ⟨a, ha, _, _, rfl⟩ := h
    exact hs.reflag ha rfl rfl
  | @initializeAccount account _ _ h =>
    obtain ⟨m, hm, hfree, rfl⟩ := h
    refine ⟨fun k b hb => ?_, fun M m' hm' => ?_⟩
    · rcases put_eq_some.mp hb with ⟨-, rfl⟩ | ⟨-, hb⟩
      · exact ⟨m, hm⟩
      · exact hs.mint k b hb
    · have hzero : t.balance M account = 0 := by rw [balance, hfree]
      rw [balance_setAccount, Function.update_eq_self_iff.mpr (by simp [hzero])]
      exact hs.bounded M m' hm'

theorem Shift.sound (h : t.Shift t') (hs : t.Sound) : t'.Sound := by
  cases h with
  | move h => exact h.sound hs
  | thaw h =>
    obtain ⟨m, a, _, ha, _, _, _, rfl⟩ := h
    exact hs.reflag ha rfl rfl
  | setAccountOwner _ h =>
    obtain ⟨a, ha, _, _, rfl⟩ := h
    exact hs.reflag ha rfl rfl
  | pay _ hfee h => exact h.sound hfee hs

/-! ## Runs of the token program -/

/-- One accepted instruction. -/
inductive Change (t t' : Tokens) : Prop where
  | shift (h : t.Shift t')
  | mintTo {mint dst authority : Pubkey} {n : UInt64} (h : t.MintsTo mint dst authority n t')
  | burn {mint src authority : Pubkey} {n : UInt64} (h : t.Burns mint src authority n t')
  | transfer {src mint dst authority : Pubkey} {n fee : UInt64} (fee_le : fee ≤ n)
    (h : t.Transfers src mint dst authority n fee t')
  | initializeMint {mint : Pubkey} {m : Mint} (h : t.InitializesMint mint m t')

abbrev Changes : Tokens → Tokens → Prop := Relation.ReflTransGen Change

theorem Shifts.changes (h : t.Shifts t') : t.Changes t' :=
  Relation.ReflTransGen.mono (fun _ _ => .shift) _ _ h

theorem Change.keepsMints (h : t.Change t') : t.KeepsMints t' := by
  cases h with
  | shift h => exact .of_eq h.mints
  | mintTo h => exact h.keepsMints
  | burn h => exact h.keepsMints
  | transfer _ h => exact .of_eq h.mints
  | initializeMint h => exact h.keepsMints

/-- No instruction removes a mint or changes anything but its supply. -/
theorem Changes.keepsMints (h : t.Changes t') : t.KeepsMints t' := by
  induction h with
  | refl => exact .refl t
  | tail _ step ih => exact ih.trans step.keepsMints

theorem Change.sound (h : t.Change t') (hs : t.Sound) : t'.Sound := by
  cases h with
  | shift h => exact h.sound hs
  | mintTo h => exact h.sound hs
  | burn h => exact h.sound hs
  | transfer hfee h => exact h.sound hfee hs
  | initializeMint h => exact h.sound hs

/-- The supply goes on covering the balances. -/
theorem Changes.sound (h : t.Changes t') (hs : t.Sound) : t'.Sound := by
  induction h with
  | refl => exact hs
  | tail _ step ih => exact step.sound ih

end Tokens

end SolanaStablecoin
