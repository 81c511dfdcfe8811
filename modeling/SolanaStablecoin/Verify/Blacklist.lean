import SolanaStablecoin.Program.Transfer
import SolanaStablecoin.Verify.Policy
import SolanaStablecoin.Verify.Step

/-! What keeps a listed wallet from transferring. `initialize` names no hook on the mint, so that
nobody asks the blacklist; what stops a transfer is that the wallet's accounts are frozen, and here
is said how long they are. -/

namespace SolanaStablecoin

open Transition

namespace Tokens

variable {t t' : Tokens} {M w k src dst mint account authority : Pubkey} {n fee : UInt64}

/-- Every account of `M` that `w` owns is frozen, and new ones will be. -/
structure Shut (t : Tokens) (M w : Pubkey) : Prop where
  mint : ∃ m, t.mints M = some m ∧ m.defaultFrozen = true ∧ m.transferHook = none
  accounts : ∀ k a, t.accounts k = some a → a.mint = M → a.owner = w → a.frozen = true

theorem Shut.setAccount {a : TokenAccount} (h : t.Shut M w)
    (ha : a.mint = M → a.owner = w → a.frozen = true) : (t.setAccount k a).Shut M w where
  mint := h.mint
  accounts k' a' ha' := by
    rcases put_eq_some.mp ha' with ⟨-, rfl⟩ | ⟨-, ha'⟩
    · exact ha
    · exact h.accounts k' a' ha'

/-- An account that is not frozen is none of them, and stays none. -/
theorem Shut.rewrite {a a' : TokenAccount} (h : t.Shut M w) (ha : t.accounts k = some a)
    (hopen : a.frozen = false) (hmint : a'.mint = a.mint) (howner : a'.owner = a.owner) :
    (t.setAccount k a').Shut M w := by
  apply h.setAccount
  intro hM hw
  rw [h.accounts k a ha (hmint ▸ hM) (howner ▸ hw)] at hopen
  cases hopen

theorem Shut.setMint {m : Mint} {x : UInt64} (h : t.Shut M w) (hm : t.mints mint = some m) :
    (t.setMint mint { m with supply := x }).Shut M w where
  mint := by
    obtain ⟨m', hM, hclosed⟩ := h.mint
    by_cases hmint : mint = M
    · subst hmint
      rw [hm] at hM
      cases hM
      exact ⟨_, put_self .., hclosed⟩
    · exact ⟨m', by rw [setMint_mints, put_of_ne _ _ (Ne.symm hmint), hM], hclosed⟩
  accounts := h.accounts

theorem MintsTo.shut (h : t.MintsTo mint dst authority n t') (hs : t.Shut M w) : t'.Shut M w := by
  obtain ⟨m, a, hm, ha, -, -, hopen, -, -, rfl⟩ := h
  exact (hs.setMint hm).rewrite ha hopen rfl rfl

theorem Burns.shut (h : t.Burns mint src authority n t') (hs : t.Shut M w) : t'.Shut M w := by
  obtain ⟨m, a, hm, ha, -, hopen, -, -, -, rfl⟩ := h
  exact (hs.setMint hm).rewrite ha hopen (a.debit_mint ..) (a.debit_owner ..)

theorem Transfers.shut (h : t.Transfers src mint dst authority n fee t') (hs : t.Shut M w) :
    t'.Shut M w := by
  obtain ⟨m, a, b, -, ha, hb, -, -, hsrc, hdst, -, -, -, rfl⟩ := h
  split
  · exact hs
  · have hdebit : (t.setAccount src (a.debit m authority n)).Shut M w :=
      hs.rewrite ha hsrc (a.debit_mint ..) (a.debit_owner ..)
    apply hdebit.setAccount
    intro hM hw
    rw [hs.accounts dst b hb hM hw] at hdst
    cases hdst

theorem InitializesMint.shut {m : Mint} (h : t.InitializesMint mint m t') (hs : t.Shut M w) :
    t'.Shut M w := by
  obtain ⟨hfree, -, rfl⟩ := h
  obtain ⟨m', hM, hclosed⟩ := hs.mint
  have hne : M ≠ mint := by
    rintro rfl
    rw [hfree] at hM
    cases hM
  exact ⟨⟨m', by rw [setMint_mints, put_of_ne _ _ hne, hM], hclosed⟩, hs.accounts⟩

theorem InitializesAccount.shut {owner : Pubkey} (h : t.InitializesAccount account mint owner t')
    (hs : t.Shut M w) : t'.Shut M w := by
  obtain ⟨m, hm, -, rfl⟩ := h
  apply hs.setAccount
  intro hM _
  obtain ⟨m', hm', hclosed, -⟩ := hs.mint
  subst hM
  rw [hm] at hm'
  cases hm'
  exact hclosed

/-- An account of somebody else, or of another mint, is thawed. -/
theorem Thaws.shut (h : t.Thaws account mint authority t') (hs : t.Shut M w)
    (hother : ∀ a, t.accounts account = some a → mint = M → a.owner ≠ w) : t'.Shut M w := by
  obtain ⟨m, a, -, ha, hmint, -, -, rfl⟩ := h
  apply hs.setAccount
  intro hM hw
  exact absurd hw (hother a ha (hmint.symm.trans hM))

theorem SetsAccountOwner.shut {newOwner : Pubkey}
    (h : t.SetsAccountOwner account newOwner authority t') (hs : t.Shut M w)
    (hother : ∀ a, t.accounts account = some a → a.mint = M → newOwner ≠ w) : t'.Shut M w := by
  obtain ⟨a, ha, -, -, rfl⟩ := h
  apply hs.setAccount
  intro hM hw
  exact absurd hw (hother a ha hM)

theorem Move.shut (h : t.Move t') (hs : t.Shut M w) : t'.Shut M w := by
  cases h with
  | transfer _ _ h => exact h.shut hs
  | freeze h =>
    obtain ⟨m, a, -, ha, -, -, -, rfl⟩ := h
    exact hs.setAccount fun _ _ => rfl
  | approve _ h =>
    obtain ⟨a, ha, -, hopen, rfl⟩ := h
    exact hs.rewrite ha hopen rfl rfl
  | initializeAccount h => exact h.shut hs

theorem Moves.shut (h : t.Moves t') (hs : t.Shut M w) : t'.Shut M w := by
  induction h with
  | refl => exact hs
  | tail _ step ih => exact step.shut ih

theorem Drawn.shut {owner : Pubkey} (h : t.Drawn owner t') (hs : t.Shut M w) : t'.Shut M w := by
  induction h with
  | refl => exact hs
  | tail _ step ih =>
    obtain ⟨_, _, _, _, _, -, h⟩ := step
    exact h.shut ih

theorem Retires.shut (h : t.Retires mint n t') (hs : t.Shut M w) : t'.Shut M w := by
  obtain ⟨t₁, t₂, src, authority, hmoves, -, hburn, hmoves'⟩ := h
  exact hmoves'.shut (hburn.shut (hmoves.shut hs))

/-- Nothing goes from or to an account of the wallet. -/
theorem Shut.not_transfers {a : TokenAccount} (hs : t.Shut M w) (hk : k = src ∨ k = dst)
    (ha : t.accounts k = some a) (hw : a.owner = w) :
    ¬ t.Transfers src M dst authority n fee t' := by
  intro h
  obtain ⟨m, b, c, -, hb, hc, hbm, hcm, hsrc, hdst, -⟩ := h
  rcases hk with rfl | rfl
  · rw [ha] at hb
    cases hb
    rw [hs.accounts k a ha hbm hw] at hsrc
    cases hsrc
  · rw [ha] at hc
    cases hc
    rw [hs.accounts k a ha hcm hw] at hdst
    cases hdst

end Tokens

variable {rt : Runtime} {s s' : State} {a : Action} {as : List Action} {M w : Pubkey}

/-! ## What a step does to the accounts -/

/-- The transaction may give the wallet an account of `M` that is not frozen. -/
inductive Reopens (M w : Pubkey) (s : State) : Action → Prop where
  | thaw {clock : Clock} {b : ComplianceAccounts} {acc : TokenAccount} (mint : b.mint = M)
    (target : s.tokens.accounts b.targetTokenAccount = some acc) (owner : acc.owner = w) :
    Reopens M w s (.call clock (.thawAccount b))
  | handOver {owner : Signer} {account : Pubkey} {acc : TokenAccount}
    (target : s.tokens.accounts account = some acc) (mint : acc.mint = M) :
    Reopens M w s (.world (.setAccountOwner owner account w))
  /-- The escrow belongs to the queue, and is thawed at once. -/
  | enqueue {clock : Clock} {b : EnqueueRedemption} {n : UInt64} {X : Pubkey}
    (config : b.config = .stablecoinConfig X) (queue : w = .redemptionQueue X)
    (mint : b.stableMint = M) : Reopens M w s (.call clock (.enqueueRedemption b n))

theorem Enqueued.shut {clock : Clock} {b : EnqueueRedemption} {n : UInt64} {c : StablecoinConfig}
    {rq : RedemptionQueue} (h : Enqueued rt s b n s' c rq) (hs : s.tokens.Shut M w)
    (hnot : ¬ Reopens M w s (.call clock (.enqueueRedemption b n))) : s'.tokens.Shut M w := by
  obtain ⟨t₁, t₂, hinit, hthaw, htransfer⟩ := h.escrowed
  refine htransfer.shut (hthaw.shut (hinit.shut hs) ?_)
  intro acc hacc hmint howner
  obtain ⟨m, -, -, rfl⟩ := hinit
  rw [Tokens.setAccount_accounts, put_self] at hacc
  cases hacc
  exact hnot (.enqueue h.key howner.symm hmint)

theorem Step.shut (h : Step rt s a s') (hs : s.tokens.Shut M w) (hnot : ¬ Reopens M w s a) :
    s'.tokens.Shut M w := by
  cases h with
  | quiet h => exact h.tokens.shut hs
  | aside h =>
    cases h with
    | thaw h => exact h.shut hs fun acc hacc hmint howner => hnot (.thaw hmint hacc howner)
    | handOver h =>
      refine h.shut hs fun acc hacc hmint howner => ?_
      subst howner
      exact hnot (.handOver hacc hmint)
    | govern h =>
      rw [h.tokens]
      exact hs
    | enqueue h => exact h.shut hs hnot
    | refund h => exact h.refund.shut hs
    | requeue h =>
      rw [h.tokens_eq]
      exact hs
    | certify h =>
      rw [h.tokens_eq]
      exact hs
    | list h => exact h.moves.shut hs
    | escrow h =>
      rcases h.call.moves with hmoves | ⟨_, -, hdrawn⟩
      · exact hmoves.shut hs
      · exact hdrawn.shut hs
  | createMint h => exact h.shut hs
  | initializeStablecoin h =>
    obtain ⟨m, -, -, -, hm⟩ := h.created
    exact hm.shut hs
  | mintElsewhere h => exact h.shut hs
  | issue h => exact h.tokens.shut hs
  | retire h => exact h.tokens.shut hs
  | redeemInstantly _ _ _ h => exact h.shut hs
  | process _ h =>
    obtain ⟨t, vault, hburn, -, -, htransfer⟩ := h.settled
    exact htransfer.shut (hburn.shut hs)
  | deposit h => exact h.tokens.shut hs
  | borrow h => exact h.tokens.shut hs
  | repay h =>
    obtain ⟨total, t, -, -, hburn, ⟨-, htransfer⟩ | ⟨-, heq⟩⟩ := h.burned
    · exact htransfer.shut (hburn.shut hs)
    · rw [heq]
      exact hburn.shut hs
  | liquidate _ h =>
    obtain ⟨t, hburn, htransfer⟩ := h.tokens
    exact htransfer.shut (hburn.shut hs)
  | collect _ _ _ h =>
    rcases h with ⟨ht, -⟩ | ⟨n, h⟩
    · rw [ht]
      exact hs
    · exact h.tokens.shut hs

/-! ## The mint -/

/-- The mint of a config names no hook, and its accounts start frozen. -/
def Closed (M : Pubkey) (s : State) : Prop :=
  ∀ c, s.configs (.stablecoinConfig M) = some c →
    ∃ m, s.tokens.mints M = some m ∧ m.defaultFrozen = true ∧ m.transferHook = none

theorem Closed.step (hc : Closed M s) (h : Action.exec rt s a = .ok s') : Closed M s' := by
  have hkeep := (exec_step h).changes.keepsMints
  have of_config : ∀ c, s.configs (.stablecoinConfig M) = some c →
      ∃ m, s'.tokens.mints M = some m ∧ m.defaultFrozen = true ∧ m.transferHook = none := by
    intro c hconfig
    obtain ⟨m, hm, hclosed⟩ := hc c hconfig
    obtain ⟨n, hn⟩ := hkeep M m hm
    exact ⟨_, hn, hclosed⟩
  intro c' hc'
  cases (exec_step h).offices with
  | same h =>
    obtain ⟨c, hconfig, -⟩ := h.config hc'
    exact of_config c hconfig
  | governed _ h =>
    rw [h.configs] at hc'
    rcases put_eq_some.mp hc' with ⟨hkey, -⟩ | ⟨-, hc'⟩
    · cases hkey
      exact of_config _ h.config
    · exact of_config c' hc'
  | initialized h =>
    obtain ⟨c, hput, -⟩ := h.config
    rw [hput] at hc'
    rcases put_eq_some.mp hc' with ⟨hkey, -⟩ | ⟨-, hc'⟩
    · cases hkey
      exact h.closed
    · exact of_config c' hc'

/-! ## The list -/

/-- The wallet is in the blacklist of `M`. -/
def Listed (M w : Pubkey) (s : State) : Prop :=
  ∃ bl, s.blacklistStates (.hook .blacklistState M) = some bl ∧ w ∈ bl.blacklisted

/-- The transaction takes the wallet off the blacklist of `M`. -/
def Delists (M w : Pubkey) : Action → Prop
  | .call _ (.blacklistRemove b k) => b.mint = M ∧ k = w
  | _ => False

theorem BlacklistState.mem_add_of_mem {bl : BlacklistState} {k : Pubkey} (h : w ∈ bl.blacklisted) :
    w ∈ (bl.add k).blacklisted := by
  unfold add
  split
  · exact h
  · exact List.mem_append_left _ h

theorem BlacklistState.mem_add (bl : BlacklistState) (k : Pubkey) : k ∈ (bl.add k).blacklisted := by
  unfold add
  split
  next h => exact h
  next => exact List.mem_append_right _ List.mem_cons_self

theorem BlacklistState.mem_remove {bl : BlacklistState} {k : Pubkey} (h : w ∈ bl.blacklisted)
    (hne : w ≠ k) : w ∈ (bl.remove k).blacklisted :=
  List.mem_filter.mpr ⟨h, decide_eq_true hne⟩

/-- Only `blacklist_remove` takes a wallet off a list. -/
theorem SetsBlacklist.keeps {clock : Clock} {i : Instruction} {bl : BlacklistState}
    (h : SetsBlacklist s i M bl) (hl : Listed M w s) (hnot : ¬ Delists M w (.call clock i)) :
    w ∈ bl.blacklisted := by
  obtain ⟨bl₀, hbl, hmem⟩ := hl
  cases h with
  | init hfree =>
    rw [hfree] at hbl
    cases hbl
  | migrate hstored =>
    rw [hstored] at hbl
    cases hbl
    exact hmem
  | add hstored | addAndFreeze hstored =>
    rw [hstored] at hbl
    cases hbl
    exact BlacklistState.mem_add_of_mem hmem
  | remove hstored =>
    rw [hstored] at hbl
    cases hbl
    refine BlacklistState.mem_remove hmem fun hw => ?_
    exact hnot ⟨rfl, hw.symm⟩

theorem Listed.step (hl : Listed M w s) (h : Action.exec rt s a = .ok s')
    (hnot : ¬ Delists M w a) : Listed M w s' := by
  rcases (exec_step h).lists with ⟨heq, -⟩ | ⟨clock, i, rfl, hlists⟩
  · obtain ⟨bl, hbl, hmem⟩ := hl
    exact ⟨bl, by rw [heq, hbl], hmem⟩
  · obtain ⟨mint, bl, hsets, hput⟩ := hlists.blacklists
    by_cases hM : mint = M
    · subst hM
      exact ⟨bl, by rw [hput, put_self], hsets.keeps hl hnot⟩
    · obtain ⟨bl₀, hbl, hmem⟩ := hl
      have hne : Pubkey.hook .blacklistState M ≠ .hook .blacklistState mint := by
        intro hkey
        cases hkey
        exact hM rfl
      exact ⟨bl₀, by rw [hput, put_of_ne _ _ hne, hbl], hmem⟩

theorem listed_of_blacklistAdd {b : AuthorityAndMint}
    (h : blacklistAddHandler s b w = .ok s') : Listed b.mint w s' := by
  obtain ⟨bl, -, -, rfl⟩ := blacklistAddHandler_eq h
  exact ⟨bl.add w, put_self .., bl.mem_add w⟩

/-- A transfer that the token program refuses. -/
theorem executeTransfer_refused {now : Clock} {src dst authority : Pubkey} {n : UInt64}
    (h : ∀ t', rt.token.transferChecked s.tokens src M dst authority n ≠ some t') :
    (executeTransfer rt now s src M dst authority n).isOk = false := by
  have hnone := Option.eq_none_iff_forall_ne_some.mpr h
  rw [executeTransfer, hnone]
  cases load s.tokens.mints M with
  | error e => rfl
  | ok m => rfl

/-- Along every run after `w` was listed for a mint that `initialize` created: it stays listed until
it is removed, and no hook asks for that. If its accounts were frozen when it was listed and it is
given no other since, then no transfer from or to an account of its own succeeds. -/
theorem blacklist_enforced_frozen (rt : Runtime) (hs : Genesis s) (as : List Action)
    {clock : Clock} {b : AuthorityAndMint} {c : StablecoinConfig} (hM : b.mint = M)
    (hc : (run rt s as).configs (.stablecoinConfig M) = some c)
    (hadd : Action.exec rt (run rt s as) (.call clock (.blacklistAdd b w)) = .ok s')
    (hfrozen : ∀ k acc, (run rt s as).tokens.accounts k = some acc → acc.mint = M →
      acc.owner = w → acc.frozen = true)
    (tail : List Action) (hkept : Never (Action.exec rt) (fun _ a _ => Delists M w a) s' tail)
    (hclosed : Never (Action.exec rt) (fun s a _ => Reopens M w s a) s' tail) :
    Listed M w (run rt s' tail) ∧
      (∃ m, (run rt s' tail).tokens.mints M = some m ∧ m.transferHook = none) ∧
      ∀ now src dst authority n k acc, k = src ∨ k = dst →
        (run rt s' tail).tokens.accounts k = some acc → acc.owner = w →
        (executeTransfer rt now (run rt s' tail) src M dst authority n).isOk = false := by
  have hfirst : Closed M s := by
    intro c hconfig
    rw [hs.configs] at hconfig
    cases hconfig
  have hmint : Closed M (run rt s as) := invariant_run_of_forall Closed.step as hfirst
  have hshut : (run rt s as).tokens.Shut M w := ⟨hmint c hc, hfrozen⟩
  have hshut' : s'.tokens.Shut M w := (exec_step hadd).shut hshut nofun
  have hlisted : Listed M w s' := hM ▸ listed_of_blacklistAdd hadd
  have hend : (run rt s' tail).tokens.Shut M w :=
    invariant_never (fun hs h hnot => (exec_step h).shut hs hnot) hshut' hclosed
  refine ⟨invariant_never Listed.step hlisted hkept, ?_, ?_⟩
  · obtain ⟨m, hm, -, hhook⟩ := hend.mint
    exact ⟨m, hm, hhook⟩
  · intro now src dst authority n k acc hk hacc howner
    apply executeTransfer_refused
    intro t' ht
    exact hend.not_transfers hk hacc howner (rt.token.transferChecked_ok ht)

namespace Market

def blacklist (wallet : Signer) : Action := .call (day 0) (.blacklistAdd asAuthority wallet.key)

/-- The mint before anybody has an account of it. -/
def issued : State := run localRuntime genesis ((compliant 0).take 2)

/-- An account that is opened afterwards. -/
def openOther : Action := .world (.createAccount otherStable mint.key other.key)

end Market

open Market in
/-- The other user is listed, and the account that he opens then cannot receive. -/
theorem blacklist_enforced_frozen_fresh :
    Listed mint.key other.key (run localRuntime issued [blacklist other, openOther]) ∧
      (executeTransfer localRuntime (day 1) (run localRuntime issued [blacklist other, openOther])
        userStable.key mint.key otherStable.key user.key 1).isOk = false := by
  have hadd : (Action.exec localRuntime issued (blacklist other)).isOk = true := by decide +kernel
  have hopen : ((run localRuntime issued [blacklist other, openOther]).tokens.accounts
      otherStable.key).map (·.owner) = some other.key := by decide +kernel
  obtain ⟨s', hs'⟩ := isOk_iff.mp hadd
  have hrun : run localRuntime issued [blacklist other, openOther] =
      run localRuntime s' [openOther] := by
    rw [run, run_cons, next_of_ok hs', run]
  have hconfig : (issued.configs (.stablecoinConfig mint.key)).isSome = true := by decide +kernel
  obtain ⟨c, hc⟩ := Option.isSome_iff_exists.mp hconfig
  have hnobody : ∀ k, issued.tokens.accounts k = none := fun _ => rfl
  rw [hrun] at hopen ⊢
  obtain ⟨acc, hacc, howner⟩ := Option.map_eq_some_iff.mp hopen
  have hfrozen : ∀ k acc, issued.tokens.accounts k = some acc → acc.mint = mint.key →
      acc.owner = other.key → acc.frozen = true := by
    intro k acc hk
    rw [hnobody] at hk
    cases hk
  obtain ⟨hlisted, -, hrefused⟩ := blacklist_enforced_frozen (b := asAuthority) localRuntime
    genesis_genesis ((compliant 0).take 2) rfl hc hs' hfrozen [openOther]
    ⟨fun _ _ h => h, trivial⟩ ⟨fun _ _ h => (nomatch h), trivial⟩
  exact ⟨hlisted, hrefused (day 1) _ _ _ 1 _ acc (.inr rfl) hacc howner⟩

open Market in
/-- The user is listed, and sends 1 to the other user all the same. -/
theorem blacklisted_transfer_succeeds :
    ((run localRuntime genesis (compliant 0)).configs config).map (·.preset) = some 2 ∧
      (Action.exec localRuntime (run localRuntime genesis (compliant 0)) (blacklist user)).isOk =
        true ∧
      Listed mint.key user.key (run localRuntime genesis (compliant 0 ++ [blacklist user])) ∧
      (run localRuntime genesis (compliant 0 ++ [blacklist user])).ownerOf userStable.key =
        some user.key ∧
      (executeTransfer localRuntime (day 1)
        (run localRuntime genesis (compliant 0 ++ [blacklist user])) userStable.key mint.key
        otherStable.key user.key 1).isOk = true := by
  have hlist : ((run localRuntime genesis (compliant 0 ++ [blacklist user])).blacklistStates
      (.hook .blacklistState mint.key)).map (fun bl => decide (user.key ∈ bl.blacklisted)) =
        some true := by decide +kernel
  obtain ⟨bl, hbl, hmem⟩ := Option.map_eq_some_iff.mp hlist
  refine ⟨by decide +kernel, by decide +kernel, ⟨bl, hbl, of_decide_eq_true hmem⟩,
    by decide +kernel, by decide +kernel⟩

end SolanaStablecoin
