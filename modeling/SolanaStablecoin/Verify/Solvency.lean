import SolanaStablecoin.Verify.Charter
import SolanaStablecoin.Verify.Pbs
import SolanaStablecoin.Verify.Queue

/-! Whatever the program keeps for its users beside collateral is there: the stablecoins of open
vaults, of open payment channels and of entries that wait in the redemption queue lie in escrow,
in every state that any run reaches, and those entitled to them can take them back. -/

namespace SolanaStablecoin

open Transition

namespace Tokens

variable {t t' : Tokens} {k M o src dst mint account authority owner : Pubkey} {n fee : UInt64}

/-- The mint is as `initialize` creates it: nobody signs for all accounts of it, and nothing is
withheld from a transfer. -/
def Simple (t : Tokens) (M : Pubkey) : Prop :=
  ∃ m, t.mints M = some m ∧ m.permanentDelegate = none ∧ m.extended = false

theorem Simple.undelegated (h : t.Simple M) : t.Undelegated M := by
  obtain ⟨m, hm, hnone, -⟩ := h
  intro m' hm'
  rw [hm] at hm'
  cases hm'
  exact hnone

theorem Simple.of_keepsMints (h : t.Simple M) (hkeeps : t.KeepsMints t') : t'.Simple M := by
  obtain ⟨m, hm, hnone, hplain⟩ := h
  obtain ⟨n, hm'⟩ := hkeeps M m hm
  exact ⟨_, hm', hnone, hplain⟩

/-! ## Custodians approve nobody -/

/-- No account of a custodian has a delegate. -/
def Unapproved (t : Tokens) : Prop :=
  ∀ k a, t.accounts k = some a → a.owner.isCustodian = true → a.delegate = none

theorem Unapproved.setAccount {a : TokenAccount} (h : t.Unapproved) (k : Pubkey)
    (ha : a.owner.isCustodian = true → a.delegate = none) : (t.setAccount k a).Unapproved := by
  intro k' a' h' ho
  rcases put_eq_some.mp h' with ⟨-, rfl⟩ | ⟨-, h'⟩
  · exact ha ho
  · exact h k' a' h' ho

/-- Writing an account that is there, with its owner and at most the old delegate. -/
theorem Unapproved.rewriteAccount {a a' : TokenAccount} (h : t.Unapproved)
    (ha : t.accounts k = some a) (howner : a'.owner = a.owner)
    (hdelegate : a.delegate = none → a'.delegate = none) : (t.setAccount k a').Unapproved := by
  apply h.setAccount
  intro ho
  rw [howner] at ho
  exact hdelegate (h k a ha ho)

theorem MintsTo.unapproved (h : t.MintsTo mint dst authority n t') (hu : t.Unapproved) :
    t'.Unapproved := by
  obtain ⟨m, a, -, ha, -, -, -, -, -, rfl⟩ := h
  exact Unapproved.rewriteAccount (t := t.setMint mint _) hu ha rfl id

theorem Burns.unapproved (h : t.Burns mint src authority n t') (hu : t.Unapproved) :
    t'.Unapproved := by
  obtain ⟨m, a, -, ha, -, -, -, -, -, rfl⟩ := h
  exact Unapproved.rewriteAccount (t := t.setMint mint _) hu ha (a.debit_owner ..)
    TokenAccount.debit_delegate

theorem Transfers.unapproved (h : t.Transfers src mint dst authority n fee t')
    (hu : t.Unapproved) : t'.Unapproved := by
  obtain ⟨m, a, b, -, ha, hb, -, -, -, -, -, -, -, rfl⟩ := h
  split
  · exact hu
  next hne =>
    have hsrc := hu.rewriteAccount ha (a.debit_owner m authority n) TokenAccount.debit_delegate
    refine hsrc.rewriteAccount (a := b) ?_ rfl id
    rw [setAccount_accounts, put_of_ne _ _ (Ne.symm hne), hb]

theorem Move.unapproved (h : t.Move t') (hu : t.Unapproved) : t'.Unapproved := by
  cases h with
  | transfer _ _ h => exact h.unapproved hu
  | freeze h =>
    obtain ⟨m, a, -, ha, -, -, -, rfl⟩ := h
    exact hu.rewriteAccount ha rfl id
  | approve signed h =>
    obtain ⟨a, -, rfl, -, rfl⟩ := h
    apply hu.setAccount
    intro ho
    rw [ho] at signed
    cases signed
  | initializeAccount h =>
    obtain ⟨m, -, -, rfl⟩ := h
    exact hu.setAccount _ fun _ => rfl

theorem Change.unapproved (h : t.Change t') (hu : t.Unapproved) : t'.Unapproved := by
  cases h with
  | shift h =>
    cases h with
    | move h => exact h.unapproved hu
    | thaw h =>
      obtain ⟨m, a, -, ha, -, -, -, rfl⟩ := h
      exact hu.rewriteAccount ha rfl id
    | setAccountOwner _ h =>
      obtain ⟨a, -, -, -, rfl⟩ := h
      exact hu.setAccount _ fun _ => rfl
    | pay _ _ h => exact h.unapproved hu
  | mintTo h => exact h.unapproved hu
  | burn h => exact h.unapproved hu
  | transfer _ h => exact h.unapproved hu
  | initializeMint h =>
    obtain ⟨-, -, rfl⟩ := h
    exact hu

theorem Changes.unapproved (h : t.Changes t') (hu : t.Unapproved) : t'.Unapproved := by
  induction h with
  | refl => exact hu
  | tail _ step ih => exact step.unapproved ih

/-- What is sent to an account and not withheld is there afterwards. -/
theorem Transfers.deposits (h : t.Transfers src mint dst authority n 0 t') (hne : src ≠ dst)
    (hk : t.Holds dst M o 0) : t'.Holds dst M o n.toNat := by
  obtain ⟨b, hb, hmint, howner, hdelegate, -⟩ := h.holds hk .zero
  obtain ⟨b₀, b', -, hb', -, -, hamount⟩ := h.destination UInt64.zero_le hne
  rw [hb] at hb'
  cases hb'
  refine ⟨b, hb, hmint, howner, hdelegate, ?_⟩
  change b.amount.toNat + 0 = _ at hamount
  omega

end Tokens

/-- The token program withholds nothing when the mint has no extension. -/
def TokenProgram.PlainFee (p : TokenProgram) : Prop :=
  ∀ t mint m n, t.mints mint = some m → m.extended = false → p.transferFee t mint n = 0

variable {rt : Runtime} {clock : Clock} {s s' : State} {a : Action} {i : Instruction} {t : Tokens}
  {e : Escrows} {k M T o : Pubkey} {N : Nat} {n : UInt64}

/-! ## Escrows -/

/-- The escrow whose seeds derive `o` has been paid out. -/
def Escrows.Closed (e : Escrows) (o : Pubkey) : Prop :=
  (∃ v, e.probabilisticVaults o = some v ∧ v.seeds = o ∧ v.isTerminal = true) ∨
    ∃ c, e.paymentChannels o = some c ∧ c.seeds = o ∧ c.status.isTerminal = true

/-- An instruction of the escrows takes out of an account of an escrow only by closing it. -/
theorem EscrowCall.holds (h : EscrowCall rt clock s i t e) (ho : o.isCustodian = true)
    (hk : s.tokens.Holds k T o N) (hT : s.tokens.Undelegated T) :
    t.Holds k T o N ∨ e.Closed o := by
  have of_drawn {key seeds : Pubkey} (hdrawn : s.tokens.Drawn key t)
      (hseeds : t = s.tokens ∨ seeds = key) (hclosed : seeds = key → e.Closed key) :
      t.Holds k T o N ∨ e.Closed o := by
    rcases hseeds with rfl | hseeds
    · exact .inl hk
    · by_cases hkey : key = o
      · exact .inr (hkey ▸ hclosed hseeds)
      · exact .inl (hdrawn.holds hk hT hkey)
  have signer_ne (u : Signer) : u.key ≠ o := Tokens.ne_of_isCustodian ho u.isCustodian
  cases h with
  | @commit a _ _ _ _ _ deposit =>
    exact .inl (deposit.holds_of_ne hk (fun _ => hT) (signer_ne a.issuer))
  | prove _ _ _ _ seeds paid =>
    exact of_drawn paid.drawn (.inr seeds) fun h => .inl ⟨_, put_self .., h, rfl⟩
  | partly _ _ _ _ _ _ _ seeds paid returned =>
    exact of_drawn (paid.drawn.trans returned.drawn) seeds fun h => .inl ⟨_, put_self .., h, rfl⟩
  | expire _ _ _ seeds paid =>
    exact of_drawn paid.drawn seeds fun h => .inl ⟨_, put_self .., h, rfl⟩
  | @openChannel a _ _ _ _ deposit =>
    exact .inl (deposit.holds_of_ne hk (fun _ => hT) (signer_ne a.initiator))
  | submit | propose | dispute => exact .inl hk
  | countersign _ _ _ _ split | resolve _ _ _ split =>
    obtain ⟨t₁, hpaid, hrest⟩ := split.paid
    exact of_drawn (hpaid.drawn.trans hrest.drawn) split.seeds fun h =>
      .inr ⟨_, put_self .., h, rfl⟩
  | forceClose _ _ _ _ _ _ _ seeds paid =>
    exact of_drawn paid.drawn seeds fun h => .inr ⟨_, put_self .., h, rfl⟩

/-- What an account of an escrow holds stays, until the escrow is closed. -/
theorem Step.holds_escrow (h : Step rt s a s') (ho : o.isEscrow = true)
    (hk : s.tokens.Holds k T o N) (hT : s.tokens.Undelegated T) :
    s'.tokens.Holds k T o N ∨ s'.escrows.Closed o := by
  have hcustodian : o.isCustodian = true := by
    cases o with
    | pbsVault | apcChannel => rfl
    | _ => cases ho
  have hne (q : Pubkey) (hq : q.isEscrow = false) : q ≠ o := by
    rintro rfl
    rw [ho] at hq
    cases hq
  have signer_ne (u : Signer) : u.key ≠ o := Tokens.ne_of_isCustodian hcustodian u.isCustodian
  cases h with
  | quiet h => exact .inl (h.tokens.holds hcustodian hk fun _ => hT)
  | aside h =>
    cases h with
    | thaw h => exact .inl (h.holds hk)
    | govern h =>
      rw [h.tokens]
      exact .inl hk
    | enqueue h => exact .inl (h.holds hcustodian hk)
    | refund h => exact .inl (h.refund.holds_of_ne hk (fun _ => hT) (hne _ rfl))
    | requeue h =>
      rw [h.tokens_eq]
      exact .inl hk
    | certify h =>
      rw [h.tokens_eq]
      exact .inl hk
    | list h => exact .inl (h.moves.holds hcustodian hk fun _ => hT)
    | escrow h => exact h.call.holds hcustodian hk hT
    | @handOver owner _ _ _ h => exact .inl (h.holds hcustodian hk owner.isCustodian)
  | createMint h =>
    obtain ⟨-, -, ht⟩ := h
    rw [ht]
    exact .inl (hk.setMint _)
  | initializeStablecoin h =>
    obtain ⟨m, -, -, -, -, -, ht⟩ := h.created
    rw [ht]
    exact .inl (hk.setMint _)
  | mintElsewhere h => exact .inl (h.holds hk)
  | issue h => exact .inl (h.tokens.holds hk)
  | retire h => exact .inl (h.tokens.holds hcustodian hk hT)
  | redeemInstantly _ _ _ h => exact .inl (h.holds hcustodian hk hT)
  | @process _ b _ _ _ _ _ _ h =>
    obtain ⟨t, vault, hburn, -, -, htransfer⟩ := h.settled
    have ht := hburn.holds_of_ne hk (fun _ => hT) (hne _ rfl)
    exact .inl (htransfer.holds_of_ne ht (fun _ => hburn.undelegated hT)
      (signer_ne b.reserveVaultAuthority))
  | @deposit _ b _ _ h => exact .inl (h.tokens.holds_of_ne hk (fun _ => hT) (signer_ne b.user))
  | borrow h => exact .inl (h.tokens.holds hk)
  | @repay _ b _ _ _ _ _ _ h =>
    obtain ⟨total, t, -, -, hburn, htransfer⟩ := h.burned
    have ht := hburn.holds_of_ne hk (fun _ => hT) (signer_ne b.user)
    rcases htransfer with ⟨-, htransfer⟩ | ⟨-, heq⟩
    · exact .inl (htransfer.holds_of_ne ht (fun _ => hburn.undelegated hT) (hne _ rfl))
    · rw [heq]
      exact .inl ht
  | @liquidate _ b _ _ _ _ _ _ _ _ _ h =>
    obtain ⟨t, hburn, htransfer⟩ := h.tokens
    have ht := hburn.holds_of_ne hk (fun _ => hT) (signer_ne b.liquidator)
    exact .inl (htransfer.holds_of_ne ht (fun _ => hburn.undelegated hT) (hne _ rfl))
  | collect _ _ _ h =>
    rcases h with ⟨ht, -⟩ | ⟨n, h⟩
    · rw [ht]
      exact .inl hk
    · exact .inl (h.tokens.holds hcustodian hk hT)

/-- An open vault was open before with the same terms, or the call commits it. -/
theorem EscrowCall.vault_origin {v : ProbabilisticVault} (h : EscrowCall rt clock s i t e)
    (hv : e.probabilisticVaults k = some v) (hopen : v.isTerminal = false) :
    s.probabilisticVaults k = some v ∨
      ∃ b p, i = .commitProbabilistic b p ∧ k = b.key p ∧ v = b.vault p := by
  have of_closed {key : Pubkey} {v' : ProbabilisticVault} (hclosed : v'.isTerminal = true)
      (hput : put s.probabilisticVaults key v' k = some v) : s.probabilisticVaults k = some v := by
    rcases put_eq_some.mp hput with ⟨-, rfl⟩ | ⟨-, hv⟩
    · rw [hclosed] at hopen
      cases hopen
    · exact hv
  cases h with
  | commit =>
    rcases put_eq_some.mp hv with ⟨rfl, rfl⟩ | ⟨-, hv⟩
    · exact .inr ⟨_, _, rfl, rfl, rfl⟩
    · exact .inl hv
  | prove | partly | expire => exact .inl (of_closed rfl hv)
  | _ => exact .inl hv

/-- The same for a channel. -/
theorem EscrowCall.channel_origin {c : PaymentChannel} (h : EscrowCall rt clock s i t e)
    (hc : e.paymentChannels k = some c) (hopen : c.status.isTerminal = false) :
    (∃ c₀, s.paymentChannels k = some c₀ ∧ c₀.status.isTerminal = false ∧ c.seeds = c₀.seeds ∧
      c.stableMint = c₀.stableMint ∧ c.initiatorDeposit = c₀.initiatorDeposit) ∨
      ∃ b p, i = .openChannel b p ∧ k = b.key p ∧ c = b.channel p clock.slot := by
  have same {c₀ : PaymentChannel} (hc : s.paymentChannels k = some c₀)
      (hopen : c₀.status.isTerminal = false) :
      ∃ c₁, s.paymentChannels k = some c₁ ∧ c₁.status.isTerminal = false ∧ c₀.seeds = c₁.seeds ∧
        c₀.stableMint = c₁.stableMint ∧ c₀.initiatorDeposit = c₁.initiatorDeposit :=
    ⟨c₀, hc, hopen, rfl, rfl, rfl⟩
  cases h with
  | openChannel =>
    rcases put_eq_some.mp hc with ⟨rfl, rfl⟩ | ⟨-, hc⟩
    · exact .inr ⟨_, _, rfl, rfl, rfl⟩
    · exact .inl (same hc hopen)
  | submit party | dispute party =>
    rcases put_eq_some.mp hc with ⟨rfl, rfl⟩ | ⟨-, hc⟩
    · refine .inl ⟨_, party.channel, ?_, rfl, rfl, rfl⟩
      rw [party.live]
      rfl
    · exact .inl (same hc hopen)
  | countersign | forceClose | resolve =>
    rcases put_eq_some.mp hc with ⟨rfl, rfl⟩ | ⟨-, hc⟩
    · cases hopen
    · exact .inl (same hc hopen)
  | _ => exact .inl (same hc hopen)

/-! ## What is in escrow -/

/-- What was committed to the vault at `k` lies in an account of the vault, and the address is the
one that the recorded seeds derive. -/
structure ProbabilisticVault.Reserved (v : ProbabilisticVault) (k : Pubkey) (t : Tokens) :
    Prop where
  filed : v.seeds = k
  simple : t.Simple v.stableMint
  held : ∃ escrow, t.Holds escrow v.stableMint k v.committedAmount.toNat

/-- The same for the deposit of a channel. -/
structure PaymentChannel.Reserved (c : PaymentChannel) (k : Pubkey) (t : Tokens) : Prop where
  filed : c.seeds = k
  simple : t.Simple c.stableMint
  held : ∃ escrow, t.Holds escrow c.stableMint k c.initiatorDeposit.toNat

/-- The escrow of entry `i` of `M` belongs to the queue. Users may enqueue tokens of another mint;
what they enqueue in the stablecoin is there. -/
structure RedemptionEntry.Reserved (re : RedemptionEntry) (M : Pubkey) (i : UInt64) (t : Tokens) :
    Prop where
  simple : t.Simple M
  held : ∃ T, t.Holds (.queueEscrow M i) T (.redemptionQueue M)
    (if T = M then re.amount.toNat else 0)

/-- Everything that is still owed to users lies in escrow. -/
structure Solvent (s : State) : Prop where
  mints : ∀ M c, s.configs (.stablecoinConfig M) = some c → s.tokens.Simple M
  unapproved : s.tokens.Unapproved
  vaults : ∀ k v, s.probabilisticVaults k = some v → v.isTerminal = false →
    v.Reserved k s.tokens
  channels : ∀ k c, s.paymentChannels k = some c → c.status.isTerminal = false →
    c.Reserved k s.tokens
  entries : ∀ M i re, s.redemptionEntries (.redemptionEntry M i) = some re →
    re.fulfilled = false → re.cancelled = false → re.Reserved M i s.tokens

/-! ### What is handed over -/

theorem loadEscrowConfig_config {c : StablecoinConfig} {flag : UInt64}
    (h : loadEscrowConfig s M flag = .ok c) : s.configs (.stablecoinConfig M) = some c := by
  simp only [loadEscrowConfig, bind_eq_ok, load_eq_ok, require_eq_ok, pure_eq_ok] at h
  obtain ⟨_, hc, _, -, _, -, _, -, _, -, _, -, rfl⟩ := h
  exact hc

/-- A deposit by a wallet into an account of a custodian arrives in full. -/
theorem Solvent.deposited (hs : Solvent s) (hfee : rt.token.PlainFee) {c : StablecoinConfig}
    {u : Signer} {src dst : Pubkey} (hc : s.configs (.stablecoinConfig M) = some c)
    (ho : o.isCustodian = true) (hsrc : s.Account src M u.key) (hdst : s.Account dst M o)
    (h : s.tokens.Transfers src M dst u.key n (rt.token.transferFee s.tokens M n) t) :
    t.Simple M ∧ t.Holds dst M o n.toNat := by
  have hM := hs.mints M c hc
  obtain ⟨m, hm, -, hplain⟩ := hM
  obtain ⟨x, hx, hmint, howner⟩ := hdst
  have hne : src ≠ dst := by
    rintro rfl
    obtain ⟨y, hy, -, howner'⟩ := hsrc
    rw [hx] at hy
    cases hy
    exact Tokens.ne_of_isCustodian ho u.isCustodian (howner'.symm.trans howner)
  have hk : s.tokens.Holds dst M o 0 :=
    ⟨x, hx, hmint, howner, hs.unapproved dst x hx (howner ▸ ho), Nat.zero_le _⟩
  rw [hfee _ _ _ _ hm hplain] at h
  exact ⟨(hs.mints M c hc).of_keepsMints (.of_eq h.mints), h.deposits hne hk⟩

theorem commitProbabilisticHandler_reserved {b : CommitProbabilistic}
    {p : CommitProbabilisticParams} (hs : Solvent s) (hfee : rt.token.PlainFee)
    (h : commitProbabilisticHandler rt clock s b p = .ok s') :
    (b.vault p).Reserved (b.key p) s'.tokens := by
  simp only [commitProbabilisticHandler, bind_eq_ok, requireAmount_eq_ok, require_eq_ok,
    Option.okOr_eq_ok, pure_eq_ok] at h
  obtain ⟨_, hc, _, -, _, hescrow, _, hissuer, _, -, _, -, t, ht, rfl⟩ := h
  obtain ⟨hsimple, hheld⟩ := hs.deposited hfee (loadEscrowConfig_config hc) rfl
    (requireTokenAccount_account hissuer) (requireTokenAccount_account hescrow)
    (rt.token.transferChecked_ok ht)
  exact ⟨rfl, hsimple, _, hheld⟩

theorem openChannelHandler_reserved {b : OpenChannel} {p : OpenChannelParams} (hs : Solvent s)
    (hfee : rt.token.PlainFee) (h : openChannelHandler rt clock s b p = .ok s') :
    (b.channel p clock.slot).Reserved (b.key p) s'.tokens := by
  simp only [openChannelHandler, bind_eq_ok, requireAmount_eq_ok, require_eq_ok,
    Option.okOr_eq_ok, pure_eq_ok] at h
  obtain ⟨_, hc, _, -, _, hescrow, _, hinitiator, _, -, _, -, t, ht, rfl⟩ := h
  obtain ⟨hsimple, hheld⟩ := hs.deposited hfee (loadEscrowConfig_config hc) rfl
    (requireTokenAccount_account hinitiator) (requireTokenAccount_account hescrow)
    (rt.token.transferChecked_ok ht)
  exact ⟨rfl, hsimple, _, hheld⟩

theorem Enqueued.reserved {b : EnqueueRedemption} {c : StablecoinConfig} {rq : RedemptionQueue}
    {re : RedemptionEntry} (hs : Solvent s) (hfee : rt.token.PlainFee)
    (h : Enqueued rt s b n s' c rq) (hamount : re.amount = n) :
    re.Reserved c.mint rq.queueTail s'.tokens := by
  obtain ⟨t₁, t₂, hinit, hthaw, htransfer⟩ := h.escrowed
  have hmints : t₂.mints = s.tokens.mints := by
    obtain ⟨_, -, -, rfl⟩ := hinit
    obtain ⟨_, _, -, -, -, -, -, rfl⟩ := hthaw
    rfl
  have hM : s.tokens.Simple c.mint := hs.mints c.mint c (by rw [← h.key, h.config])
  refine ⟨hM.of_keepsMints (.of_eq (htransfer.mints.trans hmints)), b.stableMint, ?_⟩
  split
  next hstable =>
    obtain ⟨m, hm, -, hplain⟩ := hM
    rw [hstable] at hinit hthaw htransfer
    rw [hfee _ _ _ _ (hmints ▸ hm) hplain] at htransfer
    have hnew : t₁.Holds (.queueEscrow c.mint rq.queueTail) c.mint (.redemptionQueue c.mint) 0 := by
      obtain ⟨_, -, -, rfl⟩ := hinit
      exact ⟨_, put_self .., rfl, rfl, rfl, Nat.zero_le _⟩
    have hne : b.userStableAta ≠ .queueEscrow c.mint rq.queueTail := by
      intro heq
      obtain ⟨_, -, hfree, -⟩ := hinit
      obtain ⟨x, hx, -⟩ := h.source
      rw [heq, hfree] at hx
      cases hx
    rw [hstable, hamount]
    exact htransfer.deposits hne (hthaw.holds hnew)
  next => exact h.escrow

/-! ### What stays -/

theorem Solvent.exec_mints (hs : Solvent s) (h : Step rt s a s') {c : StablecoinConfig}
    (hc : s'.configs (.stablecoinConfig M) = some c) : s'.tokens.Simple M := by
  have hkeeps := h.changes.keepsMints
  cases hc₀ : s.configs (.stablecoinConfig M) with
  | some c₀ => exact (hs.mints M c₀ hc₀).of_keepsMints hkeeps
  | none =>
    cases h.offices with
    | same h =>
      obtain ⟨c₁, hc₁, -⟩ := h.config hc
      rw [hc₀] at hc₁
      cases hc₁
    | governed _ h =>
      rw [h.configs] at hc
      rcases put_eq_some.mp hc with ⟨hk, -⟩ | ⟨-, hc⟩
      · rw [hk, h.config] at hc₀
        cases hc₀
      · rw [hc₀] at hc
        cases hc
    | initialized h =>
      obtain ⟨c₁, hput, -⟩ := h.config
      rw [hput] at hc
      rcases put_eq_some.mp hc with ⟨hk, -⟩ | ⟨-, hc⟩
      · obtain ⟨m, -, hnone, hplain, -, -, ht⟩ := h.created
        rw [Pubkey.stablecoinConfig.inj hk, ht]
        exact ⟨m, put_self .., hnone, hplain⟩
      · rw [hc₀] at hc
        cases hc

/-- Two kinds of escrow never share an address. -/
theorem ProbabilisticVault.Reserved.exec {v : ProbabilisticVault} (hv : v.Reserved k s.tokens)
    (h : Step rt s a s') (hopen : v.isTerminal = false)
    (hv' : s'.probabilisticVaults k = some v) : v.Reserved k s'.tokens := by
  have hescrow : k.isEscrow = true := by
    rw [← hv.filed]
    rfl
  refine ⟨hv.filed, hv.simple.of_keepsMints h.changes.keepsMints, ?_⟩
  obtain ⟨escrow, hk⟩ := hv.held
  rcases h.holds_escrow hescrow hk hv.simple.undelegated with hk' | hclosed
  · exact ⟨escrow, hk'⟩
  rcases hclosed with ⟨v', hput, -, hterminal⟩ | ⟨c, -, hseeds, -⟩
  · cases hput.symm.trans hv'
    rw [hopen] at hterminal
    cases hterminal
  · exact Pubkey.noConfusion (hseeds.trans hv.filed.symm)

theorem PaymentChannel.Reserved.exec {c c' : PaymentChannel} (hc : c.Reserved k s.tokens)
    (h : Step rt s a s') (hopen : c'.status.isTerminal = false)
    (hc' : s'.paymentChannels k = some c') (hseeds : c'.seeds = c.seeds)
    (hmint : c'.stableMint = c.stableMint) (hdeposit : c'.initiatorDeposit = c.initiatorDeposit) :
    c'.Reserved k s'.tokens := by
  have hescrow : k.isEscrow = true := by
    rw [← hc.filed]
    rfl
  obtain ⟨escrow, hk⟩ := hc.held
  refine ⟨hseeds.trans hc.filed, hmint ▸ hc.simple.of_keepsMints h.changes.keepsMints, escrow, ?_⟩
  rcases h.holds_escrow hescrow hk hc.simple.undelegated with hk' | hclosed
  · rw [hmint, hdeposit]
    exact hk'
  rcases hclosed with ⟨v, -, hfiled, -⟩ | ⟨c₁, hput, -, hterminal⟩
  · exact Pubkey.noConfusion (hfiled.trans hc.filed.symm)
  · cases hput.symm.trans hc'
    rw [hopen] at hterminal
    cases hterminal

theorem RedemptionEntry.Reserved.exec {re : RedemptionEntry} {j : UInt64}
    (hre : re.Reserved M j s.tokens) (h : Action.exec rt s a = .ok s')
    (hnot : ¬ a.settles M j) : re.Reserved M j s'.tokens := by
  have hchanges := (exec_step h).changes
  obtain ⟨T, hk⟩ := hre.held
  refine ⟨hre.simple.of_keepsMints hchanges.keepsMints, T, ?_⟩
  split at hk
  next hT =>
    rw [if_pos hT]
    subst hT
    exact exec_holds h hnot hk fun _ => hre.simple.undelegated
  next hT =>
    rw [if_neg hT]
    exact hchanges.held rfl hk

theorem Solvent.exec_vaults (hs : Solvent s) (hfee : rt.token.PlainFee)
    (h : Action.exec rt s a = .ok s') {v : ProbabilisticVault}
    (hv : s'.probabilisticVaults k = some v) (hopen : v.isTerminal = false) :
    v.Reserved k s'.tokens := by
  have hstep := exec_step h
  rcases hstep.escrows with hsame | ⟨clock, i, rfl, hdisburses⟩
  · have hv₀ : s.probabilisticVaults k = some v :=
      (congrFun (congrArg Escrows.probabilisticVaults hsame) k).symm.trans hv
    exact (hs.vaults k v hv₀ hopen).exec hstep hopen hv
  · rcases hdisburses.call.vault_origin hv hopen with hv₀ | ⟨b, p, rfl, rfl, rfl⟩
    · exact (hs.vaults k v hv₀ hopen).exec hstep hopen hv
    · exact commitProbabilisticHandler_reserved hs hfee h

theorem Solvent.exec_channels (hs : Solvent s) (hfee : rt.token.PlainFee)
    (h : Action.exec rt s a = .ok s') {c : PaymentChannel}
    (hc : s'.paymentChannels k = some c) (hopen : c.status.isTerminal = false) :
    c.Reserved k s'.tokens := by
  have hstep := exec_step h
  rcases hstep.escrows with hsame | ⟨clock, i, rfl, hdisburses⟩
  · have hc₀ : s.paymentChannels k = some c :=
      (congrFun (congrArg Escrows.paymentChannels hsame) k).symm.trans hc
    exact (hs.channels k c hc₀ hopen).exec hstep hopen hc rfl rfl rfl
  · rcases hdisburses.call.channel_origin hc hopen with
      ⟨c₀, hc₀, hopen₀, hseeds, hmint, hdeposit⟩ | ⟨b, p, rfl, rfl, rfl⟩
    · exact (hs.channels k c₀ hc₀ hopen₀).exec hstep hopen hc hseeds hmint hdeposit
    · exact openChannelHandler_reserved hs hfee h

theorem Solvent.exec_entries (hs : Solvent s) (hfee : rt.token.PlainFee)
    (h : Action.exec rt s a = .ok s') {j : UInt64} {re : RedemptionEntry}
    (hre : s'.redemptionEntries (.redemptionEntry M j) = some re) (hful : re.fulfilled = false)
    (hcan : re.cancelled = false) : re.Reserved M j s'.tokens := by
  -- the entry of another number, or of another mint, is not the one that is settled
  have not_settles {N b : Pubkey} {x : UInt64} (hb : b = .stablecoinConfig N)
      (hne : Pubkey.redemptionEntry M j ≠ .redemptionEntry N x) :
      ¬ (b = .stablecoinConfig M ∧ x = j) := by
    rintro ⟨hM, rfl⟩
    cases hb.symm.trans hM
    exact hne rfl
  cases exec_queue h with
  | requeue hset =>
    rw [hset.entries] at hre
    refine (hs.entries M j re hre hful hcan).exec h ?_
    cases hset.requeues with
    | init | update | compact => exact id
  | enqueue henq =>
    obtain ⟨re', hput, -, -, hamount, -⟩ := henq.entries
    rw [hput] at hre
    rcases put_eq_some.mp hre with ⟨heq, rfl⟩ | ⟨-, hre⟩
    · obtain ⟨rfl, rfl⟩ := Pubkey.redemptionEntry.inj heq
      exact henq.reserved hs hfee hamount
    · exact (hs.entries M j re hre hful hcan).exec h id
  | process head hp =>
    rw [hp.entries] at hre
    rcases put_eq_some.mp hre with ⟨-, rfl⟩ | ⟨hne, hre⟩
    · cases hful
    · exact (hs.entries M j re hre hful hcan).exec h (not_settles hp.key (head ▸ hne))
  | refund hr =>
    rw [hr.entries] at hre
    rcases put_eq_some.mp hre with ⟨-, rfl⟩ | ⟨hne, hre⟩
    · cases hcan
    · exact (hs.entries M j re hre hful hcan).exec h (not_settles hr.key hne)
  | other hkind _ hentries =>
    rw [hentries] at hre
    refine (hs.entries M j re hre hful hcan).exec h ?_
    intro hsettles
    cases a with
    | world w => cases hsettles
    | call clock i =>
      cases i with
      | processRedemption | cancelRedemption => cases hkind
      | _ => cases hsettles

theorem Solvent.exec (hs : Solvent s) (hfee : rt.token.PlainFee)
    (h : Action.exec rt s a = .ok s') : Solvent s' where
  mints _ _ hc := hs.exec_mints (exec_step h) hc
  unapproved := (exec_step h).changes.unapproved hs.unapproved
  vaults _ _ hv hopen := hs.exec_vaults hfee h hv hopen
  channels _ _ hc hopen := hs.exec_channels hfee h hc hopen
  entries _ _ _ hre hful hcan := hs.exec_entries hfee h hre hful hcan

/-- The program has no account yet. -/
structure Unopened (s : State) : Prop extends Blank s where
  probabilisticVaults : ∀ k, s.probabilisticVaults k = none
  paymentChannels : ∀ k, s.paymentChannels k = none

theorem Unopened.solvent (h : Unopened s) : Solvent s where
  mints M c hc := by
    rw [h.configs] at hc
    cases hc
  unapproved k b hb ho := by
    apply h.tokens k b hb
    cases hk : b.owner.canSign with
    | false => rfl
    | true =>
      rw [Pubkey.isCustodian_of_canSign hk] at ho
      cases ho
  vaults k v hv := by
    rw [h.probabilisticVaults] at hv
    cases hv
  channels k c hc := by
    rw [h.paymentChannels] at hc
    cases hc
  entries M j re hre := by
    rw [h.redemptionEntries] at hre
    cases hre

/-- In every state of every run, whatever is owed to users lies in escrow. -/
theorem run_solvent (hs : Unopened s) (hfee : rt.token.PlainFee) (as : List Action) :
    Solvent (run rt s as) :=
  invariant_run_of_forall (fun hI h => hI.exec hfee h) as hs.solvent

namespace Market

theorem genesis_unopened : Unopened genesis where
  toBlank := genesis_blank
  probabilisticVaults _ := rfl
  paymentChannels _ := rfl

theorem localRuntime_plainFee : localRuntime.token.PlainFee := fun _ _ _ _ _ _ => rfl

end Market

open Market in
/-- The user's 100 are in escrow. -/
theorem committed_solvent :
    ∃ v escrow, (run localRuntime genesis committed).probabilisticVaults vault = some v ∧
      (run localRuntime genesis committed).tokens.Holds escrow mint.key vault 100 := by
  have hsolvent : Solvent (run localRuntime genesis committed) :=
    run_solvent genesis_unopened localRuntime_plainFee committed
  obtain ⟨v, hv, hterms⟩ := (Option.any_eq_true
    (fun v : ProbabilisticVault => v.isTerminal = false ∧ v.stableMint = mint.key ∧
      v.committedAmount = 100)
    ((run localRuntime genesis committed).probabilisticVaults vault)).mp (by decide +kernel)
  obtain ⟨hopen, hmint, hamount⟩ := of_decide_eq_true hterms
  obtain ⟨escrow, hheld⟩ := (hsolvent.vaults vault v hv hopen).held
  rw [hmint, hamount] at hheld
  exact ⟨v, escrow, hv, hheld⟩

end SolanaStablecoin
