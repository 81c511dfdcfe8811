import SolanaStablecoin.Verify.Effects

/-! What the instructions of the two escrows do when they succeed: exactly which account they
write, and which transfers they make. -/

namespace SolanaStablecoin

namespace Pubkey

/-- The addresses that sign for escrows. -/
def isEscrow : Pubkey → Bool
  | pbsVault .. | apcChannel .. => true
  | _ => false

theorem isCollateralVault_of_isEscrow {k : Pubkey} (h : k.isEscrow = true) :
    k.isCollateralVault = false := by
  cases k with
  | pbsVault => rfl
  | apcChannel => rfl
  | _ => cases h

end Pubkey

namespace Tokens

/-- A transfer of `n`, or nothing when `n` is zero. -/
def Pays (rt : Runtime) (t : Tokens) (src mint dst owner : Pubkey) (n : UInt64) (t' : Tokens) :
    Prop :=
  n = 0 ∧ t' = t ∨ 0 < n ∧ t.Transfers src mint dst owner n (rt.token.transferFee t mint n) t'

/-- One of the transfers that `owner` signs. -/
def Draws (owner : Pubkey) (t t' : Tokens) : Prop :=
  ∃ src mint dst n fee, fee ≤ n ∧ t.Transfers src mint dst owner n fee t'

/-- Some transfers that `owner` signs. -/
abbrev Drawn (owner : Pubkey) : Tokens → Tokens → Prop := Relation.ReflTransGen (Draws owner)

variable {rt : Runtime} {t t' : Tokens} {src mint dst owner : Pubkey} {n : UInt64}

theorem Pays.drawn (h : t.Pays rt src mint dst owner n t') : t.Drawn owner t' := by
  rcases h with ⟨-, rfl⟩ | ⟨-, h⟩
  · exact .refl
  · exact .single ⟨src, mint, dst, n, _, rt.token.transferFee_le, h⟩

theorem Drawn.shifts (h : t.Drawn owner t') (ho : owner.isCollateralVault = false) :
    t.Shifts t' := by
  induction h with
  | refl => exact .refl
  | tail _ step ih =>
    obtain ⟨_, _, _, _, _, hfee, h⟩ := step
    exact ih.tail (.pay ho hfee h)

end Tokens

variable {rt : Runtime} {clock : Clock} {s s' : State} {n rest : UInt64} {t t' : Tokens}

theorem payFrom_ok {escrow mint dst owner seeds : Pubkey}
    (h : payFrom rt t escrow mint dst owner seeds n = .ok t') :
    seeds = owner ∧ t.Transfers escrow mint dst owner n (rt.token.transferFee t mint n) t' := by
  simp [payFrom] at h
  exact ⟨h.1, rt.token.transferChecked_ok h.2⟩

theorem onlyPay_ok {escrow mint dst owner seeds : Pubkey}
    (h : onlyWhen (n > 0) t (payFrom rt t escrow mint dst owner seeds n) = .ok t') :
    t.Pays rt escrow mint dst owner n t' ∧ (t' = t ∨ seeds = owner) := by
  rw [onlyWhen_eq_ok] at h
  rcases h with ⟨hn, h⟩ | ⟨hn, rfl⟩
  · obtain ⟨hseeds, h⟩ := payFrom_ok h
    exact ⟨.inr ⟨hn, h⟩, .inr hseeds⟩
  · have hzero : n = 0 := UInt64.le_zero_iff.mp (UInt64.not_lt.mp hn)
    exact ⟨.inl ⟨hzero, rfl⟩, .inl rfl⟩

theorem splitFrom_ok {escrow mint first second owner seeds : Pubkey}
    (h : splitFrom rt t escrow mint first second owner seeds n rest = .ok t') :
    ∃ t₁, t.Pays rt escrow mint first owner n t₁ ∧ t₁.Pays rt escrow mint second owner rest t' ∧
      (t' = t ∨ seeds = owner) := by
  simp only [splitFrom, bind_eq_ok] at h
  obtain ⟨t₁, h₁, h₂⟩ := h
  obtain ⟨hpay₁, hseeds₁⟩ := onlyPay_ok h₁
  obtain ⟨hpay₂, hseeds₂⟩ := onlyPay_ok h₂
  refine ⟨t₁, hpay₁, hpay₂, ?_⟩
  rcases hseeds₁ with rfl | hseeds
  · exact hseeds₂
  · exact .inr hseeds

/-! ## Payments on proof -/

namespace CommitProbabilistic

def key (a : CommitProbabilistic) (p : CommitProbabilisticParams) : Pubkey :=
  .pbsVault (.stablecoinConfig a.stableMint) p.commitmentId

/-- The vault as it is committed. -/
def vault (a : CommitProbabilistic) (p : CommitProbabilisticParams) : ProbabilisticVault :=
  { config := .stablecoinConfig a.stableMint, issuer := a.issuer.key, claimant := p.claimant
    stableMint := a.stableMint, committedAmount := p.amount, resolvedAmount := 0
    conditionHash := p.conditionHash, expirySlot := p.expirySlot
    commitmentId := p.commitmentId, status := .pending }

end CommitProbabilistic

/-- The token account `k` belongs to `owner` and is one of `mint`. -/
def State.Account (s : State) (k mint owner : Pubkey) : Prop :=
  ∃ a, s.tokens.accounts k = some a ∧ a.mint = mint ∧ a.owner = owner

/-- A vault that is still open, with its escrow. -/
structure OpenVault (s : State) (key mint escrow : Pubkey) (v : ProbabilisticVault) : Prop where
  vault : s.probabilisticVaults key = some v
  live : v.isTerminal = false
  mint_eq : mint = v.stableMint
  escrow : s.Account escrow mint key

/-! ## Payment channels -/

namespace OpenChannel

def key (a : OpenChannel) (p : OpenChannelParams) : Pubkey :=
  .apcChannel a.initiator.key p.channelId

/-- The channel as it is opened. -/
def channel (a : OpenChannel) (p : OpenChannelParams) (slot : UInt64) : PaymentChannel :=
  { initiator := a.initiator.key, counterparty := p.counterparty, stableMint := a.stableMint
    initiatorDeposit := p.deposit, openSlot := slot, channelId := p.channelId
    disputePolicy := p.disputePolicy, timeoutSlots := p.timeoutSlots, workProofHash := 0
    status := .opened }

end OpenChannel

/-- The key is one of the two parties. -/
def PaymentChannel.HasParty (c : PaymentChannel) (k : Pubkey) : Prop :=
  c.initiator = k ∨ c.counterparty = k

/-- An open channel, and the party that signs. -/
structure PartyTo (s : State) (a : Party) (c : PaymentChannel) : Prop where
  channel : s.paymentChannels a.channel = some c
  live : c.status = .opened
  party : c.HasParty a.party.key

/-- The deposit is split between the two parties of a channel. -/
structure SplitsDeposit (rt : Runtime) (s : State) (a : SettleAccounts) (key : Pubkey)
    (c : PaymentChannel) (n : UInt64) (t' : Tokens) : Prop where
  within : n ≤ c.initiatorDeposit
  mint_eq : a.stableMint = c.stableMint
  escrow : s.Account a.escrowTokenAccount a.stableMint key
  counterparty : s.Account a.counterpartyTokenAccount a.stableMint c.counterparty
  initiator : s.Account a.initiatorTokenAccount a.stableMint c.initiator
  seeds : t' = s.tokens ∨ c.seeds = key
  paid : ∃ t,
    s.tokens.Pays rt a.escrowTokenAccount a.stableMint a.counterpartyTokenAccount key n t ∧
      t.Pays rt a.escrowTokenAccount a.stableMint a.initiatorTokenAccount key
        (c.initiatorDeposit.saturatingSub n) t'

/-- Both parties signed, or the authority of the config of the channel's mint did. -/
def ResolveDispute.Agreed (a : ResolveDispute) (s : State) (c : PaymentChannel) : Prop :=
  a.initiatorSigner.signedBy c.initiator = true ∧
      a.counterpartySigner.signedBy c.counterparty = true ∨
    ∃ config, s.configs (.stablecoinConfig c.stableMint) = some config ∧
      a.authority.signedBy config.authority = true

/-! ## Payments -/

/-- Stablecoins that an escrow pays to one of its parties. -/
structure Payment (ρ : Type) where
  payee : ρ
  amount : UInt64
deriving DecidableEq

/-- The tokens move by these payments: one transfer each that the escrow `k` signs, out of an
account of its own and into one of the payee's. -/
inductive PaidOut {ρ : Type} (rt : Runtime) (s : State) (k mint : Pubkey) (keyOf : ρ → Pubkey) :
    Tokens → List (Payment ρ) → Tokens → Prop where
  | nil {t : Tokens} : PaidOut rt s k mint keyOf t [] t
  | cons {p : Payment ρ} {ps : List (Payment ρ)} {escrow target : Pubkey} {t t₁ t' : Tokens}
    (source : s.Account escrow mint k) (payee : s.Account target mint (keyOf p.payee))
    (paid : t.Pays rt escrow mint target k p.amount t₁)
    (rest : PaidOut rt s k mint keyOf t₁ ps t') : PaidOut rt s k mint keyOf t (p :: ps) t'

/-! ## The calls -/

/-- The accounts of the two escrows and the tokens after a successful instruction of theirs. -/
inductive EscrowCall (rt : Runtime) (clock : Clock) (s : State) :
    Instruction → Tokens → Escrows → Prop where
  | commit {a : CommitProbabilistic} {p : CommitProbabilisticParams} {t : Tokens}
    (free : s.probabilisticVaults (a.key p) = none) (amount : 0 < p.amount)
    (window : clock.slot < p.expirySlot)
    (deposit : s.tokens.Transfers a.issuerTokenAccount a.stableMint a.escrowTokenAccount
      a.issuer.key p.amount (rt.token.transferFee s.tokens a.stableMint p.amount) t) :
    EscrowCall rt clock s (.commitProbabilistic a p) t
      { s.escrows with
        probabilisticVaults := put s.probabilisticVaults (a.key p) (a.vault p) }
  | prove {a : Resolve} {proof : BitVec 256} {v : ProbabilisticVault} {t : Tokens}
    (vault : OpenVault s a.vault a.stableMint a.escrowTokenAccount v)
    (claimant : v.claimant = a.claimant.key) (accepts : rt.blake3 proof = v.conditionHash)
    (target : s.Account a.claimantTokenAccount a.stableMint v.claimant)
    (seeds : v.seeds = a.vault)
    (paid : s.tokens.Pays rt a.escrowTokenAccount a.stableMint a.claimantTokenAccount a.vault
      v.remaining t) :
    EscrowCall rt clock s (.proveAndResolve a proof) t
      { s.escrows with
        probabilisticVaults := put s.probabilisticVaults a.vault
          { v with resolvedAmount := v.committedAmount, status := .resolved } }
  | partly {a : Resolve} {proof : BitVec 256} {n resolved : UInt64} {v : ProbabilisticVault}
    {t t' : Tokens} (vault : OpenVault s a.vault a.stableMint a.escrowTokenAccount v)
    (claimant : v.claimant = a.claimant.key) (accepts : rt.blake3 proof = v.conditionHash)
    (target : s.Account a.claimantTokenAccount a.stableMint v.claimant)
    (change : s.Account a.issuerTokenAccount a.stableMint v.issuer)
    (amount : 0 < n) (within : n ≤ v.remaining) (seeds : t' = s.tokens ∨ v.seeds = a.vault)
    (paid : s.tokens.Pays rt a.escrowTokenAccount a.stableMint a.claimantTokenAccount a.vault n t)
    (returned : t.Pays rt a.escrowTokenAccount a.stableMint a.issuerTokenAccount a.vault
      (v.remaining.saturatingSub n) t') :
    EscrowCall rt clock s (.partialResolve a n proof) t'
      { s.escrows with
        probabilisticVaults := put s.probabilisticVaults a.vault
          { v with resolvedAmount := resolved, status := .resolved } }
  | expire {a : ExpireAndRefund} {v : ProbabilisticVault} {t : Tokens}
    (vault : OpenVault s a.vault a.stableMint a.escrowTokenAccount v)
    (expired : v.expirySlot ≤ clock.slot)
    (target : s.Account a.issuerTokenAccount a.stableMint v.issuer)
    (seeds : t = s.tokens ∨ v.seeds = a.vault)
    (paid : s.tokens.Pays rt a.escrowTokenAccount a.stableMint a.issuerTokenAccount a.vault
      v.remaining t) :
    EscrowCall rt clock s (.expireAndRefund a) t
      { s.escrows with
        probabilisticVaults := put s.probabilisticVaults a.vault { v with status := .expired } }
  | openChannel {a : OpenChannel} {p : OpenChannelParams} {t : Tokens}
    (free : s.paymentChannels (a.key p) = none) (amount : 0 < p.deposit)
    (deposit : s.tokens.Transfers a.initiatorTokenAccount a.stableMint a.escrowTokenAccount
      a.initiator.key p.deposit (rt.token.transferFee s.tokens a.stableMint p.deposit) t) :
    EscrowCall rt clock s (.openChannel a p) t
      { s.escrows with
        paymentChannels := put s.paymentChannels (a.key p) (a.channel p clock.slot) }
  | submit {a : Party} {task output : BitVec 256} {c : PaymentChannel} (party : PartyTo s a c) :
    EscrowCall rt clock s (.submitWorkProof a task output) s.tokens
      { s.escrows with
        paymentChannels := put s.paymentChannels a.channel
          { c with workProofHash := rt.blake3 (task ++ output) } }
  | propose {a : Party} {n : UInt64} {c : PaymentChannel} (party : PartyTo s a c)
    (free : s.proposedSettlements (.apcSettle a.channel) = none)
    (within : n ≤ c.initiatorDeposit) :
    EscrowCall rt clock s (.proposeSettle a n) s.tokens
      { s.escrows with
        proposedSettlements := put s.proposedSettlements (.apcSettle a.channel)
          { amount := n, proposedBy := a.party.key } }
  | countersign {a : CountersignSettle} {n : UInt64} {c : PaymentChannel}
    {proposed : ProposedSettlement} {t : Tokens} (party : PartyTo s a.toParty c)
    (proposal : s.proposedSettlements (.apcSettle a.channel) = some proposed)
    (other : proposed.proposedBy ≠ a.party.key) (amount : n = proposed.amount)
    (split : SplitsDeposit rt s a.toSettleAccounts a.channel c n t) :
    EscrowCall rt clock s (.countersignSettle a n) t
      { s.escrows with
        paymentChannels := put s.paymentChannels a.channel { c with status := .settled }
        proposedSettlements :=
          Function.update s.proposedSettlements (.apcSettle a.channel) none }
  | dispute {a : Party} {evidence : BitVec 256} {c : PaymentChannel} (party : PartyTo s a c) :
    EscrowCall rt clock s (.dispute a evidence) s.tokens
      { s.escrows with
        paymentChannels := put s.paymentChannels a.channel
          { c with workProofHash := evidence, status := .disputed } }
  | forceClose {a : ForceClose} {c : PaymentChannel} {t : Tokens}
    (channel : s.paymentChannels a.channel = some c) (initiator : c.initiator = a.initiator.key)
    (live : c.status.isTerminal = false)
    (timeout : c.openSlot.saturatingAdd c.timeoutSlots ≤ clock.slot)
    (mint_eq : a.stableMint = c.stableMint)
    (escrow : s.Account a.escrowTokenAccount a.stableMint a.channel)
    (target : s.Account a.initiatorTokenAccount a.stableMint c.initiator)
    (seeds : t = s.tokens ∨ c.seeds = a.channel)
    (paid : s.tokens.Pays rt a.escrowTokenAccount a.stableMint a.initiatorTokenAccount a.channel
      c.initiatorDeposit t) :
    EscrowCall rt clock s (.forceClose a) t
      { s.escrows with
        paymentChannels := put s.paymentChannels a.channel { c with status := .forceClose } }
  | resolve {a : ResolveDispute} {n : UInt64} {c : PaymentChannel} {t : Tokens}
    (channel : s.paymentChannels a.channel = some c) (live : c.status = .disputed)
    (agreed : a.Agreed s c) (split : SplitsDeposit rt s a.toSettleAccounts a.channel c n t) :
    EscrowCall rt clock s (.resolveDispute a n) t
      { s.escrows with
        paymentChannels := put s.paymentChannels a.channel { c with status := .settled } }

/-- The state after such a call: nothing but tokens and the accounts of the escrows moves. -/
structure Disburses (rt : Runtime) (clock : Clock) (s : State) (i : Instruction) (s' : State) :
    Prop where
  call : EscrowCall rt clock s i s'.tokens s'.escrows
  vaults : s'.collateralVaults = s.collateralVaults
  positions : s'.cdpPositions = s.cdpPositions
  configs : s'.configs = s.configs
  records : s'.records = { s.records with files := { s.files with escrows := s'.escrows } }

section Handlers

theorem requireTokenAccount_account {k mint owner : Pubkey} {u : Unit}
    (h : requireTokenAccount s k mint owner = .ok u) : s.Account k mint owner :=
  requireTokenAccount_eq_ok.mp h

theorem commitProbabilisticHandler_ok {a : CommitProbabilistic} {p : CommitProbabilisticParams}
    (h : commitProbabilisticHandler rt clock s a p = .ok s') :
    Disburses rt clock s (.commitProbabilistic a p) s' := by
  simp only [commitProbabilisticHandler, bind_eq_ok, requireFree_eq_ok, requireAmount_eq_ok,
    require_eq_ok, Option.okOr_eq_ok, pure_eq_ok] at h
  obtain ⟨_, -, _, hfree, _, -, _, -, _, hamount, _, hwindow, t, ht, rfl⟩ := h
  refine ⟨?_, rfl, rfl, rfl, rfl⟩
  exact .commit hfree hamount hwindow (rt.token.transferChecked_ok ht)

/-- What the claimant's instructions check of the vault. -/
theorem Resolve.load_ok {a : Resolve} {v : ProbabilisticVault} (h : a.load s = .ok v) :
    OpenVault s a.vault a.stableMint a.escrowTokenAccount v ∧ v.claimant = a.claimant.key ∧
      s.Account a.claimantTokenAccount a.stableMint v.claimant := by
  simp only [Resolve.load, bind_eq_ok, load_eq_ok, require_eq_ok, pure_eq_ok] at h
  obtain ⟨v, hv, _, hclaimant, _, hlive, _, -, _, hmint, _, hescrow, _, htarget, rfl⟩ := h
  refine ⟨⟨hv, hlive, hmint, requireTokenAccount_account hescrow⟩, hclaimant, ?_⟩
  rw [hclaimant]
  exact requireTokenAccount_account htarget

theorem ProbabilisticVault.checkProof_eq_ok {v : ProbabilisticVault} {proof : BitVec 256}
    {u : Unit} : v.checkProof rt proof = .ok u ↔ rt.blake3 proof = v.conditionHash :=
  require_eq_ok

theorem proveAndResolveHandler_ok {a : Resolve} {proof : BitVec 256}
    (h : proveAndResolveHandler rt s a proof = .ok s') :
    Disburses rt clock s (.proveAndResolve a proof) s' := by
  simp only [proveAndResolveHandler, bind_eq_ok, ProbabilisticVault.checkProof_eq_ok,
    requireAmount_eq_ok, pure_eq_ok] at h
  obtain ⟨v, hload, _, haccepts, _, hpos, t, hpay, rfl⟩ := h
  obtain ⟨hvault, hclaimant, htarget⟩ := Resolve.load_ok hload
  obtain ⟨hseeds, hpay⟩ := payFrom_ok hpay
  refine ⟨?_, rfl, rfl, rfl, rfl⟩
  exact .prove hvault hclaimant haccepts htarget hseeds (.inr ⟨hpos, hpay⟩)

theorem partialResolveHandler_ok {a : Resolve} {proof : BitVec 256}
    (h : partialResolveHandler rt s a n proof = .ok s') :
    Disburses rt clock s (.partialResolve a n proof) s' := by
  simp only [partialResolveHandler, bind_eq_ok, ProbabilisticVault.checkProof_eq_ok,
    requireAmount_eq_ok, require_eq_ok, Option.okOr_eq_ok, pure_eq_ok] at h
  obtain ⟨v, hload, _, hchange, _, haccepts, _, hpos, _, hwithin, t, hsplit, x, -, rfl⟩ := h
  obtain ⟨hvault, hclaimant, htarget⟩ := Resolve.load_ok hload
  obtain ⟨t₁, hpaid, hreturned, hseeds⟩ := splitFrom_ok hsplit
  refine ⟨?_, rfl, rfl, rfl, rfl⟩
  exact .partly hvault hclaimant haccepts htarget (requireTokenAccount_account hchange) hpos
    hwithin hseeds hpaid hreturned

theorem expireAndRefundHandler_ok {a : ExpireAndRefund}
    (h : expireAndRefundHandler rt clock s a = .ok s') :
    Disburses rt clock s (.expireAndRefund a) s' := by
  simp only [expireAndRefundHandler, bind_eq_ok, load_eq_ok, require_eq_ok, pure_eq_ok] at h
  obtain ⟨v, hv, _, hlive, _, -, _, hmint, _, hescrow, _, htarget, _, hexpired, t, hpay, rfl⟩ := h
  obtain ⟨hpay, hseeds⟩ := onlyPay_ok hpay
  refine ⟨?_, rfl, rfl, rfl, rfl⟩
  exact .expire ⟨hv, hlive, hmint, requireTokenAccount_account hescrow⟩ hexpired
    (requireTokenAccount_account htarget) hseeds hpay

theorem openChannelHandler_ok {a : OpenChannel} {p : OpenChannelParams}
    (h : openChannelHandler rt clock s a p = .ok s') :
    Disburses rt clock s (.openChannel a p) s' := by
  simp only [openChannelHandler, bind_eq_ok, requireFree_eq_ok, requireAmount_eq_ok,
    require_eq_ok, Option.okOr_eq_ok, pure_eq_ok] at h
  obtain ⟨_, -, _, hfree, _, -, _, -, _, -, _, hamount, t, ht, rfl⟩ := h
  refine ⟨?_, rfl, rfl, rfl, rfl⟩
  exact .openChannel hfree hamount (rt.token.transferChecked_ok ht)

theorem Party.loadOpen_eq_ok {a : Party} {c : PaymentChannel} :
    a.loadOpen s = .ok c ↔ PartyTo s a c := by
  rw [Party.loadOpen, checked_twice_eq_ok, load_eq_ok]
  constructor
  · intro h
    exact ⟨h.1, h.2.1, h.2.2⟩
  · intro h
    exact ⟨h.channel, h.live, h.party⟩

theorem submitWorkProofHandler_ok {a : Party} {task output : BitVec 256}
    (h : submitWorkProofHandler rt s a task output = .ok s') :
    Disburses rt clock s (.submitWorkProof a task output) s' := by
  simp only [submitWorkProofHandler, bind_eq_ok, Party.loadOpen_eq_ok, pure_eq_ok] at h
  obtain ⟨c, hparty, rfl⟩ := h
  exact ⟨.submit hparty, rfl, rfl, rfl, rfl⟩

theorem proposeSettleHandler_ok {a : Party} (h : proposeSettleHandler s a n = .ok s') :
    Disburses rt clock s (.proposeSettle a n) s' := by
  simp only [proposeSettleHandler, bind_eq_ok, Party.loadOpen_eq_ok, requireFree_eq_ok,
    require_eq_ok, pure_eq_ok] at h
  obtain ⟨c, hparty, _, hfree, _, hwithin, rfl⟩ := h
  exact ⟨.propose hparty hfree hwithin, rfl, rfl, rfl, rfl⟩

theorem disputeHandler_ok {a : Party} {evidence : BitVec 256}
    (h : disputeHandler s a evidence = .ok s') : Disburses rt clock s (.dispute a evidence) s' := by
  simp only [disputeHandler, bind_eq_ok, Party.loadOpen_eq_ok, pure_eq_ok] at h
  obtain ⟨c, hparty, rfl⟩ := h
  exact ⟨.dispute hparty, rfl, rfl, rfl, rfl⟩

/-- A settlement makes two transfers and closes the channel. -/
theorem SettleAccounts.settle_ok {a : SettleAccounts} {key : Pubkey} {c : PaymentChannel}
    {u : Unit} (hcheck : a.check s key c = .ok u) (hwithin : n ≤ c.initiatorDeposit)
    (h : a.settle rt s key c n = .ok s') :
    ∃ t, SplitsDeposit rt s a key c n t ∧
      s' = { s with
        tokens := t
        paymentChannels := put s.paymentChannels key { c with status := .settled } } := by
  simp only [SettleAccounts.check, bind_eq_ok, load_eq_ok, require_eq_ok] at hcheck
  obtain ⟨_, -, _, hmint, _, hescrow, _, hcounterparty, hinitiator⟩ := hcheck
  simp only [SettleAccounts.settle, bind_eq_ok, pure_eq_ok] at h
  obtain ⟨t, hsplit, rfl⟩ := h
  obtain ⟨t₁, hpaid, hrest, hseeds⟩ := splitFrom_ok hsplit
  exact ⟨t, ⟨hwithin, hmint, requireTokenAccount_account hescrow,
    requireTokenAccount_account hcounterparty, requireTokenAccount_account hinitiator, hseeds,
    t₁, hpaid, hrest⟩, rfl⟩

theorem countersignSettleHandler_ok {a : CountersignSettle}
    (h : countersignSettleHandler rt s a n = .ok s') :
    Disburses rt clock s (.countersignSettle a n) s' := by
  simp only [countersignSettleHandler, bind_eq_ok, Party.loadOpen_eq_ok, load_eq_ok,
    require_eq_ok, pure_eq_ok] at h
  obtain ⟨c, hparty, proposed, hproposal, _, hother, _, hcheck, _, hamount, _, hwithin, s₁, hsettle,
    rfl⟩ := h
  obtain ⟨t, hsplit, rfl⟩ := SettleAccounts.settle_ok hcheck hwithin hsettle
  refine ⟨?_, rfl, rfl, rfl, rfl⟩
  exact .countersign hparty hproposal hother hamount hsplit

theorem forceCloseHandler_ok {a : ForceClose} (h : forceCloseHandler rt clock s a = .ok s') :
    Disburses rt clock s (.forceClose a) s' := by
  simp only [forceCloseHandler, bind_eq_ok, load_eq_ok, require_eq_ok, pure_eq_ok] at h
  obtain ⟨c, hc, _, hinitiator, _, hlive, _, -, _, hmint, _, hescrow, _, htarget, _, htimeout, t,
    hpay, rfl⟩ := h
  obtain ⟨hpay, hseeds⟩ := onlyPay_ok hpay
  refine ⟨?_, rfl, rfl, rfl, rfl⟩
  refine .forceClose hc hinitiator hlive htimeout hmint (requireTokenAccount_account hescrow) ?_
    hseeds hpay
  rw [hinitiator]
  exact requireTokenAccount_account htarget

theorem resolveDisputeHandler_ok {a : ResolveDispute}
    (h : resolveDisputeHandler rt s a n = .ok s') :
    Disburses rt clock s (.resolveDispute a n) s' := by
  simp only [resolveDisputeHandler, bind_eq_ok, load_eq_ok, require_eq_ok] at h
  obtain ⟨config, hconfig, c, hc, _, hlive, _, hcheck, _, hagreed, _, hwithin, hsettle⟩ := h
  obtain ⟨t, hsplit, rfl⟩ := SettleAccounts.settle_ok hcheck hwithin hsettle
  refine ⟨?_, rfl, rfl, rfl, rfl⟩
  refine .resolve hc hlive ?_ hsplit
  rw [ResolveDispute.Agreed, ← hsplit.mint_eq]
  exact hagreed.imp_right fun h => ⟨config, hconfig, h⟩

end Handlers

/-! ## Tokens -/

/-- Parties pay in, and escrows pay out. -/
theorem EscrowCall.moves {i : Instruction} {e : Escrows} (h : EscrowCall rt clock s i t e) :
    s.tokens.Moves t ∨ ∃ owner, owner.isEscrow = true ∧ s.tokens.Drawn owner t := by
  have of_seeds {owner seeds : Pubkey} (ho : seeds.isEscrow = true)
      (hseeds : t = s.tokens ∨ seeds = owner) (h : s.tokens.Drawn owner t) :
      s.tokens.Moves t ∨ ∃ owner, owner.isEscrow = true ∧ s.tokens.Drawn owner t := by
    rcases hseeds with rfl | rfl
    · exact .inl .refl
    · exact .inr ⟨_, ho, h⟩
  cases h with
  | @commit a _ _ _ _ _ deposit =>
    exact .inl (.single (.transfer a.issuer.isCustodian rt.token.transferFee_le deposit))
  | prove _ _ _ _ seeds paid => exact of_seeds rfl (.inr seeds) paid.drawn
  | partly _ _ _ _ _ _ _ seeds paid returned =>
    exact of_seeds rfl seeds (paid.drawn.trans returned.drawn)
  | expire _ _ _ seeds paid => exact of_seeds rfl seeds paid.drawn
  | @openChannel a _ _ _ _ deposit =>
    exact .inl (.single (.transfer a.initiator.isCustodian rt.token.transferFee_le deposit))
  | submit | propose | dispute => exact .inl .refl
  | countersign _ _ _ _ split | resolve _ _ _ split =>
    obtain ⟨t₁, hpaid, hrest⟩ := split.paid
    exact of_seeds rfl split.seeds (hpaid.drawn.trans hrest.drawn)
  | forceClose _ _ _ _ _ _ _ seeds paid => exact of_seeds rfl seeds paid.drawn

theorem Disburses.files {i : Instruction} (h : Disburses rt clock s i s') :
    s'.files = { s.files with escrows := s'.escrows } := congrArg Records.files h.records

theorem Disburses.loose {i : Instruction} (h : Disburses rt clock s i s') : Loose s s' where
  vaults := h.vaults
  positions := h.positions
  tokens := by
    rcases h.call.moves with hmoves | ⟨owner, ho, hdrawn⟩
    · exact hmoves.shifts
    · exact hdrawn.shifts (Pubkey.isCollateralVault_of_isEscrow ho)
  terms := .of_eq h.configs

end SolanaStablecoin
