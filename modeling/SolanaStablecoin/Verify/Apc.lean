import Mathlib.Data.UInt
import SolanaStablecoin.Verify.Pbs

/-! Payment channels over whole runs: the deposit is paid out once, and the counterparty gets what
was agreed. -/

namespace SolanaStablecoin

open Transition

variable {rt : Runtime} {clock : Clock} {s s' : State} {a : Action} {k : Pubkey}
  {c c' : PaymentChannel}

/-! ## Payments -/

inductive ChannelRole where
  | initiator
  | counterparty
deriving DecidableEq

def PaymentChannel.keyOf (c : PaymentChannel) : ChannelRole → Pubkey
  | .initiator => c.initiator
  | .counterparty => c.counterparty

/-- The counterparty's part of a deposit, and the initiator's. -/
def settlement (n deposit : UInt64) : List (Payment ChannelRole) :=
  [⟨.counterparty, n⟩, ⟨.initiator, deposit.saturatingSub n⟩]

def State.channelDeposit (s : State) (k : Pubkey) : UInt64 :=
  (s.paymentChannels k).elim 0 (·.initiatorDeposit)

/-- What a transaction pays out of the channel `k` when it succeeds. -/
def channelPayments (k : Pubkey) (s : State) : Action → List (Payment ChannelRole)
  | .call _ (.countersignSettle b n) =>
    if b.channel = k then settlement n (s.channelDeposit k) else []
  | .call _ (.resolveDispute b n) =>
    if b.channel = k then settlement n (s.channelDeposit k) else []
  | .call _ (.forceClose b) =>
    if b.channel = k then [⟨.initiator, s.channelDeposit k⟩] else []
  | _ => []

/-- The calls that pay out of a channel, where `proposed` says who has proposed which amount. -/
inductive ChannelCall (clock : Clock) (s : State) (proposed : Pubkey → UInt64 → Prop) (k : Pubkey)
    (c : PaymentChannel) : Instruction → List (Payment ChannelRole) → Prop where
  | countersign {b : CountersignSettle} {n : UInt64} {who : Pubkey} (channel : b.channel = k)
    (proposal : proposed who n) (party : c.HasParty b.party.key) (other : who ≠ b.party.key)
    (within : n ≤ c.initiatorDeposit) :
    ChannelCall clock s proposed k c (.countersignSettle b n) (settlement n c.initiatorDeposit)
  | resolve {b : ResolveDispute} {n : UInt64} (channel : b.channel = k) (agreed : b.Agreed s c)
    (within : n ≤ c.initiatorDeposit) :
    ChannelCall clock s proposed k c (.resolveDispute b n) (settlement n c.initiatorDeposit)
  | forceClose {b : ForceClose} (channel : b.channel = k)
    (initiator : b.initiator.key = c.initiator)
    (timeout : min (c.openSlot.toNat + c.timeoutSlots.toNat) (2 ^ 64 - 1) ≤ clock.slot.toNat) :
    ChannelCall clock s proposed k c (.forceClose b) [⟨.initiator, c.initiatorDeposit⟩]

/-- A channel as an account that is paid out once. -/
def apc : Payout PaymentChannel PaymentChannel (Payment ChannelRole) where
  closed c := c.status.isTerminal
  terms c := { c with workProofHash := 0, status := .opened }
  held c := c.initiatorDeposit.toNat
  amount p := p.amount.toNat
  intact _ := True

theorem settlement_total {n deposit : UInt64} (h : n ≤ deposit) :
    apc.total (settlement n deposit) = deposit.toNat := by
  have hle : n.toNat ≤ deposit.toNat := h
  change n.toNat + ((deposit.saturatingSub n).toNat + 0) = deposit.toNat
  rw [UInt64.toNat_saturatingSub]
  omega

theorem ChannelCall.total {proposed : Pubkey → UInt64 → Prop} {i : Instruction}
    {ps : List (Payment ChannelRole)} (h : ChannelCall clock s proposed k c i ps) :
    apc.total ps = c.initiatorDeposit.toNat := by
  cases h with
  | countersign _ _ _ _ within | resolve _ _ within => exact settlement_total within
  | forceClose => exact Nat.add_zero _

/-! ## The calls -/

/-- The proposal that is stored for the channel. -/
def State.Proposal (s : State) (k who : Pubkey) (n : UInt64) : Prop :=
  s.proposedSettlements (.apcSettle k) = some { amount := n, proposedBy := who }

/-- The successful instructions of the escrows leave a channel as it is, but for the work proof and
a dispute, or pay it out. -/
inductive ChannelEffect (rt : Runtime) (clock : Clock) (s : State) (k : Pubkey) (i : Instruction)
    (t : Tokens) (x : Option PaymentChannel) : Prop where
  | same (idle : channelPayments k s (.call clock i) = []) (channel : x = s.paymentChannels k)
  | opened {c : PaymentChannel} (idle : channelPayments k s (.call clock i) = [])
    (free : s.paymentChannels k = none) (channel : x = some c)
    (live : c.status.isTerminal = false)
  | noted {c c' : PaymentChannel} (idle : channelPayments k s (.call clock i) = [])
    (stored : s.paymentChannels k = some c) (channel : x = some c')
    (live : c.status.isTerminal = false) (live' : c'.status.isTerminal = false)
    (terms : apc.terms c' = apc.terms c)
  | paid {c c' : PaymentChannel} (stored : s.paymentChannels k = some c)
    (channel : x = some c') (live : c.status.isTerminal = false)
    (closed : c'.status.isTerminal = true) (terms : apc.terms c' = apc.terms c)
    (call : ChannelCall clock s (s.Proposal k) k c i (channelPayments k s (.call clock i)))
    (moved : PaidOut rt s k c.stableMint c.keyOf s.tokens (channelPayments k s (.call clock i)) t)

namespace ChannelEffect

variable {i : Instruction} {t : Tokens} {x : Option PaymentChannel}

/-- A call that writes the channel `key` pays nothing out of another one. -/
theorem of_put {key : Pubkey} (hother : key ≠ k → channelPayments k s (.call clock i) = [])
    (h : key = k → ChannelEffect rt clock s k i t (some c')) :
    ChannelEffect rt clock s k i t (put s.paymentChannels key c' k) := by
  by_cases hk : key = k
  · subst hk
    rw [put_self]
    exact h rfl
  · exact .same (hother hk) (put_of_ne _ _ (Ne.symm hk))

theorem step (h : ChannelEffect rt clock s k i t x) :
    apc.Step (s.paymentChannels k) (channelPayments k s (.call clock i)) x := by
  cases h with
  | same idle channel =>
    rw [idle, channel]
    exact .refl _
  | opened idle free channel live =>
    rw [idle, free, channel]
    exact .opened live trivial
  | noted idle stored channel live live' terms =>
    rw [idle, stored, channel]
    exact .kept live live' id terms
  | paid stored channel live closed terms call =>
    rw [stored, channel]
    exact .paid live closed (fun _ => call.total) terms

end ChannelEffect

theorem State.channelDeposit_eq (h : s.paymentChannels k = some c) :
    s.channelDeposit k = c.initiatorDeposit := by
  rw [State.channelDeposit, h]
  rfl

theorem isTerminal_of_opened (h : c.status = .opened) : c.status.isTerminal = false := by
  rw [h]
  rfl

theorem isTerminal_of_disputed (h : c.status = .disputed) : c.status.isTerminal = false := by
  rw [h]
  rfl

theorem SplitsDeposit.paidOut {b : SettleAccounts} {n : UInt64} {t : Tokens}
    (h : SplitsDeposit rt s b k c n t) :
    PaidOut rt s k c.stableMint c.keyOf s.tokens (settlement n c.initiatorDeposit) t := by
  obtain ⟨t₁, hpaid, hrest⟩ := h.paid
  have hescrow := h.escrow
  have hcounterparty := h.counterparty
  have hinitiator := h.initiator
  rw [h.mint_eq] at hescrow hcounterparty hinitiator hpaid hrest
  exact .cons hescrow hcounterparty hpaid (.cons hescrow hinitiator hrest .nil)

theorem EscrowCall.channelEffect {i : Instruction} {t : Tokens} {e : Escrows}
    (h : EscrowCall rt clock s i t e) :
    ChannelEffect rt clock s k i t (e.paymentChannels k) := by
  cases h with
  | commit | prove | partly | expire | propose => exact .same rfl rfl
  | openChannel free =>
    refine .of_put (fun _ => rfl) ?_
    rintro rfl
    exact .opened rfl free rfl rfl
  | submit party =>
    refine .of_put (fun _ => rfl) ?_
    rintro rfl
    have hlive := isTerminal_of_opened party.live
    exact .noted rfl party.channel rfl hlive hlive rfl
  | dispute party =>
    refine .of_put (fun _ => rfl) ?_
    rintro rfl
    exact .noted rfl party.channel rfl (isTerminal_of_opened party.live) rfl rfl
  | @countersign b n c proposed _ party proposal other amount split =>
    refine .of_put (fun hne => if_neg hne) ?_
    rintro rfl
    have hpayments : channelPayments b.channel s (.call clock (.countersignSettle b n)) =
        settlement n c.initiatorDeposit := by
      rw [← State.channelDeposit_eq party.channel]
      exact if_pos rfl
    refine .paid party.channel rfl (isTerminal_of_opened party.live) rfl rfl ?_ ?_
    · rw [hpayments]
      subst amount
      exact .countersign rfl proposal party.party other split.within
    · rw [hpayments]
      exact split.paidOut
  | @resolve b n c _ channel live agreed split =>
    refine .of_put (fun hne => if_neg hne) ?_
    rintro rfl
    have hpayments : channelPayments b.channel s (.call clock (.resolveDispute b n)) =
        settlement n c.initiatorDeposit := by
      rw [← State.channelDeposit_eq channel]
      exact if_pos rfl
    refine .paid channel rfl (isTerminal_of_disputed live) rfl rfl ?_ ?_
    · rw [hpayments]
      exact .resolve rfl agreed split.within
    · rw [hpayments]
      exact split.paidOut
  | @forceClose b c _ channel initiator live timeout mint_eq escrow target _ paid =>
    refine .of_put (fun hne => if_neg hne) ?_
    rintro rfl
    have hpayments : channelPayments b.channel s (.call clock (.forceClose b)) =
        [⟨.initiator, c.initiatorDeposit⟩] := by
      rw [← State.channelDeposit_eq channel]
      exact if_pos rfl
    rw [mint_eq] at escrow target paid
    refine .paid channel rfl live rfl rfl ?_ ?_
    · rw [hpayments]
      have htimeout : (c.openSlot.saturatingAdd c.timeoutSlots).toNat ≤ clock.slot.toNat := timeout
      rw [UInt64.toNat_saturatingAdd] at htimeout
      exact .forceClose rfl initiator.symm htimeout
    · rw [hpayments]
      exact .cons escrow target paid .nil

/-! ## Proposals -/

/-- Who proposed which amount earlier in a run. -/
def Proposed (rt : Runtime) (s : State) (as : List Action) (k who : Pubkey) (n : UInt64) : Prop :=
  ∃ init clock b tail s' c, as = init ++ .call clock (.proposeSettle b n) :: tail ∧
    Action.exec rt (run rt s init) (.call clock (.proposeSettle b n)) = .ok s' ∧
    b.channel = k ∧ b.party.key = who ∧
    (run rt s init).paymentChannels k = some c ∧ c.HasParty who

theorem Proposed.append {as : List Action} {who : Pubkey} {n : UInt64}
    (h : Proposed rt s as k who n) (bs : List Action) : Proposed rt s (as ++ bs) k who n := by
  obtain ⟨init, clock, b, tail, s', c, rfl, h⟩ := h
  exact ⟨init, clock, b, tail ++ bs, s', c, List.append_assoc .., h⟩

/-- A proposal that is stored was stored before, or a party has just made it. -/
theorem EscrowCall.proposal {i : Instruction} {t : Tokens} {e : Escrows} {p : ProposedSettlement}
    (h : EscrowCall rt clock s i t e) (hp : e.proposedSettlements (.apcSettle k) = some p) :
    s.proposedSettlements (.apcSettle k) = some p ∨
      ∃ b c, i = .proposeSettle b p.amount ∧ b.channel = k ∧ b.party.key = p.proposedBy ∧
        s.paymentChannels k = some c ∧ c.HasParty p.proposedBy := by
  cases h with
  | commit | prove | partly | expire | openChannel | submit | dispute | forceClose | resolve =>
    exact .inl hp
  | @propose b n c party =>
    change put s.proposedSettlements (.apcSettle b.channel) _ (.apcSettle k) = some p at hp
    by_cases hk : Pubkey.apcSettle k = .apcSettle b.channel
    · rw [hk, put_self] at hp
      cases hk
      cases hp
      exact .inr ⟨b, c, rfl, rfl, rfl, party.channel, party.party⟩
    · rw [put_of_ne _ _ hk] at hp
      exact .inl hp
  | @countersign b =>
    change Function.update s.proposedSettlements (.apcSettle b.channel) none (.apcSettle k) =
      some p at hp
    by_cases hk : Pubkey.apcSettle k = .apcSettle b.channel
    · rw [hk, Function.update_self] at hp
      cases hp
    · rw [Function.update_of_ne hk] at hp
      exact .inl hp

theorem exec_proposal {p : ProposedSettlement} (h : Action.exec rt s a = .ok s')
    (hp : s'.proposedSettlements (.apcSettle k) = some p) :
    s.proposedSettlements (.apcSettle k) = some p ∨
      ∃ clock b c, a = .call clock (.proposeSettle b p.amount) ∧ b.channel = k ∧
        b.party.key = p.proposedBy ∧ s.paymentChannels k = some c ∧ c.HasParty p.proposedBy := by
  rcases (exec_step h).escrows with hsame | ⟨clock, i, rfl, hdisburses⟩
  · have hproposals : s'.proposedSettlements = s.proposedSettlements :=
      congrArg Escrows.proposedSettlements hsame
    rw [hproposals] at hp
    exact .inl hp
  · refine (hdisburses.call.proposal hp).imp_right ?_
    rintro ⟨b, c, rfl, hb⟩
    exact ⟨clock, b, c, rfl, hb⟩

/-- What is stored as a proposal had been proposed. -/
theorem run_proposed (as : List Action) {p : ProposedSettlement}
    (hs : s.proposedSettlements (.apcSettle k) = none)
    (hp : (run rt s as).proposedSettlements (.apcSettle k) = some p) :
    Proposed rt s as k p.proposedBy p.amount := by
  induction as using List.reverseRecOn with
  | nil =>
    rw [show run rt s [] = s from rfl, hs] at hp
    cases hp
  | append_singleton as a ih =>
    rw [run, run_append, run_cons, run_nil] at hp
    change (next (Action.exec rt) (run rt s as) a).proposedSettlements _ = _ at hp
    cases hexec : Action.exec rt (run rt s as) a with
    | error e =>
      rw [next_of_error hexec] at hp
      exact (ih hp).append [a]
    | ok s' =>
      rw [next_of_ok hexec] at hp
      rcases exec_proposal hexec hp with hp | ⟨clock, b, c, rfl, hb, hwho, hc, hparty⟩
      · exact (ih hp).append [a]
      · exact ⟨as, clock, b, [], s', c, rfl, hexec, hb, hwho, hc, hparty⟩

/-! ## Runs -/

/-- A transaction that succeeds and pays out of a channel is a call of one of the three
instructions; every transaction is a step of the channel. -/
theorem exec_channelEffect (h : Action.exec rt s a = .ok s') :
    channelPayments k s a = [] ∧ s'.paymentChannels k = s.paymentChannels k ∨
      ∃ clock i, a = .call clock i ∧
        ChannelEffect rt clock s k i s'.tokens (s'.paymentChannels k) := by
  rcases (exec_step h).escrows with hsame | ⟨clock, i, rfl, hdisburses⟩
  · have hchannel : s'.paymentChannels k = s.paymentChannels k :=
      congrFun (congrArg Escrows.paymentChannels hsame) k
    cases a with
    | world w => exact .inl ⟨rfl, hchannel⟩
    | call clock i =>
      cases i with
      | countersignSettle =>
        exact .inr ⟨clock, _, rfl, (countersignSettleHandler_ok h).call.channelEffect⟩
      | resolveDispute =>
        exact .inr ⟨clock, _, rfl, (resolveDisputeHandler_ok h).call.channelEffect⟩
      | forceClose =>
        exact .inr ⟨clock, _, rfl, (forceCloseHandler_ok h).call.channelEffect⟩
      | _ => exact .inl ⟨rfl, hchannel⟩
  · exact .inr ⟨clock, i, rfl, hdisburses.call.channelEffect⟩

theorem apc_models (rt : Runtime) (k : Pubkey) :
    apc.Models (Action.exec rt) (fun s => s.paymentChannels k) (channelPayments k) := by
  intro s s' a h
  rcases exec_channelEffect (k := k) h with ⟨hpayments, hchannel⟩ | ⟨clock, i, rfl, heffect⟩
  · rw [hpayments]
    change apc.Step (s.paymentChannels k) [] (s'.paymentChannels k)
    rw [hchannel]
    exact .refl _
  · exact heffect.step

/-- The instructions of payment channels, on the channel `k`. -/
def Instruction.onChannel (k : Pubkey) : Instruction → Prop
  | .openChannel a p => a.key p = k
  | .submitWorkProof a _ _ => a.channel = k
  | .proposeSettle a _ => a.channel = k
  | .countersignSettle a _ => a.channel = k
  | .dispute a _ => a.channel = k
  | .resolveDispute a _ => a.channel = k
  | .forceClose a => a.channel = k
  | _ => False

/-- They succeed only on a channel that is not closed. -/
theorem EscrowCall.live {i : Instruction} {t : Tokens} {e : Escrows}
    (h : EscrowCall rt clock s i t e) (hon : i.onChannel k) (hc : s.paymentChannels k = some c) :
    c.status.isTerminal = false := by
  cases h with
  | commit | prove | partly | expire => cases hon
  | openChannel free =>
    cases hon
    rw [free] at hc
    cases hc
  | submit party | propose party | dispute party | countersign party =>
    cases hon
    cases party.channel.symm.trans hc
    exact isTerminal_of_opened party.live
  | forceClose channel _ live =>
    cases hon
    cases channel.symm.trans hc
    exact live
  | resolve channel live =>
    cases hon
    cases channel.symm.trans hc
    exact isTerminal_of_disputed live

theorem exec_onChannel {i : Instruction} (hon : i.onChannel k)
    (h : i.exec rt clock s = .ok s') : Disburses rt clock s i s' := by
  cases i with
  | openChannel => exact openChannelHandler_ok h
  | submitWorkProof => exact submitWorkProofHandler_ok h
  | proposeSettle => exact proposeSettleHandler_ok h
  | countersignSettle => exact countersignSettleHandler_ok h
  | dispute => exact disputeHandler_ok h
  | resolveDispute => exact resolveDisputeHandler_ok h
  | forceClose => exact forceCloseHandler_ok h
  | _ => cases hon

theorem refused_of_terminal {i : Instruction} (hon : i.onChannel k)
    (hc : s.paymentChannels k = some c) (hclosed : c.status.isTerminal = true) :
    Refused rt clock s i := by
  apply refused_of_not_ok
  intro s' h
  have hlive := (exec_onChannel hon h).call.live hon hc
  rw [hclosed] at hlive
  cases hlive

/-- The terms that a channel was opened with. -/
structure SameDeal (c c' : PaymentChannel) : Prop where
  initiator : c'.initiator = c.initiator
  counterparty : c'.counterparty = c.counterparty
  stableMint : c'.stableMint = c.stableMint
  initiatorDeposit : c'.initiatorDeposit = c.initiatorDeposit
  openSlot : c'.openSlot = c.openSlot
  timeoutSlots : c'.timeoutSlots = c.timeoutSlots

theorem sameDeal_of_terms (h : apc.terms c' = apc.terms c) : SameDeal c c' where
  initiator := (congrArg PaymentChannel.initiator h :)
  counterparty := (congrArg PaymentChannel.counterparty h :)
  stableMint := (congrArg PaymentChannel.stableMint h :)
  initiatorDeposit := (congrArg PaymentChannel.initiatorDeposit h :)
  openSlot := (congrArg PaymentChannel.openSlot h :)
  timeoutSlots := (congrArg PaymentChannel.timeoutSlots h :)

namespace SameDeal

theorem keyOf (h : SameDeal c c') : c'.keyOf = c.keyOf := by
  funext p
  cases p with
  | initiator => exact h.initiator
  | counterparty => exact h.counterparty

theorem hasParty (h : SameDeal c c') {who : Pubkey} (hparty : c.HasParty who) :
    c'.HasParty who := by
  rw [PaymentChannel.HasParty, h.initiator, h.counterparty]
  exact hparty

theorem agreed (h : SameDeal c c') {b : ResolveDispute} (hagreed : b.Agreed s c) :
    b.Agreed s c' := by
  rw [ResolveDispute.Agreed, h.initiator, h.counterparty, h.stableMint]
  exact hagreed

end SameDeal

theorem ChannelCall.of_same {P Q : Pubkey → UInt64 → Prop} {i : Instruction}
    {ps : List (Payment ChannelRole)} (h : ChannelCall clock s P k c i ps)
    (hsame : SameDeal c c') (hPQ : ∀ who n, P who n → Q who n) :
    ChannelCall clock s Q k c' i ps := by
  cases h with
  | countersign channel proposal party other within =>
    rw [← hsame.initiatorDeposit] at within ⊢
    exact .countersign channel (hPQ _ _ proposal) (hsame.hasParty party) other within
  | resolve channel agreed within =>
    rw [← hsame.initiatorDeposit] at within ⊢
    exact .resolve channel (hsame.agreed agreed) within
  | forceClose channel initiator timeout =>
    rw [← hsame.openSlot, ← hsame.timeoutSlots] at timeout
    rw [← hsame.initiatorDeposit]
    exact .forceClose channel (initiator.trans hsame.initiator.symm) timeout

/-- Who made a proposal for a channel is a party to it. -/
theorem Proposed.hasParty {init tail : List Action} {who : Pubkey} {n : UInt64}
    (h : Proposed rt s init k who n) (hc : (run rt s (init ++ tail)).paymentChannels k = some c) :
    c.HasParty who := by
  obtain ⟨before, clock, b, after, s', c₀, rfl, -, -, -, hc₀, hparty⟩ := h
  obtain ⟨c', hc', hterms⟩ := Payout.terms_run (apc_models rt k)
    (.call clock (.proposeSettle b n) :: (after ++ tail)) hc₀
  rw [List.append_assoc, List.cons_append, run, run_append] at hc
  cases hc'.symm.trans hc
  exact (sameDeal_of_terms hterms).hasParty hparty

/-- What a run has paid out of the channel `k`, which ends as `c`. -/
structure ChannelAccounts (rt : Runtime) (s : State) (as : List Action) (k : Pubkey)
    (c : PaymentChannel) : Prop where
  before : c.status.isTerminal = false →
    history (Action.exec rt) (channelPayments k) s as = []
  whole : c.status.isTerminal = true →
    apc.total (history (Action.exec rt) (channelPayments k) s as) = c.initiatorDeposit.toNat
  once : c.status.isTerminal = true → ∃ init a tail s', as = init ++ a :: tail ∧
    Action.exec rt (run rt s init) a = .ok s' ∧
    history (Action.exec rt) (channelPayments k) s as = channelPayments k (run rt s init) a
  refuses : c.status.isTerminal = true → ∀ clock i, i.onChannel k →
    Refused rt clock (run rt s as) i
  settled : c.status.isTerminal = true → ∀ bs,
    (run rt s (as ++ bs)).paymentChannels k = some c ∧
      history (Action.exec rt) (channelPayments k) s (as ++ bs) =
        history (Action.exec rt) (channelPayments k) s as
  calls : ∀ init a tail s', as = init ++ a :: tail → Action.exec rt (run rt s init) a = .ok s' →
    channelPayments k (run rt s init) a ≠ [] →
    ∃ clock i, a = .call clock i ∧
      ChannelCall clock (run rt s init)
        (fun who n => Proposed rt s init k who n ∧ c.HasParty who) k c i
        (channelPayments k (run rt s init) a) ∧
      PaidOut rt (run rt s init) k c.stableMint c.keyOf (run rt s init).tokens
        (channelPayments k (run rt s init) a) s'.tokens

/-- The deposit of a channel is paid out once: split as one party proposed and the other
countersigned, or as both parties or the authority of the config resolved a dispute, or all to the
initiator after the timeout. -/
theorem apc_conserved (as : List Action) (hs : s.paymentChannels k = none)
    (hproposals : s.proposedSettlements (.apcSettle k) = none)
    (hc : (run rt s as).paymentChannels k = some c) : ChannelAccounts rt s as k c := by
  have hbalanced := Payout.balanced_run (apc_models rt k) as hs
  change apc.Balanced ((run rt s as).paymentChannels k) _ at hbalanced
  rw [hc] at hbalanced
  refine ⟨hbalanced.eq_nil, hbalanced.total_eq, ?_, ?_, ?_, ?_⟩
  · apply Payout.closed_by (apc_models rt k) _ hc
    intro c₀ hc₀
    cases hs.symm.trans hc₀
  · intro hclosed clock i hon
    exact refused_of_terminal hon hc hclosed
  · intro hclosed bs
    obtain ⟨hrun, hhistory⟩ := Payout.closed_run (apc_models rt k) bs hc hclosed
    rw [run, run_append, history_append]
    refine ⟨hrun, ?_⟩
    exact (congrArg _ hhistory).trans (List.append_nil _)
  · rintro init a tail s' rfl hexec hpays
    obtain ⟨c₀, hc₀, -, hterms⟩ := Payout.paid_along (apc_models rt k) hs hexec hpays hc
    have hsame := sameDeal_of_terms hterms
    rcases exec_channelEffect (k := k) hexec with ⟨hnone, -⟩ | ⟨clock, i, rfl, heffect⟩
    · exact absurd hnone hpays
    · cases heffect with
      | same hnone | opened hnone | noted hnone => exact absurd hnone hpays
      | paid stored _ _ _ _ call moved =>
        cases hc₀.symm.trans stored
        rw [← hsame.stableMint, ← hsame.keyOf] at moved
        refine ⟨clock, i, rfl, call.of_same hsame ?_, moved⟩
        intro who n hproposal
        have hproposed := run_proposed init hproposals hproposal
        exact ⟨hproposed, hproposed.hasParty hc⟩

/-- The initiator gets the whole deposit before the timeout is over. -/
def RefundsEarly (rt : Runtime) (clock : Clock) (s : State) (k : Pubkey) (i : Instruction) : Prop :=
  ∃ c s', s.paymentChannels k = some c ∧ i.exec rt clock s = .ok s' ∧
    clock.slot.toNat < c.openSlot.toNat + c.timeoutSlots.toNat ∧
    ⟨.initiator, c.initiatorDeposit⟩ ∈ channelPayments k s (.call clock i)

namespace Market

/-- A token account of the authority, and the escrow of a channel. -/
def authorityStable : Signer := ⟨.key 82, rfl⟩
def channelEscrow : Signer := ⟨.key 83, rfl⟩

def channel : Pubkey := .apcChannel authority.key 1

/-- The authority opens a channel to the other user, with a deposit of 100. -/
def channelled (timeoutSlots : UInt64) : List Action :=
  featured flagAgentPaymentChannel ++
    [ .world (.createAccount authorityStable mint.key authority.key),
      thaw authorityStable,
      .call (day 0) (.mint
        { minter := authority, mint := mint.key
          recipientTokenAccount := authorityStable.key } 100),
      .world (.createAccount channelEscrow mint.key channel),
      thaw channelEscrow,
      .call (day 1) (.openChannel
        { initiator := authority, stableMint := mint.key, escrowTokenAccount := channelEscrow.key
          initiatorTokenAccount := authorityStable.key }
        { counterparty := other.key, deposit := 100, channelId := 1, disputePolicy := 0
          timeoutSlots }) ]

/-- There is a dispute at once. -/
def disputed : List Action :=
  channelled 2160000 ++ [.call (day 1) (.dispute { party := authority, channel } 0)]

/-- Nobody but the authority signs. -/
def takeBack : Instruction :=
  .resolveDispute
    { stableMint := mint.key, escrowTokenAccount := channelEscrow.key
      counterpartyTokenAccount := otherStable.key, initiatorTokenAccount := authorityStable.key
      channel, initiatorSigner := .signed authority, counterpartySigner := .unsigned other.key
      authority := .signed authority } 0

def close : Instruction :=
  .forceClose
    { initiator := authority, channel, stableMint := mint.key
      escrowTokenAccount := channelEscrow.key, initiatorTokenAccount := authorityStable.key }

def lastSlot : Clock := { slot := 2 ^ 64 - 1, epoch := 0, unixTimestamp := 0 }

end Market

theorem RefundsEarly.of_eq {i : Instruction} {x : UInt64 × UInt64 × UInt64}
    (hread : (s.paymentChannels k).map (fun c => (c.openSlot, c.timeoutSlots, c.initiatorDeposit)) =
      some x)
    (h : (i.exec rt clock s).isOk) (hearly : clock.slot.toNat < x.1.toNat + x.2.1.toNat)
    (hpayments : ⟨.initiator, x.2.2⟩ ∈ channelPayments k s (.call clock i)) :
    RefundsEarly rt clock s k i := by
  obtain ⟨c, hc, rfl⟩ := Option.map_eq_some_iff.mp hread
  obtain ⟨s', hs'⟩ := isOk_iff.mp h
  exact ⟨c, s', hc, hs', hearly, hpayments⟩

open Market in
/-- An initiator that is the authority of the config resolves its own dispute; and a timeout beyond
the last slot ends there. -/
theorem initiator_refunded_early :
    RefundsEarly localRuntime (day 2) (run localRuntime genesis disputed) channel takeBack ∧
      RefundsEarly localRuntime lastSlot
        (run localRuntime genesis (channelled (2 ^ 64 - 1))) channel close := by
  constructor
  all_goals
    exact .of_eq (Option.some_get (by decide +kernel)).symm (by decide +kernel)
      (by decide +kernel) (by decide +kernel)

open Market in
theorem taken_back_apc_conserved :
    ∃ c, ChannelAccounts localRuntime genesis (disputed ++ [.call (day 2) takeBack]) channel
      c := by
  have hc : ((run localRuntime genesis (disputed ++ [.call (day 2) takeBack])).paymentChannels
      channel).isSome := by
    decide +kernel
  obtain ⟨c, hc⟩ := Option.isSome_iff_exists.mp hc
  exact ⟨c, apc_conserved _ rfl rfl hc⟩

end SolanaStablecoin
