import SolanaStablecoin.Verify.Solvency

/-! What is owed can be taken back. No check of the program, no flag, no pause and no authority
stands between a user and what waits in escrow: in every state that a run reaches, the call that
returns it fails only if the token program refuses the transfer. -/

namespace SolanaStablecoin

open Transition

variable {rt : Runtime} {clock : Clock} {s s' : State} {a : Action} {k M : Pubkey} {i : UInt64}

/-! ## The queue stays open -/

/-- The config and the queue of `M` are there and name `M`. -/
structure State.QueueOpen (s : State) (M : Pubkey) : Prop where
  config : ∃ c, s.configs (.stablecoinConfig M) = some c ∧ c.mint = M
  queue : ∃ rq, s.redemptionQueues (.redemptionQueue M) = some rq ∧ rq.sssMint = M

theorem RedemptionQueue.rollSlot_sssMint (rq : RedemptionQueue) (slot : UInt64) :
    (rq.rollSlot slot).sssMint = rq.sssMint := by
  unfold rollSlot
  split
  · rfl
  · rfl

/-- A queue stays, and is the queue of the same mint. -/
theorem exec_sssMint {rq : RedemptionQueue} (h : Action.exec rt s a = .ok s')
    (hrq : s.redemptionQueues k = some rq) :
    ∃ rq', s'.redemptionQueues k = some rq' ∧ rq'.sssMint = rq.sssMint := by
  have of_put {k₀ : Pubkey} {rq₀ rq₁ : RedemptionQueue} (hrq₀ : s.redemptionQueues k₀ = some rq₀)
      (hmint : rq₁.sssMint = rq₀.sssMint) :
      ∃ rq', put s.redemptionQueues k₀ rq₁ k = some rq' ∧ rq'.sssMint = rq.sssMint := by
    by_cases hk : k = k₀
    · subst hk
      cases hrq.symm.trans hrq₀
      exact ⟨rq₁, put_self .., hmint⟩
    · exact ⟨rq, by rw [put_of_ne _ _ hk, hrq], rfl⟩
  cases hkind : a.isQueue with
  | false =>
    rw [((exec_step h).queues hkind).1]
    exact ⟨rq, hrq, rfl⟩
  | true =>
    cases a with
    | world w => cases hkind
    | call clock j =>
      cases j with
      | initRedemptionQueue b =>
        obtain ⟨c, rq', hset⟩ := initRedemptionQueueHandler_ok h
        rw [hset.queues]
        cases hset.requeues with
        | init free =>
          refine ⟨rq, ?_, rfl⟩
          rw [put_of_ne, hrq]
          rintro rfl
          rw [free] at hrq
          cases hrq
      | updateRedemptionQueue b =>
        have h' : updateRedemptionQueueHandler s b _ _ _ _ = .ok s' := h
        simp only [updateRedemptionQueueHandler, bind_eq_ok, loadQueue_eq_ok, pure_eq_ok] at h'
        obtain ⟨c, -, rq', ⟨hrq', -⟩, _, -, _, -, rfl⟩ := h'
        exact of_put hrq' rfl
      | enqueueRedemption b n =>
        obtain ⟨c, rq', henq⟩ := enqueueRedemptionHandler_ok h
        rw [henq.queues]
        exact of_put henq.queue rfl
      | processRedemption b j =>
        have h' : processRedemptionHandler rt clock s b j = .ok s' := h
        simp only [processRedemptionHandler, bind_eq_ok, loadQueue_eq_ok, pure_eq_ok] at h'
        obtain ⟨c, -, _, -, rq', ⟨hrq', -⟩, _, -, _, -, _, -, _, -, _, -, _, -, _, -, _, -, _, -, _,
          -, _, -, _, -, _, -, rfl⟩ := h'
        exact of_put hrq' (rq'.rollSlot_sssMint _)
      | cancelRedemption b j =>
        obtain ⟨c, rq', re, hr⟩ := cancelRedemptionHandler_ok h
        rw [hr.queues]
        exact of_put hr.queue rfl
      | compactRedemptionHead config j =>
        obtain ⟨c, rq', hset⟩ := compactRedemptionHeadHandler_ok h
        rw [hset.queues]
        cases hset.requeues with
        | compact queue => exact of_put queue rfl
      | _ => cases hkind

theorem State.QueueOpen.exec (hs : s.QueueOpen M) (h : Action.exec rt s a = .ok s') :
    s'.QueueOpen M where
  config := by
    obtain ⟨c, hc, hmint⟩ := hs.config
    obtain ⟨c', hc', hsucc⟩ := exec_succeeds h hc
    exact ⟨c', hc', (congrArg Charter.mint hsucc.charter).trans hmint⟩
  queue := by
    obtain ⟨rq, hrq, hmint⟩ := hs.queue
    obtain ⟨rq', hrq', hsame⟩ := exec_sssMint h hrq
    exact ⟨rq', hrq', hsame.trans hmint⟩

/-- Every entry has its queue. -/
def State.Enlisted (s : State) : Prop :=
  ∀ M i re, s.redemptionEntries (.redemptionEntry M i) = some re → s.QueueOpen M

theorem State.Enlisted.exec (hs : s.Enlisted) (h : Action.exec rt s a = .ok s') :
    s'.Enlisted := by
  intro M i re hre
  suffices hopen : (∃ re, s.redemptionEntries (.redemptionEntry M i) = some re) ∨
      s.QueueOpen M by
    rcases hopen with ⟨re, hre⟩ | hopen
    · exact (hs M i re hre).exec h
    · exact hopen.exec h
  cases exec_queue h with
  | requeue hset => exact .inl ⟨re, by rw [← hset.entries, hre]⟩
  | @enqueue clock b n _ c rq henq =>
    obtain ⟨re', hput, -⟩ := henq.entries
    rw [hput] at hre
    rcases put_eq_some.mp hre with ⟨heq, -⟩ | ⟨-, hre⟩
    · obtain ⟨rfl, -⟩ := Pubkey.redemptionEntry.inj heq
      have h' : enqueueRedemptionHandler rt clock s b n = .ok s' := h
      simp only [enqueueRedemptionHandler, bind_eq_ok, loadOwnConfig_eq_ok, loadQueue_eq_ok] at h'
      obtain ⟨c', ⟨hc', -⟩, _, -, rq', ⟨hrq', hmint⟩, -⟩ := h'
      cases henq.config.symm.trans hc'
      exact .inr ⟨⟨c, by rw [← henq.key, hc'], rfl⟩, rq', hrq', hmint⟩
    · exact .inl ⟨re, hre⟩
  | process _ hp =>
    rw [hp.entries] at hre
    rcases put_eq_some.mp hre with ⟨heq, -⟩ | ⟨-, hre⟩
    · exact .inl ⟨_, heq ▸ hp.entry⟩
    · exact .inl ⟨re, hre⟩
  | refund hr =>
    rw [hr.entries] at hre
    rcases put_eq_some.mp hre with ⟨heq, -⟩ | ⟨-, hre⟩
    · exact .inl ⟨_, heq ▸ hr.entry⟩
    · exact .inl ⟨re, hre⟩
  | other _ _ hentries => exact .inl ⟨re, by rw [← hentries, hre]⟩

/-! ## The calls that return it -/

theorem Tokens.Simple.load (h : s.tokens.Simple M) :
    ∃ m, SolanaStablecoin.load s.tokens.mints M = .ok m := by
  obtain ⟨m, hm, -⟩ := h
  exact ⟨m, load_eq_ok.mpr hm⟩

theorem Tokens.Holds.requireTokenAccount {T o : Pubkey} {N : Nat} (h : s.tokens.Holds k T o N) :
    SolanaStablecoin.requireTokenAccount s k T o = .ok () := by
  obtain ⟨b, hb, hmint, howner, -⟩ := h
  exact requireTokenAccount_eq_ok.mpr ⟨b, hb, hmint, howner⟩

/-- Anybody sends what is left of an expired vault back to an account of its issuer. -/
structure ExpireAndRefund.Ready (b : ExpireAndRefund) (s : State) (clock : Clock)
    (k escrow : Pubkey) (v : ProbabilisticVault) : Prop where
  vault : b.vault = k
  mint : b.stableMint = v.stableMint
  escrow : b.escrowTokenAccount = escrow
  issuer : s.Account b.issuerTokenAccount v.stableMint v.issuer
  expired : v.expirySlot ≤ clock.slot

/-- The initiator closes a channel whose time is up. -/
structure ForceClose.Ready (b : ForceClose) (s : State) (clock : Clock) (k escrow : Pubkey)
    (c : PaymentChannel) : Prop where
  channel : b.channel = k
  initiator : b.initiator.key = c.initiator
  mint : b.stableMint = c.stableMint
  escrow : b.escrowTokenAccount = escrow
  account : s.Account b.initiatorTokenAccount c.stableMint c.initiator
  timeout : c.openSlot.saturatingAdd c.timeoutSlots ≤ clock.slot

/-- The owner of an entry cancels it. -/
structure CancelRedemption.Ready (b : CancelRedemption) (s : State) (M T : Pubkey)
    (re : RedemptionEntry) : Prop where
  config : b.config = .stablecoinConfig M
  owner : b.owner.key = re.owner
  mint : b.stableMint = T
  account : s.Account b.userStableAta T re.owner

end SolanaStablecoin
