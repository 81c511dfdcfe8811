import SolanaStablecoin.Verify.Funds
import SolanaStablecoin.Verify.Holdings
import SolanaStablecoin.Verify.Payout

/-! Requests under the redemption guarantee. A request is settled once, by its fulfilment in time or
by its user's claim afterwards, and its escrow pays out then and only then. -/

namespace SolanaStablecoin

open Transition

variable {rt : Runtime} {clock : Clock} {s s' : State} {a : Action} {i : Instruction}
  {M u : Pubkey} {n : UInt64} {rr rr' : RedemptionRequest} {N : Nat}

/-! ## Payments -/

/-- The tokens of a request are burned, or go back to its user. -/
inductive Outlet where
  | burn
  | user
deriving DecidableEq

/-- The request that `u` has made of `M`. -/
def State.redemptionRequest (s : State) (M u : Pubkey) : Option RedemptionRequest :=
  s.redemptionRequests (.redemptionRequest M u)

def State.requestedAmount (s : State) (M u : Pubkey) : UInt64 :=
  (s.redemptionRequest M u).elim 0 (·.amount)

/-- What a transaction pays out of the escrow of that request when it succeeds. -/
def requestPayments (M u : Pubkey) (s : State) : Action → List (Payment Outlet)
  | .call _ (.fulfillRedemption b) =>
    if b.redemptionRequest = .redemptionRequest M u then [⟨.burn, s.requestedAmount M u⟩] else []
  | .call _ (.claimExpiredRedemption b) =>
    if b.config = .stablecoinConfig M ∧ b.user.key = u then [⟨.user, s.requestedAmount M u⟩]
    else []
  | _ => []

/-- What has been paid by the flags of the request. -/
def RedemptionRequest.payments (rr : RedemptionRequest) : List (Payment Outlet) :=
  if rr.fulfilled then [⟨.burn, rr.amount⟩]
  else if rr.slaBreached then [⟨.user, rr.amount⟩]
  else []

/-- The calls that settle a request for `amount`, and what they move: all of it leaves the escrow. A
fulfilment burns it and pays as much collateral; a claim sends it to an account of the user, who
gets it but for what the mint withholds from every transfer. -/
inductive RequestCall (rt : Runtime) (M u : Pubkey) (amount expirySlot : UInt64) (s : State) :
    Action → State → Prop where
  | fulfill {clock : Clock} {b : FulfillRedemption} {t : Tokens} {s' : State}
    (request : b.redemptionRequest = .redemptionRequest M u) (inTime : clock.slot ≤ expirySlot)
    (burned : s.tokens.Burns M (.redemptionEscrow M u) (.redemptionGuarantee M) amount t)
    (left : s.tokens.balance M (.redemptionEscrow M u) =
      t.balance M (.redemptionEscrow M u) + amount.toNat)
    (paid : t.Transfers b.reserveVault b.collateralMint b.userCollateralAta b.fulfiller.key
      amount (rt.token.transferFee t b.collateralMint amount) s'.tokens) :
    RequestCall rt M u amount expirySlot s (.call clock (.fulfillRedemption b)) s'
  | claim {clock : Clock} {b : ClaimExpiredRedemption} {t : Tokens} {s' : State}
    (config : b.config = .stablecoinConfig M) (user : b.user.key = u)
    (late : expirySlot < clock.slot) (target : s.Account b.userStableAta M u)
    (left : s.tokens.balance M (.redemptionEscrow M u) =
      t.balance M (.redemptionEscrow M u) + amount.toNat)
    (returned : t.balance M b.userStableAta + (rt.token.transferFee s.tokens M amount).toNat =
      s.tokens.balance M b.userStableAta + amount.toNat)
    (penalty : s'.tokens = t ∨ ∃ n, 0 < n ∧
      t.Transfers b.insuranceFund b.penaltyMint b.userCollateralAta (.stablecoinConfig M) n
        (rt.token.transferFee t b.penaltyMint n) s'.tokens) :
    RequestCall rt M u amount expirySlot s (.call clock (.claimExpiredRedemption b)) s'

/-- A request as an account that is paid out once. -/
def guarantee : Transition.Payout RedemptionRequest RedemptionRequest (Payment Outlet) where
  closed rr := rr.fulfilled || rr.slaBreached
  terms rr := { rr with fulfilled := false, slaBreached := false }
  held rr := rr.amount.toNat
  amount p := p.amount.toNat
  intact _ := True

/-- What a successful transaction does to the request. -/
inductive RequestStep (rt : Runtime) (M u : Pubkey) (s : State) (a : Action) (s' : State) :
    Prop where
  | kept (idle : requestPayments M u s a = [])
    (request : s'.redemptionRequest M u = s.redemptionRequest M u)
  | opened {rr : RedemptionRequest} (idle : requestPayments M u s a = [])
    (free : s.redemptionRequest M u = none) (stored : s'.redemptionRequest M u = some rr)
    (unfulfilled : rr.fulfilled = false) (unbreached : rr.slaBreached = false)
  | settled {rr rr' : RedemptionRequest} (old : s.redemptionRequest M u = some rr)
    (unfulfilled : rr.fulfilled = false) (unbreached : rr.slaBreached = false)
    (stored : s'.redemptionRequest M u = some rr')
    (flag : rr' = { rr with fulfilled := true } ∨ rr' = { rr with slaBreached := true })
    (payments : requestPayments M u s a = rr'.payments)
    (call : RequestCall rt M u rr.amount rr.expirySlot s a s')

/-! ## The handlers -/

theorem State.redemptionRequest_put {M' u' : Pubkey}
    (h : s'.redemptionRequests = put s.redemptionRequests (.redemptionRequest M' u') rr) :
    s'.redemptionRequest M u = if M' = M ∧ u' = u then some rr else s.redemptionRequest M u := by
  rw [State.redemptionRequest, State.redemptionRequest, h]
  refine put_eq_ite _ _ ⟨fun heq => ?_, fun hkey => by rw [hkey.1, hkey.2]⟩
  obtain ⟨hM, hu⟩ := Pubkey.redemptionRequest.inj heq
  exact ⟨hM.symm, hu.symm⟩

theorem State.requestedAmount_eq (h : s.redemptionRequest M u = some rr) :
    s.requestedAmount M u = rr.amount := by
  rw [requestedAmount, h]
  rfl

/-- The request of `u` for `M` is open. -/
structure OpenRequest (s : State) (M u : Pubkey) (rr : RedemptionRequest) : Prop where
  stored : s.redemptionRequest M u = some rr
  unfulfilled : rr.fulfilled = false
  unbreached : rr.slaBreached = false

structure Fulfilled (rt : Runtime) (clock : Clock) (s : State) (b : FulfillRedemption) (s' : State)
    (M u : Pubkey) (rr : RedemptionRequest) (t : Tokens) : Prop
    extends OpenRequest s M u rr where
  request : b.redemptionRequest = .redemptionRequest M u
  inTime : clock.slot ≤ rr.expirySlot
  burned : s.tokens.Burns M (.redemptionEscrow M u) (.redemptionGuarantee M) rr.amount t
  paid : t.Transfers b.reserveVault b.collateralMint b.userCollateralAta b.fulfiller.key
    rr.amount (rt.token.transferFee t b.collateralMint rr.amount) s'.tokens
  written : s'.redemptionRequests =
    put s.redemptionRequests (.redemptionRequest M u) { rr with fulfilled := true }

structure Claimed (rt : Runtime) (clock : Clock) (s : State) (b : ClaimExpiredRedemption)
    (s' : State) (M : Pubkey) (rr : RedemptionRequest) (t : Tokens) : Prop
    extends OpenRequest s M b.user.key rr where
  config : b.config = .stablecoinConfig M
  late : rr.expirySlot < clock.slot
  target : s.Account b.userStableAta M b.user.key
  apart : Pubkey.redemptionEscrow M b.user.key ≠ b.userStableAta
  returned : s.tokens.Transfers (.redemptionEscrow M b.user.key) M b.userStableAta
    (.redemptionGuarantee M) rr.amount (rt.token.transferFee s.tokens M rr.amount) t
  penalty : s'.tokens = t ∨ ∃ n, 0 < n ∧
    t.Transfers b.insuranceFund b.penaltyMint b.userCollateralAta (.stablecoinConfig M) n
      (rt.token.transferFee t b.penaltyMint n) s'.tokens
  written : s'.redemptionRequests =
    put s.redemptionRequests (.redemptionRequest M b.user.key) { rr with slaBreached := true }

/-- The escrow holds the stablecoin, so nothing else can be burned from it. -/
theorem fulfillRedemptionHandler_fulfilled {b : FulfillRedemption}
    (h : fulfillRedemptionHandler rt clock s b = .ok s') :
    ∃ M u rr t, Fulfilled rt clock s b s' M u rr t := by
  simp only [fulfillRedemptionHandler, bind_eq_ok, require_eq_ok, requireTokenOf_eq_ok,
    loadRequest_eq_ok, Option.okOr_eq_ok, pure_eq_ok] at h
  obtain ⟨c, -, rg, -, rr, ⟨hrr, hkey, hful, hsla⟩, _, ⟨acc, hacc, hmint, -⟩, _, -, -, -, _, -, -,
    -, _, -, _, -, -, hslot, t, hburn, t', hpaid, c', -, rfl⟩ := h
  have hburn := rt.token.burn_ok hburn
  have hstable : b.stableMint = c.mint := by
    obtain ⟨m, acc', -, hacc', hmint', -⟩ := hburn
    rw [hacc] at hacc'
    cases hacc'
    rw [← hmint', hmint]
  rw [hstable] at hburn
  refine ⟨c.mint, rr.user, rr, t, ⟨?_, hful, hsla⟩, hkey, hslot, hburn,
    rt.token.transferChecked_ok hpaid, ?_⟩
  · rw [State.redemptionRequest, ← hkey, hrr]
  · rw [← hkey]

theorem claimExpiredRedemptionHandler_claimed {b : ClaimExpiredRedemption}
    (h : claimExpiredRedemptionHandler rt clock s b = .ok s') :
    ∃ M rr t, Claimed rt clock s b s' M rr t := by
  simp only [claimExpiredRedemptionHandler, bind_eq_ok, require_eq_ok, requireTokenOf_eq_ok,
    loadOwnConfig_eq_ok, loadRequest_eq_ok, Option.okOr_eq_ok, onlyWhen_eq_ok, pure_eq_ok] at h
  obtain ⟨c, ⟨-, hconfig⟩, rg, -, rr, ⟨hrr, -, hful, hsla⟩, _, -, _, ⟨acc, hacc, hmint, howner⟩, _,
    ⟨target, htarget, htmint, htowner⟩, fund, -, _, -, _, -, _, -, _, hslot, _, -, t, hreturn, t',
    hpenalty, rfl⟩ := h
  have hreturn := rt.token.transferChecked_ok hreturn
  have hstable : b.stableMint = c.mint := by
    obtain ⟨m, acc', _, -, hacc', -, hmint', -⟩ := hreturn
    rw [hacc] at hacc'
    cases hacc'
    rw [← hmint', hmint]
  rw [hstable] at hreturn
  refine ⟨c.mint, rr, t, ⟨hrr, hful, hsla⟩, hconfig, hslot, ⟨target, htarget, htmint, htowner⟩, ?_,
    hreturn, ?_, rfl⟩
  · -- the guarantee owns the one and the user the other
    intro heq
    rw [heq, htarget] at hacc
    cases hacc
    have hsign := b.user.canSign
    rw [← htowner, howner] at hsign
    cases hsign
  · rcases hpenalty with ⟨hpos, hpaid⟩ | ⟨-, rfl⟩
    · rw [hconfig] at hpaid
      exact .inr ⟨_, hpos, rt.token.transferChecked_ok hpaid⟩
    · exact .inl rfl

theorem requestRedemptionHandler_step {b : RequestRedemption}
    (h : requestRedemptionHandler rt clock s b n = .ok s') :
    RequestStep rt M u s (.call clock (.requestRedemption b n)) s' := by
  simp only [requestRedemptionHandler, bind_eq_ok, requireFree_eq_ok, pure_eq_ok] at h
  obtain ⟨c, -, rg, -, -, -, -, -, -, hfree, _, -, -, -, -, -, t, -, rfl⟩ := h
  by_cases hkey : c.mint = M ∧ b.user.key = u
  · obtain ⟨rfl, rfl⟩ := hkey
    exact .opened rfl hfree ((State.redemptionRequest_put rfl).trans (if_pos ⟨rfl, rfl⟩)) rfl rfl
  · exact .kept rfl ((State.redemptionRequest_put rfl).trans (if_neg hkey))

theorem Fulfilled.step {b : FulfillRedemption} {M' u' : Pubkey} {t : Tokens}
    (h : Fulfilled rt clock s b s' M' u' rr t) :
    RequestStep rt M u s (.call clock (.fulfillRedemption b)) s' := by
  have hput := State.redemptionRequest_put (M := M) (u := u) h.written
  by_cases hkey : M' = M ∧ u' = u
  · rw [if_pos hkey] at hput
    obtain ⟨rfl, rfl⟩ := hkey
    obtain ⟨hle, hbalance⟩ := h.burned.balance
    refine .settled h.stored h.unfulfilled h.unbreached hput (.inl rfl) ?_
      (.fulfill h.request h.inTime h.burned ?_ h.paid)
    · rw [requestPayments, if_pos h.request, State.requestedAmount_eq h.stored]
      rfl
    · rw [hbalance, if_pos ⟨rfl, rfl⟩]
      omega
  · rw [if_neg hkey] at hput
    refine .kept (if_neg fun hreq => hkey ?_) hput
    exact Pubkey.redemptionRequest.inj (h.request.symm.trans hreq)

theorem Claimed.step {b : ClaimExpiredRedemption} {M' : Pubkey} {t : Tokens}
    (h : Claimed rt clock s b s' M' rr t) :
    RequestStep rt M u s (.call clock (.claimExpiredRedemption b)) s' := by
  have hput := State.redemptionRequest_put (M := M) (u := u) h.written
  by_cases hkey : M' = M ∧ b.user.key = u
  · rw [if_pos hkey] at hput
    obtain ⟨rfl, rfl⟩ := hkey
    obtain ⟨hle, hbalance⟩ := h.returned.balance rt.token.transferFee_le h.apart
    have hfee : rt.token.transferFee s.tokens M' rr.amount ≤ rr.amount := rt.token.transferFee_le
    rw [UInt64.le_iff_toNat_le] at hfee
    refine .settled h.stored h.unfulfilled h.unbreached hput (.inr rfl) ?_
      (.claim h.config rfl h.late h.target ?_ ?_ h.penalty)
    · rw [requestPayments, if_pos ⟨h.config, rfl⟩, State.requestedAmount_eq h.stored,
        RedemptionRequest.payments, h.unfulfilled]
      rfl
    · rw [hbalance, if_neg fun heq => h.apart heq.2, if_pos ⟨rfl, rfl⟩]
      omega
    · rw [hbalance, if_pos ⟨rfl, rfl⟩, if_neg fun heq => h.apart heq.2.symm]
      omega
  · rw [if_neg hkey] at hput
    refine .kept (if_neg fun hreq => hkey ?_) hput
    exact ⟨Pubkey.stablecoinConfig.inj (h.config.symm.trans hreq.1), hreq.2⟩

theorem requestPayments_eq_nil (hi : i.guarantees = false) :
    requestPayments M u s (.call clock i) = [] := by
  cases i with
  | fulfillRedemption | claimExpiredRedemption => cases hi
  | _ => rfl

theorem FundsChange.redemptionRequests (h : FundsChange s (.call clock i) s')
    (hi : i.guarantees = false) : s'.redemptionRequests = s.redemptionRequests := by
  cases h with
  | same h | insured _ h | pooled _ h => exact congrArg Funds.redemptionRequests h
  | guaranteed kind =>
    rw [hi] at kind
    cases kind

theorem exec_requestStep (h : a.exec rt s = .ok s') : RequestStep rt M u s a s' := by
  cases a with
  | world w =>
    obtain ⟨t, p, q, d, rfl⟩ := World.exec_outside h
    exact .kept rfl rfl
  | call clock i =>
    cases hi : i.guarantees with
    | false =>
      refine .kept (requestPayments_eq_nil hi) ?_
      rw [State.redemptionRequest, (Instruction.exec_funds h).redemptionRequests hi]
      rfl
    | true =>
      cases i with
      | registerRedemptionPool b vault limit =>
        change registerRedemptionPoolHandler rt clock s b vault limit = .ok s' at h
        simp only [registerRedemptionPoolHandler, bind_eq_ok, pure_eq_ok] at h
        obtain ⟨c, -, _, -, _, -, rfl⟩ := h
        exact .kept rfl rfl
      | requestRedemption => exact requestRedemptionHandler_step h
      | fulfillRedemption =>
        obtain ⟨M', u', rr, t, hful⟩ := fulfillRedemptionHandler_fulfilled h
        exact hful.step
      | claimExpiredRedemption =>
        obtain ⟨M', rr, t, hclaim⟩ := claimExpiredRedemptionHandler_claimed h
        exact hclaim.step
      | _ => cases hi

/-! ## The escrow -/

/-- The guarantee signs for an escrow only when its request is settled. -/
theorem guarantees_spare (hi : i.guarantees = true) (h : i.exec rt clock s = .ok s')
    (hidle : requestPayments M u s (.call clock i) = [])
    (hk : s.tokens.Holds (.redemptionEscrow M u) M (.redemptionGuarantee M) N)
    (hM : s.tokens.Undelegated M) :
    s'.tokens.Holds (.redemptionEscrow M u) M (.redemptionGuarantee M) N := by
  have hsign (w : Signer) : w.key ≠ .redemptionGuarantee M := by
    intro heq
    have hcan := w.canSign
    rw [heq] at hcan
    cases hcan
  cases i with
  | registerRedemptionPool b vault limit =>
    change registerRedemptionPoolHandler rt clock s b vault limit = .ok s' at h
    simp only [registerRedemptionPoolHandler, bind_eq_ok, pure_eq_ok] at h
    obtain ⟨c, -, _, -, _, -, rfl⟩ := h
    exact hk
  | requestRedemption b n =>
    change requestRedemptionHandler rt clock s b n = .ok s' at h
    simp only [requestRedemptionHandler, bind_eq_ok, Option.okOr_eq_ok, pure_eq_ok] at h
    obtain ⟨c, -, rg, -, _, -, _, -, _, -, _, -, _, -, _, -, t, htransfer, rfl⟩ := h
    exact (rt.token.transferChecked_ok htransfer).holds_of_ne hk (fun _ => hM) (hsign b.user)
  | fulfillRedemption b =>
    obtain ⟨M', u', rr, t, hful⟩ := fulfillRedemptionHandler_fulfilled h
    have hother : Pubkey.redemptionEscrow M' u' ≠ .redemptionEscrow M u := by
      intro heq
      obtain ⟨rfl, rfl⟩ := Pubkey.redemptionEscrow.inj heq
      rw [requestPayments, if_pos hful.request] at hidle
      cases hidle
    have hburned := hful.burned.holds hk (.of_ne hother)
    exact hful.paid.holds_of_ne hburned (fun _ => hful.burned.undelegated hM) (hsign b.fulfiller)
  | claimExpiredRedemption b =>
    obtain ⟨M', rr, t, hclaim⟩ := claimExpiredRedemptionHandler_claimed h
    have hother : Pubkey.redemptionEscrow M' b.user.key ≠ .redemptionEscrow M u := by
      intro heq
      obtain ⟨rfl, rfl⟩ := Pubkey.redemptionEscrow.inj heq
      rw [requestPayments, if_pos ⟨hclaim.config, rfl⟩] at hidle
      cases hidle
    have hreturned := hclaim.returned.holds hk (.of_ne hother)
    rcases hclaim.penalty with hnone | ⟨n, -, hpenalty⟩
    · rwa [hnone]
    · refine hpenalty.holds_of_ne hreturned (fun _ => hM.of_eq hclaim.returned.mints) ?_
      exact Pubkey.noConfusion
  | _ => cases hi

/-! ## Runs -/

theorem RequestStep.guarantee_step (h : RequestStep rt M u s a s') :
    guarantee.Step (s.redemptionRequest M u) (requestPayments M u s a)
      (s'.redemptionRequest M u) := by
  cases h with
  | kept idle request =>
    rw [idle, request]
    exact .refl _
  | @opened rr idle free stored unfulfilled unbreached =>
    rw [idle, free, stored]
    refine .opened ?_ trivial
    change (rr.fulfilled || rr.slaBreached) = false
    rw [unfulfilled, unbreached]
    rfl
  | @settled rr rr' old unfulfilled unbreached stored flag payments call =>
    have hopen : guarantee.closed rr = false := by
      change (rr.fulfilled || rr.slaBreached) = false
      rw [unfulfilled, unbreached]
      rfl
    rw [old, stored, payments]
    rcases flag with rfl | rfl
    · exact .paid hopen rfl (fun _ => Nat.add_zero _) rfl
    · refine .paid hopen (Bool.or_true _) (fun _ => ?_) rfl
      rw [RedemptionRequest.payments, unfulfilled]
      exact Nat.add_zero _

theorem guarantee_models (rt : Runtime) (M u : Pubkey) :
    guarantee.Models (Action.exec rt) (fun s => s.redemptionRequest M u)
      (requestPayments M u) := by
  intro s s' a h
  exact (exec_requestStep h).guarantee_step

/-- At most one flag of the request is set, and it tells what has been paid. -/
inductive Recorded : Option RedemptionRequest → List (Payment Outlet) → Prop where
  | absent : Recorded none []
  | made {rr : RedemptionRequest} (exclusive : ¬ (rr.fulfilled = true ∧ rr.slaBreached = true)) :
    Recorded (some rr) rr.payments

theorem RedemptionRequest.payments_of_open (hful : rr.fulfilled = false)
    (hsla : rr.slaBreached = false) : rr.payments = [] := by
  rw [payments, hful, hsla]
  rfl

theorem Recorded.step {ps : List (Payment Outlet)} (h : Recorded (s.redemptionRequest M u) ps)
    (hstep : RequestStep rt M u s a s') :
    Recorded (s'.redemptionRequest M u) (ps ++ requestPayments M u s a) := by
  cases hstep with
  | kept idle request =>
    rw [idle, List.append_nil, request]
    exact h
  | @opened rr idle free stored unfulfilled unbreached =>
    rw [free] at h
    cases h
    rw [idle, stored, List.append_nil, ← rr.payments_of_open unfulfilled unbreached]
    refine .made fun hboth => ?_
    rw [unfulfilled] at hboth
    cases hboth.1
  | @settled rr rr' old unfulfilled unbreached stored flag payments call =>
    rw [old] at h
    cases h with
    | made =>
      rw [rr.payments_of_open unfulfilled unbreached, List.nil_append, payments, stored]
      refine .made fun hboth => ?_
      rcases flag with rfl | rfl
      · rw [unbreached] at hboth
        cases hboth.2
      · rw [unfulfilled] at hboth
        cases hboth.1

theorem run_recorded (as : List Action) (hs : s.redemptionRequest M u = none) :
    Recorded ((run rt s as).redemptionRequest M u)
      (history (Action.exec rt) (requestPayments M u) s as) := by
  have hnone : Recorded (s.redemptionRequest M u) [] := hs ▸ Recorded.absent
  exact invariant_history (I := fun s ps => Recorded (s.redemptionRequest M u) ps)
    (P := fun _ _ => True) (h := []) (fun hi _ hexec => hi.step (exec_requestStep hexec)) hnone
    (along_of_forall fun _ _ _ => trivial)

/-- What a run has done about the request that ends as `rr`. -/
structure RequestAccounts (rt : Runtime) (s : State) (as : List Action) (M u : Pubkey)
    (rr : RedemptionRequest) : Prop where
  exclusive : ¬ (rr.fulfilled = true ∧ rr.slaBreached = true)
  paid : history (Action.exec rt) (requestPayments M u) s as = rr.payments
  settled : rr.fulfilled = true ∨ rr.slaBreached = true → ∀ bs,
    (run rt s (as ++ bs)).redemptionRequest M u = some rr ∧
      history (Action.exec rt) (requestPayments M u) s (as ++ bs) =
        history (Action.exec rt) (requestPayments M u) s as
  calls : ∀ init a tail s', as = init ++ a :: tail → a.exec rt (run rt s init) = .ok s' →
    requestPayments M u (run rt s init) a ≠ [] →
    RequestCall rt M u rr.amount rr.expirySlot (run rt s init) a s'
  spared : ∀ init clock i tail s', as = init ++ .call clock i :: tail → i.guarantees = true →
    i.exec rt clock (run rt s init) = .ok s' →
    requestPayments M u (run rt s init) (.call clock i) = [] →
    (run rt s init).tokens.Undelegated M → ∀ N,
    (run rt s init).tokens.Holds (.redemptionEscrow M u) M (.redemptionGuarantee M) N →
    s'.tokens.Holds (.redemptionEscrow M u) M (.redemptionGuarantee M) N

/-- A request is settled at most once, in time by a fulfilment or afterwards by a claim, and only
then its escrow pays, all that was requested. -/
theorem redemption_guarantee_settles (as : List Action) (hs : s.redemptionRequest M u = none)
    (hrr : (run rt s as).redemptionRequest M u = some rr) : RequestAccounts rt s as M u rr := by
  have hrecorded : Recorded ((run rt s as).redemptionRequest M u)
      (history (Action.exec rt) (requestPayments M u) s as) := run_recorded as hs
  have hpaid : ¬ (rr.fulfilled = true ∧ rr.slaBreached = true) ∧
      history (Action.exec rt) (requestPayments M u) s as = rr.payments := by
    rw [hrr] at hrecorded
    generalize history (Action.exec rt) (requestPayments M u) s as = ps at hrecorded
    cases hrecorded with
    | made hexclusive => exact ⟨hexclusive, rfl⟩
  refine ⟨hpaid.1, hpaid.2, fun hsettled bs => ?_, ?_, ?_⟩
  · have hclosed : guarantee.closed rr = true := Bool.or_eq_true_iff.mpr hsettled
    obtain ⟨hrun, hhistory⟩ := Payout.closed_run (guarantee_models rt M u) bs hrr hclosed
    rw [run, run_append, history_append]
    exact ⟨hrun, (congrArg _ hhistory).trans (List.append_nil _)⟩
  · rintro init a tail s' rfl hexec hpays
    obtain ⟨rr₀, hrr₀, -, hterms⟩ :=
      Payout.paid_along (guarantee_models rt M u) hs hexec hpays hrr
    cases exec_requestStep (M := M) (u := u) hexec with
    | kept idle | opened idle => exact absurd idle hpays
    | settled old _ _ _ _ _ call =>
      cases old.symm.trans hrr₀
      have hamount : rr.amount = rr₀.amount := (congrArg RedemptionRequest.amount hterms :)
      have hexpiry : rr.expirySlot = rr₀.expirySlot :=
        (congrArg RedemptionRequest.expirySlot hterms :)
      rwa [hamount, hexpiry]
  · intro init clock i tail s' _ hi hexec hidle hM N hk
    exact guarantees_spare hi hexec hidle hk hM

namespace Market

/-- The user has a loan, and an escrow account for a redemption, which no instruction opens. -/
def escrowed : State :=
  let s := run localRuntime genesis (funded 1000)
  { s with
    tokens := s.tokens.setAccount (.redemptionEscrow mint.key user.key)
      { mint := mint.key, owner := .redemptionGuarantee mint.key, amount := 0, delegate := none
        delegatedAmount := 0, frozen := false } }

/-- The user requests 10 and is paid in time. -/
def guaranteed : List Action :=
  [ .call (day 1) (.registerRedemptionPool { authority, config } userGold.key 100),
    .call (day 1) (.requestRedemption
      { user, config, userStableAta := userStable.key, stableMint := mint.key } 10),
    .call (day 1) (.fulfillRedemption
      { fulfiller := user, config, redemptionRequest := .redemptionRequest mint.key user.key
        reserveVault := userGold.key, userCollateralAta := goldAccount.key
        burnDestination := userStable.key, stableMint := mint.key
        collateralMint := gold.key }) ]

end Market

open Market in
theorem redemption_guarantee_settles_guaranteed : ∃ rr, rr.fulfilled = true ∧ rr.amount = 10 ∧
    RequestAccounts localRuntime escrowed guaranteed mint.key user.key rr := by
  have hrun : ((run localRuntime escrowed guaranteed).redemptionRequest mint.key user.key).map
      (fun rr => (rr.fulfilled, rr.amount)) = some (true, 10) := by decide +kernel
  obtain ⟨rr, hrr, heq⟩ := Option.map_eq_some_iff.mp hrun
  obtain ⟨hful, hamount⟩ := Prod.mk.inj heq
  exact ⟨rr, hful, hamount, redemption_guarantee_settles guaranteed rfl hrr⟩

end SolanaStablecoin
