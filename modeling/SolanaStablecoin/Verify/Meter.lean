import SolanaStablecoin.Verify.RateLimit

/-! What the limit of a wallet has counted, and who answers for it. A transfer that passes the hook
does, and so does an update that the authority signs. The update asks for the address of the hook
besides and not for its signature, so that anybody may write it down; and the hook itself may be
called without a transfer. -/

namespace SolanaStablecoin

open Transition TransferHook

/-- A transaction of the programs, or a transfer that the token program carries out with the call of
the hook. -/
inductive Event where
  | act (a : Action)
  | transfer (clock : Clock) (authority : Signer) (src mint dst : Pubkey) (n : UInt64)

def Event.exec (rt : Runtime) (s : State) : Event → Result State
  | act a => a.exec rt s
  | transfer clock authority src mint dst n =>
    executeTransfer rt clock s src mint dst authority.key n

/-- What the limit of `w` has counted in its window. -/
def State.counted (s : State) (M w : Pubkey) : Nat :=
  ((s.walletRateLimits (.walletRateLimit M w)).map (·.transferredThisWindow.toNat)).getD 0

/-- The amounts that somebody answers for: those of a transfer for `w`, and those that the authority
signs. -/
def vouched (M w : Pubkey) (s : State) : Event → List Nat
  | .transfer _ _ src mint _ n => if mint = M ∧ s.ownerOf src = some w then [n.toNat] else []
  | .act (.call _ (.updateWalletRateLimit b w' n)) =>
    if b.mint = M ∧ w' = w ∧ b.isSigner = true ∧
        (s.configs (.stablecoinConfig M)).map (·.authority) = some b.caller then [n.toNat]
    else []
  | .act _ => []

/-- The count rises by no more than what is answered for. -/
def Accounted (rt : Runtime) (M w : Pubkey) (s : State) (e : Event) : Prop :=
  (next (Event.exec rt) s e).counted M w ≤ s.counted M w + (vouched M w s e).sum

/-- Counting `n` now makes the count larger than it is. At the end of a window that takes more than
the window has counted, and any positive amount otherwise. -/
def WalletRateLimit.Grows (r : WalletRateLimit) (slot n : UInt64) : Prop :=
  if slot ≥ r.windowStartSlot.saturatingAdd r.windowSlots then r.transferredThisWindow < n
  else 0 < n

/-- A call that draws on the limit of `w` with nobody to answer for it. -/
inductive Forged (M w : Pubkey) (s : State) : Event → Prop where
  | update {clock : Clock} {b : UpdateWalletRateLimit} {n : UInt64} {c : StablecoinConfig}
    {r : WalletRateLimit} (mint : b.mint = M) (config : s.configs (.stablecoinConfig M) = some c)
    (caller : b.caller ≠ c.authority)
    (record : s.walletRateLimits (.walletRateLimit M w) = some r) (grows : r.Grows clock.slot n) :
    Forged M w s (.act (.call clock (.updateWalletRateLimit b w n)))
  | hook {clock : Clock} {a : TransferHook} {n : UInt64} {c : StablecoinConfig}
    {r : WalletRateLimit} (mint : a.mint = M) (source : s.ownerOf a.sourceTokenAccount = some w)
    (config : s.configs (.stablecoinConfig M) = some c)
    (flag : c.featureFlags &&& flagWalletRateLimits ≠ 0)
    (record : s.walletRateLimits (.walletRateLimit M w) = some r) (grows : r.Grows clock.slot n) :
    Forged M w s (.act (.call clock (.transferHook a n)))

variable {rt : Runtime} {clock : Clock} {s s' : State} {r r' : WalletRateLimit} {slot n : UInt64}
  {M w : Pubkey} {e : Event}

/-! ## Counting -/

theorem State.counted_of_record (h : s.walletRateLimits (.walletRateLimit M w) = some r) :
    s.counted M w = r.transferredThisWindow.toNat := by
  simp [counted, h]

theorem State.counted_congr (h : s'.walletRateLimits (.walletRateLimit M w) =
    s.walletRateLimits (.walletRateLimit M w)) : s'.counted M w = s.counted M w := by
  rw [counted, h, counted]

theorem State.counted_put {m k : Pubkey} (h : ¬ (m = M ∧ k = w)) :
    { s with walletRateLimits := put s.walletRateLimits (.walletRateLimit m k) r }.counted M w =
      s.counted M w := by
  refine counted_congr (put_of_ne _ _ ?_)
  intro heq
  cases heq
  exact h ⟨rfl, rfl⟩

theorem State.counted_put_self :
    { s with walletRateLimits := put s.walletRateLimits (.walletRateLimit M w) r }.counted M w =
      r.transferredThisWindow.toNat :=
  counted_of_record (put_self ..)

/-- What an admitted amount does to the count. -/
theorem WalletRateLimit.Admits.counts (h : r.Admits slot n r') :
    r'.transferredThisWindow.toNat ≤ r.transferredThisWindow.toNat + n.toNat ∧
      (r'.transferredThisWindow.toNat ≤ r.transferredThisWindow.toNat ↔ ¬ r.Grows slot n) := by
  obtain ⟨x, hx, -, rfl⟩ := h
  rw [hx, roll, Grows]
  split
  next =>
    rw [UInt64.lt_iff_toNat_lt]
    simp
  next =>
    rw [UInt64.lt_iff_toNat_lt]
    simp

/-! ## One event -/

theorem MonitorsChange.limits {i : Instruction} (h : MonitorsChange s (.call clock i) s')
    (hm : i.meters = false) : s'.walletRateLimits = s.walletRateLimits := by
  cases h with
  | same h => exact congrArg Monitors.walletRateLimits h
  | cranked _ h => exact congrArg Monitors.walletRateLimits h
  | agreed _ h => exact congrArg Monitors.walletRateLimits h
  | metered kind => exact absurd kind (by rw [hm]; decide)

/-- A forged draw is one of the two calls that count. -/
theorem Forged.meters {i : Instruction} (h : Forged M w s (.act (.call clock i))) :
    i.meters = true := by
  cases h with
  | update => rfl
  | hook => rfl

theorem updateWalletRateLimitHandler_counted {b : UpdateWalletRateLimit} {k : Pubkey}
    (h : updateWalletRateLimitHandler clock s b k n = .ok s') :
    s'.counted M w ≤ s.counted M w +
        (vouched M w s (.act (.call clock (.updateWalletRateLimit b k n)))).sum ↔
      ¬ Forged M w s (.act (.call clock (.updateWalletRateLimit b k n))) := by
  obtain ⟨c, r, r', hc, -, -, hr, -, hsigned, hadmits, rfl⟩ :=
    updateWalletRateLimitHandler_eq_ok.mp h
  obtain ⟨hle, hgrows⟩ := hadmits.counts
  by_cases hkey : b.mint = M ∧ k = w
  · obtain ⟨rfl, rfl⟩ := hkey
    rw [State.counted_put_self, State.counted_of_record hr]
    by_cases hcaller : b.caller = c.authority
    · have hvouched : vouched b.mint k s (.act (.call clock (.updateWalletRateLimit b k n))) =
          [n.toNat] := by
        rw [vouched, if_pos ⟨rfl, rfl, hsigned hcaller, by rw [hc, hcaller]; rfl⟩]
      rw [hvouched]
      refine iff_of_true (by simpa using hle) ?_
      intro hforged
      cases hforged with
      | update _ hc' hother =>
        cases hc.symm.trans hc'
        exact hother hcaller
    · have hvouched : vouched b.mint k s (.act (.call clock (.updateWalletRateLimit b k n))) =
          [] := by
        rw [vouched, if_neg]
        rintro ⟨-, -, -, hauthority⟩
        rw [hc] at hauthority
        exact hcaller (Option.some.inj hauthority).symm
      rw [hvouched, List.sum_nil, Nat.add_zero, hgrows]
      refine not_congr ⟨fun hg => .update rfl hc hcaller hr hg, fun hforged => ?_⟩
      cases hforged with
      | update _ _ _ hr' hg =>
        cases hr.symm.trans hr'
        exact hg
  · rw [State.counted_put hkey]
    refine iff_of_true (Nat.le_add_right ..) ?_
    intro hforged
    cases hforged with
    | update hmint => exact hkey ⟨hmint, rfl⟩

theorem transferHookHandler_counted {a : TransferHook}
    (h : transferHookHandler clock s a n = .ok s') :
    s'.counted M w ≤ s.counted M w ↔ ¬ Forged M w s (.act (.call clock (.transferHook a n))) := by
  obtain ⟨c, bl, src, dst, remaining, hcomplies, -, hdraws⟩ := transferHookHandler_eq_ok.mp h
  cases hdraws with
  | unlimited hflag =>
    refine iff_of_true (Nat.le_refl _) ?_
    intro hforged
    cases hforged with
    | hook hmint _ hc' hflag' =>
      cases hmint
      cases hcomplies.config.symm.trans hc'
      exact hflag' hflag
  | limited hflag hwithin =>
    obtain ⟨-, r, -, -, -, -, -, hr, -, hadmits⟩ := hwithin
    by_cases hkey : a.mint = M ∧ src = w
    · obtain ⟨rfl, rfl⟩ := hkey
      rw [State.counted_put_self, State.counted_of_record hr, hadmits.counts.2]
      refine not_congr
        ⟨fun hg => .hook rfl hcomplies.source hcomplies.config hflag hr hg, fun hforged => ?_⟩
      cases hforged with
      | hook _ _ _ _ hr' hg =>
        cases hr.symm.trans hr'
        exact hg
    · rw [State.counted_put hkey]
      refine iff_of_true (Nat.le_refl _) ?_
      intro hforged
      cases hforged with
      | hook hmint hsource =>
        exact hkey ⟨hmint, Option.some.inj (hcomplies.source.symm.trans hsource)⟩

/-- The owner that an account records does not change with its amount. -/
def Tokens.SameOwners (t t' : Tokens) : Prop :=
  ∀ k, (t'.accounts k).map (·.owner) = (t.accounts k).map (·.owner)

theorem Tokens.SameOwners.setAccount {t : Tokens} {k : Pubkey} {acc acc' : TokenAccount}
    (hacc : t.accounts k = some acc) (h : acc'.owner = acc.owner) :
    t.SameOwners (t.setAccount k acc') := by
  intro k'
  rw [setAccount_accounts]
  by_cases hk : k' = k
  · rw [hk, put_self, hacc, Option.map_some, Option.map_some, h]
  · rw [put_of_ne _ _ hk]

theorem Tokens.Transfers.sameOwners {t t' : Tokens} {src mint dst authority : Pubkey}
    {fee : UInt64} (h : t.Transfers src mint dst authority n fee t') : t.SameOwners t' := by
  obtain ⟨m, acc, acc', -, hsrc, hdst, -, -, -, -, -, -, -, rfl⟩ := h
  split
  next => exact fun _ => rfl
  next hne =>
    have hdebit := SameOwners.setAccount hsrc (acc.debit_owner m authority n)
    have hdst' : (t.setAccount src (acc.debit m authority n)).accounts dst = some acc' :=
      (put_of_ne _ _ (Ne.symm hne)).trans hdst
    have hcredit := SameOwners.setAccount hdst'
      (show (acc'.credit (n - fee)).owner = acc'.owner from rfl)
    exact fun k => (hcredit k).trans (hdebit k)

theorem TokenAccount.read_owner_data (acc : TokenAccount) :
    (if 64 ≤ acc.data.length then Cell.key.read acc.data 32 else none) = some acc.owner := by
  have hlen : 64 ≤ acc.data.length := by
    simp [data, fields]
    omega
  rw [if_pos hlen, acc.read_owner]

theorem State.ownerOf_tokens {t : Tokens} (h : s.tokens.SameOwners t) (k : Pubkey) :
    { s with tokens := t }.ownerOf k = s.ownerOf k := by
  have hk := h k
  cases hacc : s.tokens.accounts k with
  | none =>
    rw [hacc, Option.map_none, Option.map_eq_none_iff] at hk
    simp only [ownerOf, data, hacc, hk]
  | some acc =>
    rw [hacc, Option.map_some, Option.map_eq_some_iff] at hk
    obtain ⟨acc', hacc', howner⟩ := hk
    cases k
    all_goals first
      | rfl
      | simp [ownerOf, data, hacc, hacc', TokenAccount.read_owner_data, howner]

/-- The hook is called for the transfer. -/
theorem hookCall_of_some {src mint dst owner : Pubkey} {a : TransferHook}
    (h : hookCall s src mint dst owner = some a) :
    a.sourceTokenAccount = src ∧ a.mint = mint := by
  simp only [hookCall, Option.bind_eq_bind, Option.bind_eq_some_iff, Option.pure_def,
    Option.some.injEq] at h
  obtain ⟨metas, -, extras, -, rfl⟩ := h
  exact ⟨rfl, rfl⟩

/-- Of the transfers of the token program only those of the wallet count for it. -/
theorem executeTransfer_counted {src mint dst authority : Pubkey}
    (h : executeTransfer rt clock s src mint dst authority n = .ok s') :
    s'.counted M w ≤ s.counted M w +
      (if mint = M ∧ s.ownerOf src = some w then [n.toNat] else []).sum := by
  simp only [executeTransfer, bind_eq_ok, load_eq_ok, Option.okOr_eq_ok] at h
  obtain ⟨m, -, t, ht, h⟩ := h
  have howner := State.ownerOf_tokens (rt.token.transferChecked_ok ht).sameOwners src
  split at h
  next =>
    simp only [bind_eq_ok, Option.okOr_eq_ok] at h
    obtain ⟨a, ha, h⟩ := h
    obtain ⟨hsource, hmint⟩ := hookCall_of_some ha
    obtain ⟨c, bl, w', _, _, hcomplies, -, hdraws⟩ := transferHookHandler_eq_ok.mp h
    cases hdraws with
    | unlimited => exact Nat.le_add_right ..
    | limited _ hwithin =>
      obtain ⟨-, r, -, -, -, -, -, hr, -, hadmits⟩ := hwithin
      have hsrc := hcomplies.source
      rw [hsource, howner] at hsrc
      rw [hmint] at hr ⊢
      by_cases hkey : mint = M ∧ w' = w
      · obtain ⟨rfl, rfl⟩ := hkey
        have hcount : s.counted mint w' = r.transferredThisWindow.toNat :=
          State.counted_of_record hr
        rw [if_pos ⟨rfl, hsrc⟩, State.counted_put_self, hcount]
        simpa using hadmits.counts.1
      · rw [State.counted_put hkey]
        exact Nat.le_add_right ..
  next =>
    cases h
    exact Nat.le_add_right ..

theorem setWalletRateLimitHandler_counted {b : AuthorityAndMint} {p : SetWalletRateLimitParams}
    (h : setWalletRateLimitHandler rt s b p = .ok s') : s'.counted M w ≤ s.counted M w := by
  simp [setWalletRateLimitHandler] at h
  obtain ⟨c, -, -, -, -, -, rfl⟩ := h
  by_cases hkey : b.mint = M ∧ p.wallet = w
  · obtain ⟨rfl, rfl⟩ := hkey
    rw [State.counted_put_self]
    exact Nat.zero_le _
  · rw [State.counted_put hkey]

theorem removeWalletRateLimitHandler_counted {b : AuthorityAndMint} {k : Pubkey}
    (h : removeWalletRateLimitHandler s b k = .ok s') : s'.counted M w ≤ s.counted M w := by
  simp [removeWalletRateLimitHandler] at h
  obtain ⟨c, -, -, -, rfl⟩ := h
  by_cases hkey : Pubkey.walletRateLimit M w = .walletRateLimit b.mint k
  · simp [State.counted, hkey]
  · exact Nat.le_of_eq (State.counted_congr (Function.update_of_ne hkey ..))

/-- A successful event is accounted for exactly if it is not forged. -/
theorem Event.exec_counted (h : e.exec rt s = .ok s') :
    s'.counted M w ≤ s.counted M w + (vouched M w s e).sum ↔ ¬ Forged M w s e := by
  cases e with
  | transfer clock authority src mint dst n =>
    exact iff_of_true (executeTransfer_counted h) (fun hforged => nomatch hforged)
  | act a =>
    cases a with
    | world o =>
      obtain ⟨t, p, q, d, rfl⟩ := World.exec_outside h
      exact iff_of_true (Nat.le_add_right ..) (fun hforged => nomatch hforged)
    | call clock i =>
      cases hmeters : i.meters with
      | false =>
        have hsame := (Instruction.exec_monitors h).limits hmeters
        refine iff_of_true ?_ fun hforged => ?_
        · rw [State.counted_congr (congrFun hsame _)]
          exact Nat.le_add_right ..
        · rw [hforged.meters] at hmeters
          cases hmeters
      | true =>
        cases i
        case updateWalletRateLimit => exact updateWalletRateLimitHandler_counted h
        case transferHook => exact transferHookHandler_counted h
        case setWalletRateLimit =>
          exact iff_of_true (setWalletRateLimitHandler_counted h)
            (fun hforged => nomatch hforged)
        case removeWalletRateLimit =>
          exact iff_of_true (removeWalletRateLimitHandler_counted h)
            (fun hforged => nomatch hforged)
        all_goals cases hmeters

theorem accounted_iff : Accounted rt M w s e ↔ ((e.exec rt s).isOk = true → ¬ Forged M w s e) := by
  rw [Accounted]
  cases h : e.exec rt s with
  | ok s' =>
    rw [next_of_ok h, Event.exec_counted h]
    simp [Except.isOk, Except.toBool]
  | error =>
    rw [next_of_error h]
    exact iff_of_true (Nat.le_add_right ..) fun hok => absurd hok Bool.false_ne_true

/-! ## Runs -/

/-- Whose steps are all accounted for counts no more than what was answered for in all. -/
theorem counted_le_vouched {es : List Event}
    (h : Along (Event.exec rt) (Accounted rt M w) s es) :
    (Transition.run (Event.exec rt) s es).counted M w ≤
      s.counted M w + (history (Event.exec rt) (vouched M w) s es).sum := by
  have hstep {s₁ s₂ : State} {e : Event} {amounts : List Nat}
      (hle : s₁.counted M w ≤ s.counted M w + amounts.sum) (haccounted : Accounted rt M w s₁ e)
      (hexec : e.exec rt s₁ = .ok s₂) :
      s₂.counted M w ≤ s.counted M w + (amounts ++ vouched M w s₁ e).sum := by
    rw [Accounted, next_of_ok hexec] at haccounted
    rw [List.sum_append]
    omega
  have hrun := invariant_history
    (I := fun s' amounts => s'.counted M w ≤ s.counted M w + amounts.sum) (h := [])
    hstep (Nat.le_add_right ..) h
  rwa [List.nil_append] at hrun

/-- Along a run the count of a wallet rises by no more than the amounts of its own transfers and of
the updates that the authority signs exactly if no successful call is forged; and then it stays
within their sum. -/
theorem limit_integrity (rt : Runtime) (M w : Pubkey) (s : State) (es : List Event) :
    (Along (Event.exec rt) (Accounted rt M w) s es ↔
      Along (Event.exec rt) (fun s e => (e.exec rt s).isOk = true → ¬ Forged M w s e) s es) ∧
    (Along (Event.exec rt) (fun s e => (e.exec rt s).isOk = true → ¬ Forged M w s e) s es →
      ∀ init tail, es = init ++ tail → (Transition.run (Event.exec rt) s init).counted M w ≤
        s.counted M w + (history (Event.exec rt) (vouched M w) s init).sum) := by
  have hiff : Along (Event.exec rt) (Accounted rt M w) s es ↔
      Along (Event.exec rt) (fun s e => (e.exec rt s).isOk = true → ¬ Forged M w s e) s es :=
    ⟨Along.mono fun _ _ => accounted_iff.mp, Along.mono fun _ _ => accounted_iff.mpr⟩
  refine ⟨hiff, fun h init tail heq => ?_⟩
  rw [← hiff, heq, along_append] at h
  exact counted_le_vouched h.1

/-- Transactions alone make a run of events. -/
theorem run_act (as : List Action) :
    Transition.run (Event.exec rt) s (as.map .act) = run rt s as := List.foldl_map ..

namespace Market

/-- The user may send 50 within ten days. -/
def limited : List Action :=
  compliant flagWalletRateLimits ++
    [ .call (day 0) (.setWalletRateLimit asAuthority
        { wallet := user.key, maxTransferPerWindow := 50, windowSlots := 2160000 }) ]

theorem unsigned (k : Pubkey) (h : false = true) : k.canSign = true :=
  absurd h Bool.false_ne_true

/-- Nobody signs this. -/
def forgedUpdate : Action :=
  .call (day 1) (.updateWalletRateLimit
    { caller := .transferHookProgram, isSigner := false, canSign := unsigned .transferHookProgram
      mint := mint.key }
    user.key 50)

/-- An account of another program. -/
def foreign : Signer := ⟨.key 90, rfl⟩

/-- The data of an account that names `k` where a token account names its owner. -/
def ownedBy (k : Pubkey) : List Cell := List.replicate 32 (.byte 0) ++ Cell.keyCells k

/-- What the rate limit asks for besides. -/
def forTheLimit : List AccountInfo :=
  (placed ++ [.walletRateLimit mint.key user.key, config, .sssTokenProgram, .transferHookProgram,
    mint.key]).map ({ key := ·, isWritable := true })

end Market

open Market in
/-- A call without a signature counts 50 for the user, who then sends nothing any more. -/
theorem limit_forged :
    Genesis genesis ∧
    ¬ Along (Event.exec localRuntime) (Accounted localRuntime mint.key user.key) genesis
      ((limited ++ [forgedUpdate]).map Event.act) ∧
    (transferHookHandler (day 1) (run localRuntime genesis limited)
      { transferCall [] with extras := forTheLimit } 1).isOk = true ∧
    (transferHookHandler (day 1) (run localRuntime genesis (limited ++ [forgedUpdate]))
      { transferCall [] with extras := forTheLimit } 1).isOk = false := by
  have hbefore : (transferHookHandler (day 1) (run localRuntime genesis limited)
      { transferCall [] with extras := forTheLimit } 1).isOk = true := by decide +kernel
  have hafter : (transferHookHandler (day 1) (run localRuntime genesis (limited ++ [forgedUpdate]))
      { transferCall [] with extras := forTheLimit } 1).isOk = false := by decide +kernel
  refine ⟨genesis_genesis, fun h => ?_, hbefore, hafter⟩
  have hforged : ¬ Accounted localRuntime mint.key user.key (run localRuntime genesis limited)
      (.act forgedUpdate) := by
    unfold Accounted
    decide +kernel
  rw [List.map_append, along_append, run_act] at h
  exact hforged h.2.1

open Market in
-- the source that the hook is called with may belong to another program
example : ¬ Accounted localRuntime mint.key user.key
    (run localRuntime genesis (limited ++ [.world (.writeAccount foreign (ownedBy user.key))]))
    (.act (.call (day 1) (.transferHook
      { transferCall [] with
        sourceTokenAccount := foreign.key
        extras := forTheLimit } 50))) := by
  unfold Accounted
  decide +kernel

end SolanaStablecoin
