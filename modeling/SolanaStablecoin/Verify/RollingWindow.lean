import SolanaStablecoin.Base.Window
import SolanaStablecoin.Verify.Meter
import SolanaStablecoin.Verify.SlotCap

/-! The limit of a wallet over any span of its window's length. The record counts from the start of
a window to its end and then from nothing again, and so it does when the authority sets the limit
once more. What was sent shortly before is not counted after that. -/

namespace SolanaStablecoin

open Transition Window

variable {rt : Runtime} {clock : Clock} {s s' : State} {a : Action} {M w : Pubkey}
  {limit len slot n : UInt64} {r r' : WalletRateLimit} {h : List Mark}

/-! ## What counts -/

def State.rateLimit (s : State) (M w : Pubkey) : Option WalletRateLimit :=
  s.walletRateLimits (.walletRateLimit M w)

def State.LimitOver (s : State) (M w : Pubkey) (slot : UInt64) : Prop :=
  ∃ r ∈ s.rateLimit M w, slot ≥ r.windowStartSlot.saturatingAdd r.windowSlots

instance State.LimitOver.decidable : Decidable (s.LimitOver M w slot) :=
  inferInstanceAs (Decidable (∃ r ∈ s.rateLimit M w, _))

/-- Counting starts again when the window is over. -/
def State.newWindow (s : State) (M w : Pubkey) (slot : UInt64) : List Mark :=
  if s.LimitOver M w slot then [.reset] else []

/-- The call of the hook for a transfer. -/
def Action.hooked : Action → Option TransferHook
  | .call _ (.transferHook b _) => some b
  | _ => none

/-- A transfer out of an account of the wallet, as the hook sees it. -/
def Sends (M w : Pubkey) (s : State) (a : Action) : Prop :=
  ∃ b ∈ a.hooked, b.mint = M ∧ s.ownerOf b.sourceTokenAccount = some w

instance Sends.decidable : Decidable (Sends M w s a) :=
  inferInstanceAs (Decidable (∃ b ∈ a.hooked, _))

/-- What a successful transaction shows of the limit of `w`. -/
def limitMarks (M w : Pubkey) (s : State) : Action → List Mark
  | .call _ (.setWalletRateLimit b p) => if b.mint = M ∧ p.wallet = w then [.reset] else []
  | .call clock (.updateWalletRateLimit b k _) =>
    if b.mint = M ∧ k = w then s.newWindow M w clock.slot else []
  | .call clock (.transferHook b n) =>
    if b.mint = M ∧ s.ownerOf b.sourceTokenAccount = some w then
      s.newWindow M w clock.slot ++ [.spent clock.slot.toNat n.toNat]
    else []
  | _ => []

def State.LimitsOn (s : State) (M : Pubkey) : Prop :=
  ∃ c ∈ s.configs (.stablecoinConfig M), c.featureFlags &&& flagWalletRateLimits ≠ 0

instance State.LimitsOn.decidable : Decidable (s.LimitsOn M) :=
  inferInstanceAs (Decidable (∃ c ∈ s.configs (.stablecoinConfig M), _))

/-- Whoever sets the limit of the wallet sets the same. -/
def Action.Keeps (M w : Pubkey) (limit len : UInt64) : Action → Prop
  | .call _ (.setWalletRateLimit b p) =>
    b.mint = M → p.wallet = w → p.maxTransferPerWindow = limit ∧ p.windowSlots = len
  | _ => True

/-! ## What is written -/

/-- What a successful transaction does to the limit of `w`. -/
inductive LimitStep (M w : Pubkey) (s : State) : Action → State → Prop where
  | kept {a : Action} {s' : State} (idle : limitMarks M w s a = [])
    (record : s'.rateLimit M w = s.rateLimit M w) : LimitStep M w s a s'
  | removed {a : Action} {s' : State} (idle : limitMarks M w s a = [])
    (record : s'.rateLimit M w = none) : LimitStep M w s a s'
  | set {clock : Clock} {b : AuthorityAndMint} {p : SetWalletRateLimitParams} {s' : State}
    {r : WalletRateLimit} (target : b.mint = M ∧ p.wallet = w) (slots : 0 < p.windowSlots)
    (record : s'.rateLimit M w = some r) (limit : r.maxTransferPerWindow = p.maxTransferPerWindow)
    (window : r.windowSlots = p.windowSlots) (start : r.windowStartSlot = 0) :
    LimitStep M w s (.call clock (.setWalletRateLimit b p)) s'
  | updated {clock : Clock} {b : UpdateWalletRateLimit} {k : Pubkey} {n : UInt64} {s' : State}
    {r r' : WalletRateLimit} (target : b.mint = M ∧ k = w) (stored : s.rateLimit M w = some r)
    (admits : r.Admits clock.slot n r') (record : s'.rateLimit M w = some r') :
    LimitStep M w s (.call clock (.updateWalletRateLimit b k n)) s'
  | sent {clock : Clock} {b : TransferHook} {n : UInt64} {s' : State} {r r' : WalletRateLimit}
    (sends : b.mint = M ∧ s.ownerOf b.sourceTokenAccount = some w)
    (stored : s.rateLimit M w = some r) (admits : r.Admits clock.slot n r')
    (record : s'.rateLimit M w = some r') : LimitStep M w s (.call clock (.transferHook b n)) s'
  | unlimited {a : Action} {s' : State} (off : ¬ s.LimitsOn M) (sends : Sends M w s a) :
    LimitStep M w s a s'

theorem State.rateLimit_put {m k : Pubkey}
    (h : s'.walletRateLimits = put s.walletRateLimits (.walletRateLimit m k) r) :
    s'.rateLimit M w = if m = M ∧ k = w then some r else s.rateLimit M w := by
  rw [rateLimit, h]
  refine put_eq_ite _ _ ⟨fun heq => ?_, fun hkey => by rw [hkey.1, hkey.2]⟩
  obtain ⟨hM, hw⟩ := Pubkey.walletRateLimit.inj heq
  exact ⟨hM.symm, hw.symm⟩

theorem transferHookHandler_limit {b : TransferHook}
    (h : transferHookHandler clock s b n = .ok s') :
    LimitStep M w s (.call clock (.transferHook b n)) s' := by
  obtain ⟨c, bl, src, dst, remaining, hcomplies, -, hdraws⟩ := transferHookHandler_eq_ok.mp h
  by_cases hsends : b.mint = M ∧ s.ownerOf b.sourceTokenAccount = some w
  · have hsrc : src = w := Option.some.inj (hcomplies.source.symm.trans hsends.2)
    cases hdraws with
    | unlimited hflag =>
      refine .unlimited (fun hon => ?_) ⟨b, rfl, hsends⟩
      obtain ⟨c', hc', hon⟩ := hon
      rw [← hsends.1, hcomplies.config] at hc'
      cases hc'
      exact hon hflag
    | limited hflag hwithin =>
      obtain ⟨_, r, -, -, -, -, -, hr, -, hadmits⟩ := hwithin
      rw [hsends.1, hsrc] at hr
      refine .sent hsends hr hadmits ?_
      rw [State.rateLimit_put rfl, if_pos ⟨hsends.1, hsrc⟩]
  · refine .kept (if_neg hsends) ?_
    cases hdraws with
    | unlimited => rfl
    | limited =>
      rw [State.rateLimit_put rfl, if_neg]
      rintro ⟨hM, rfl⟩
      exact hsends ⟨hM, hcomplies.source⟩

theorem limitMarks_of_idle {i : Instruction} (hi : i.meters = false) :
    limitMarks M w s (.call clock i) = [] := by
  cases i with
  | setWalletRateLimit | updateWalletRateLimit | transferHook => cases hi
  | _ => rfl

theorem exec_limit (h : a.exec rt s = .ok s') : LimitStep M w s a s' := by
  cases a with
  | world o =>
    obtain ⟨t, p, q, d, rfl⟩ := World.exec_outside h
    exact .kept rfl rfl
  | call clock i =>
    cases hi : i.meters with
    | false =>
      exact .kept (limitMarks_of_idle hi)
        (congrFun ((Instruction.exec_monitors h).limits hi) _)
    | true =>
      cases i with
      | setWalletRateLimit b p =>
        change setWalletRateLimitHandler rt s b p = .ok s' at h
        simp only [setWalletRateLimitHandler, bind_eq_ok, require_eq_ok, pure_eq_ok] at h
        obtain ⟨c, -, _, -, _, -, _, -, _, hslots, rfl⟩ := h
        by_cases hkey : b.mint = M ∧ p.wallet = w
        · exact .set hkey hslots ((State.rateLimit_put rfl).trans (if_pos hkey)) rfl rfl rfl
        · refine .kept (if_neg hkey) ?_
          rw [State.rateLimit_put rfl, if_neg hkey]
      | removeWalletRateLimit b k =>
        change removeWalletRateLimitHandler s b k = .ok s' at h
        simp only [removeWalletRateLimitHandler, bind_eq_ok, pure_eq_ok] at h
        obtain ⟨c, -, _, -, _, -, rfl⟩ := h
        by_cases hkey : Pubkey.walletRateLimit M w = .walletRateLimit b.mint k
        · refine .removed rfl ?_
          rw [State.rateLimit, hkey]
          exact Function.update_self ..
        · exact .kept rfl (Function.update_of_ne hkey ..)
      | updateWalletRateLimit b k n =>
        obtain ⟨c, r, r', -, -, -, hr, -, -, hadmits, rfl⟩ :=
          updateWalletRateLimitHandler_eq_ok.mp h
        by_cases hkey : b.mint = M ∧ k = w
        · rw [hkey.1, hkey.2] at hr
          refine .updated hkey hr hadmits ?_
          rw [State.rateLimit_put rfl, if_pos hkey]
        · refine .kept (if_neg hkey) ?_
          rw [State.rateLimit_put rfl, if_neg hkey]
      | transferHook b n => exact transferHookHandler_limit h
      | _ => cases hi

/-! ## The window of the record -/

/-- The marks that a call in that slot follows. -/
def State.marksAt (s : State) (M w : Pubkey) (slot : UInt64) (h : List Mark) : List Mark :=
  h ++ s.newWindow M w slot

/-- The record has the parameters, and what it has counted is at least what its window has sent. -/
def State.Paced (s : State) (M w : Pubkey) (limit len : UInt64) (h : List Mark) : Prop :=
  ∀ r ∈ s.rateLimit M w, r.maxTransferPerWindow = limit ∧ r.windowSlots = len ∧ 0 < len.toNat ∧
    total (current h) ≤ r.transferredThisWindow.toNat ∧
    ∀ t n, .spent t n ∈ current h → r.windowStartSlot.toNat ≤ t

/-- The window did not begin in the future. -/
def State.LimitPast (s : State) (M w : Pubkey) (now : UInt64) : Prop :=
  ∀ r ∈ s.rateLimit M w, r.windowStartSlot ≤ now

/-- What the window of a call holds, against the record that is rolled on to it. -/
structure Rolled (r : WalletRateLimit) (limit len slot : UInt64) (h : List Mark) : Prop where
  limit : (r.roll slot).maxTransferPerWindow = limit
  window : (r.roll slot).windowSlots = len
  counted : total (current h) ≤ (r.roll slot).transferredThisWindow.toNat
  inside : ∀ t n, .spent t n ∈ current h → (r.roll slot).windowStartSlot.toNat ≤ t
  ahead : slot.toNat < (r.roll slot).windowStartSlot.toNat + len.toNat

theorem State.Paced.rolled (H : s.Paced M w limit len h) (hr : s.rateLimit M w = some r)
    (slot : UInt64) : Rolled r limit len slot (s.marksAt M w slot h) := by
  obtain ⟨hlimit, hlen, hpos, hcounted, hinside⟩ := H r hr
  rw [State.marksAt, State.newWindow]
  by_cases hover : slot ≥ r.windowStartSlot.saturatingAdd r.windowSlots
  · have hroll : r.roll slot = { r with transferredThisWindow := 0, windowStartSlot := slot } :=
      if_pos hover
    have hended : s.LimitOver M w slot := ⟨r, hr, hover⟩
    rw [if_pos hended]
    refine ⟨?_, ?_, ?_, ?_, ?_⟩
    · rw [hroll, hlimit]
    · rw [hroll, hlen]
    · rw [current_reset]
      exact Nat.zero_le _
    · intro t n ht
      rw [current_reset] at ht
      cases ht
    · rw [hroll]
      exact Nat.lt_add_of_pos_right hpos
  · have hroll : r.roll slot = r := if_neg hover
    have hopen : ¬ s.LimitOver M w slot := by
      rintro ⟨r', hr', hover'⟩
      cases Option.some.inj (hr.symm.trans hr')
      exact hover hover'
    rw [if_neg hopen, List.append_nil]
    rw [ge_iff_le, UInt64.le_iff_toNat_le, UInt64.toNat_saturatingAdd, hlen] at hover
    refine ⟨?_, ?_, ?_, ?_, ?_⟩
    · rw [hroll, hlimit]
    · rw [hroll, hlen]
    · rwa [hroll]
    · rwa [hroll]
    · rw [hroll]
      omega

/-- What the record admits. -/
theorem Rolled.admits (H : Rolled r limit len slot h) (hadmits : r.Admits slot n r') :
    r'.maxTransferPerWindow = limit ∧ r'.windowSlots = len ∧
      r'.windowStartSlot = (r.roll slot).windowStartSlot ∧
      total (current h) + n.toNat ≤ r'.transferredThisWindow.toNat ∧
      total (current h) + n.toNat ≤ limit.toNat := by
  obtain ⟨x, hx, hmax, rfl⟩ := hadmits
  rw [H.limit, UInt64.le_iff_toNat_le] at hmax
  have hcounted := H.counted
  refine ⟨H.limit, H.window, rfl, ?_, ?_⟩
  · change _ ≤ x.toNat
    omega
  · omega

theorem limitMarks_sent {b : TransferHook}
    (hsends : b.mint = M ∧ s.ownerOf b.sourceTokenAccount = some w) :
    h ++ limitMarks M w s (.call clock (.transferHook b n)) =
      s.marksAt M w clock.slot h ++ [.spent clock.slot.toNat n.toNat] := by
  rw [limitMarks, if_pos hsends, ← List.append_assoc, State.marksAt]

theorem WalletRateLimit.roll_start_le {now : UInt64} (hstart : r.windowStartSlot ≤ now)
    (hslot : slot ≤ now) : (r.roll slot).windowStartSlot ≤ now := by
  rw [roll]
  split
  · exact hslot
  · exact hstart

theorem State.Paced.step (H : s.Paced M w limit len h) (hkeeps : a.Keeps M w limit len)
    (hpast : ∀ clock j, a = .call clock j → s.LimitPast M w clock.slot)
    (hon : Sends M w s a → s.LimitsOn M) (hstep : LimitStep M w s a s') :
    s'.Paced M w limit len (h ++ limitMarks M w s a) := by
  intro r' hr'
  cases hstep with
  | kept idle record =>
    rw [idle, List.append_nil]
    exact H r' (record ▸ hr')
  | removed _ record =>
    rw [record] at hr'
    cases hr'
  | set target slots record hlimit hwindow _ =>
    cases Option.some.inj (record.symm.trans hr')
    obtain ⟨hp, hq⟩ := hkeeps target.1 target.2
    rw [limitMarks, if_pos target, current_reset, hlimit, hwindow, hp, hq]
    refine ⟨rfl, rfl, ?_, Nat.zero_le _, fun t n ht => absurd ht List.not_mem_nil⟩
    rw [← hq]
    exact UInt64.lt_iff_toNat_lt.mp slots
  | @updated clock b k n s' r _ target stored admits record =>
    cases Option.some.inj (record.symm.trans hr')
    have hrolled := H.rolled stored clock.slot
    obtain ⟨hlimit, hlen, hstart, hcounted, -⟩ := hrolled.admits admits
    obtain ⟨-, -, hpos, -⟩ := H r stored
    rw [limitMarks, if_pos target, ← State.marksAt, hstart]
    exact ⟨hlimit, hlen, hpos, Nat.le_of_add_right_le hcounted, hrolled.inside⟩
  | @sent clock b n s' r _ sends stored admits record =>
    cases Option.some.inj (record.symm.trans hr')
    have hrolled := H.rolled stored clock.slot
    obtain ⟨hlimit, hlen, hstart, hcounted, -⟩ := hrolled.admits admits
    obtain ⟨-, -, hpos, -⟩ := H r stored
    rw [limitMarks_sent sends, current_spent, total_spent, hstart]
    refine ⟨hlimit, hlen, hpos, hcounted, fun t k ht => ?_⟩
    rw [List.mem_append, List.mem_singleton] at ht
    rcases ht with ht | ht
    · exact hrolled.inside t k ht
    · cases ht
      exact UInt64.le_iff_toNat_le.mp
        (WalletRateLimit.roll_start_le (hpast clock _ rfl r stored) (UInt64.le_refl _))
  | unlimited off sends => exact absurd (hon sends) off

/-! ## A run -/

theorem not_spent_newWindow {t k : Nat} : Mark.spent t k ∉ s.newWindow M w slot := by
  rw [State.newWindow]
  split
  · exact fun h => Mark.noConfusion (List.mem_singleton.mp h)
  · exact List.not_mem_nil

theorem spentIn_marksAt (t k : Nat) : spentIn t k (s.marksAt M w slot h) = spentIn t k h := by
  rw [State.marksAt, spentIn, spentWhen_append,
    spentWhen_eq_zero fun x n hx => absurd hx not_spent_newWindow, Nat.add_zero, spentIn]

theorem WalletRateLimit.Admits.start (hadmits : r.Admits slot n r') :
    r'.windowStartSlot = (r.roll slot).windowStartSlot := by
  obtain ⟨x, -, -, rfl⟩ := hadmits
  rfl

theorem State.LimitPast.step {now : UInt64} (H : s.LimitPast M w now) (hpast : a.past now)
    (hon : Sends M w s a → s.LimitsOn M) (hstep : LimitStep M w s a s') :
    s'.LimitPast M w now := by
  intro r' hr'
  cases hstep with
  | kept _ record => exact H r' (record ▸ hr')
  | removed _ record =>
    rw [record] at hr'
    cases hr'
  | set _ _ record _ _ start =>
    cases Option.some.inj (record.symm.trans hr')
    rw [start]
    exact UInt64.zero_le
  | updated _ stored admits record | sent _ stored admits record =>
    cases Option.some.inj (record.symm.trans hr')
    rw [admits.start]
    exact WalletRateLimit.roll_start_le (H _ stored) hpast
  | unlimited off sends => exact absurd (hon sends) off

section Runs

variable {as init : List Action}

/-- The limit is in force wherever the wallet sends something. -/
def InForce (rt : Runtime) (M w : Pubkey) (s : State) (as : List Action) : Prop :=
  Along (Action.exec rt) (fun s a => Sends M w s a → s.LimitsOn M) s as

theorem run_limitPast {tail : List Action} {j : Instruction} (hs : s.rateLimit M w = none)
    (hslots : Chronological (init ++ .call clock j :: tail)) (hforce : InForce rt M w s init) :
    (run rt s init).LimitPast M w clock.slot := by
  have hnone : s.LimitPast M w clock.slot := by
    intro r hr
    rw [hs] at hr
    cases hr
  have hpast : Along (Action.exec rt) (fun _ a => a.past clock.slot) s init :=
    along_of_forall fun a ha _ => hslots.past a ha
  exact invariant_run (I := fun s : State => s.LimitPast M w clock.slot)
    (fun hi hp hexec => hi.step hp.1 hp.2 (exec_limit hexec)) hnone (hpast.and hforce)

theorem run_paced {tail : List Action} (hs : s.rateLimit M w = none) (hslots : Chronological as)
    (hkeeps : ∀ a ∈ as, a.Keeps M w limit len) (hforce : InForce rt M w s as)
    (heq : as = init ++ tail) : (run rt s init).Paced M w limit len
      (history (Action.exec rt) (limitMarks M w) s init) := by
  have hnone : s.Paced M w limit len [] := by
    intro r hr
    rw [hs] at hr
    cases hr
  refine invariant_prefix (I := fun (s : State) h => s.Paced M w limit len h) hnone ?_ heq
  intro init a tail s' heq hexec H
  subst heq
  obtain ⟨hbefore, hon, -⟩ := along_append.mp hforce
  refine H.step (hkeeps a (List.mem_append_right _ List.mem_cons_self)) (fun clock j ha => ?_) hon
    (exec_limit hexec)
  subst ha
  exact run_limitPast hs hslots hbefore

/-- The run comes to a transfer of `n` by the wallet, which the hook accepts. -/
def Sent (rt : Runtime) (M w : Pubkey) (s : State) (as init : List Action) (clock : Clock)
    (n : UInt64) : Prop :=
  ∃ b tail, as = init ++ .call clock (.transferHook b n) :: tail ∧
    Sends M w (run rt s init) (.call clock (.transferHook b n)) ∧
    (transferHookHandler clock (run rt s init) b n).isOk = true

/-- What a call in that slot finds, its window being opened. -/
def marksBefore (rt : Runtime) (M w : Pubkey) (s : State) (init : List Action) (slot : UInt64) :
    List Mark :=
  (run rt s init).marksAt M w slot (history (Action.exec rt) (limitMarks M w) s init)

/-- What was sent in the last `len` slots, but before counting last started again. -/
def carriedOver (rt : Runtime) (M w : Pubkey) (len : UInt64) (s : State) (init : List Action)
    (slot : UInt64) : Nat :=
  recent len.toNat slot.toNat (earlier (marksBefore rt M w s init slot))

/-- What was sent since. -/
def inWindow (rt : Runtime) (M w : Pubkey) (s : State) (init : List Action) (slot : UInt64) : Nat :=
  total (current (marksBefore rt M w s init slot))

/-- No span of `len` slots moves more than the limit. -/
def RollingKept (rt : Runtime) (M w : Pubkey) (limit len : UInt64) (s : State)
    (as : List Action) : Prop :=
  ∀ init tail, as = init ++ tail → ∀ t,
    spentIn t len.toNat (history (Action.exec rt) (limitMarks M w) s init) ≤ limit.toNat

/-- What was sent in the last slots was carried over or is counted, and the hook admits what fits in
with the latter. -/
theorem inWindow_le {b : TransferHook} {tail : List Action} {s' : State}
    (hs : s.rateLimit M w = none) (hslots : Chronological as)
    (hkeeps : ∀ a ∈ as, a.Keeps M w limit len) (hforce : InForce rt M w s as)
    (heq : as = init ++ .call clock (.transferHook b n) :: tail)
    (hsends : Sends M w (run rt s init) (.call clock (.transferHook b n)))
    (hexec : transferHookHandler clock (run rt s init) b n = .ok s') :
    recent len.toNat clock.slot.toNat (marksBefore rt M w s init clock.slot) =
        carriedOver rt M w len s init clock.slot + inWindow rt M w s init clock.slot ∧
      inWindow rt M w s init clock.slot + n.toNat ≤ limit.toNat := by
  have hpaced := run_paced hs hslots hkeeps hforce heq
  subst heq
  have hon := (along_append.mp hforce).2.1
  have hstep : LimitStep M w (run rt s init) (.call clock (.transferHook b n)) s' :=
    transferHookHandler_limit hexec
  obtain ⟨b', hb', hsource⟩ := hsends
  cases hb'
  cases hstep with
  | kept idle | removed idle =>
    rw [limitMarks, if_pos hsource, List.append_eq_nil_iff] at idle
    cases idle.2
  | unlimited off sends => exact absurd (hon sends) off
  | sent _ stored admits _ =>
    have hrolled := hpaced.rolled stored clock.slot
    exact ⟨recent_eq hrolled.inside hrolled.ahead, (hrolled.admits admits).2.2.2.2⟩

/-- A record whose window is over admits whatever is within the limit. -/
theorem WalletRateLimit.admits_iff_of_over
    (hover : slot ≥ r.windowStartSlot.saturatingAdd r.windowSlots) :
    (∃ r', r.Admits slot n r') ↔ n ≤ r.maxTransferPerWindow := by
  have hroll : r.roll slot = { r with transferredThisWindow := 0, windowStartSlot := slot } :=
    if_pos hover
  constructor
  · rintro ⟨r', x, hx, hmax, -⟩
    rw [hroll] at hx hmax
    rw [UInt64.le_iff_toNat_le] at hmax ⊢
    rwa [hx, UInt64.toNat_zero, Nat.zero_add] at hmax
  · intro hn
    refine ⟨_, n, ?_, ?_, rfl⟩
    · rw [hroll, UInt64.toNat_zero, Nat.zero_add]
    · rwa [hroll]

end Runs

/-- The limit is kept over every span, while its parameters stay and it is in force, if no accepted
transfer finds something sent in the last slots that is not counted any more. Where a transfer that
begins a window does find such, the record admits amounts that do not fit in with it. -/
theorem rolling_window {as : List Action} (hs : s.rateLimit M w = none) (hslots : Chronological as)
    (hkeeps : ∀ a ∈ as, a.Keeps M w limit len) (hforce : InForce rt M w s as) :
    ((∀ init clock n, Sent rt M w s as init clock n →
        carriedOver rt M w len s init clock.slot = 0) → RollingKept rt M w limit len s as) ∧
    ∀ init tail, as = init ++ tail → ∀ slot, ∀ r ∈ (run rt s init).rateLimit M w,
      slot ≥ r.windowStartSlot.saturatingAdd r.windowSlots →
      (carriedOver rt M w len s init slot = 0 ↔ ∀ n r', r.Admits slot n r' →
        carriedOver rt M w len s init slot + n.toNat ≤ limit.toNat) := by
  constructor
  · intro H init tail heq
    refine invariant_prefix
      (I := fun _ h => ∀ t, spentIn t len.toNat h ≤ limit.toNat) (fun t => Nat.zero_le _) ?_ heq
    intro init a tail s' heq hexec hspans
    cases exec_limit (M := M) (w := w) hexec with
    | kept idle | removed idle => rwa [idle, List.append_nil]
    | set target =>
      rw [limitMarks, if_pos target]
      simpa only [spentIn, spentWhen_reset] using hspans
    | updated target =>
      rw [limitMarks, if_pos target, ← State.marksAt]
      simpa only [spentIn_marksAt] using hspans
    | @sent clock b n _ _ _ sends =>
      have hsends : Sends M w (run rt s init) (.call clock (.transferHook b n)) := ⟨b, rfl, sends⟩
      have hnone := H init clock n ⟨b, tail, heq, hsends, isOk_iff.mpr ⟨s', hexec⟩⟩
      obtain ⟨hrecent, hfits⟩ := inWindow_le hs hslots hkeeps hforce heq hsends hexec
      have hroom : recent len.toNat clock.slot.toNat (marksBefore rt M w s init clock.slot) +
          n.toNat ≤ limit.toNat := by rwa [hrecent, hnone, Nat.zero_add]
      rw [limitMarks_sent sends]
      exact spans_spend (fun t => (Nat.le_of_eq (spentIn_marksAt t _)).trans (hspans t)) hroom
    | unlimited off sends =>
      subst heq
      exact absurd ((along_append.mp hforce).2.1 sends) off
  · intro init tail heq slot r hr hover
    obtain ⟨rfl, -⟩ := run_paced hs hslots hkeeps hforce heq r hr
    constructor
    · intro hnone n r' hadmits
      rw [hnone, Nat.zero_add, ← UInt64.le_iff_toNat_le]
      exact (r.admits_iff_of_over hover).mp ⟨r', hadmits⟩
    · intro H
      obtain ⟨r', hadmits⟩ := (r.admits_iff_of_over hover).mpr (UInt64.le_refl _)
      have hfits := H _ r' hadmits
      omega

namespace Market

/-- The user sends so much on day `d`. -/
def sendsOn (d : Nat) (n : UInt64) : Action :=
  .call (day d) (.transferHook { transferCall [] with extras := forTheLimit } n)

/-- All that the window allows goes out on its last day, and as much on the day after. -/
def straddling : List Action := limited ++ [sendsOn 9 50, sendsOn 10 50]

/-- The user may send 50 within ten days, and does so in two windows far apart. -/
def spacing : List Action :=
  [ .call (day 0) (.setWalletRateLimit asAuthority
      { wallet := user.key, maxTransferPerWindow := 50, windowSlots := 2160000 }),
    sendsOn 1 30, sendsOn 2 20, sendsOn 25 50 ]

end Market

open Market in
theorem rolling_window_spacing :
    history (Action.exec localRuntime) (limitMarks mint.key user.key)
        (run localRuntime genesis (compliant flagWalletRateLimits)) spacing =
      [.reset, .spent 216000 30, .spent 432000 20, .reset, .spent 5400000 50] ∧
    RollingKept localRuntime mint.key user.key 50 2160000
      (run localRuntime genesis (compliant flagWalletRateLimits)) spacing := by
  have hslots : Chronological spacing := by
    unfold Chronological
    decide +kernel
  have hforce : InForce localRuntime mint.key user.key
      (run localRuntime genesis (compliant flagWalletRateLimits)) spacing := by
    unfold InForce
    decide +kernel
  refine ⟨by decide +kernel, (rolling_window rfl hslots ?_ hforce).1 ?_⟩
  · simp [spacing, sendsOn, Action.Keeps]
  · intro init clock n hsent
    obtain ⟨b, tail, heq, -, -⟩ := hsent
    rcases init with _ | ⟨a₁, _ | ⟨a₂, _ | ⟨a₃, _ | ⟨a₄, init⟩⟩⟩⟩
    · cases heq
    · cases heq
      decide +kernel
    · cases heq
      decide +kernel
    · cases heq
      decide +kernel
    · have hlength := congrArg List.length heq
      simp [spacing] at hlength

open Market in
/-- Of 50 that may be sent within ten days, 100 are sent within two. -/
theorem rolling_window_straddling :
    Genesis genesis ∧ genesis.rateLimit mint.key user.key = none ∧ Chronological straddling ∧
    (∀ a ∈ straddling, a.Keeps mint.key user.key 50 2160000) ∧
    InForce localRuntime mint.key user.key genesis straddling ∧
    spentIn 1944000 432000 (history (Action.exec localRuntime) (limitMarks mint.key user.key)
      genesis straddling) = 100 ∧
    ¬ RollingKept localRuntime mint.key user.key 50 2160000 genesis straddling := by
  have hspent : spentIn 1944000 2160000 (history (Action.exec localRuntime)
      (limitMarks mint.key user.key) genesis straddling) = 100 := by decide +kernel
  have hslots : Chronological straddling := by
    unfold Chronological
    decide +kernel
  have hforce : InForce localRuntime mint.key user.key genesis straddling := by
    unfold InForce
    decide +kernel
  refine ⟨genesis_genesis, rfl, hslots, ?_, hforce, by decide +kernel, fun H => ?_⟩
  · simp [straddling, limited, compliant, sendsOn, thaw, Action.Keeps]
  · have hle := H straddling [] (List.append_nil _).symm 1944000
    exact absurd (hspent ▸ hle) (by decide)

end SolanaStablecoin
