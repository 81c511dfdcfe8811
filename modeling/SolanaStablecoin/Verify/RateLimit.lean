import SolanaStablecoin.Verify.Monitors
import SolanaStablecoin.Verify.Registration

/-! The limit on what a wallet sends is checked twice. The hook reckons the total of the window in
advance, from the bytes of the record and with saturating arithmetic; `sss-token` then adds with a
check and writes. The second check refuses whatever the first one does. -/

namespace SolanaStablecoin

open TransferHook

variable {clock : Clock} {s s' : State} {r r' : WalletRateLimit} {slot n flags : UInt64}
  {b : UpdateWalletRateLimit} {w : Pubkey} {a : TransferHook} {remaining : List AccountInfo}

/-! ## The check in advance -/

theorem WalletRateLimit.roll_max (r : WalletRateLimit) (slot : UInt64) :
    (r.roll slot).maxTransferPerWindow = r.maxTransferPerWindow := by
  unfold roll
  split <;> rfl

/-- Outside of a window the hook counts the transfer alone, and inside of one a sum that fits is
the saturating sum. -/
theorem WalletRateLimit.Admits.reckoned_le (h : r.Admits slot n r') :
    reckoned r slot n ≤ r.maxTransferPerWindow := by
  obtain ⟨x, hx, hmax, -⟩ := h
  rw [r.roll_max] at hmax
  refine UInt64.le_trans ?_ hmax
  rw [UInt64.le_iff_toNat_le, hx, reckoned]
  split
  next => omega
  next hwithin =>
    have hopen : ¬ slot ≥ r.windowStartSlot.saturatingAdd r.windowSlots :=
      fun hover => hwithin (.inr hover)
    rw [roll, if_neg hopen, UInt64.toNat_saturatingAdd]
    omega

/-- What the update accepts, the hook has accepted. -/
theorem preCheck_of_update (h : updateWalletRateLimitHandler clock s b w n = .ok s') :
    preCheck clock (s.data (.walletRateLimit b.mint w)) n = .ok true := by
  obtain ⟨c, r, r', -, -, -, hr, -, -, hadmits, -⟩ := updateWalletRateLimitHandler_eq_ok.mp h
  have hdata : s.data (.walletRateLimit b.mint w) = r.data := by simp [State.data, hr]
  rw [hdata, preCheck_data, decide_eq_true hadmits.reckoned_le]

/-- The check of the hook, and the update after it. -/
def checkedUpdate (clock : Clock) (s : State) (b : UpdateWalletRateLimit) (w : Pubkey)
    (n : UInt64) : Result State := do
  let preCheckOk ← preCheck clock (s.data (.walletRateLimit b.mint w)) n
  require preCheckOk (.hook .walletRateLimitExceeded)
  updateWalletRateLimitHandler clock s b w n

theorem checkedUpdate_eq_ok :
    checkedUpdate clock s b w n = .ok s' ↔ updateWalletRateLimitHandler clock s b w n = .ok s' := by
  simp only [checkedUpdate, bind_eq_ok, require_eq_ok]
  constructor
  · intro h
    obtain ⟨_, -, -, -, h⟩ := h
    exact h
  · intro h
    exact ⟨true, preCheck_of_update h, (), rfl, h⟩

/-- The call that the hook makes: nobody signs it. -/
def TransferHook.writeBack (a : TransferHook) : UpdateWalletRateLimit :=
  { caller := .transferHookProgram, isSigner := false, canSign := nofun, mint := a.mint }

/-- With its accounts at hand, the hook records what the update does. -/
theorem recordTransfer_eq_update (hflag : flags &&& flagWalletRateLimits ≠ 0)
    (hsupplied : SuppliesRateLimit a.mint w remaining) :
    a.recordTransfer clock s w flags n remaining = .ok s' ↔
      updateWalletRateLimitHandler clock s a.writeBack w n = .ok s' := by
  rw [recordTransfer_eq_ok, updateWalletRateLimitHandler_eq_ok]
  constructor
  · intro h
    rcases h with ⟨-, -, r', ⟨c, r, hc, hm, hmint, hhook, hnot, hr, -, hadmits⟩, rfl⟩ | ⟨hno, -⟩
    · exact ⟨c, r, r', hc, hm, hmint, hr, .inl hhook.symm, fun h => absurd h.symm hnot, hadmits,
        rfl⟩
    · exact absurd hno hflag
  · intro h
    obtain ⟨c, r, r', hc, hm, hmint, hr, hcaller, hsigned, hadmits, rfl⟩ := h
    have hnot : c.authority ≠ .transferHookProgram := by
      intro hauth
      cases hsigned hauth.symm
    have hhook : c.transferHookProgram = .transferHookProgram := by
      rcases hcaller with h | h
      · exact h.symm
      · exact absurd h.symm hnot
    exact .inl ⟨hflag, hsupplied, r',
      ⟨c, r, hc, hm, hmint, hhook, hnot, hr, hadmits.reckoned_le, hadmits⟩, rfl⟩

/-- The check in advance never decides: it accepts what the update accepts, and neither the
decision nor the state after the two of them is another than that of the update alone. So it is
for the hook as well, once it has its accounts. -/
theorem preCheck_agrees (clock : Clock) (s : State) (b : UpdateWalletRateLimit) (w : Pubkey)
    (n : UInt64) :
    ((updateWalletRateLimitHandler clock s b w n).isOk = true →
      preCheck clock (s.data (.walletRateLimit b.mint w)) n = .ok true) ∧
    (checkedUpdate clock s b w n).toOption =
      (updateWalletRateLimitHandler clock s b w n).toOption ∧
    ∀ (a : TransferHook) (flags : UInt64) (remaining : List AccountInfo),
      flags &&& flagWalletRateLimits ≠ 0 → SuppliesRateLimit a.mint w remaining →
        (a.recordTransfer clock s w flags n remaining).toOption =
          (updateWalletRateLimitHandler clock s a.writeBack w n).toOption := by
  refine ⟨?_, ?_, ?_⟩
  · intro hok
    obtain ⟨s', hs'⟩ := isOk_iff.mp hok
    exact preCheck_of_update hs'
  · exact toOption_congr fun _ => checkedUpdate_eq_ok
  · intro a flags remaining hflag hsupplied
    exact toOption_congr fun _ => recordTransfer_eq_update hflag hsupplied

end SolanaStablecoin
