import SolanaStablecoin.Program.Issue

/-! Limits on what a wallet may send within a window (`wallet_rate_limit.rs`). -/

namespace SolanaStablecoin

variable (rt : Runtime) (clock : Clock) (s : State)

structure SetWalletRateLimitParams where
  wallet : Pubkey
  maxTransferPerWindow : UInt64
  windowSlots : UInt64

/-- A limit that was there is overwritten, and its counters start again. -/
def setWalletRateLimitHandler (a : AuthorityAndMint) (p : SetWalletRateLimitParams) :
    Result State := do
  let config ← a.loadConfig s
  checkSquads config a.authority.key
  require (config.featureFlags &&& flagWalletRateLimits ≠ 0) (.sss .walletRateLimitsNotEnabled)
  require (p.maxTransferPerWindow > 0) (.sss .invalidRateLimitAmount)
  require (p.windowSlots > 0) (.sss .invalidRateLimitWindow)
  let wrl := Pubkey.walletRateLimit a.mint p.wallet
  pure { s with
    walletRateLimits := put s.walletRateLimits wrl
      { sssMint := a.mint, wallet := p.wallet, maxTransferPerWindow := p.maxTransferPerWindow
        windowSlots := p.windowSlots, transferredThisWindow := 0, windowStartSlot := 0
        bump := rt.bump wrl } }

def removeWalletRateLimitHandler (a : AuthorityAndMint) (wallet : Pubkey) : Result State := do
  let config ← a.loadConfig s
  let _ ← load s.walletRateLimits (.walletRateLimit a.mint wallet)
  checkSquads config a.authority.key
  pure { s with
    walletRateLimits := Function.update s.walletRateLimits (.walletRateLimit a.mint wallet) none }

/-- The caller is any account, and need not sign. -/
structure UpdateWalletRateLimit where
  caller : Pubkey
  isSigner : Bool
  canSign : isSigner = true → caller.canSign = true
  mint : Pubkey

/-- A new window starts once the last one is over. -/
def WalletRateLimit.roll (wrl : WalletRateLimit) (slot : UInt64) : WalletRateLimit :=
  if slot ≥ wrl.windowStartSlot.saturatingAdd wrl.windowSlots then
    { wrl with transferredThisWindow := 0, windowStartSlot := slot }
  else wrl

def updateWalletRateLimitHandler (a : UpdateWalletRateLimit) (wallet : Pubkey)
    (transferAmount : UInt64) : Result State := do
  let config ← loadConfigOfMint s a.mint
  let wrl ← load s.walletRateLimits (.walletRateLimit a.mint wallet)
  require (a.caller = config.transferHookProgram ∨ a.caller = config.authority)
    (.sss .unauthorized)
  requireWhen (a.caller = config.authority) <| require a.isSigner (.sss .unauthorized)
  let wrl := wrl.roll clock.slot
  let newTotal ← (wrl.transferredThisWindow.checkedAdd transferAmount).okOr
    (.sss .walletRateLimitExceeded)
  require (newTotal ≤ wrl.maxTransferPerWindow) (.sss .walletRateLimitExceeded)
  pure { s with
    walletRateLimits := put s.walletRateLimits (.walletRateLimit a.mint wallet)
      { wrl with transferredThisWindow := newTotal } }

end SolanaStablecoin
