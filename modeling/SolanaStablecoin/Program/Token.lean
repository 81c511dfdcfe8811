import SolanaStablecoin.Base.Checked
import SolanaStablecoin.Program.Key

/-! The token program as this program sees it. It is not part of the repository, so its
instructions are a parameter `TokenProgram`; the fields of that structure say what is relied on:
an accepted instruction passed the documented checks and changed exactly the balances, the
supply and the delegation it is documented to change. -/

namespace SolanaStablecoin

structure Mint where
  mintAuthority : Option Pubkey
  supply : UInt64
  decimals : UInt8
  freezeAuthority : Option Pubkey
  /-- `PermanentDelegate` extension. -/
  permanentDelegate : Option Pubkey
  /-- `DefaultAccountState` extension: new accounts start frozen. -/
  defaultFrozen : Bool
  /-- Whether there is any further extension, such as a transfer fee. -/
  extended : Bool
  /-- `TransferHook` extension: the program to run on each transfer. -/
  transferHook : Option Pubkey := none
deriving DecidableEq

structure TokenAccount where
  mint : Pubkey
  owner : Pubkey
  amount : UInt64
  delegate : Option Pubkey
  delegatedAmount : UInt64
  frozen : Bool
deriving DecidableEq

/-- The accounts owned by the token program. -/
structure Tokens where
  mints : Pubkey → Option Mint
  accounts : Pubkey → Option TokenAccount

namespace TokenAccount

/-- The signer is the permanent delegate, a delegate with enough allowance, or the owner. -/
def authorizes (a : TokenAccount) (m : Mint) (authority : Pubkey) (n : UInt64) : Bool :=
  m.permanentDelegate = some authority ||
    if a.delegate = some authority then n ≤ a.delegatedAmount else a.owner = authority

/-- Take `n` out of the account, off the allowance too when the delegate signed. -/
def debit (a : TokenAccount) (m : Mint) (authority : Pubkey) (n : UInt64) : TokenAccount :=
  if m.permanentDelegate ≠ some authority ∧ a.delegate = some authority then
    { a with
      amount := a.amount - n
      delegatedAmount := a.delegatedAmount - n
      delegate := if a.delegatedAmount = n then none else a.delegate }
  else { a with amount := a.amount - n }

def credit (a : TokenAccount) (n : UInt64) : TokenAccount := { a with amount := a.amount + n }

@[simp] theorem debit_amount (a : TokenAccount) (m : Mint) (k : Pubkey) (n : UInt64) :
    (a.debit m k n).amount = a.amount - n := by unfold debit; split <;> rfl

@[simp] theorem debit_owner (a : TokenAccount) (m : Mint) (k : Pubkey) (n : UInt64) :
    (a.debit m k n).owner = a.owner := by unfold debit; split <;> rfl

@[simp] theorem debit_mint (a : TokenAccount) (m : Mint) (k : Pubkey) (n : UInt64) :
    (a.debit m k n).mint = a.mint := by unfold debit; split <;> rfl

end TokenAccount

namespace Tokens

def setMint (t : Tokens) (k : Pubkey) (m : Mint) : Tokens :=
  { t with mints := put t.mints k m }

def setAccount (t : Tokens) (k : Pubkey) (a : TokenAccount) : Tokens :=
  { t with accounts := put t.accounts k a }

@[simp] theorem setMint_accounts (t : Tokens) (k : Pubkey) (m : Mint) :
    (t.setMint k m).accounts = t.accounts := rfl

@[simp] theorem setAccount_mints (t : Tokens) (k : Pubkey) (a : TokenAccount) :
    (t.setAccount k a).mints = t.mints := rfl

theorem setMint_mints (t : Tokens) (k : Pubkey) (m : Mint) :
    (t.setMint k m).mints = put t.mints k m := rfl

theorem setAccount_accounts (t : Tokens) (k : Pubkey) (a : TokenAccount) :
    (t.setAccount k a).accounts = put t.accounts k a := rfl

/-! ### Checks and effects of the accepted instructions -/

def MintsTo (t : Tokens) (mint dst authority : Pubkey) (n : UInt64) (t' : Tokens) : Prop :=
  ∃ m a, t.mints mint = some m ∧ t.accounts dst = some a ∧
    m.mintAuthority = some authority ∧ a.mint = mint ∧ a.frozen = false ∧
    m.supply.toNat + n.toNat < 2 ^ 64 ∧ a.amount.toNat + n.toNat < 2 ^ 64 ∧
    t' = (t.setMint mint { m with supply := m.supply + n }).setAccount dst (a.credit n)

def Burns (t : Tokens) (mint src authority : Pubkey) (n : UInt64) (t' : Tokens) : Prop :=
  ∃ m a, t.mints mint = some m ∧ t.accounts src = some a ∧
    a.mint = mint ∧ a.frozen = false ∧ a.authorizes m authority n = true ∧
    n ≤ a.amount ∧ n ≤ m.supply ∧
    t' = (t.setMint mint { m with supply := m.supply - n }).setAccount src
      (a.debit m authority n)

/-- `fee` is withheld on the way. Moving an account's tokens to itself changes nothing. -/
def Transfers (t : Tokens) (src mint dst authority : Pubkey) (n fee : UInt64)
    (t' : Tokens) : Prop :=
  ∃ m a b, t.mints mint = some m ∧ t.accounts src = some a ∧ t.accounts dst = some b ∧
    a.mint = mint ∧ b.mint = mint ∧ a.frozen = false ∧ b.frozen = false ∧
    a.authorizes m authority n = true ∧ n ≤ a.amount ∧
    (src ≠ dst → b.amount.toNat + (n - fee).toNat < 2 ^ 64) ∧
    t' = if src = dst then t else
      (t.setAccount src (a.debit m authority n)).setAccount dst (b.credit (n - fee))

def Thaws (t : Tokens) (account mint authority : Pubkey) (t' : Tokens) : Prop :=
  ∃ m a, t.mints mint = some m ∧ t.accounts account = some a ∧ a.mint = mint ∧
    m.freezeAuthority = some authority ∧ a.frozen = true ∧
    t' = t.setAccount account { a with frozen := false }

def Freezes (t : Tokens) (account mint authority : Pubkey) (t' : Tokens) : Prop :=
  ∃ m a, t.mints mint = some m ∧ t.accounts account = some a ∧ a.mint = mint ∧
    m.freezeAuthority = some authority ∧ a.frozen = false ∧
    t' = t.setAccount account { a with frozen := true }

def Approves (t : Tokens) (account delegate authority : Pubkey) (n : UInt64)
    (t' : Tokens) : Prop :=
  ∃ a, t.accounts account = some a ∧ a.owner = authority ∧ a.frozen = false ∧
    t' = t.setAccount account { a with delegate := some delegate, delegatedAmount := n }

/-- `SetAuthority` for the owner of an account; a delegation ends with it. -/
def SetsAccountOwner (t : Tokens) (account newOwner authority : Pubkey) (t' : Tokens) : Prop :=
  ∃ a, t.accounts account = some a ∧ a.owner = authority ∧ a.frozen = false ∧
    t' = t.setAccount account
      { a with owner := newOwner, delegate := none, delegatedAmount := 0 }

/-- A fresh account starts frozen when its mint says so. -/
def InitializesAccount (t : Tokens) (account mint owner : Pubkey) (t' : Tokens) : Prop :=
  ∃ m, t.mints mint = some m ∧ t.accounts account = none ∧
    t' = t.setAccount account
      { mint, owner, amount := 0, delegate := none, delegatedAmount := 0,
        frozen := m.defaultFrozen }

/-- A fresh mint has no supply, and nobody holds an account of it yet. -/
def InitializesMint (t : Tokens) (mint : Pubkey) (m : Mint) (t' : Tokens) : Prop :=
  t.mints mint = none ∧ m.supply = 0 ∧ t' = t.setMint mint m

end Tokens

/-- The token program. An instruction is refused with `none`. -/
structure TokenProgram where
  mintTo (t : Tokens) (mint dst authority : Pubkey) (n : UInt64) : Option Tokens
  burn (t : Tokens) (mint src authority : Pubkey) (n : UInt64) : Option Tokens
  transferChecked (t : Tokens) (src mint dst authority : Pubkey) (n : UInt64) : Option Tokens
  /-- What the mint's transfer-fee extension withholds from a transfer. -/
  transferFee (t : Tokens) (mint : Pubkey) (n : UInt64) : UInt64
  thawAccount (t : Tokens) (account mint authority : Pubkey) : Option Tokens
  freezeAccount (t : Tokens) (account mint authority : Pubkey) : Option Tokens
  approve (t : Tokens) (account delegate authority : Pubkey) (n : UInt64) : Option Tokens
  setAccountOwner (t : Tokens) (account newOwner authority : Pubkey) : Option Tokens
  initializeAccount (t : Tokens) (account mint owner : Pubkey) : Option Tokens
  initializeMint (t : Tokens) (mint : Pubkey) (m : Mint) : Option Tokens
  mintTo_ok {t mint dst authority n t'} : mintTo t mint dst authority n = some t' →
    t.MintsTo mint dst authority n t'
  burn_ok {t mint src authority n t'} : burn t mint src authority n = some t' →
    t.Burns mint src authority n t'
  transferChecked_ok {t src mint dst authority n t'} :
    transferChecked t src mint dst authority n = some t' →
    t.Transfers src mint dst authority n (transferFee t mint n) t'
  transferFee_le {t mint n} : transferFee t mint n ≤ n
  thawAccount_ok {t account mint authority t'} :
    thawAccount t account mint authority = some t' → t.Thaws account mint authority t'
  freezeAccount_ok {t account mint authority t'} :
    freezeAccount t account mint authority = some t' → t.Freezes account mint authority t'
  approve_ok {t account delegate authority n t'} :
    approve t account delegate authority n = some t' → t.Approves account delegate authority n t'
  setAccountOwner_ok {t account newOwner authority t'} :
    setAccountOwner t account newOwner authority = some t' →
    t.SetsAccountOwner account newOwner authority t'
  initializeAccount_ok {t account mint owner t'} :
    initializeAccount t account mint owner = some t' → t.InitializesAccount account mint owner t'
  initializeMint_ok {t mint m t'} : initializeMint t mint m = some t' →
    t.InitializesMint mint m t'
  /-- For a mint without further extensions there is nothing else that refuses a burn by someone
  other than the owner. -/
  burn_plain {t mint src authority n t' m a} : t.mints mint = some m → m.extended = false →
    t.accounts src = some a → a.owner ≠ authority →
    t.Burns mint src authority n t' → burn t mint src authority n = some t'

end SolanaStablecoin
