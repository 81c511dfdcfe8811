import SolanaStablecoin.Program.Hook

/-! A transfer as the token program carries it out: it moves the tokens, and then it calls the
program that the mint names with the extra accounts that are registered for the mint. -/

namespace SolanaStablecoin

open Cell Layout

variable (rt : Runtime) (clock : Clock) (s : State)

/-- What a seed stands for, by the accounts of the call: a literal, or an address that one of them
has or holds. -/
def Seed.resolve (accounts : List Pubkey) : Seed → Option (HookSeed ⊕ Pubkey)
  | literal bytes => some (.inl bytes)
  | accountKey index => accounts[index]?.map .inr
  | accountData accountIndex dataIndex length => do
    guard (length = 32)
    let account ← accounts[accountIndex]?
    (key.read (s.data account) dataIndex).map .inr

/-- The address that the hook derives from the seeds. -/
def derive : List (HookSeed ⊕ Pubkey) → Option Pubkey
  | [.inl literal, .inr mint] => some (.hook literal mint)
  | [.inl literal, .inr mint, .inr wallet] => some (.hookWallet literal mint wallet)
  | _ => none

/-- An entry that `new_with_seeds` made is an address of the program that is called. -/
def ExtraAccountMeta.resolve (accounts : List Pubkey) (e : ExtraAccountMeta) :
    Option AccountInfo := do
  let seeds ← e.seeds.mapM (Seed.resolve s accounts)
  let key ← derive seeds
  pure { key, isWritable := e.isWritable }

/-- An entry may refer to the ones before it. -/
def resolveExtras (accounts : List Pubkey) : List ExtraAccountMeta → Option (List AccountInfo)
  | [] => some []
  | e :: es => do
    let i ← e.resolve s accounts
    let is ← resolveExtras (accounts ++ [i.key]) es
    pure (i :: is)

/-- The call of the hook that belongs to a transfer. -/
def hookCall (src mint dst owner : Pubkey) : Option TransferHook := do
  let extraAccountMetaList := Pubkey.hook .extraAccountMetas mint
  let metas ← s.extraAccountMetaLists extraAccountMetaList
  let extras ← resolveExtras s [src, mint, dst, owner, extraAccountMetaList] metas
  pure
    { sourceTokenAccount := src, mint, destinationTokenAccount := dst, owner
      extraAccountMetaList, extras }

/-- Of the programs that a mint may name only this hook is modelled; any other is taken to
accept. -/
def executeTransfer (src mint dst authority : Pubkey) (n : UInt64) : Result State := do
  let m ← load s.tokens.mints mint
  let tokens ← (rt.token.transferChecked s.tokens src mint dst authority n).okOr .token
  let moved := { s with tokens }
  if m.transferHook = some .transferHookProgram then do
    let call ← (hookCall moved src mint dst authority).okOr .token
    transferHookHandler clock moved call n
  else pure moved

end SolanaStablecoin
