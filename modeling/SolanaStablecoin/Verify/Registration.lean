import SolanaStablecoin.Program.Transfer
import SolanaStablecoin.Verify.Policy
import SolanaStablecoin.Verify.Step

/-! The accounts that Token-2022 hands to the hook are the ones that the hook has registered. Over
every run these are the same three, and the second is not the config that the hook asks for. -/

namespace SolanaStablecoin

open Cell Layout Transition

section Calls

variable {rt : Runtime} {clock : Clock} {s s' : State} {a : TransferHook} {as : List Action}
  {src mint dst owner w : Pubkey} {n : UInt64}

/-- Every list is the one that the hook writes. -/
def Registered (s : State) : Prop :=
  ∀ k metas, s.extraAccountMetaLists k = some metas → metas = accountMetas

theorem Registered.step {a : Action} (hr : Registered s) (h : Action.exec rt s a = .ok s') :
    Registered s' := by
  intro k metas hk
  rcases (exec_step h).lists with ⟨-, heq⟩ | ⟨clock, i, rfl, hlists⟩
  · rw [heq] at hk
    exact hr k metas hk
  · rcases hlists.metas with heq | ⟨mint, hput⟩
    · rw [heq] at hk
      exact hr k metas hk
    · rw [hput] at hk
      rcases put_eq_some.mp hk with ⟨-, rfl⟩ | ⟨-, hk⟩
      · rfl
      · exact hr k metas hk

/-- What the list resolves to: three addresses of the hook itself. -/
theorem resolveExtras_accountMetas {list : Pubkey} {extras : List AccountInfo}
    (h : resolveExtras s [src, mint, dst, owner, list] accountMetas = some extras) :
    ∃ w, extras =
      [ { key := .hook .blacklistState mint, isWritable := false },
        { key := .hook .stablecoinConfig mint, isWritable := false },
        { key := .hookWallet .zkVerification mint w, isWritable := false } ] := by
  simp [resolveExtras, accountMetas, ExtraAccountMeta.resolve, Seed.resolve, derive] at h
  cases hread : key.read (s.data src) 32 with
  | none => simp [hread] at h
  | some w =>
    simp [hread] at h
    exact ⟨w, h.symm⟩

/-- The call is made for the transfer, and its second account is an address of the hook. -/
theorem hookCall_eq_some (hr : Registered s) (h : hookCall s src mint dst owner = some a) :
    a.mint = mint ∧ a.extraAccountMetaList = .hook .extraAccountMetas mint ∧
      ∃ b g v, a.extras = [b, g, v] ∧ b.key = .hook .blacklistState mint ∧
        g.key = .hook .stablecoinConfig mint := by
  simp only [hookCall, Option.bind_eq_bind, Option.bind_eq_some_iff, Option.pure_def,
    Option.some.injEq] at h
  obtain ⟨metas, hmetas, extras, hextras, rfl⟩ := h
  cases hr _ _ hmetas
  obtain ⟨w, rfl⟩ := resolveExtras_accountMetas hextras
  exact ⟨rfl, rfl, _, _, _, rfl, rfl, rfl⟩

open TransferHook

/-- The hook asks for the config of `sss-token`, and what it is given is an address of its own. -/
theorem not_supplies_of_hookCall {c : StablecoinConfig} {remaining : List AccountInfo}
    (hr : Registered s) (h : hookCall s src mint dst owner = some a) :
    ¬ Supplies a c w remaining := by
  intro hsupplies
  obtain ⟨-, -, b, g, v, hextras, -, hg⟩ := hookCall_eq_some hr h
  obtain ⟨b', g', v', hextras', -, hg', -⟩ := hsupplies.placed
  rw [hextras] at hextras'
  cases hextras'
  rw [hg] at hg'
  cases hg'

/-- The error of a compliant transfer. -/
theorem transferHookHandler_of_hookCall {c : StablecoinConfig} {bl : BlacklistState} {w w' : Pubkey}
    (hr : Registered s) (h : hookCall s src mint dst owner = some a)
    (hcomplies : Complies clock s a n c bl w w') :
    transferHookHandler clock s a n = .error (.hook .invalidConfig) := by
  obtain ⟨rfl, hmetas, b, g, v, hextras, hb, hg⟩ := hookCall_eq_some hr h
  have hsplit : a.split = .ok (b, g, v, []) := split_eq_ok.mpr hextras
  have hlist : load s.blacklistStates b.key = .ok bl := by
    rw [load_eq_ok, hb, hcomplies.blacklist]
  have hsource : readOwner s a.sourceTokenAccount .senderBlacklisted = .ok w :=
    readOwner_eq_ok.mpr hcomplies.source
  have hdestination : readOwner s a.destinationTokenAccount .receiverBlacklisted = .ok w' :=
    readOwner_eq_ok.mpr hcomplies.destination
  have hsender : bl.isBlacklisted w = false := by
    simpa [BlacklistState.isBlacklisted] using hcomplies.sender
  have hreceiver : bl.isBlacklisted w' = false := by
    simpa [BlacklistState.isBlacklisted] using hcomplies.receiver
  have hother : g.key ≠ .stablecoinConfig a.mint := by
    rw [hg]
    intro h
    cases h
  simp only [transferHookHandler, ok_bind, hsplit, hlist, require_pos hmetas, require_pos hb,
    hsource, require_pos hsender, hdestination, require_pos hreceiver, require_neg hother]
  rfl

/-- Along every run the call that Token-2022 makes of the hook is refused, for every mint with a
list of extra accounts and every transfer, and a transfer that complies with all policies is refused
for its config. -/
theorem token2022_call_refused (rt : Runtime) (hs : ∀ k, s.extraAccountMetaLists k = none)
    (as : List Action) (clock : Clock) (n : UInt64)
    (h : hookCall (run rt s as) src mint dst owner = some a) :
    Refused rt clock (run rt s as) (.transferHook a n) ∧
      ∀ c bl w w', Complies clock (run rt s as) a n c bl w w' →
        transferHookHandler clock (run rt s as) a n = .error (.hook .invalidConfig) := by
  have hfirst : Registered s := by
    intro k metas hk
    rw [hs] at hk
    cases hk
  have hr : Registered (run rt s as) := invariant_run_of_forall Registered.step as hfirst
  constructor
  · apply refused_of_not_ok
    intro s' hok
    obtain ⟨c, bl, w, w', remaining, -, hsupplies, -⟩ := transferHookHandler_eq_ok.mp hok
    exact not_supplies_of_hookCall hr h hsupplies
  · intro c bl w w' hcomplies
    exact transferHookHandler_of_hookCall hr h hcomplies

end Calls

namespace Market

/-- What the list of the stablecoin resolves to for a transfer of the user. -/
def resolved : List Pubkey :=
  [ .hook .blacklistState mint.key, .hook .stablecoinConfig mint.key,
    .hookWallet .zkVerification mint.key user.key ]

end Market

open Market TransferHook in
/-- The user sends 1 of a mint with no policy but an empty blacklist. -/
theorem compliant_transfer_refused :
    hookCall (run localRuntime genesis (compliant 0)) userStable.key mint.key otherStable.key
        user.key = some (transferCall resolved) ∧
      (∃ c bl w w', Complies (day 1) (run localRuntime genesis (compliant 0))
        (transferCall resolved) 1 c bl w w') ∧
      (transferHookHandler (day 1) (run localRuntime genesis (compliant 0))
        (transferCall resolved) 1).isOk = false := by
  refine ⟨by decide +kernel, ?_, by decide +kernel⟩
  -- with the accounts that it asks for, the hook accepts the transfer
  have hok : (transferHookHandler (day 1) (run localRuntime genesis (compliant 0))
      (transferCall placed) 1).isOk = true := by decide +kernel
  obtain ⟨s', hs'⟩ := isOk_iff.mp hok
  obtain ⟨c, bl, w, w', -, hcomplies, -⟩ := transferHookHandler_eq_ok.mp hs'
  exact ⟨c, bl, w, w', hcomplies.with_extras (transferCall resolved).extras⟩

open Market in
theorem token2022_call_refused_compliant :
    Refused localRuntime (day 1) (run localRuntime genesis (compliant 0))
      (.transferHook (transferCall resolved) 1) := by
  have hcall : hookCall (run localRuntime genesis (compliant 0)) userStable.key mint.key
      otherStable.key user.key = some (transferCall resolved) := by decide +kernel
  exact (token2022_call_refused localRuntime (fun _ => rfl) (compliant 0) (day 1) 1 hcall).1

end SolanaStablecoin
