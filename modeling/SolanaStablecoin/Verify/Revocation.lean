import SolanaStablecoin.Verify.Policy
import SolanaStablecoin.Verify.Step

/-! The record of a holder over whole runs: it is created, refreshed, revoked and closed by
different signers, and the transfer hook reads what is left of it. -/

namespace SolanaStablecoin

open Transition

variable {rt : Runtime} {s s' : State} {a : Action} {as : List Action} {M w : Pubkey}

/-- The config and the holder whose record an instruction writes. -/
def Instruction.certifies : Instruction → Option (Pubkey × Pubkey)
  | verifyZkCredential b _ _ => some (b.config, b.holder.key)
  | revokeCredential b => some (b.config, b.holder)
  | closeCredentialRecord b => some (b.config, b.holder.key)
  | _ => none

/-- The transaction writes the record of `w` for the mint `M`. -/
def CredentialEvent (M w : Pubkey) : Action → Prop
  | .call _ i => i.certifies = some (.stablecoinConfig M, w)
  | .world _ => False

theorem SetsCredential.certifies {clock : Clock} {c : StablecoinConfig} {i : Instruction}
    {holder : Pubkey} {r : Option CredentialRecord} (h : SetsCredential clock s c i holder r) :
    i.certifies = some (.stablecoinConfig c.mint, holder) := by
  cases h with
  | verify config | revoke config | close config => rw [Instruction.certifies, config]

/-- An instruction that writes a record writes no registry. -/
theorem CertifiesFiles.sets_credential {clock : Clock} {i : Instruction}
    (h : CertifiesFiles clock s i s') (he : i.certifies = some (.stablecoinConfig M, w)) :
    ∃ c r, c.mint = M ∧ SetsCredential clock s c i w r ∧
      s'.credentialRecords (.credentialRecord M w) = r := by
  cases h with
  | registry sets => cases sets <;> cases he
  | @credential c holder r sets files =>
    have hplace := sets.certifies.symm.trans he
    cases hplace
    have hrecords : s'.credentialRecords = Function.update s.credentialRecords _ r :=
      congrArg Files.credentialRecords files
    exact ⟨c, r, rfl, sets, by rw [hrecords, Function.update_self]⟩

/-- A successful event sets the record. -/
theorem exec_credential (h : Action.exec rt s a = .ok s') (he : CredentialEvent M w a) :
    ∃ clock i c r, a = .call clock i ∧ c.mint = M ∧ SetsCredential clock s c i w r ∧
      s'.credentialRecords (.credentialRecord M w) = r := by
  cases a with
  | world => cases he
  | call clock i =>
    have hfiles : CertifiesFiles clock s i s' := by
      cases i with
      | verifyZkCredential => exact (verifyZkCredentialHandler_ok h).files
      | revokeCredential => exact (revokeCredentialHandler_ok h).files
      | closeCredentialRecord => exact (closeCredentialRecordHandler_ok h).files
      | _ => cases he
    obtain ⟨c, r, hc, hsets, hr⟩ := hfiles.sets_credential he
    exact ⟨clock, i, c, r, rfl, hc, hsets, hr⟩

/-- Nothing else writes it. -/
theorem exec_credential_frame (h : Action.exec rt s a = .ok s') (he : ¬ CredentialEvent M w a) :
    s'.credentialRecords (.credentialRecord M w) = s.credentialRecords (.credentialRecord M w) := by
  cases (exec_step h).files with
  | same h => exact congrFun (congrArg Files.credentialRecords h) _
  | list h => rw [h.credentials]
  | escrow h => exact congrFun (congrArg Files.credentialRecords h.files) _
  | certify h =>
    cases h with
    | registry _ files => exact congrFun (congrArg Files.credentialRecords files) _
    | @credential c holder r sets files =>
      have hrecords : s'.credentialRecords = Function.update s.credentialRecords _ r :=
        congrArg Files.credentialRecords files
      have hne : Pubkey.credentialRecord M w ≠ .credentialRecord c.mint holder := by
        intro heq
        cases heq
        exact he sets.certifies
      rw [hrecords, Function.update_of_ne hne]

/-- The run of `as` certified `w` at last: the issuer of that time co-signed against the root of
that time, and the record has neither been written since nor expired by `now`. -/
structure Certified (rt : Runtime) (M w : Pubkey) (s : State) (as : List Action) (now : Clock)
    (init : List Action) (clock : Clock) (b : VerifyZkCredential) (proof signals : List UInt8)
    (r : CredentialRegistry) : Prop where
  last : ∃ s' tail, Last (Action.exec rt) (fun _ a _ => CredentialEvent M w a) s as init
    (.call clock (.verifyZkCredential b proof signals)) s' tail
  registry : (run rt s init).credentialRegistries (.credentialRegistry M) = some r
  issuer : b.issuer.key = r.issuer
  root : signals.take 32 = Layout.leBytes 32 r.merkleRoot.toNat
  inTime : r.credentialTtlSlots = 0 ∨
    now.slot.toNat ≤ clock.slot.toNat + r.credentialTtlSlots.toNat

/-- Without an event the record stays. -/
theorem run_credential {r : Option CredentialRecord}
    (hr : s.credentialRecords (.credentialRecord M w) = r)
    (hnever : Never (Action.exec rt) (fun _ a _ => CredentialEvent M w a) s as) :
    (run rt s as).credentialRecords (.credentialRecord M w) = r :=
  invariant_never (fun hr h hnot => (exec_credential_frame h hnot).trans hr) hr hnever

/-- A record that the hook finds valid is used within the time of its registry. -/
theorem CredentialRegistry.Expires.inTime {r : CredentialRegistry} {slot now expiresSlot : UInt64}
    (h : r.Expires slot expiresSlot) (hvalid : expiresSlot = 0 ∨ now ≤ expiresSlot) :
    r.credentialTtlSlots = 0 ∨ now.toNat ≤ slot.toNat + r.credentialTtlSlots.toNat := by
  rcases h with ⟨hzero, -⟩ | ⟨hne, hslot⟩
  · exact .inl hzero
  · rcases hvalid with rfl | hle
    · have hpos : r.credentialTtlSlots.toNat ≠ 0 := fun h => hne (UInt64.toNat_inj.mp h)
      rw [UInt64.toNat_zero] at hslot
      omega
    · rw [← hslot]
      exact .inr (UInt64.le_iff_toNat_le.mp hle)

/-- A valid record was set by the last event, and that was a verification. -/
theorem certified_of_credentialed {now : Clock} (hs : ∀ k, s.credentialRecords k = none)
    (h : TransferHook.Credentialed now (run rt s as) M w) :
    ∃ init clock b proof signals r, Certified rt M w s as now init clock b proof signals r := by
  obtain ⟨record, hrecord, hvalid, hexpiry⟩ := h
  rcases @never_or_last _ _ _ (Action.exec rt) (fun _ a _ => CredentialEvent M w a) s as with
    hnever | ⟨init, a, s', tail, hlast⟩
  · rw [run_credential (hs _) hnever] at hrecord
    cases hrecord
  · obtain ⟨clock, i, c, r, rfl, rfl, hsets, hr⟩ := exec_credential hlast.succeeds hlast.event
    rw [run, hlast.run_eq, ← run, run_credential hr hlast.never] at hrecord
    subst hrecord
    cases hsets with
    | @verify b proof signals registry _ _ hregistry hissuer hroot _ _ hexpires =>
      exact ⟨init, clock, b, proof, signals, registry,
        { last := ⟨s', tail, hlast⟩
          registry := hregistry
          issuer := hissuer.symm
          root := hroot
          inTime := hexpires.inTime hexpiry }⟩
    | revoke => cases hvalid

/-- The transaction verifies a credential of `w` for the mint `M`. -/
def Verifies (M w : Pubkey) : Action → Prop
  | .call _ (.verifyZkCredential b _ _) => b.config = .stablecoinConfig M ∧ b.holder.key = w
  | _ => False

/-- No record of the holder is valid. -/
def Barred (M w : Pubkey) (s : State) : Prop :=
  ∀ r, s.credentialRecords (.credentialRecord M w) = some r → r.revoked = true

/-- It takes a verification to lift that. -/
theorem Barred.step (hb : Barred M w s) (h : Action.exec rt s a = .ok s')
    (hnot : ¬ Verifies M w a) : Barred M w s' := by
  by_cases he : CredentialEvent M w a
  · obtain ⟨clock, i, c, r, rfl, rfl, hsets, hr⟩ := exec_credential h he
    intro r' hr'
    rw [hr] at hr'
    cases hsets with
    | verify hconfig => exact absurd ⟨hconfig, rfl⟩ hnot
    | revoke =>
      cases hr'
      rfl
    | close => cases hr'
  · intro r hr
    rw [exec_credential_frame h he] at hr
    exact hb r hr

/-- No credential is left, or none that the hook accepts. -/
theorem Barred.not_credentialed {now : Clock} (h : Barred M w s) :
    ¬ TransferHook.Credentialed now s M w := by
  intro hcred
  obtain ⟨r, hr, hvalid, -⟩ := hcred
  rw [h r hr] at hvalid
  cases hvalid

/-- The hook accepts a transfer out of an account of `w` under `FLAG_ZK_CREDENTIALS`. -/
def Admits (M w : Pubkey) (now : Clock) (s : State) : Prop :=
  ∃ c a n s', a.mint = M ∧ s.ownerOf a.sourceTokenAccount = some w ∧
    s.configs (.stablecoinConfig M) = some c ∧ c.featureFlags &&& flagZkCredentials ≠ 0 ∧
    transferHookHandler now s a n = .ok s'

theorem Admits.credentialed {now : Clock} (h : Admits M w now s) :
    TransferHook.Credentialed now s M w := by
  obtain ⟨c, a, n, s', rfl, hw, hc, hflag, h⟩ := h
  obtain ⟨c', bl, src, dst, remaining, hcomplies, -, -⟩ := transferHookHandler_eq_ok.mp h
  have hsrc := hcomplies.source
  rw [hw] at hsrc
  cases hsrc
  have hconfig := hcomplies.config
  rw [hc] at hconfig
  cases hconfig
  exact hcomplies.credentialed hflag

/-- Along every run of all instructions, in any order and by anybody: a sender whom the hook
accepts under `FLAG_ZK_CREDENTIALS` was certified at last, and after a revocation only a new
verification makes it accept the holder again. -/
theorem credential_revocation_final (rt : Runtime) (M w : Pubkey)
    (hs : ∀ k, s.credentialRecords k = none) (as : List Action) :
    (∀ now, Admits M w now (run rt s as) →
      ∃ init clock b proof signals r,
        Certified rt M w s as now init clock b proof signals r) ∧
    ∀ clock b s' tail now, b.config = .stablecoinConfig M → b.holder = w →
      Action.exec rt (run rt s as) (.call clock (.revokeCredential b)) = .ok s' →
      Never (Action.exec rt) (fun _ a _ => Verifies M w a) s' tail →
      ¬ Admits M w now (run rt s' tail) := by
  refine ⟨fun now h => certified_of_credentialed hs h.credentialed, ?_⟩
  intro clock b s' tail now hconfig hholder hrevoke hnever hadmits
  have he : CredentialEvent M w (.call clock (.revokeCredential b)) := by
    rw [CredentialEvent, Instruction.certifies, hconfig, hholder]
  have hbarred : Barred M w s' := by
    obtain ⟨clock', i, c, r, hcall, rfl, hsets, hr⟩ := exec_credential hrevoke he
    cases hcall
    cases hsets with
    | revoke =>
      intro r' hr'
      rw [hr] at hr'
      cases hr'
      rfl
  exact (invariant_never Barred.step hbarred hnever).not_credentialed hadmits.credentialed

namespace Market

/-- The authority issues credentials for 300000 slots, one of them to the user on day 1. -/
def certified : List Action :=
  compliant 0 ++
    [ .call (day 0) (.initCredentialRegistry { authority, config }
        { issuer := authority.key, merkleRoot := 5, credentialTtlSlots := 300000 }),
      .call (day 1) (.verifyZkCredential { issuer := authority, config, holder := user }
        (List.replicate 192 0) (Layout.leBytes 32 5)) ]

theorem certified_admits :
    Admits mint.key user.key (day 2) (run localRuntime genesis certified) := by
  have hflag : ((run localRuntime genesis certified).configs (.stablecoinConfig mint.key)).map
      (fun c => decide (c.featureFlags &&& flagZkCredentials ≠ 0)) = some true := by decide +kernel
  have howner : (run localRuntime genesis certified).ownerOf userStable.key = some user.key := by
    decide +kernel
  have hok : (transferHookHandler (day 2) (run localRuntime genesis certified)
      (transferCall (placed ++ [.credentialRecord mint.key user.key])) 1).isOk = true := by
    decide +kernel
  obtain ⟨c, hc, hflag⟩ := Option.map_eq_some_iff.mp hflag
  obtain ⟨s', hs'⟩ := isOk_iff.mp hok
  refine ⟨c, transferCall (placed ++ [.credentialRecord mint.key user.key]), 1, s', rfl, howner, hc,
    of_decide_eq_true hflag, ?_⟩
  exact hs'

end Market

open Market in
/-- A transfer of the user on day 2 goes back to the verification of day 1. -/
theorem credential_revocation_final_certified :
    ∃ init clock b proof signals r,
      Certified localRuntime mint.key user.key genesis certified (day 2) init clock b proof
        signals r :=
  (credential_revocation_final localRuntime mint.key user.key (fun _ => rfl) certified).1 (day 2)
    certified_admits

end SolanaStablecoin
