import SolanaStablecoin.Verify.Succession

/-! The rotation of an authority: whose a pending request is, and who can cancel it. -/

namespace SolanaStablecoin

open Transition

variable {rt : Runtime} {clock : Clock} {s s' : State} {a : Action} {i : Instruction}
  {c c' : StablecoinConfig} {M : Pubkey} {es : List Pubkey}

/-- Who proposes a rotation of `M`. -/
def Instruction.proposers (M : Pubkey) : Instruction → List Pubkey
  | proposeAuthorityRotation b _ _ => if b.mint = M then [b.authority.key] else []
  | _ => []

/-- What becomes of the rotation of `M`. -/
inductive RotationStep (M : Pubkey) (s s' : State) : Instruction → Prop where
  | same {i : Instruction} (h : s'.rotation M = s.rotation M) (quiet : i.proposers M = []) :
    RotationStep M s s' i
  | proposed {b : AuthorityAndMint} {new backup : Pubkey} {c : StablecoinConfig}
    {req : AuthorityRotationRequest} (mint : b.mint = M)
    (config : s.configs (.stablecoinConfig M) = some c) (signed : c.authority = b.authority.key)
    (squads : c.SquadsSigns c.authority) (configs : s'.configs = s.configs)
    (h : s'.rotation M = some req) (creator : req.currentAuthority = c.authority)
    (configMint : req.configMint = M) : RotationStep M s s' (.proposeAuthorityRotation b new backup)
  | closed {i : Instruction} (h : s'.rotation M = none) : RotationStep M s s' i

theorem State.rotation_of_ne {mint : Pubkey} {x : Option AuthorityRotationRequest}
    (hM : mint ≠ M) (h : s'.authorityRotationRequests =
      Function.update s.authorityRotationRequests (.authorityRotation mint) x) :
    s'.rotation M = s.rotation M := by
  rw [State.rotation, State.rotation, h, Function.update_of_ne]
  exact fun heq => hM (Pubkey.authorityRotation.inj heq).symm

theorem proposeAuthorityRotationHandler_rotation {b : AuthorityAndMint} {new backup : Pubkey}
    (h : proposeAuthorityRotationHandler clock s b new backup = .ok s') :
    RotationStep M s s' (.proposeAuthorityRotation b new backup) := by
  simp only [proposeAuthorityRotationHandler, bind_eq_ok, load_eq_ok, require_eq_ok,
    checkSquads_eq_ok, pure_eq_ok] at h
  obtain ⟨c, hc, -, hsigned, -, -, _, -, -, hmint, _, hsquads, -, -, -, -, -, -, -, -, -, -, x, -,
    rfl⟩ := h
  by_cases hM : b.mint = M
  · subst hM
    exact .proposed rfl hc hsigned (hsigned ▸ hsquads) rfl (put_self ..) rfl hmint.symm
  · exact .same (State.rotation_of_ne hM rfl) (if_neg hM)

theorem TakeOver.complete_rotation {b : TakeOver} {named : AuthorityRotationRequest → Pubkey}
    {delay : AuthorityRotationRequest → UInt64} {e : SssError}
    (h : b.complete clock s named delay e = .ok s') (hi : i.proposers M = []) :
    RotationStep M s s' i := by
  simp only [complete, bind_eq_ok, pure_eq_ok] at h
  obtain ⟨c, -, req, -, -, -, -, -, -, -, _, -, -, -, _, -, -, -, rfl⟩ := h
  by_cases hM : b.mint = M
  · subst hM
    exact .closed (Function.update_self ..)
  · exact .same (State.rotation_of_ne hM rfl) hi

theorem cancelAuthorityRotationHandler_rotation {b : AuthorityAndMint}
    (h : cancelAuthorityRotationHandler s b = .ok s') :
    RotationStep M s s' (.cancelAuthorityRotation b) := by
  simp only [cancelAuthorityRotationHandler, bind_eq_ok, pure_eq_ok] at h
  obtain ⟨c, -, -, -, req, -, -, -, -, -, _, -, -, -, -, -, rfl⟩ := h
  by_cases hM : b.mint = M
  · subst hM
    exact .closed (Function.update_self ..)
  · exact .same (State.rotation_of_ne hM rfl) rfl

theorem Instruction.exec_rotation (h : i.exec rt clock s = .ok s') : RotationStep M s s' i := by
  cases hi : i.rotates with
  | true =>
    cases i with
    | proposeAuthorityRotation => exact proposeAuthorityRotationHandler_rotation h
    | acceptAuthorityRotation | emergencyRecoverAuthority => exact TakeOver.complete_rotation h rfl
    | cancelAuthorityRotation => exact cancelAuthorityRotationHandler_rotation h
    | _ => cases hi
  | false =>
    have hquiet : i.proposers M = [] := by
      cases i with
      | proposeAuthorityRotation => cases hi
      | _ => rfl
    have of_eq (h : s'.authorityRotationRequests = s.authorityRotationRequests) :
        RotationStep M s s' i := .same (congrFun h _) hquiet
    cases Instruction.exec_councils h with
    | rotated kind =>
      rw [hi] at kind
      cases kind
    | same h => exact of_eq (congrArg Councils.authorityRotationRequests h)
    | deliberated _ h | guarded _ h | licensed _ h =>
      exact of_eq (congrArg Councils.authorityRotationRequests h)

/-! ## Runs -/

/-- Who has proposed rotations of `M`. -/
def proposers (M : Pubkey) (_ : State) : Action → List Pubkey
  | .call _ i => i.proposers M
  | .world _ => []

/-- While a rotation of `M` is pending: the authority stays who it is, and a multisig that it is
not is given no flag. -/
structure Undisturbed (M : Pubkey) (s : State) (c : StablecoinConfig) (i : Instruction) : Prop where
  accepted : ∀ b, i = .acceptAuthority b → b.mint = M → c.pendingAuthority = c.authority
  seated : ∀ b p, i = .initSquadsAuthority b p → b.mint = M → p.multisigPda = c.authority
  raised : RaisesSquads M s c i → c.authority = c.squadsMultisig

/-- A transaction that succeeds leaves the pending rotation of `M` undisturbed. -/
def LeavesRotation (rt : Runtime) (M : Pubkey) (s : State) (a : Action) : Prop :=
  ∀ clock i c s', a = .call clock i → i.exec rt clock s = .ok s' →
    s.configs (.stablecoinConfig M) = some c → s.rotation M ≠ none → Undisturbed M s c i

/-- The last one who proposed a rotation is the authority, and can sign for a multisig. -/
def RotationOwned (M : Pubkey) (s : State) (es : List Pubkey) : Prop :=
  ∀ req, s.rotation M = some req → req.configMint = M ∧ ∃ c,
    s.configs (.stablecoinConfig M) = some c ∧ c.authority = req.currentAuthority ∧
    es.getLast? = some c.authority ∧ c.authority ≠ .default ∧ c.SquadsSigns c.authority

theorem Succession.undisturbed (h : Succession M s s' c c' i) (hno : Undisturbed M s c i)
    (hpending : s'.rotation M ≠ none) (hauthority : c.authority ≠ .default)
    (hsigns : c.SquadsSigns c.authority) :
    c'.authority = c.authority ∧ c'.SquadsSigns c'.authority := by
  cases h with
  | same authority multisig flag =>
    refine ⟨authority, fun hflag => ?_⟩
    rw [authority, multisig]
    rcases flag hflag with hold | hraises
    · exact hsigns hold
    · have heq := hno.raised hraises
      exact ⟨heq ▸ hauthority, heq⟩
  | handed hands authority multisig flags closed =>
    cases hands with
    | accepted mint =>
      have heq := hno.accepted _ rfl mint
      rw [StablecoinConfig.SquadsSigns, authority, multisig, flags, heq]
      exact ⟨rfl, hsigns⟩
    | rotated | recovered => exact absurd (closed (by simp)) hpending
  | seated mint authority multisig =>
    have heq := hno.seated _ _ rfl mint
    rw [StablecoinConfig.SquadsSigns, authority, multisig, heq]
    exact ⟨rfl, fun _ => ⟨hauthority, rfl⟩⟩

theorem RotationOwned.step (h : RotationOwned M s es) (hexec : i.exec rt clock s = .ok s')
    (hno : ∀ c, s.configs (.stablecoinConfig M) = some c → s.rotation M ≠ none →
      Undisturbed M s c i) : RotationOwned M s' (es ++ i.proposers M) := by
  intro req hreq
  have hpending : s'.rotation M ≠ none := by simp [hreq]
  cases Instruction.exec_rotation hexec with
  | same hsame quiet =>
    rw [hsame] at hreq
    obtain ⟨hmint, c, hc, howner, hlast, hauthority, hsigns⟩ := h req hreq
    obtain ⟨c', hc', hsuccession⟩ := Instruction.exec_succession hexec hc
    obtain ⟨heq, hsigns'⟩ := hsuccession.undisturbed (hno c hc (by simp [hreq])) hpending
      hauthority hsigns
    rw [quiet, List.append_nil]
    exact ⟨hmint, c', hc', heq.trans howner, heq ▸ hlast, heq ▸ hauthority, hsigns'⟩
  | @proposed b new backup c req' mint config signed squads configs hnew creator configMint =>
    cases hreq.symm.trans hnew
    refine ⟨configMint, c, configs ▸ config, creator.symm, ?_, ?_, squads⟩
    · rw [Instruction.proposers, if_pos mint, List.getLast?_concat, signed]
    · rw [signed]
      exact b.authority.ne_default
  | closed hclosed => exact absurd hclosed hpending

theorem RotationOwned.world {w : World} (h : RotationOwned M s es) (hexec : w.exec rt s = .ok s') :
    RotationOwned M s' es := by
  have hrotation : s'.rotation M = s.rotation M :=
    congrFun (congrArg Councils.authorityRotationRequests (World.exec_settled hexec).councils) _
  intro req hreq
  rw [hrotation] at hreq
  rw [World.exec_configs hexec]
  exact h req hreq

theorem run_rotationOwned {as : List Action} (hs : s.rotation M = none)
    (h : Along (Action.exec rt) (LeavesRotation rt M) s as) :
    RotationOwned M (run rt s as) (history (Action.exec rt) (proposers M) s as) := by
  refine invariant_history (h := []) (fun {s s' a es} hi hno hexec => ?_) ?_ h
  · cases a with
    | call clock i => exact hi.step hexec fun c hc hp => hno clock i c s' rfl hexec hc hp
    | world w =>
      rw [proposers, List.append_nil]
      exact hi.world hexec
  · intro req hreq
    rw [hs] at hreq
    cases hreq

/-- The authority whose request it is cancels it. -/
theorem cancelAuthorityRotationHandler_of_owned {req : AuthorityRotationRequest} {who : Signer}
    (wf : WellFormed s) (hc : s.configs (.stablecoinConfig M) = some c)
    (hreq : s.rotation M = some req) (hmint : req.configMint = M)
    (howner : c.authority = req.currentAuthority) (hsigns : c.SquadsSigns c.authority)
    (hwho : who.key = c.authority) :
    ∃ s', cancelAuthorityRotationHandler s { authority := who, mint := M } = .ok s' ∧
      s'.rotation M = none := by
  obtain ⟨hk, m, hm, -⟩ := wf _ c hc
  have hM : M = c.mint := Pubkey.stablecoinConfig.inj hk
  rw [← hM] at hm
  refine ⟨{ s with authorityRotationRequests :=
    Function.update s.authorityRotationRequests (.authorityRotation M) none }, ?_,
    Function.update_self ..⟩
  simp only [cancelAuthorityRotationHandler, bind_eq_ok, load_eq_ok, require_eq_ok,
    checkSquads_eq_ok, pure_eq_ok]
  exact ⟨c, hc, (), hwho.symm, req, hreq, (), hmint, (), (hwho.trans howner).symm, m, hm, (), hM,
    (), hwho ▸ hsigns, trivial⟩

namespace Market

/-- The authority wants the user to take its place. -/
def proposeUser : Action :=
  .call (day 0) (.proposeAuthorityRotation asAuthority user.key (.key 50))

/-- It does so before anything else happens. -/
def rotating : List Action := multisigned authority.key ++ [proposeUser]

/-- And then transfers the authority to somebody else. -/
def stale : State :=
  run localRuntime undelayed
    [ proposeUser,
      .call (day 0) (.updateRoles asAuthority { newAuthority := some other.key }),
      .call (day 0) (.acceptAuthority { pending := other, mint := mint.key }) ]

end Market

/-- In every run that leaves pending rotations undisturbed: a rotation takes effect only while the
authority is the last one who proposed one, and the authority can cancel what is pending. -/
theorem rotation_belongs_to_authority {as : List Action} (hs : Genesis s)
    (hr : s.rotation M = none) (h : Along (Action.exec rt) (LeavesRotation rt M) s as) :
    (∀ (clock : Clock) (b : TakeOver) (i : Instruction) (s' : State), b.mint = M →
      i = .acceptAuthorityRotation b ∨ i = .emergencyRecoverAuthority b →
      i.exec rt clock (run rt s as) = .ok s' → ∃ c,
        (run rt s as).configs (.stablecoinConfig M) = some c ∧
        (history (Action.exec rt) (proposers M) s as).getLast? = some c.authority) ∧
    ∀ req, (run rt s as).rotation M = some req → ∃ c,
      (run rt s as).configs (.stablecoinConfig M) = some c ∧
      ∀ (who : Signer) (clock : Clock), who.key = c.authority → ∃ s',
        (Instruction.cancelAuthorityRotation { authority := who, mint := M }).exec rt clock
          (run rt s as) = .ok s' ∧ s'.rotation M = none := by
  have hall := run_rotationOwned hr h
  constructor
  · intro clock b i s' hM hi hexec
    have hreq : ∃ req, (run rt s as).rotation M = some req := by
      rcases hi with rfl | rfl
      all_goals
        obtain ⟨-, req, -, hreq, -⟩ := TakeOver.complete_sets hexec
        exact ⟨req, hM ▸ hreq⟩
    obtain ⟨req, hreq⟩ := hreq
    obtain ⟨-, c, hc, -, hlast, -⟩ := hall req hreq
    exact ⟨c, hc, hlast⟩
  · intro req hreq
    obtain ⟨hmint, c, hc, howner, -, -, hsigns⟩ := hall req hreq
    have wf : WellFormed (run rt s as) := hs.wellFormed.run as
    exact ⟨c, hc, fun who clock hwho =>
      cancelAuthorityRotationHandler_of_owned wf hc hreq hmint howner hsigns hwho⟩

open Market in
theorem rotation_belongs_to_authority_rotating : ∃ req c,
    (run localRuntime genesis rotating).rotation mint.key = some req ∧
    (run localRuntime genesis rotating).configs config = some c ∧
    ∀ (who : Signer) (clock : Clock), who.key = c.authority → ∃ s',
      (Instruction.cancelAuthorityRotation { authority := who, mint := mint.key }).exec
        localRuntime clock (run localRuntime genesis rotating) = .ok s' ∧
      s'.rotation mint.key = none := by
  have hpending : ((run localRuntime genesis rotating).rotation mint.key).isSome := by
    decide +kernel
  obtain ⟨req, hreq⟩ := Option.isSome_iff_exists.mp hpending
  have hnone (s : State) (a : Action) (h : (s.rotation mint.key).isNone = true) :
      LeavesRotation localRuntime mint.key s a :=
    fun _ _ _ _ _ _ _ hp => absurd (Option.isNone_iff_eq_none.mp h) hp
  have halong : Along (Action.exec localRuntime) (LeavesRotation localRuntime mint.key) genesis
      rotating :=
    ⟨hnone _ _ (by decide +kernel), hnone _ _ (by decide +kernel), trivial⟩
  obtain ⟨c, hc, hcancel⟩ :=
    (rotation_belongs_to_authority genesis_genesis (by rfl) halong).2 req hreq
  exact ⟨req, c, hreq, hc, hcancel⟩

open Market in
/-- The new authority can not cancel the old one's request, which takes effect nevertheless. -/
theorem stale_rotation_takes_effect :
    (stale.configs config).map (·.authority) = some other.key ∧
    (stale.rotation mint.key).map (·.currentAuthority) = some authority.key ∧
    ((Instruction.cancelAuthorityRotation { authority := other, mint := mint.key }).exec
      localRuntime (day 9) stale).isOk = false ∧
    ((Instruction.acceptAuthorityRotation
      { successor := user, currentAuthority := authority.key, mint := mint.key }).exec
      localRuntime (day 9) stale).toOption.bind (fun s' => (s'.configs config).map (·.authority)) =
      some user.key := by
  decide +kernel

end SolanaStablecoin
