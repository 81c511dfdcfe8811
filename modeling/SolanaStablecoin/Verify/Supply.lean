import SolanaStablecoin.Base.Issuance
import SolanaStablecoin.Program.Token2022
import SolanaStablecoin.Verify.Step

/-! Supply accounting and the supply cap. The counters of a config, its cap and the supply of its
mint form a book; every transaction is a short history of the ledger of these books. -/

namespace SolanaStablecoin

open Issuance Transition

variable {rt : Runtime} {s s' : State} {a : Action} {c c' : StablecoinConfig} {m : Mint}
  {k mint M : Pubkey} {n : UInt64}

/-! ## Configs and their mints -/

/-- The mint of a config: its config mints, and nobody but holders and delegates burns. -/
structure Mint.OwnedBy (m : Mint) (k : Pubkey) : Prop where
  mintAuthority : m.mintAuthority = some k
  permanentDelegate : m.permanentDelegate = none
  plain : m.extended = false

/-- Every config lies at the address derived from its mint, which exists under its authority. -/
def WellFormed (s : State) : Prop :=
  ∀ k c, s.configs k = some c → k = .stablecoinConfig c.mint ∧
    ∃ m, s.tokens.mints c.mint = some m ∧ m.OwnedBy k

theorem Mint.OwnedBy.supply (h : m.OwnedBy k) (n : UInt64) : { m with supply := n }.OwnedBy k :=
  ⟨h.mintAuthority, h.permanentDelegate, h.plain⟩

theorem Tokens.Reduces.mints {t t' : Tokens} (h : t.Reduces mint n t') :
    ∃ m, t.mints mint = some m ∧ n ≤ m.supply ∧
      t'.mints = put t.mints mint { m with supply := m.supply - n } := by
  obtain ⟨t₁, t₂, src, authority, h₁, -, hburn, h₂⟩ := h
  obtain ⟨m, hm, hle, ht⟩ := hburn.mints
  rw [h₁.mints] at hm ht
  exact ⟨m, hm, hle, h₂.mints.trans ht⟩

/-- A config of the later state comes from one of the earlier state with the same mint. -/
def SameMints (s s' : State) : Prop :=
  ∀ k c', s'.configs k = some c' → ∃ c, s.configs k = some c ∧ c'.mint = c.mint

theorem SameTerms.sameMints (h : SameTerms s s') : SameMints s s' := by
  intro k c' hc'
  obtain ⟨c, hc, ht⟩ := h.config hc'
  exact ⟨c, hc, congrArg Terms.mint ht⟩

theorem SameMints.of_eq (h : s'.configs = s.configs) : SameMints s s' :=
  (SameTerms.of_eq h).sameMints

theorem Posted.sameMints {i r : Nat} (h : Posted s c mint i r s') : SameMints s s' := by
  obtain ⟨c₁, hput, hmint, -⟩ := h.configs
  intro k c' hc'
  rw [hput] at hc'
  rcases put_eq_some.mp hc' with ⟨rfl, rfl⟩ | ⟨-, hc'⟩
  · exact ⟨c, h.config, hmint.trans h.mint_eq.symm⟩
  · exact ⟨c', hc', rfl⟩

theorem WellFormed.of_sameMints (wf : WellFormed s) (hmints : s.tokens.KeepsMints s'.tokens)
    (h : SameMints s s') : WellFormed s' := by
  intro k c' hc'
  obtain ⟨c, hc, hmint⟩ := h k c' hc'
  obtain ⟨hk, m, hm, howned⟩ := wf k c hc
  obtain ⟨n, hn⟩ := hmints _ _ hm
  rw [hmint]
  exact ⟨hk, _, hn, howned.supply n⟩

/-- A step creates a config only by `initialize`. -/
theorem Step.sameMints (h : Step rt s a s') :
    SameMints s s' ∨ ∃ mint, Initialized s mint s' := by
  cases h.configs with
  | terms h => exact .inl h.sameMints
  | posted h => exact .inl h.sameMints
  | initialized h => exact .inr ⟨_, h⟩

theorem WellFormed.step (wf : WellFormed s) (h : Step rt s a s') : WellFormed s' := by
  rcases h.sameMints with hsame | ⟨mint, hinit⟩
  · exact wf.of_sameMints h.changes.keepsMints hsame
  obtain ⟨c, hput, hmint, -⟩ := hinit.config
  obtain ⟨m, hauth, hdelegate, hplain, -, -, htokens⟩ := hinit.created
  intro k c' hc'
  rw [hput] at hc'
  rcases put_eq_some.mp hc' with ⟨rfl, rfl⟩ | ⟨-, hc'⟩
  · rw [hmint]
    exact ⟨rfl, m, by rw [htokens]; exact put_self .., hauth, hdelegate, hplain⟩
  · obtain ⟨hk, m', hm', howned⟩ := wf k c' hc'
    obtain ⟨n, hn⟩ := h.changes.keepsMints _ _ hm'
    exact ⟨hk, _, hn, howned.supply n⟩

theorem Genesis.wellFormed (h : Genesis s) : WellFormed s := by
  intro k c hc
  rw [h.configs] at hc
  cases hc

theorem WellFormed.exec (wf : WellFormed s) (h : Action.exec rt s a = .ok s') : WellFormed s' :=
  wf.step (exec_step h)

theorem WellFormed.run (wf : WellFormed s) (as : List Action) : WellFormed (run rt s as) :=
  invariant_run_of_forall (fun wf h => wf.exec h) as wf

/-! ## The ledger of a state -/

def Terms.book (t : Terms) (m : Mint) : Book :=
  { issued := t.totalMinted.toNat, retired := t.totalBurned.toNat
    supply := m.supply.toNat, cap := t.maxSupply.toNat }

/-- The books of all stablecoins, by their mints. -/
def State.ledger (s : State) : Ledger Pubkey := fun mint =>
  ((s.configs (.stablecoinConfig mint)).map StablecoinConfig.terms).bind fun t =>
    (s.tokens.mints mint).map t.book

theorem ledger_eq_some {b : Book} :
    s.ledger mint = some b ↔
      ∃ c m, s.configs (.stablecoinConfig mint) = some c ∧ s.tokens.mints mint = some m ∧
        b = c.terms.book m := by
  simp only [State.ledger, Option.bind_eq_some_iff, Option.map_eq_some_iff]
  constructor
  · rintro ⟨_, ⟨c, hc, rfl⟩, m, hm, rfl⟩
    exact ⟨c, m, hc, hm, rfl⟩
  · rintro ⟨c, m, hc, hm, rfl⟩
    exact ⟨_, ⟨c, hc, rfl⟩, m, hm, rfl⟩

theorem ledger_of (hc : s.configs (.stablecoinConfig mint) = some c)
    (hm : s.tokens.mints mint = some m) : s.ledger mint = some (c.terms.book m) :=
  ledger_eq_some.mpr ⟨c, m, hc, hm, rfl⟩

/-- Where no config is, there is no book. -/
theorem ledger_none (h : s.configs (.stablecoinConfig mint) = none) : s.ledger mint = none := by
  rw [State.ledger, h, Option.map_none, Option.bind_none]

/-- Terms and mints are all that a ledger reads. -/
theorem SameTerms.ledger_eq (h : SameTerms s s')
    (hm : ∀ mint, s.configs (.stablecoinConfig mint) ≠ none →
      s'.tokens.mints mint = s.tokens.mints mint) : s'.ledger = s.ledger := by
  funext mint
  rw [State.ledger, State.ledger, h]
  by_cases hc : s.configs (.stablecoinConfig mint) = none
  · rw [hc, Option.map_none, Option.bind_none, Option.bind_none]
  · rw [hm mint hc]

/-- The book of a config whose counters moved. -/
theorem Posted.ledger {i r : Nat} (h : Posted s c mint i r s') (hm : s.tokens.mints mint = some m)
    (ht : s'.tokens.mints = put s.tokens.mints mint { m with supply := n }) :
    s.ledger mint = some (c.terms.book m) ∧
      s'.ledger = Function.update s.ledger mint (some
        { c.terms.book m with
          issued := c.totalMinted.toNat + i
          retired := c.totalBurned.toNat + r
          supply := n.toNat }) := by
  refine ⟨ledger_of h.config hm, ?_⟩
  obtain ⟨c', hput, hmint, -, hmax, hi, hr⟩ := h.configs
  funext M
  by_cases hM : M = mint
  · subst hM
    rw [Function.update_self, State.ledger, hput, ht, put_self, put_self, Option.map_some,
      Option.bind_some, Option.map_some, Option.some.injEq]
    simp only [Terms.book, StablecoinConfig.terms, hmax, hi, hr]
  · have hM' : Pubkey.stablecoinConfig M ≠ .stablecoinConfig mint := by
      intro h
      injection h with h
      exact hM h
    rw [Function.update_of_ne hM, State.ledger, State.ledger, hput, ht, put_of_ne _ _ hM',
      put_of_ne _ _ hM]

variable {ok : Book → Posting → Prop}

theorem Posted.step_issue (h : Posted s c mint n.toNat 0 s') (hm : s.tokens.mints mint = some m)
    (hlt : m.supply.toNat + n.toNat < 2 ^ 64)
    (ht : s'.tokens.mints = put s.tokens.mints mint { m with supply := m.supply + n })
    (hok : ok (c.terms.book m) (.issue n.toNat)) : s.ledger.Step ok s'.ledger := by
  obtain ⟨hbook, hupdate⟩ := h.ledger hm ht
  rw [toNat_add_of_lt hlt] at hupdate
  rw [hupdate]
  exact .posted hbook hok

theorem Posted.step_retire (h : Posted s c mint 0 n.toNat s') (hm : s.tokens.mints mint = some m)
    (hle : n ≤ m.supply)
    (ht : s'.tokens.mints = put s.tokens.mints mint { m with supply := m.supply - n })
    (hok : ok (c.terms.book m) (.retire n.toNat)) : s.ledger.Step ok s'.ledger := by
  obtain ⟨hbook, hupdate⟩ := h.ledger hm ht
  rw [toNat_sub_of_le hle] at hupdate
  rw [hupdate]
  exact .posted hbook hok

/-- A burn that no counter follows; nothing happens to the ledger if the mint has no config. -/
theorem SameTerms.history_leak (h : SameTerms s s') (hm : s.tokens.mints mint = some m)
    (hle : n ≤ m.supply)
    (ht : s'.tokens.mints = put s.tokens.mints mint { m with supply := m.supply - n })
    (hok : ∀ b, ok b (.leak n.toNat)) : s.ledger.History ok s'.ledger := by
  have hother : ∀ M, M ≠ mint → s'.ledger M = s.ledger M := by
    intro M hM
    rw [State.ledger, State.ledger, h, ht, put_of_ne _ _ hM]
  cases hc : s.configs (.stablecoinConfig mint) with
  | none =>
    have : s'.ledger = s.ledger := h.ledger_eq fun M hM => by
      rw [ht, put_of_ne]
      rintro rfl
      exact hM hc
    rw [this]
  | some c =>
    have : s'.ledger =
        Function.update s.ledger mint (some ((c.terms.book m).post (.leak n.toNat))) := by
      funext M
      by_cases hM : M = mint
      · subst hM
        rw [Function.update_self, State.ledger, h, ht, hc, put_self, Option.map_some,
          Option.bind_some, Option.map_some, Option.some.injEq]
        simp only [Terms.book, Book.post, toNat_sub_of_le hle]
      · rw [Function.update_of_ne hM, hother M hM]
    rw [this]
    exact .single (.posted (ledger_of hc hm) (hok _))

/-- A new book. -/
theorem Initialized.step (h : Initialized s mint s') : s.ledger.Step ok s'.ledger := by
  obtain ⟨c, hput, -, hi, hr, -⟩ := h.config
  obtain ⟨m, -, -, -, -, hsupply, ht⟩ := h.created
  have hupdate : s'.ledger = Function.update s.ledger mint (some (c.terms.book m)) := by
    funext M
    by_cases hM : M = mint
    · subst hM
      rw [Function.update_self, State.ledger, hput, ht, put_self, Tokens.setMint_mints, put_self,
        Option.map_some, Option.bind_some, Option.map_some]
    · rw [Function.update_of_ne hM, State.ledger, State.ledger, hput, ht, Tokens.setMint_mints,
        put_of_ne _ _ hM, put_of_ne]
      intro h
      injection h with h
      exact hM h
  rw [hupdate]
  refine .opened (ledger_none h.free) ⟨?_, ?_, ?_⟩
  · exact congrArg UInt64.toNat hi
  · exact congrArg UInt64.toNat hr
  · exact congrArg UInt64.toNat hsupply

/-- A counter that no burn follows. -/
theorem Posted.step_record (h : Posted s c mint 0 n.toNat s') (hm : s.tokens.mints mint = some m)
    (ht : s'.tokens.mints = s.tokens.mints) (hok : ok (c.terms.book m) (.record n.toNat)) :
    s.ledger.Step ok s'.ledger := by
  have hput : put s.tokens.mints mint m = s.tokens.mints := by
    funext M
    by_cases hM : M = mint
    · rw [hM, put_self, hm]
    · rw [put_of_ne _ _ hM]
  obtain ⟨hbook, hupdate⟩ := h.ledger (n := m.supply) hm (ht.trans hput.symm)
  rw [hupdate]
  exact .posted hbook hok

/-! ## Transactions as histories of the ledger -/

/-- `instant_redemption` burns without recording it, and `process_redemption` may burn another
mint than the one it records. -/
def Misburns (s : State) : Action → Prop
  | .call _ (.instantRedemption _ _) => True
  | .call _ (.processRedemption b _) => ∃ c, s.configs b.config = some c ∧ b.stableMint ≠ c.mint
  | _ => False

/-- The postings that a transaction can make. Only a borrow issues without looking at the cap. -/
inductive Posts (s : State) (a : Action) : Book → Posting → Prop where
  | issue {c : StablecoinConfig} {m : Mint} {n : UInt64} (cap : c.FitsCap n) :
    Posts s a (c.terms.book m) (.issue n.toNat)
  | borrow {clock : Clock} {b : CdpBorrowStable} {c : StablecoinConfig} {m : Mint} {n : UInt64}
    (call : a = .call clock (.cdpBorrowStable b n))
    (config : s.configs (.stablecoinConfig b.sssMint) = some c) :
    Posts s a (c.terms.book m) (.issue n.toNat)
  | retire {c : StablecoinConfig} {m : Mint} {n : UInt64} (le_supply : n ≤ m.supply) :
    Posts s a (c.terms.book m) (.retire n.toNat)
  | leak {b : Book} {n : Nat} (misburns : Misburns s a) : Posts s a b (.leak n)
  | record {b : Book} {n : Nat} (misburns : Misburns s a) : Posts s a b (.record n)

theorem Retired.step (h : Retired s c mint n s') : s.ledger.Step (Posts s a) s'.ledger := by
  obtain ⟨m, hm, hle, ht⟩ := h.tokens.reduces.mints
  exact h.toPosted.step_retire hm hle ht (.retire hle)

/-- The ledger of a process step whose caller named another mint: the burn is not recorded, and
what is recorded was not burned. -/
theorem Posted.history_misburn {b : ProcessRedemption} {clock : Clock} {i : UInt64}
    (wf : WellFormed s) (hk : b.config = .stablecoinConfig c.mint)
    (h : Posted s c c.mint 0 n.toNat s') (ht : s.tokens.Reduces b.stableMint n s'.tokens)
    (hne : b.stableMint ≠ c.mint) :
    s.ledger.History (Posts s (.call clock (.processRedemption b i))) s'.ledger := by
  have hmis : Misburns s (.call clock (.processRedemption b i)) := ⟨c, hk ▸ h.config, hne⟩
  obtain ⟨-, m, hm, -⟩ := wf _ _ h.config
  obtain ⟨m', hm', hle, hput⟩ := ht.mints
  have h₁ : Posted s c c.mint 0 n.toNat { s with configs := s'.configs } :=
    ⟨h.config, h.mint_eq, h.configs⟩
  have h₂ : SameTerms { s with configs := s'.configs } s' := .of_eq rfl
  exact .trans (.single (h₁.step_record hm rfl (.record hmis)))
    (h₂.history_leak hm' hle hput fun _ => .leak hmis)

/-- A mint with a config is minted by the config's authority only. -/
theorem WellFormed.mintAuthority (wf : WellFormed s)
    (hc : s.configs (.stablecoinConfig mint) = some c) (hm : s.tokens.mints mint = some m) :
    m.mintAuthority = some (.stablecoinConfig mint) := by
  obtain ⟨hk, m', hm', howned⟩ := wf _ _ hc
  injection hk with hk
  rw [← hk, hm] at hm'
  cases hm'
  exact howned.mintAuthority

theorem Step.history (wf : WellFormed s) (h : Step rt s a s') :
    s.ledger.History (Posts s a) s'.ledger := by
  have hsame : s'.ledger = s.ledger → s.ledger.History (Posts s a) s'.ledger := by
    intro h
    rw [h]
  cases h with
  | quiet h =>
    exact hsame (h.terms.ledger_eq fun _ _ => by rw [h.tokens.mints])
  | aside h =>
    exact hsame (h.loose.terms.ledger_eq fun _ _ => by rw [h.loose.tokens.mints])
  | createMint h configs =>
    obtain ⟨hfree, -, ht⟩ := h
    refine hsame ((SameTerms.of_eq configs).ledger_eq fun M hM => ?_)
    obtain ⟨c, hc⟩ := Option.ne_none_iff_exists'.mp hM
    obtain ⟨hk, m, hm, -⟩ := wf _ _ hc
    injection hk with hk
    rw [ht, Tokens.setMint_mints, put_of_ne]
    rintro rfl
    rw [← hk, hfree] at hm
    cases hm
  | initializeStablecoin h => exact .single h.step
  | @mintElsewhere authority _ _ _ _ h configs =>
    obtain ⟨m, hm, hauth, -, ht⟩ := h.mints
    refine hsame ((SameTerms.of_eq configs).ledger_eq fun M hM => ?_)
    obtain ⟨c, hc⟩ := Option.ne_none_iff_exists'.mp hM
    rw [ht, put_of_ne]
    rintro rfl
    rw [wf.mintAuthority hc hm, Option.some.injEq] at hauth
    exact authority.ne_stablecoinConfig hauth.symm
  | issue h cap =>
    obtain ⟨m, hm, -, hlt, ht⟩ := h.tokens.mints
    exact .single (h.toPosted.step_issue hm hlt ht (.issue cap))
  | retire h => exact .single h.step
  | redeemInstantly _ _ _ tokens configs =>
    obtain ⟨m, hm, hle, ht⟩ := tokens.reduces.mints
    exact (SameTerms.of_eq configs).history_leak hm hle ht fun _ => .leak trivial
  | @process _ b _ _ c _ _ _ h =>
    have hreduces := h.tokens.reduces rfl
    by_cases hmint : b.stableMint = c.mint
    · obtain ⟨m, hm, hle, ht⟩ := hreduces.mints
      rw [hmint] at hm ht
      exact .single (h.toPosted.step_retire hm hle ht (.retire hle))
    · exact h.toPosted.history_misburn wf h.key hreduces hmint
  | deposit h =>
    exact hsame ((SameTerms.of_eq h.configs).ledger_eq fun _ _ => by rw [h.tokens.mints])
  | borrow h =>
    obtain ⟨m, hm, -, hlt, ht⟩ := h.tokens.mints
    exact .single (h.toPosted.step_issue hm hlt ht (.borrow rfl h.config))
  | repay h =>
    obtain ⟨total, t, -, hposted, hburn, htokens⟩ := h.burned
    obtain ⟨m, hm, hle, ht⟩ := hburn.mints
    have hmints : s'.tokens.mints = t.mints := by
      rcases htokens with ⟨-, htransfer⟩ | ⟨-, htokens⟩
      · exact htransfer.mints
      · rw [htokens]
    exact .single (hposted.step_retire hm hle (hmints.trans ht) (.retire hle))
  | liquidate _ h =>
    obtain ⟨t, hburn, htransfer⟩ := h.tokens
    obtain ⟨m, hm, hle, ht⟩ := hburn.mints
    exact .single (h.toPosted.step_retire hm hle (htransfer.mints.trans ht) (.retire hle))
  | collect _ _ _ books =>
    rcases books with ⟨ht, hc⟩ | ⟨n, h⟩
    · exact hsame ((SameTerms.of_eq hc).ledger_eq fun _ _ => by rw [ht])
    · exact .single h.step

/-! ## Supply accounting -/

/-- The transaction fails, or it records every burn of a stablecoin. -/
def RecordsBurns (rt : Runtime) (s : State) (a : Action) : Prop :=
  ∀ s', Action.exec rt s a = .ok s' → ¬ Misburns s a

theorem Posts.recorded {b : Book} {p : Posting} (h : Posts s a b p) (hmis : ¬ Misburns s a) :
    b.Recorded p := by
  cases h with
  | issue | borrow => trivial
  | retire hle => exact UInt64.le_iff_toNat_le.mp hle
  | leak h | record h => exact absurd h hmis

theorem Genesis.ledger (h : Genesis s) {I : Book → Prop} : s.ledger.All I := by
  intro mint b hb
  rw [ledger_none (h.configs _)] at hb
  cases hb

/-- The ledger of a run refines the ledger of an issuer that records what it does. -/
theorem run_history_recorded {as : List Action} (hs : Genesis s)
    (H : Along (Action.exec rt) (RecordsBurns rt) s as) :
    s.ledger.History Book.Recorded (run rt s as).ledger := by
  refine refines_run (fun wf _ h => wf.exec h) (fun wf hrec h => ?_) hs.wellFormed H
  exact ((exec_step h).history wf).mono fun b p hp => hp.recorded (hrec _ h)

/-- In every run that records its burns, the counters of each config account for the supply of
its mint. -/
theorem supply_accounting {as : List Action} (hs : Genesis s)
    (H : Along (Action.exec rt) (RecordsBurns rt) s as)
    (hc : (run rt s as).configs k = some c) :
    ∃ m, (run rt s as).tokens.mints c.mint = some m ∧ c.totalBurned ≤ c.totalMinted ∧
      c.totalMinted.toNat - c.totalBurned.toNat = m.supply.toNat := by
  obtain ⟨hk, m, hm, -⟩ := hs.wellFormed.run as _ _ hc
  rw [hk] at hc
  have hbalanced : (c.terms.book m).Balanced :=
    (run_history_recorded hs H).balanced hs.ledger _ _ (ledger_of hc hm)
  obtain ⟨hle, hnet⟩ := hbalanced.net_eq
  exact ⟨m, hm, UInt64.le_iff_toNat_le.mpr hle, hnet⟩

namespace Market

/-- A loan of 100 of which 50 are redeemed from the pool. -/
def redeemed : List Action := funded 1000 ++ pool ++ [.call (day 0) (redeemPool 50)]

end Market

open Market in
theorem supply_accounting_repay :
    ∃ c m, (run localRuntime genesis repaid).configs config = some c ∧
      (run localRuntime genesis repaid).tokens.mints c.mint = some m ∧
      c.totalMinted = 100 ∧ c.totalBurned = 40 ∧
      c.totalMinted.toNat - c.totalBurned.toNat = m.supply.toNat := by
  obtain ⟨c, hc, hi, hr⟩ : ∃ c, (run localRuntime genesis repaid).configs config = some c ∧
      c.totalMinted = 100 ∧ c.totalBurned = 40 := ⟨_, rfl, rfl, rfl⟩
  have H : Along (Action.exec localRuntime) (RecordsBurns localRuntime) genesis repaid := by
    apply along_of_forall
    intro a ha s s' _
    simp only [repaid, funded, deposited, opening, List.mem_append, List.mem_cons,
      List.not_mem_nil, or_false] at ha
    rcases ha with (((rfl | rfl | rfl | rfl | rfl | rfl | rfl) | rfl | rfl | rfl) | rfl) | rfl
    all_goals exact id
  obtain ⟨m, hm, -, hnet⟩ := supply_accounting genesis_genesis H hc
  exact ⟨c, m, hc, hm, hi, hr, hnet⟩

open Market in
/-- What is redeemed leaves the supply, and `total_burned` stays zero. -/
theorem instant_redemption_unrecorded :
    ∃ c m, Genesis genesis ∧ (run localRuntime genesis redeemed).configs config = some c ∧
      (run localRuntime genesis redeemed).tokens.mints c.mint = some m ∧
      c.totalMinted = 100 ∧ c.totalBurned = 0 ∧ m.supply = 50 ∧
      c.totalMinted.toNat - c.totalBurned.toNat ≠ m.supply.toNat :=
  ⟨_, _, genesis_genesis, rfl, rfl, rfl, rfl, rfl, by decide⟩

/-! ## The supply cap -/

/-- The transaction fails, or a borrow in it stays below the cap. -/
def BorrowsWithinCap (rt : Runtime) (s : State) (a : Action) : Prop :=
  ∀ clock b n s' c, a = .call clock (.cdpBorrowStable b n) → Action.exec rt s a = .ok s' →
    s.configs (.stablecoinConfig b.sssMint) = some c → c.FitsCap n

theorem Posts.withinCap {b : Book} {p : Posting} (h : Posts s a b p)
    (hb : BorrowsWithinCap rt s a) (hok : Action.exec rt s a = .ok s') : b.WithinCap p := by
  cases h with
  | issue cap => exact cap
  | borrow call config => exact hb _ _ _ _ _ call hok config
  | retire | leak | record => trivial

/-- The ledger of a run refines the ledger of an issuer that looks at the cap. -/
theorem run_history_withinCap {as : List Action} (hs : Genesis s)
    (H : Along (Action.exec rt) (BorrowsWithinCap rt) s as) :
    s.ledger.History Book.WithinCap (run rt s as).ledger := by
  refine refines_run (fun wf _ h => wf.exec h) (fun wf hb h => ?_) hs.wellFormed H
  exact ((exec_step h).history wf).mono fun b p hp => hp.withinCap hb h

/-- In every run whose borrows stay below the cap, the net supply does. -/
theorem supply_cap {as : List Action} (hs : Genesis s)
    (H : Along (Action.exec rt) (BorrowsWithinCap rt) s as)
    (hc : (run rt s as).configs k = some c) (hcap : 0 < c.maxSupply) :
    c.netSupply ≤ c.maxSupply := by
  obtain ⟨hk, m, hm, -⟩ := hs.wellFormed.run as _ _ hc
  rw [hk] at hc
  have hcapped : (c.terms.book m).Capped :=
    (run_history_withinCap hs H).capped hs.ledger _ _ (ledger_of hc hm)
  have hle := hcapped (UInt64.lt_iff_toNat_lt.mp hcap)
  rw [UInt64.le_iff_toNat_le, StablecoinConfig.toNat_netSupply]
  exact hle

open Market in
/-- A loan of 100 under a cap of 1000. -/
theorem supply_cap_funded :
    ∃ c, (run localRuntime genesis (funded 1000)).configs config = some c ∧
      c.maxSupply = 1000 ∧ c.netSupply = 100 ∧ c.netSupply ≤ c.maxSupply := by
  obtain ⟨c, hc, hmax, hnet⟩ : ∃ c, (run localRuntime genesis (funded 1000)).configs config =
      some c ∧ c.maxSupply = 1000 ∧ c.netSupply = 100 := ⟨_, rfl, rfl, rfl⟩
  have H : Along (Action.exec localRuntime) (BorrowsWithinCap localRuntime) genesis
      (deposited 1000 ++ [borrow 100 0]) := by
    refine along_append.mpr ⟨along_of_forall fun a ha s => ?_, ?_, trivial⟩
    · simp only [deposited, opening, List.mem_append, List.mem_cons, List.not_mem_nil,
        or_false] at ha
      rcases ha with (rfl | rfl | rfl | rfl | rfl | rfl | rfl) | rfl | rfl | rfl
      all_goals
        intro clock b n s' c hcall
        cases hcall
    · -- the only borrow: nothing is minted before it
      intro clock b n s' c hcall _ hc
      cases hcall
      cases hc
      intro _
      decide
  have hcap : 0 < c.maxSupply := by rw [hmax]; decide
  exact ⟨c, hc, hmax, hnet, supply_cap genesis_genesis H hc hcap⟩

open Market in
/-- Under a cap of 50 the user borrows 100. -/
theorem borrow_exceeds_cap :
    ∃ c, Genesis genesis ∧ (run localRuntime genesis (funded 50)).configs config = some c ∧
      0 < c.maxSupply ∧ ¬ c.netSupply ≤ c.maxSupply :=
  ⟨_, genesis_genesis, rfl, by decide, by decide⟩

end SolanaStablecoin
