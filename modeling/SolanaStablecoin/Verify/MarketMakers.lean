import SolanaStablecoin.Program.Views
import SolanaStablecoin.Verify.Settings
import SolanaStablecoin.Verify.SlotCap

/-! The limits of the market makers per slot. Minting and burning have a counter each, which starts
again with the first call in a new slot, and what is left of a limit is reported without a call. -/

namespace SolanaStablecoin

open Transition Window

variable {rt : Runtime} {clock : Clock} {s s' : State} {M : Pubkey} {a : Action} {b : MmAccounts}
  {n : UInt64} {i : Instruction} {c : StablecoinConfig} {mm : MarketMakerConfig} {h : List Mark}

/-! ## The two counters -/

inductive MmSide where
  | mint
  | burn
deriving DecidableEq

structure MmMeter where
  limit : UInt64
  last : UInt64
  count : UInt64

def MarketMakerConfig.meter (mm : MarketMakerConfig) : MmSide → MmMeter
  | .mint =>
    { limit := mm.mmMintLimitPerSlot, last := mm.lastMintSlot, count := mm.mmMintedThisSlot }
  | .burn =>
    { limit := mm.mmBurnLimitPerSlot, last := mm.lastBurnSlot, count := mm.mmBurnedThisSlot }

/-- What has been used of the limit in a slot. -/
def MmMeter.used (x : MmMeter) (slot : UInt64) : UInt64 := if slot ≠ x.last then 0 else x.count

/-- The limit check of both handlers. -/
def MmMeter.Accepts (x : MmMeter) (slot n : UInt64) : Prop :=
  (x.used slot).toNat + n.toNat ≤ x.limit.toNat

def State.mmMeter (s : State) (M : Pubkey) (side : MmSide) : Option MmMeter :=
  (s.marketMakerConfigs (.marketMakerConfig M)).map (·.meter side)

namespace MmSide

/-- The instruction of a side. -/
def call : MmSide → MmAccounts → UInt64 → Instruction
  | mint => .mmMint
  | burn => .mmBurn

def exceeded : MmSide → ProgramError
  | mint => .sss .mmMintLimitExceeded
  | burn => .sss .mmBurnLimitExceeded

/-- What a successful transaction moves on a side of `M`. -/
def moves (M : Pubkey) : MmSide → Action → List Mark
  | mint, .call clock (.mmMint b n) | burn, .call clock (.mmBurn b n) =>
    if b.mint = M then [.spent clock.slot.toNat n.toNat] else []
  | _, _ => []

end MmSide

/-! ## One action -/

/-- The instruction writes the accounts of the market makers. -/
def Instruction.makesMarket : Instruction → Bool
  | initMarketMakerConfig .. | registerMarketMaker .. | mmMint .. | mmBurn .. => true
  | _ => false

theorem Instruction.sameMarketMakers (hi : i.makesMarket = false) :
    Ensures (i.exec rt clock s) fun s' => s'.marketMakerConfigs = s.marketMakerConfigs := by
  intro s' h
  refine exec_same State.marketMakerConfigs (fun t => ?_) h
  cases i with
  | _ => first | rfl | cases hi

variable {side : MmSide}

/-- What a call that passes the check of a side makes of the config. -/
structure MmMoved (side : MmSide) (slot n : UInt64) (mm mm' : MarketMakerConfig) : Prop where
  accepts : (mm.meter side).Accepts slot n
  moved : mm'.meter side =
    { mm.meter side with last := slot, count := (mm.meter side).used slot + n }
  other : ∀ other ≠ side, mm'.meter other = mm.meter other

/-- The total that is stored when the check passes. -/
theorem MmMeter.accepts_of_checked {x : MmMeter} {slot total : UInt64}
    (h : (x.used slot).checkedAdd n = some total) (hle : total ≤ x.limit) :
    x.Accepts slot n ∧ total = x.used slot + n := by
  have htotal := UInt64.checkedAdd_eq_some.mp h
  have hlt := total.toNat_lt
  rw [UInt64.le_iff_toNat_le] at hle
  refine ⟨htotal.symm.trans_le hle, UInt64.toNat_inj.mp ?_⟩
  rw [UInt64.toNat_add, htotal, Nat.mod_eq_of_lt (htotal ▸ hlt)]

theorem MmAccounts.check_market (h : b.check rt clock s n = .ok (c, mm)) :
    s.marketMakerConfigs (.marketMakerConfig b.mint) = some mm ∧
      ∃ m, s.tokens.mints b.mint = some m := by
  simp only [check, bind_eq_ok, loadConfigOfMint_eq_ok, load_eq_ok, pure_eq_ok,
    Prod.mk.injEq] at h
  obtain ⟨_, ⟨-, hm, -⟩, -, -, _, hmm, -, -, -, -, -, -, -, -, -, -, -, -, -, -, -, -, -, rfl⟩ := h
  exact ⟨hmm, hm⟩

theorem mmMintHandler_moved (h : mmMintHandler rt clock s b n = .ok s') :
    ∃ mm mm', s.marketMakerConfigs (.marketMakerConfig b.mint) = some mm ∧
      MmMoved .mint clock.slot n mm mm' ∧
      s'.marketMakerConfigs = put s.marketMakerConfigs (.marketMakerConfig b.mint) mm' := by
  simp only [mmMintHandler, bind_eq_ok, Option.okOr_eq_ok, require_eq_ok, pure_eq_ok] at h
  obtain ⟨⟨c, mm⟩, hcheck, total, htotal, -, hle, -, -, t, -, c', -, rfl⟩ := h
  obtain ⟨haccepts, rfl⟩ := MmMeter.accepts_of_checked (x := mm.meter .mint) htotal hle
  refine ⟨mm, _, (MmAccounts.check_market hcheck).1, ⟨haccepts, rfl, fun other hother => ?_⟩, rfl⟩
  cases other with
  | mint => exact absurd rfl hother
  | burn => rfl

theorem mmBurnHandler_moved (h : mmBurnHandler rt clock s b n = .ok s') :
    ∃ mm mm', s.marketMakerConfigs (.marketMakerConfig b.mint) = some mm ∧
      MmMoved .burn clock.slot n mm mm' ∧
      s'.marketMakerConfigs = put s.marketMakerConfigs (.marketMakerConfig b.mint) mm' := by
  simp only [mmBurnHandler, bind_eq_ok, Option.okOr_eq_ok, require_eq_ok, pure_eq_ok] at h
  obtain ⟨⟨c, mm⟩, hcheck, total, htotal, -, hle, t, -, c', -, rfl⟩ := h
  obtain ⟨haccepts, rfl⟩ := MmMeter.accepts_of_checked (x := mm.meter .burn) htotal hle
  refine ⟨mm, _, (MmAccounts.check_market hcheck).1, ⟨haccepts, rfl, fun other hother => ?_⟩, rfl⟩
  cases other with
  | mint => rfl
  | burn => exact absurd rfl hother

/-- What a successful transaction does to the counter of a side of `M`. -/
inductive MmStep (M : Pubkey) (side : MmSide) (s : State) (a : Action) (s' : State) : Prop where
  | kept (idle : side.moves M a = []) (same : s'.mmMeter M side = s.mmMeter M side)
  | opened (idle : side.moves M a = []) (free : s.mmMeter M side = none) {limit : UInt64}
    (new : s'.mmMeter M side = some { limit, last := 0, count := 0 })
  | moved {clock : Clock} {b : MmAccounts} {n : UInt64} {x : MmMeter}
    (call : a = .call clock (side.call b n)) (mint : b.mint = M) (old : s.mmMeter M side = some x)
    (accepts : x.Accepts clock.slot n)
    (new : s'.mmMeter M side = some { x with last := clock.slot, count := x.used clock.slot + n })

theorem State.mmMeter_put {N : Pubkey}
    (h : s'.marketMakerConfigs = put s.marketMakerConfigs (.marketMakerConfig N) mm) :
    s'.mmMeter M side = if M = N then some (mm.meter side) else s.mmMeter M side := by
  rw [mmMeter, h, put_eq_ite _ _ (Pubkey.marketMakerConfig.injEq ..).to_iff,
    apply_ite (Option.map _), Option.map_some, mmMeter]

theorem State.mmMeter_of_some (h : s.marketMakerConfigs (.marketMakerConfig M) = some mm) :
    s.mmMeter M side = some (mm.meter side) := by
  rw [mmMeter, h, Option.map_some]

theorem MmSide.moves_call : side.moves M (.call clock (side.call b n)) =
    if b.mint = M then [.spent clock.slot.toNat n.toNat] else [] := by
  cases side <;> rfl

theorem MmSide.moves_other {other : MmSide} (h : other ≠ side) :
    other.moves M (.call clock (side.call b n)) = [] := by
  cases side <;> cases other <;> first | rfl | exact absurd rfl h

theorem MmStep.of_moved {other : MmSide} {mm' : MarketMakerConfig}
    (hmm : s.marketMakerConfigs (.marketMakerConfig b.mint) = some mm)
    (h : MmMoved other clock.slot n mm mm')
    (hput : s'.marketMakerConfigs = put s.marketMakerConfigs (.marketMakerConfig b.mint) mm') :
    MmStep M side s (.call clock (other.call b n)) s' := by
  by_cases hside : side = other
  · subst hside
    by_cases hM : b.mint = M
    · subst hM
      refine .moved rfl rfl (State.mmMeter_of_some hmm) h.accepts ?_
      rw [State.mmMeter_put hput, if_pos rfl, h.moved]
    · refine .kept ?_ ?_
      · rw [MmSide.moves_call, if_neg hM]
      · rw [State.mmMeter_put hput, if_neg fun heq => hM heq.symm]
  · refine .kept (MmSide.moves_other hside) ?_
    rw [State.mmMeter_put hput]
    split
    next hM => rw [h.other side hside, hM, State.mmMeter_of_some hmm]
    next => rfl

theorem MmStep.of_init {b : AuthorityAndMint} {x y : UInt64} {z : UInt16}
    (h : initMarketMakerConfigHandler s b x y z = .ok s') :
    MmStep M side s (.call clock (.initMarketMakerConfig b x y z)) s' := by
  simp only [initMarketMakerConfigHandler, bind_eq_ok, requireFree_eq_ok, pure_eq_ok] at h
  obtain ⟨c, -, _, hfree, _, -, _, -, rfl⟩ := h
  have hidle : side.moves M (.call clock (.initMarketMakerConfig b x y z)) = [] := by
    cases side <;> rfl
  by_cases hM : M = b.mint
  · subst hM
    have hnone : s.mmMeter b.mint side = none := by
      rw [State.mmMeter, hfree, Option.map_none]
    cases side with
    | mint => exact .opened hidle hnone ((State.mmMeter_put rfl).trans (if_pos rfl))
    | burn => exact .opened hidle hnone ((State.mmMeter_put rfl).trans (if_pos rfl))
  · exact .kept hidle ((State.mmMeter_put rfl).trans (if_neg hM))

theorem MmStep.of_register {b : AuthorityAndMint} {k : Pubkey}
    (h : registerMarketMakerHandler s b k = .ok s') :
    MmStep M side s (.call clock (.registerMarketMaker b k)) s' := by
  simp only [registerMarketMakerHandler, bind_eq_ok, load_eq_ok, pure_eq_ok] at h
  obtain ⟨c, -, mm, hmm, _, -, _, -, _, -, _, -, _, -, rfl⟩ := h
  have hidle : side.moves M (.call clock (.registerMarketMaker b k)) = [] := by
    cases side <;> rfl
  refine .kept hidle ?_
  rw [State.mmMeter_put rfl]
  split
  next hM =>
    rw [hM, State.mmMeter_of_some hmm]
    cases side <;> rfl
  next => rfl

theorem exec_mmStep (h : a.exec rt s = .ok s') : MmStep M side s a s' := by
  have of_same (hidle : side.moves M a = [])
      (hsame : s'.marketMakerConfigs = s.marketMakerConfigs) : MmStep M side s a s' := by
    refine .kept hidle ?_
    rw [State.mmMeter, hsame, State.mmMeter]
  cases a with
  | world w =>
    obtain ⟨t, p, q, d, rfl⟩ := World.exec_outside h
    exact of_same (by cases side <;> rfl) rfl
  | call clock i =>
    cases hkind : i.makesMarket with
    | false =>
      refine of_same ?_ (Instruction.sameMarketMakers hkind s' h)
      cases side <;> cases i <;> first | rfl | cases hkind
    | true =>
      cases i with
      | initMarketMakerConfig b x y z => exact .of_init h
      | registerMarketMaker b k => exact .of_register h
      | mmMint b n =>
        obtain ⟨mm, mm', hmm, hmoved, hput⟩ := mmMintHandler_moved h
        exact .of_moved hmm hmoved hput
      | mmBurn b n =>
        obtain ⟨mm, mm', hmm, hmoved, hput⟩ := mmBurnHandler_moved h
        exact .of_moved hmm hmoved hput
      | _ => cases hkind

/-! ## The limit check -/

/-- The limit check comes first, and what follows fails otherwise. -/
theorem MmMeter.refuses_iff {x : MmMeter} {slot : UInt64} {e : ProgramError}
    {rest : UInt64 → Result State} (hrest : ∀ total, FailsOnly (rest total) (· ≠ e)) :
    (do
      let total ← ((x.used slot).checkedAdd n).okOr e
      require (total ≤ x.limit) e
      rest total) = .error e ↔ ¬ x.Accepts slot n := by
  rw [Accepts]
  cases htotal : (x.used slot).checkedAdd n with
  | none =>
    refine iff_of_true rfl fun hle => ?_
    have hfits := UInt64.toNat_ofNat_of_lt' (hle.trans_lt x.limit.toNat_lt)
    cases htotal.symm.trans (UInt64.checkedAdd_eq_some.mpr hfits)
  | some total =>
    have hsum := UInt64.checkedAdd_eq_some.mp htotal
    rw [← hsum, ← UInt64.le_iff_toNat_le]
    change (require (total ≤ x.limit) e >>= fun _ => rest total) = .error e ↔ _
    by_cases hle : total ≤ x.limit
    · rw [require_pos hle, ok_bind]
      exact iff_of_false (fun herror => hrest total e herror rfl) (not_not_intro hle)
    · rw [require_neg hle]
      exact iff_of_true rfl hle

theorem StablecoinConfig.addMinted_failsOnly {P : ProgramError → Prop} (hP : P (.sss .overflow)) :
    FailsOnly (c.addMinted n) P :=
  .bind (.okOr hP) fun _ => .pure

theorem StablecoinConfig.addBurned_failsOnly {P : ProgramError → Prop} (hP : P (.sss .overflow)) :
    FailsOnly (c.addBurned n) P :=
  .bind (.okOr hP) fun _ => .pure

/-- A call whose other checks pass is refused for the limit exactly if its side does not accept the
amount. -/
theorem MmSide.refused_iff (side : MmSide) (h : b.check rt clock s n = .ok (c, mm)) :
    (side.call b n).exec rt clock s = .error side.exceeded ↔
      ¬ (mm.meter side).Accepts clock.slot n := by
  cases side with
  | mint =>
    change mmMintHandler rt clock s b n = _ ↔ _
    rw [mmMintHandler, h, ok_bind]
    refine @MmMeter.refuses_iff n (mm.meter .mint) clock.slot _ _ fun total => ?_
    exact .bind (.when fun _ => .guard (by decide)) fun _ => .bind (.okOr (by decide)) fun _ =>
      .bind (StablecoinConfig.addMinted_failsOnly (by decide)) fun _ => .pure
  | burn =>
    change mmBurnHandler rt clock s b n = _ ↔ _
    rw [mmBurnHandler, h, ok_bind]
    refine @MmMeter.refuses_iff n (mm.meter .burn) clock.slot _ _ fun total => ?_
    exact .bind (.okOr (by decide)) fun _ =>
      .bind (StablecoinConfig.addBurned_failsOnly (by decide)) fun _ => .pure

/-- What the report says of a side. -/
def MmCapacity.remaining (cap : MmCapacity) : MmSide → UInt64
  | .mint => cap.mintRemaining
  | .burn => cap.burnRemaining

theorem getMmCapacityHandler_remaining {m : Mint}
    (hmm : s.marketMakerConfigs (.marketMakerConfig M) = some mm)
    (hm : s.tokens.mints M = some m) :
    ∃ cap, getMmCapacityHandler clock s M = .ok cap ∧ ∀ side, cap.remaining side =
      (mm.meter side).limit.saturatingSub ((mm.meter side).used clock.slot) := by
  refine ⟨_, by rw [getMmCapacityHandler, load_eq_ok.mpr hmm, load_eq_ok.mpr hm]; rfl, ?_⟩
  intro side
  cases side with
  | mint =>
    change UInt64.saturatingSub _ (if _ then _ else _) = UInt64.saturatingSub _ (if _ then _ else _)
    rw [ite_not]
    rfl
  | burn =>
    change UInt64.saturatingSub _ (if _ then _ else _) = UInt64.saturatingSub _ (if _ then _ else _)
    rw [ite_not]
    rfl

theorem MmMeter.accepts_iff {x : MmMeter} {slot : UInt64} (hn : 0 < n) :
    x.Accepts slot n ↔ n ≤ x.limit.saturatingSub (x.used slot) := by
  have hpos := UInt64.lt_iff_toNat_lt.mp hn
  rw [UInt64.toNat_zero] at hpos
  rw [Accepts, UInt64.le_iff_toNat_le, UInt64.toNat_saturatingSub]
  omega

/-! ## Whole runs -/

/-- The counter of a side tells what `h` shows of its slot, and no slot is over the limit. -/
structure State.MmCounted (s : State) (M : Pubkey) (side : MmSide) (h : List Mark) : Prop where
  unopened : s.mmMeter M side = none → h = []
  counts : ∀ x, s.mmMeter M side = some x → Window.Counts x.last.toNat x.count.toNat h
  within : ∀ x, s.mmMeter M side = some x → ∀ t, spentWhen (· = t) h ≤ x.limit.toNat

theorem MmMeter.toNat_used {x : MmMeter} {slot : UInt64} :
    (x.used slot).toNat = if slot.toNat ≠ x.last.toNat then 0 else x.count.toNat := by
  rw [used]
  by_cases hsame : slot = x.last
  · rw [if_neg (not_not_intro hsame), if_neg (not_not_intro (congrArg UInt64.toNat hsame))]
  · rw [if_pos hsame, if_pos fun heq => hsame (UInt64.toNat_inj.mp heq)]
    rfl

theorem State.MmCounted.step (H : s.MmCounted M side h)
    (hpast : ∀ clock i, a = .call clock i → ∀ x, s.mmMeter M side = some x → x.last ≤ clock.slot)
    (hstep : MmStep M side s a s') : s'.MmCounted M side (h ++ side.moves M a) := by
  cases hstep with
  | kept idle same =>
    rw [idle, List.append_nil]
    exact ⟨same ▸ H.unopened, same ▸ H.counts, same ▸ H.within⟩
  | opened idle free new =>
    rw [idle, List.append_nil, H.unopened free]
    refine ⟨fun _ => rfl, fun x hx => ?_, fun x hx t => Nat.zero_le _⟩
    cases new.symm.trans hx
    exact .nil
  | @moved clock b n x call mint old accepts new =>
    have hlast := UInt64.le_iff_toNat_le.mp (hpast clock _ call x old)
    have hcounts := H.counts x old
    rw [MmMeter.Accepts, MmMeter.toNat_used] at accepts
    rw [call, MmSide.moves_call, if_pos mint]
    refine ⟨fun hnone => ?_, fun y hy => ?_, fun y hy => ?_⟩
    · cases new.symm.trans hnone
    · cases new.symm.trans hy
      have hsum : (x.used clock.slot + n).toNat = (x.used clock.slot).toNat + n.toNat := by
        have hlt := x.limit.toNat_lt
        rw [UInt64.toNat_add, MmMeter.toNat_used]
        exact Nat.mod_eq_of_lt (accepts.trans_lt hlt)
      rw [hsum, MmMeter.toNat_used]
      exact hcounts.spend hlast
    · cases new.symm.trans hy
      exact hcounts.spend_le hlast accepts (H.within x old)

theorem run_mmPast {slot : UInt64} {as : List Action} (hs : s.mmMeter M side = none)
    (hpast : ∀ a ∈ as, a.past slot) :
    ∀ x, (run rt s as).mmMeter M side = some x → x.last ≤ slot := by
  refine invariant_run (I := fun (s : State) => ∀ x, s.mmMeter M side = some x → x.last ≤ slot)
    (P := fun _ a => a.past slot) (fun {s s' a} hi hp hexec x hx => ?_) (fun x hx => ?_)
    (along_of_forall fun a ha _ => hpast a ha)
  · cases exec_mmStep hexec with
    | kept _ same => exact hi x (same ▸ hx)
    | opened _ _ new =>
      cases new.symm.trans hx
      exact UInt64.zero_le
    | moved call _ _ _ new =>
      subst call
      cases new.symm.trans hx
      exact hp
  · cases hs.symm.trans hx

theorem run_mmCounted {as : List Action} (hs : s.mmMeter M side = none)
    (has : Chronological as) :
    (run rt s as).MmCounted M side (history (Action.exec rt) (fun _ => side.moves M) s as) := by
  have hnone : s.MmCounted M side [] := by
    refine ⟨fun _ => rfl, fun x hx => ?_, fun x hx => ?_⟩
    · cases hs.symm.trans hx
    · cases hs.symm.trans hx
  refine invariant_prefix (I := fun (s : State) h => s.MmCounted M side h) hnone ?_
    (List.append_nil as).symm
  intro init a tail s' heq hexec H
  refine H.step (fun clock i ha => ?_) (exec_mmStep hexec)
  subst ha heq
  exact run_mmPast hs has.past

/-- From before the market makers of a mint are set up on, no slot sees more on a side than its
limit. In every state what is reported to be left is the largest amount that the limit check of the
side accepts, and a call whose other checks pass is refused for the limit exactly above it. -/
theorem market_maker_limits {as : List Action}
    (hnone : s.marketMakerConfigs (.marketMakerConfig M) = none) (has : Chronological as) :
    (∀ side, (run rt s as).mmMeter M side = none →
      history (Action.exec rt) (fun _ => side.moves M) s as = []) ∧
    (∀ side x, (run rt s as).mmMeter M side = some x → ∀ slot,
      spentWhen (· = slot) (history (Action.exec rt) (fun _ => side.moves M) s as) ≤
        x.limit.toNat) ∧
    ∀ (s : State) clock M mm m, s.marketMakerConfigs (.marketMakerConfig M) = some mm →
      s.tokens.mints M = some m →
      ∃ cap, getMmCapacityHandler clock s M = .ok cap ∧
        ∀ side (n : UInt64), 0 < n →
          (n ≤ cap.remaining side ↔ (mm.meter side).Accepts clock.slot n) ∧
          ∀ b c, b.mint = M → b.check rt clock s n = .ok (c, mm) →
            ((side.call b n).exec rt clock s = .error side.exceeded ↔ cap.remaining side < n) := by
  have hmeter (side : MmSide) : s.mmMeter M side = none := by
    rw [State.mmMeter, hnone, Option.map_none]
  refine ⟨fun side => (run_mmCounted (hmeter side) has).unopened,
    fun side => (run_mmCounted (hmeter side) has).within, fun s clock M mm m hmm hm => ?_⟩
  obtain ⟨cap, hcap, hremaining⟩ := getMmCapacityHandler_remaining hmm hm
  refine ⟨cap, hcap, fun side n hn => ?_⟩
  have hboundary : n ≤ cap.remaining side ↔ (mm.meter side).Accepts clock.slot n := by
    rw [hremaining, MmMeter.accepts_iff hn]
  refine ⟨hboundary, fun b c _ hcheck => ?_⟩
  rw [side.refused_iff hcheck, ← hboundary, UInt64.not_le]

namespace Market

def maker : MmAccounts :=
  { marketMaker := user, mint := mint.key, mmTokenAccount := userStable.key, oracleFeed := feed }

/-- A market maker may mint ten in a slot, and burn five. Of six, five and two that it asks for in
one slot, it is refused the five. -/
def marketMaking : List Action :=
  opening 1000 ++ timelocked adminOpSetFeatureFlag flagMarketMakerHooks 1 ++
    [ .call (day 3) (.initMarketMakerConfig asAuthority 10 5 100),
      .call (day 3) (.registerMarketMaker asAuthority user.key),
      .call (day 4) (.mmMint maker 6), .call (day 4) (.mmMint maker 5),
      .call (day 4) (.mmMint maker 2), .call (day 4) (.mmBurn maker 4) ]

end Market

open Market in
theorem market_maker_limits_quoting :
    ∃ x cap, (run localRuntime genesis marketMaking).mmMeter mint.key .mint = some x ∧
      x.limit = 10 ∧
      spentWhen (· = (day 4).slot.toNat) (history (Action.exec localRuntime)
        (fun _ => MmSide.mint.moves mint.key) genesis marketMaking) ≤ 10 ∧
      getMmCapacityHandler (day 4) (run localRuntime genesis marketMaking) mint.key = .ok cap ∧
      cap.mintRemaining = 2 ∧ cap.burnRemaining = 1 ∧
      (Instruction.mmMint maker 3).exec localRuntime (day 4)
          (run localRuntime genesis marketMaking) =
        .error (.sss .mmMintLimitExceeded) := by
  have hchronological : Chronological marketMaking := by
    rw [Chronological]
    decide
  obtain ⟨-, hwithin, hreport⟩ :=
    @market_maker_limits localRuntime genesis mint.key marketMaking rfl hchronological
  have hread : ((run localRuntime genesis marketMaking).mmMeter mint.key .mint).map (·.limit) =
      some 10 := by decide +kernel
  obtain ⟨x, hx, hlimit⟩ := Option.map_eq_some_iff.mp hread
  have hspent := hwithin .mint x hx (day 4).slot.toNat
  have hcheck :
      (maker.check localRuntime (day 4) (run localRuntime genesis marketMaking) 3).isOk =
      true := by decide +kernel
  obtain ⟨⟨c, mm⟩, hcheck⟩ := isOk_iff.mp hcheck
  obtain ⟨hmm, m, hm⟩ := MmAccounts.check_market hcheck
  obtain ⟨cap, hcap, hboundary⟩ := hreport _ (day 4) mint.key mm m hmm hm
  have hcapacity :
      ((getMmCapacityHandler (day 4) (run localRuntime genesis marketMaking) mint.key).map
        fun cap => (cap.mintRemaining, cap.burnRemaining)).toOption = some (2, 1) := by
    decide +kernel
  obtain ⟨cap', hcap', heq⟩ := toOption_map_eq_some.mp hcapacity
  cases hcap.symm.trans hcap'
  rw [Prod.mk.injEq] at heq
  refine ⟨x, cap, hx, hlimit, ?_, hcap, heq.1, heq.2, ?_⟩
  · rw [hlimit] at hspent
    exact hspent
  · refine ((hboundary .mint 3 (by decide)).2 maker c rfl hcheck).mpr ?_
    change cap.mintRemaining < 3
    rw [heq.1]
    decide

end SolanaStablecoin
