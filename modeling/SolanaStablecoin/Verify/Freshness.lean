import SolanaStablecoin.Program.Token2022
import SolanaStablecoin.Verify.Sessions

/-! How old a consensus price may be. A round in which too few sources agree takes the average of
earlier ones for the consensus of its own slot, so that the age of the price is no field of the
record: it is a question about all rounds that were held. -/

namespace SolanaStablecoin

open Transition

variable {rt : Runtime} {clock : Clock} {s s' : State} {M : Pubkey} {a : Action}
  {oc oc' : OracleConsensus} {as : List Action}

/-- The price is that of the last of these agreements or the average of all, and the last one was
at most `bound` slots before. -/
structure DerivedFrom (h : List Session) (minOracles : UInt8) (bound : Nat)
    (slot price : UInt64) : Prop where
  enough : ∀ r ∈ h, minOracles.toNat ≤ r.accepted.length
  source : ∃ last ∈ h.getLast?, (price = last.price ∨ price = average h) ∧
    slot.toNat ≤ last.slot.toNat + bound

/-- Every price that is taken from the consensus on `M` is derived from the agreements, the last of
which was held at most `bound` slots before. -/
def FreshWithin (bound : OracleConsensus → Nat) (M : Pubkey) (s : State) (h : List Session) :
    Prop :=
  ∀ rt clock feed c oc p, c.checkFeatureFlag flagMultiOracleConsensus = true →
    s.oracleConsensuses (.oracleConsensus M) = some oc →
    getEffectiveOraclePrice rt clock s feed c (some oc) = .ok p →
    DerivedFrom (agreements h) oc.minOracles (bound oc) clock.slot p.price.toUInt64

/-- No round falls back later than 1000 slots after the last agreement before it. -/
def Punctual (h : List Session) : Prop :=
  ∀ before r after, h = before ++ r :: after → r.FellBack →
    ∃ last ∈ (agreements before).getLast?, r.slot.toNat ≤ last.slot.toNat + 1000

instance Punctual.decidable (h : List Session) : Decidable (Punctual h) :=
  decidable_of_iff (∀ i : Fin h.length, h[i].FellBack →
    ∃ last ∈ (agreements (h.take i)).getLast?, h[i].slot.toNat ≤ last.slot.toNat + 1000) (by
      constructor
      · intro hall before r after heq hr
        subst heq
        have hi := hall ⟨before.length, by simp⟩
        simp only [Fin.getElem_fin, List.getElem_append_right (Nat.le_refl _), Nat.sub_self,
          List.getElem_cons_zero, List.take_left] at hi
        exact hi hr
      · intro ht i hr
        refine ht (h.take i) h[i] (h.drop (i + 1)) ?_ hr
        exact (List.take_append_drop i h).symm.trans
          (congrArg _ (List.drop_eq_getElem_cons i.isLt)))

theorem Punctual.append {h h' : List Session} (ht : Punctual (h ++ h')) : Punctual h := by
  intro before r after heq
  exact ht before r (after ++ h') (by rw [heq, List.append_assoc, List.cons_append])

theorem Punctual.last {h : List Session} {r : Session} (ht : Punctual (h ++ [r]))
    (hr : r.FellBack) :
    ∃ last ∈ (agreements h).getLast?, r.slot.toNat ≤ last.slot.toNat + 1000 :=
  ht h r [] rfl hr

/-! ## The age of the consensus -/

/-- The slot of the consensus is at most 1000 later than the last agreement. -/
def OracleConsensus.Recent (oc : OracleConsensus) (h : List Session) : Prop :=
  0 < oc.lastConsensusPrice →
    ∃ last ∈ h.getLast?, oc.lastConsensusSlot.toNat ≤ last.slot.toNat + 1000

def ConsensusRecent (M : Pubkey) (s : State) (h : List Session) : Prop :=
  ∀ oc, s.oracleConsensuses (.oracleConsensus M) = some oc → oc.Recent (agreements h)

theorem OracleConsensus.Round.recent {r : Session} {h : List Session}
    (hround : r.oc.Round clock r.fresh oc') (hslot : r.slot = clock.slot)
    (ht : Punctual (h ++ [r])) (hs : r.oc.Recent (agreements h)) :
    oc'.Recent (agreements (h ++ [r])) := by
  rw [agreements_append]
  cases hround with
  | agreed hsome henough hpos =>
    rw [agreements_agreed (Session.agreed_of_fresh hsome henough)]
    refine fun _ => ⟨r, by simp, ?_⟩
    rw [hslot]
    exact Nat.le_add_right ..
  | fellBack hsome hfew hpos hage =>
    have hfell := Session.fellBack_of_fresh hsome hfew
    rw [agreements_skip hfell.not_agreed, List.append_nil]
    exact fun _ => hslot ▸ ht.last hfell
  | renewed hnone hpos hage =>
    rw [agreements_skip (Session.not_agreed_of_fresh hnone), List.append_nil]
    exact hs

theorem ConsensusStep.recent {h l : List Session} (hstep : ConsensusStep M s l s')
    (ht : Punctual (h ++ l)) (hs : ConsensusRecent M s h) : ConsensusRecent M s' (h ++ l) := by
  intro oc hoc
  cases hstep with
  | same hsame hnone =>
    rw [hnone, List.append_nil]
    exact hs oc (hsame ▸ hoc)
  | opened hfree hnew haverage hprice hnone =>
    rw [hnew] at hoc
    cases hoc
    intro hpos
    rw [hprice] at hpos
    exact absurd hpos (by decide)
  | sourced hold hnew hnone =>
    rw [hnew] at hoc
    cases hoc
    rw [hnone, List.append_nil]
    have hrecent := hs _ hold
    exact hrecent
  | held hold hnew hslot hround hsigned hone =>
    subst hone
    rw [hnew] at hoc
    cases hoc
    exact hround.recent hslot ht (hs _ hold)

theorem consensusRecent_run (rt : Runtime) (hs : s.oracleConsensuses (.oracleConsensus M) = none)
    (as : List Action) (ht : Punctual (history (Action.exec rt) (sessions M) s as)) :
    ConsensusRecent M (run rt s as) (history (Action.exec rt) (sessions M) s as) := by
  suffices H : Punctual ([] ++ history (Action.exec rt) (sessions M) s as) →
      ConsensusRecent M (run rt s as) ([] ++ history (Action.exec rt) (sessions M) s as) from
    H ht
  refine invariant_history (P := fun _ _ => True)
    (I := fun s h => Punctual h → ConsensusRecent M s h) (fun hi _ hexec ht' => ?_) (fun _ => ?_)
    (along_of_forall fun _ _ _ => trivial)
  · exact (consensusStep hexec).recent ht' (hi ht'.append)
  · intro oc hoc
    rw [hs] at hoc
    cases hoc

/-- Where no round falls back later than 1000 slots after the last agreement, every price that is
taken from the consensus is derived from rounds in which enough fresh sources agreed, the last of
them at most 1000 slots and the age bound of the consensus before. -/
theorem consensus_fresh (rt : Runtime) (hs : ∀ k, s.oracleConsensuses k = none)
    (as : List Action) (ht : Punctual (history (Action.exec rt) (sessions M) s as)) :
    FreshWithin (fun oc => 1000 + oc.maxAgeSlots.toNat) M (run rt s as)
      (history (Action.exec rt) (sessions M) s as) := by
  intro rt' clock feed c oc p hflag hoc h
  obtain ⟨hpos, hage, rfl⟩ := (getEffectiveOraclePrice_consensus hflag).mp h
  have hsourced := consensusSourced_run (M := M) rt (hs _) as
  rw [ConsensusSourced, hoc] at hsourced
  obtain ⟨last, hlast, hprice⟩ := hsourced.derived hpos
  obtain ⟨last', hlast', hslot⟩ := consensusRecent_run rt (hs _) as ht oc hoc hpos
  obtain rfl := Option.mem_unique hlast hlast'
  refine ⟨hsourced.enough, last, hlast, ?_, ?_⟩
  · rwa [UInt64.toUInt64_toInt64]
  · dsimp only
    omega

namespace Market

/-- A feed that is published once. -/
def stalledFeed : Pubkey := .key 62

def twoSources : List OracleSource :=
  [{ oracleType := oraclePyth, feed }, { oracleType := oraclePyth, feed := stalledFeed }] ++
    List.replicate 6 { feed := .default }

def crankRound : UpdateOracleConsensus :=
  { keeper := other, mint := mint.key
    remainingAccounts := [feed, stalledFeed] ++ List.replicate 6 .default }

def atSlot (n : Nat) : Clock := { slot := .ofNat n, epoch := 0, unixTimestamp := 0 }

/-- A price of one at slot `n`. -/
def one (n : Nat) : Price :=
  { price := 1, conf := 0, expo := 0, publishTime := 0, pubSlot := .ofNat n }

def quote (feed : Pubkey) (n : Nat) : Action := .world (.publishPythPrice feed (one n))

def round (n : Nat) : Action := .call (atSlot n) (.updateOracleConsensus crankRound)

/-- Two sources have to agree, with prices at most ten slots old. They do so at slot 1000. -/
def convened : List Action :=
  opening 1000 ++
    [ .call (day 0) (.initOracleConsensus asAuthority 2 200 10),
      .call (day 0) (.setOracleSource asAuthority 0 oraclePyth feed),
      .call (day 0) (.setOracleSource asAuthority 1 oraclePyth stalledFeed),
      quote feed 1000, quote stalledFeed 1000, round 1000 ]

/-- Every thousand slots a round with the one feed that goes on. -/
def kept : Nat → List Action
  | 0 => convened
  | n + 1 => kept n ++ [quote feed (1000 * (n + 2)), round (1000 * (n + 2))]

end Market

open Market in
theorem consensus_fresh_kept :
    FreshWithin (fun oc => 1000 + oc.maxAgeSlots.toNat) mint.key
      (run localRuntime genesis (kept 1))
      (history (Action.exec localRuntime) (sessions mint.key) genesis (kept 1)) :=
  consensus_fresh localRuntime (fun _ => rfl) (kept 1) (by decide +kernel)

/-! ## A price that is kept alive -/

theorem OracleConsensus.accepted_length_le (oc : OracleConsensus) (fresh : List UInt64) :
    (oc.accepted fresh).length ≤ fresh.length := List.length_filter_le ..

namespace Market

/-- The record of a consensus of one that was renewed at slot `n`. -/
def Renewed (n : Nat) (oc : OracleConsensus) : Prop :=
  oc.mint = mint.key ∧ oc.minOracles = 2 ∧ oc.sourceCount = 2 ∧ oc.maxAgeSlots = 10 ∧
    oc.sources = twoSources ∧ oc.twapPrice = 1 ∧ oc.twapLastSlot = .ofNat n ∧
    oc.lastConsensusPrice = 1 ∧ oc.lastConsensusSlot = .ofNat n

instance Renewed.decidable (n : Nat) (oc : OracleConsensus) : Decidable (Renewed n oc) :=
  inferInstanceAs (Decidable (_ ∧ _))

/-- The consensus was renewed at slot `n`, and one of its sources stopped at slot 1000. -/
structure Alive (n : Nat) (s : State) : Prop where
  config : ∃ c, loadConfigOfMint s mint.key = .ok c ∧
    c.checkFeatureFlag flagMultiOracleConsensus = true
  consensus : ∃ oc, s.oracleConsensuses (.oracleConsensus mint.key) = some oc ∧ Renewed n oc
  stalled : ∃ p, s.pythPriceFeeds stalledFeed = some p ∧ p.price = 1 ∧ p.pubSlot = 1000

theorem alive_convened : Alive 1000 (run localRuntime genesis convened) where
  config := by
    have h : ((loadConfigOfMint (run localRuntime genesis convened) mint.key).map
        (·.checkFeatureFlag flagMultiOracleConsensus)).toOption = some true := by decide +kernel
    exact toOption_map_eq_some.mp h
  consensus := by
    have h : ((run localRuntime genesis convened).oracleConsensuses
        (.oracleConsensus mint.key)).any (Renewed 1000 ·) = true := by decide +kernel
    obtain ⟨oc, hoc, hrenewed⟩ := (Option.any_eq_true ..).mp h
    exact ⟨oc, hoc, of_decide_eq_true hrenewed⟩
  stalled := by
    have h : ((run localRuntime genesis convened).pythPriceFeeds stalledFeed).any
        (fun p => decide (p.price = 1 ∧ p.pubSlot = 1000)) = true := by decide +kernel
    obtain ⟨p, hp, hstalled⟩ := (Option.any_eq_true ..).mp h
    exact ⟨p, hp, of_decide_eq_true hstalled⟩

/-- One of the two sources is fresh. -/
theorem freshReports_one {n : Nat} {s : State} {p q : Price} (hlate : 1010 < n) (hn : n < 2 ^ 64)
    (hp : s.pythPriceFeeds feed = some p) (hprice : p.price = 1) (hslot : p.pubSlot = .ofNat n)
    (hq : s.pythPriceFeeds stalledFeed = some q) (hprice' : q.price = 1)
    (hslot' : q.pubSlot = 1000) :
    freshReports (atSlot n) s 10 (twoSources.zip crankRound.remainingAccounts) =
      .ok [{ price := 1, expo := p.expo }] := by
  have hread := readSourcePrice_pyth hp (by rw [hprice]; decide)
  have hread' := readSourcePrice_pyth hq (by rw [hprice']; decide)
  have hrest : freshReports (atSlot n) s 10
      ((List.replicate 6 { feed := .default }).zip (List.replicate 6 .default)) = .ok [] := rfl
  have hcurrent : ¬ (atSlot n).slot.saturatingSub p.pubSlot > 10 := by
    rw [hslot, gt_iff_lt, UInt64.not_lt, UInt64.saturatingSub_le]
    exact Nat.le_add_right ..
  have hold : (atSlot n).slot.saturatingSub q.pubSlot > 10 := by
    rw [hslot', gt_iff_lt, UInt64.lt_iff_toNat_lt, UInt64.toNat_saturatingSub]
    change 10 < (UInt64.ofNat n).toNat - 1000
    rw [UInt64.toNat_ofNat_of_lt' hn]
    omega
  have hone := freshReports_cons { oracleType := oraclePyth, feed } (by decide) hread
    (freshReports_cons { oracleType := oraclePyth, feed := stalledFeed } (by decide) hread' hrest)
  rw [if_neg hcurrent, if_pos hold, hprice, sourceExpo_pyth hp] at hone
  exact hone

/-- With a price of slot `m` in the one feed, a round at that slot renews the consensus, and it is
no agreement. -/
theorem Alive.rounded {n m : Nat} {s : State} {p : Price} (h : Alive n s)
    (hp : s.pythPriceFeeds feed = some p) (hpprice : p.price = 1) (hpslot : p.pubSlot = .ofNat m)
    (hm : m = n + 1000) (hn : 1000 ≤ n) (hlt : m < 2 ^ 64) :
    ∃ s', (round m).exec localRuntime s = .ok s' ∧ Alive m s' ∧
      agreements (sessions mint.key s (round m)) = [] := by
  obtain ⟨⟨c, hc, hflag⟩, ⟨oc, hoc, hmint, hmin, hcount, hage, hsources, htwap, htwapSlot,
    hprice, hslot⟩, ⟨q, hq, hqprice, hqslot⟩⟩ := h
  have hreports : freshReports (atSlot m) s oc.maxAgeSlots
      (oc.sources.zip crankRound.remainingAccounts) = .ok [{ price := 1, expo := p.expo }] := by
    rw [hage, hsources]
    exact freshReports_one (by omega) hlt hp hpprice hpslot hq hqprice hqslot
  have hfresh := freshPrices_eq_ok.mpr ⟨_, hreports, rfl⟩
  have hready : crankRound.Ready s c oc := by
    refine ⟨hc, hoc, hmint, ?_, rfl, ?_⟩
    · simpa [StablecoinConfig.checkFeatureFlag] using hflag
    · rw [hcount]
      decide
  have hfew : (oc.accepted [1]).length < oc.minOracles.toNat := by
    rw [hmin]
    exact Nat.lt_of_le_of_lt (oc.accepted_length_le [1]) (by decide)
  have hround : oc.Round (atSlot m) [1] (oc.conclude oc.twapPrice 0 (atSlot m).slot) := by
    refine .fellBack (by decide) hfew ?_ ?_
    · rw [htwap]
      decide
    · change (UInt64.ofNat m).toNat ≤ _
      rw [htwapSlot, UInt64.toNat_ofNat_of_lt' hlt,
        UInt64.toNat_ofNat_of_lt' (show n < 2 ^ 64 by omega), hm]
  have hsession : crankRound.session (atSlot m) s = .ok
      { slot := (atSlot m).slot, oc, reports := [{ price := 1, expo := p.expo }] } :=
    UpdateOracleConsensus.session_eq_ok.mpr ⟨oc, _, hoc, hmint, hreports, rfl⟩
  have hfell : Session.FellBack
      { slot := (atSlot m).slot, oc, reports := [{ price := 1, expo := p.expo }] } :=
    Session.fellBack_of_fresh (List.cons_ne_nil _ _) hfew
  refine ⟨_, updateOracleConsensusHandler_eq_ok.mpr ⟨c, oc, [1], _, hready, hfresh, hround, rfl⟩,
    ?_, ?_⟩
  · have hput := put_self s.oracleConsensuses (.oracleConsensus mint.key)
      (oc.conclude oc.twapPrice 0 (atSlot m).slot)
    exact ⟨⟨c, hc, hflag⟩, ⟨_, hput, hmint, hmin, hcount, hage, hsources,
      (oc.updateTwap_self (atSlot m).slot).trans htwap, rfl, htwap, rfl⟩, ⟨q, hq, hqprice, hqslot⟩⟩
  · change agreements (if mint.key = mint.key then
      (crankRound.session (atSlot m) s).toOption.toList else []) = []
    rw [if_pos rfl, hsession]
    exact agreements_skip hfell.not_agreed

theorem quote_exec (k : Pubkey) (n : Nat) (s : State) :
    (quote k n).exec localRuntime s =
      .ok { s with pythPriceFeeds := put s.pythPriceFeeds k (one n) } := rfl

theorem Alive.quoted {n : Nat} {s : State} (h : Alive n s) (m : Nat) :
    Alive n { s with pythPriceFeeds := put s.pythPriceFeeds feed (one m) } where
  config := h.config
  consensus := h.consensus
  stalled := by
    obtain ⟨q, hq, hq'⟩ := h.stalled
    exact ⟨q, (put_of_ne _ (one m) (show stalledFeed ≠ feed by decide)).trans hq, hq'⟩

theorem Alive.renew {n m : Nat} {s : State} (h : Alive n s) (hm : m = n + 1000) (hn : 1000 ≤ n)
    (hlt : m < 2 ^ 64) :
    Alive m (run localRuntime s [quote feed m, round m]) ∧
      agreements (history (Action.exec localRuntime) (sessions mint.key) s
        [quote feed m, round m]) = [] := by
  have hquote := quote_exec feed m s
  have hput := put_self s.pythPriceFeeds feed (one m)
  obtain ⟨s', hround, halive, hnone⟩ := (h.quoted m).rounded hput rfl rfl hm hn hlt
  have hrun : run localRuntime s [quote feed m, round m] = s' :=
    (congrArg (next (Action.exec localRuntime) · (round m)) (next_of_ok hquote)).trans
      (next_of_ok hround)
  refine ⟨hrun ▸ halive, ?_⟩
  rw [history_of_ok hquote, history_of_ok hround, agreements_append, agreements_append, hnone]
  rfl

/-- The consensus stays alive, and there was one agreement. -/
theorem alive_kept (n : Nat) (hn : 1000 * (n + 1) < 2 ^ 64) :
    Alive (1000 * (n + 1)) (run localRuntime genesis (kept n)) ∧
      (agreements (history (Action.exec localRuntime) (sessions mint.key) genesis
        (kept n))).map Session.slot = [1000] := by
  induction n with
  | zero => exact ⟨alive_convened, by decide +kernel⟩
  | succ n ih =>
    obtain ⟨halive, hslots⟩ := ih (by omega)
    obtain ⟨hlater, hnone⟩ := halive.renew (m := 1000 * (n + 2)) (by omega) (by omega) hn
    have hsplit : run localRuntime genesis (kept (n + 1)) = run localRuntime _ _ :=
      run_append genesis (kept n) _
    refine ⟨hsplit ▸ hlater, ?_⟩
    rw [kept, history_append, agreements_append, List.map_append, hslots]
    exact congrArg (fun h => [1000] ++ h.map Session.slot) hnone

/-- The price is still accepted. -/
theorem Alive.accepts {n : Nat} {s : State} (h : Alive n s) :
    ∃ c oc p, c.checkFeatureFlag flagMultiOracleConsensus = true ∧
      s.oracleConsensuses (.oracleConsensus mint.key) = some oc ∧
      getEffectiveOraclePrice localRuntime (atSlot n) s feed c (some oc) = .ok p := by
  obtain ⟨c, -, hflag⟩ := h.config
  obtain ⟨oc, hoc, -, -, -, -, -, -, -, hprice, hslot⟩ := h.consensus
  refine ⟨c, oc, _, hflag, hoc, (getEffectiveOraclePrice_consensus hflag).mpr ⟨?_, ?_, rfl⟩⟩
  · rw [hprice]
    decide
  · rw [hslot]
    exact Nat.le_add_right ..

end Market

open Market in
/-- Two sources have to agree here, on prices that are at most ten slots old. They did so once, and
for every bound on the age there are rounds of one of them that keep the price alive for longer. -/
theorem consensus_kept_alive :
    Genesis genesis ∧
      ((run localRuntime genesis convened).oracleConsensuses (.oracleConsensus mint.key)).map
        (fun oc => (oc.minOracles, oc.maxAgeSlots)) = some (2, 10) ∧
      ¬ ∃ bound < 2 ^ 63, ∀ n, 1000 * (n + 1) < 2 ^ 64 →
        FreshWithin (fun _ => bound) mint.key (run localRuntime genesis (kept n))
          (history (Action.exec localRuntime) (sessions mint.key) genesis (kept n)) := by
  refine ⟨genesis_genesis, by decide +kernel, fun h => ?_⟩
  obtain ⟨bound, hbound, h⟩ := h
  obtain ⟨n, hn⟩ : ∃ n, n = bound / 1000 + 1 := ⟨_, rfl⟩
  have hlt : 1000 * (n + 1) < 2 ^ 64 := by omega
  obtain ⟨halive, hslots⟩ := alive_kept n hlt
  obtain ⟨c, oc, p, hflag, hoc, hp⟩ := halive.accepts
  obtain ⟨-, last, hlast, -, hage⟩ := h n hlt localRuntime _ feed c oc p hflag hoc hp
  have hslot : last.slot = 1000 := by
    have hmem := List.mem_map_of_mem (f := Session.slot) (List.mem_of_getLast? hlast)
    rw [hslots] at hmem
    exact List.mem_singleton.mp hmem
  have hnow : (atSlot (1000 * (n + 1))).slot.toNat = 1000 * (n + 1) :=
    UInt64.toNat_ofNat_of_lt' hlt
  rw [hslot, hnow] at hage
  change _ ≤ 1000 + bound at hage
  omega

end SolanaStablecoin
