import Mathlib.Algebra.Order.Field.Power
import Mathlib.Data.Rat.Cast.Order
import SolanaStablecoin.Verify.Freshness

/-! What a consensus price is worth. The consensus takes the prices of its sources without their
exponents, and the reader puts `10 ^ -8` behind what comes out. -/

namespace SolanaStablecoin

open Transition

variable {clock : Clock} {s s' : State} {M : Pubkey} {oc : OracleConsensus}

/-- The worth of a price in USD. -/
def Report.value (q : Report) : ℚ := q.price.toNat * 10 ^ q.expo.toInt

def OraclePrice.value (p : OraclePrice) : ℚ := p.price.toInt * 10 ^ p.expo.toInt

/-- The value lies between the smallest and the largest of the reports'. -/
def Between (reports : List Report) (v : ℚ) : Prop :=
  (∃ q ∈ reports, q.value ≤ v) ∧ ∃ q ∈ reports, v ≤ q.value

/-- Every price that is taken from the consensus on `M` is worth something between what the
accepted sources say: those of the last agreement when it is its price, and those of all when it
is the average. -/
def ScaleKept (M : Pubkey) (s : State) (h : List Session) : Prop :=
  ∀ rt clock feed c oc p, c.checkFeatureFlag flagMultiOracleConsensus = true →
    s.oracleConsensuses (.oracleConsensus M) = some oc →
    getEffectiveOraclePrice rt clock s feed c (some oc) = .ok p →
    (∃ last ∈ (agreements h).getLast?, p.price.toUInt64 = last.price ∧
      Between last.accepted p.value) ∨
    (p.price.toUInt64 = average (agreements h) ∧
      Between ((agreements h).flatMap Session.accepted) p.value)

/-! ## Medians and averages -/

/-- A number between the smallest and the largest of a list. -/
def Spans (l : List UInt64) (x : UInt64) : Prop := (∃ p ∈ l, p ≤ x) ∧ ∃ p ∈ l, x ≤ p

theorem Spans.mono {l l' : List UInt64} {x : UInt64} (h : Spans l x)
    (hl : ∀ y ∈ l, Spans l' y) : Spans l' x := by
  obtain ⟨⟨p, hp, hpx⟩, q, hq, hxq⟩ := h
  obtain ⟨p', hp', hpp⟩ := (hl p hp).1
  obtain ⟨q', hq', hqq⟩ := (hl q hq).2
  exact ⟨⟨p', hp', UInt64.le_trans hpp hpx⟩, q', hq', UInt64.le_trans hxq hqq⟩

theorem median_spans {l : List UInt64} (hl : l ≠ []) : Spans l (median l) := by
  obtain ⟨p, hp, hleast⟩ := List.exists_least (fun x y : UInt64 => UInt64.le_total x y)
    (fun _ _ _ => UInt64.le_trans) hl
  obtain ⟨q, hq, hlargest⟩ := List.exists_least (r := fun x y : UInt64 => y ≤ x)
    (fun x y => UInt64.le_total y x) (fun _ _ _ hxy hyz => UInt64.le_trans hyz hxy) hl
  have hwithin : ∀ x ∈ l, Within p q x := fun x hx =>
    within_iff.mpr ⟨hleast x hx, hlargest x hx⟩
  obtain ⟨hpm, hmq⟩ := within_iff.mp (median_within (List.majority_of_forall hl hwithin))
  exact ⟨⟨p, hp, hpm⟩, q, hq, hmq⟩

/-- A weighted mean, rounded down, lies between the two. -/
theorem weigh_between {t p : UInt64} (ht : t ≠ 0) :
    (p ≤ weigh t p ∧ weigh t p ≤ t) ∨ (t ≤ weigh t p ∧ weigh t p ≤ p) := by
  have hlt : (t.toNat * 7 + p.toNat) / 8 < 2 ^ 64 := by
    have := t.toNat_lt
    have := p.toNat_lt
    omega
  simp only [weigh, if_neg ht, UInt64.le_iff_toNat_le, UInt64.toNat_ofNat_of_lt' hlt]
  omega

theorem average_spans (l : List UInt64) : l.foldl weigh 0 = 0 ∨ Spans l (l.foldl weigh 0) := by
  induction l using List.reverseRecOn with
  | nil => exact .inl rfl
  | append_singleton l p ih =>
    rw [List.foldl_append, List.foldl_cons, List.foldl_nil]
    have hp : p ∈ l ++ [p] := List.mem_append_right l (List.mem_singleton_self p)
    have hsub {x : UInt64} (h : Spans l x) : Spans (l ++ [p]) x :=
      ⟨h.1.imp fun _ hx => ⟨List.mem_append_left _ hx.1, hx.2⟩,
        h.2.imp fun _ hx => ⟨List.mem_append_left _ hx.1, hx.2⟩⟩
    by_cases hzero : l.foldl weigh 0 = 0
    · rw [hzero]
      exact .inr ⟨⟨p, hp, UInt64.le_refl p⟩, p, hp, UInt64.le_refl p⟩
    · obtain ⟨⟨lo, hlo, hle⟩, hi, hhi, hge⟩ := hsub (ih.resolve_left hzero)
      rcases weigh_between (p := p) hzero with ⟨hpw, hwt⟩ | ⟨htw, hwp⟩
      · exact .inr ⟨⟨p, hp, hpw⟩, hi, hhi, UInt64.le_trans hwt hge⟩
      · exact .inr ⟨⟨lo, hlo, UInt64.le_trans hle htw⟩, p, hp, hwp⟩

/-! ## Sources of one scale -/

/-- What is read when the consensus is `x`. -/
def OracleConsensus.reading (oc : OracleConsensus) (x : UInt64) : OraclePrice :=
  { price := x.toInt64, conf := oc.lastConsensusConf, expo := -8 }

theorem reading_value {x : UInt64} (hx : x.toNat < 2 ^ 63) :
    (oc.reading x).value = x.toNat * 10 ^ (-8 : ℤ) := by
  have hprice : x.toInt64.toInt = x.toNat :=
    BitVec.toInt_eq_toNat_of_lt (show 2 * x.toNat < 2 ^ 64 by omega)
  have hexpo : (-8 : Int32).toInt = -8 := rfl
  rw [OraclePrice.value, OracleConsensus.reading, hprice, hexpo, Int.cast_natCast]

theorem Report.value_of_scale {q : Report} (h : q.expo = -8) :
    q.value = q.price.toNat * 10 ^ (-8 : ℤ) := by
  have hexpo : (-8 : Int32).toInt = -8 := rfl
  rw [value, h, hexpo]

/-- Among reports of the reader's own scale, what lies between the prices lies between the
values. -/
theorem Spans.between (oc : OracleConsensus) {reports : List Report} {x : UInt64}
    (hscale : ∀ q ∈ reports, q.expo = -8) (hsigned : ∀ q ∈ reports, q.price.toNat < 2 ^ 63)
    (h : Spans (reports.map Report.price) x) : Between reports (oc.reading x).value := by
  obtain ⟨⟨_, hp', hle⟩, _, hq', hge⟩ := h
  obtain ⟨p, hp, rfl⟩ := List.mem_map.mp hp'
  obtain ⟨q, hq, rfl⟩ := List.mem_map.mp hq'
  rw [UInt64.le_iff_toNat_le] at hle hge
  have hpos : (0 : ℚ) ≤ 10 ^ (-8 : ℤ) := zpow_nonneg (by norm_num) _
  rw [reading_value (Nat.lt_of_le_of_lt hge (hsigned q hq))]
  constructor
  · refine ⟨p, hp, ?_⟩
    rw [Report.value_of_scale (hscale p hp)]
    exact mul_le_mul_of_nonneg_right (Nat.cast_le.mpr hle) hpos
  · refine ⟨q, hq, ?_⟩
    rw [Report.value_of_scale (hscale q hq)]
    exact mul_le_mul_of_nonneg_right (Nat.cast_le.mpr hge) hpos

theorem OracleConsensus.Sourced.scaleKept {h : List Session} (hs : oc.Sourced (agreements h))
    (hoc : s.oracleConsensuses (.oracleConsensus M) = some oc)
    (hscale : ∀ r ∈ agreements h, ∀ q ∈ r.accepted, q.expo = -8) : ScaleKept M s h := by
  intro rt clock feed c oc' p hflag hoc' hp
  rw [hoc] at hoc'
  cases hoc'
  obtain ⟨hpos, -, rfl⟩ := (getEffectiveOraclePrice_consensus hflag).mp hp
  obtain ⟨last, hlast, hprice⟩ := hs.derived hpos
  rw [UInt64.toUInt64_toInt64]
  have hmedian {r : Session} (hr : r ∈ agreements h) :
      Spans (r.accepted.map Report.price) r.price :=
    median_spans fun hnil => hs.heard r hr (List.map_eq_nil_iff.mp hnil)
  rcases hprice with hprice | haverage
  · have hmem := List.mem_of_getLast? hlast
    refine .inl ⟨last, hlast, hprice, ?_⟩
    exact Spans.between oc (hscale last hmem) (hs.signed last hmem) (hprice ▸ hmedian hmem)
  · refine .inr ⟨haverage, ?_⟩
    refine Spans.between oc (fun q hq => ?_) (fun q hq => ?_) ?_
    · obtain ⟨r, hr, hq⟩ := List.mem_flatMap.mp hq
      exact hscale r hr q hq
    · obtain ⟨r, hr, hq⟩ := List.mem_flatMap.mp hq
      exact hs.signed r hr q hq
    · have hspans := (average_spans ((agreements h).map Session.price)).resolve_left fun hzero => by
        rw [haverage, average, hzero] at hpos
        exact absurd hpos (by decide)
      rw [haverage, List.map_flatMap]
      refine hspans.mono fun y hy => ?_
      obtain ⟨r, hr, rfl⟩ := List.mem_map.mp hy
      obtain ⟨⟨lo, hlo, hle⟩, hi, hhi, hge⟩ := hmedian hr
      exact ⟨⟨lo, List.mem_flatMap.mpr ⟨r, hr, hlo⟩, hle⟩,
        hi, List.mem_flatMap.mpr ⟨r, hr, hhi⟩, hge⟩

/-! ## A source of another scale -/

/-- A single report that is read as it was meant is of the reader's scale. -/
theorem Report.expo_of_between {q : Report} {x : UInt64} (hx : x.toNat < 2 ^ 63)
    (hpos : 0 < x.toNat) (hprice : q.price = x) (h : Between [q] (oc.reading x).value) :
    q.expo = -8 := by
  obtain ⟨⟨_, hlo, hle⟩, _, hhi, hge⟩ := h
  rw [List.mem_singleton.mp hlo] at hle
  rw [List.mem_singleton.mp hhi] at hge
  have heq := le_antisymm hle hge
  rw [reading_value hx, value, hprice] at heq
  have hpow := mul_left_cancel₀ (Nat.cast_ne_zero.mpr hpos.ne') heq
  exact Int32.toInt_inj.mp (zpow_right_injective₀ (by norm_num) (by norm_num) hpow)

theorem deviationOf_self (p : UInt64) : deviationOf p p = 0 := by
  have hdiff : (absDiff p p).toNat = 0 := by
    rw [toNat_absDiff, Nat.max_self, Nat.min_self, Nat.sub_self]
  rw [← UInt64.toNat_inj, deviationOf, UInt64.toNat_div, UInt64.toNat_saturatingMul, hdiff,
    Nat.zero_mul, Nat.zero_min, Nat.zero_div, UInt64.toNat_zero]

theorem median_singleton (p : UInt64) : median [p] = p := by
  simp [median, medianOf]

/-- The only report is no outlier. -/
theorem Session.accepted_one {r : Session} {q : Report} (h : r.reports = [q]) :
    r.accepted = [q] := by
  have hmedian : median r.fresh = q.price := by
    rw [fresh, h]
    exact median_singleton q.price
  rw [accepted, h, hmedian]
  refine List.filter_cons_of_pos (decide_eq_true ?_)
  rw [deviationOf_self]
  exact UInt64.zero_le

namespace Market

/-- A consensus of one Pyth source. -/
def solo : List Action :=
  opening 1000 ++
    [ .call (day 0) (.initOracleConsensus asAuthority 1 200 10),
      .call (day 0) (.setOracleSource asAuthority 0 oraclePyth feed) ]

/-- The price of the source with its exponent. -/
def scaledPrice (expo : Int32) : Price :=
  { price := 1, conf := 0, expo, publishTime := 0, pubSlot := 1000 }

/-- The source reports a price with this exponent at slot 1000, and a round is held. -/
def scaled (expo : Int32) : List Action :=
  solo ++ [.world (.publishPythPrice feed (scaledPrice expo)), round 1000]

/-- The record before the round. -/
def Single (oc : OracleConsensus) : Prop :=
  oc.mint = mint.key ∧ oc.minOracles = 1 ∧ oc.sourceCount = 1 ∧ oc.maxAgeSlots = 10 ∧
    oc.sources = { oracleType := oraclePyth, feed } :: List.replicate 7 { feed := .default }

instance Single.decidable (oc : OracleConsensus) : Decidable (Single oc) :=
  inferInstanceAs (Decidable (_ ∧ _))

theorem single_solo :
    ∃ c oc, loadConfigOfMint (run localRuntime genesis solo) mint.key = .ok c ∧
      c.checkFeatureFlag flagMultiOracleConsensus = true ∧
      (run localRuntime genesis solo).oracleConsensuses (.oracleConsensus mint.key) = some oc ∧
      Single oc := by
  have hc : ((loadConfigOfMint (run localRuntime genesis solo) mint.key).map
      (·.checkFeatureFlag flagMultiOracleConsensus)).toOption = some true := by decide +kernel
  have hoc : ((run localRuntime genesis solo).oracleConsensuses
      (.oracleConsensus mint.key)).any (Single ·) = true := by decide +kernel
  obtain ⟨c, hload, hflag⟩ := toOption_map_eq_some.mp hc
  obtain ⟨oc, hoc, hsingle⟩ := (Option.any_eq_true ..).mp hoc
  exact ⟨c, oc, hload, hflag, hoc, of_decide_eq_true hsingle⟩

theorem Single.reports {oc : OracleConsensus} {s : State} {expo : Int32} (h : Single oc)
    (hp : s.pythPriceFeeds feed = some (scaledPrice expo)) :
    freshReports (atSlot 1000) s oc.maxAgeSlots (oc.sources.zip crankRound.remainingAccounts) =
      .ok [{ price := 1, expo }] := by
  obtain ⟨-, -, -, hage, hsources⟩ := h
  have hrest : freshReports (atSlot 1000) s 10 ((List.replicate 7 { feed := .default }).zip
      (stalledFeed :: List.replicate 6 .default)) = .ok [] := rfl
  have hone := freshReports_cons { oracleType := oraclePyth, feed } (by decide)
    (readSourcePrice_pyth hp (show (0 : Int64) < 1 by decide)) hrest
  have hcurrent : ¬ (atSlot 1000).slot.saturatingSub (scaledPrice expo).pubSlot > 10 := by
    rw [gt_iff_lt, UInt64.not_lt, UInt64.saturatingSub_le]
    exact Nat.le_add_right ..
  rw [if_neg hcurrent, sourceExpo_pyth hp] at hone
  rw [hage, hsources]
  exact hone

/-- The round agrees on what the one source reports. -/
theorem Single.round {c : StablecoinConfig} {oc : OracleConsensus} {s : State} {expo : Int32}
    (h : Single oc) (hc : loadConfigOfMint s mint.key = .ok c)
    (hflag : c.checkFeatureFlag flagMultiOracleConsensus = true)
    (hoc : s.oracleConsensuses (.oracleConsensus mint.key) = some oc)
    (hp : s.pythPriceFeeds feed = some (scaledPrice expo)) :
    ∃ s' oc' r, (Market.round 1000).exec localRuntime s = .ok s' ∧
      s'.oracleConsensuses (.oracleConsensus mint.key) = some oc' ∧
      oc'.lastConsensusPrice = 1 ∧ oc'.lastConsensusSlot = 1000 ∧
      sessions mint.key s (Market.round 1000) = [r] ∧ r.Agreed ∧
      r.accepted = [{ price := 1, expo }] := by
  have hreports := h.reports hp
  obtain ⟨hmint, hmin, hcount, -, -⟩ := h
  obtain ⟨r, hr⟩ : ∃ r : Session,
      r = { slot := (atSlot 1000).slot, oc, reports := [{ price := 1, expo }] } := ⟨_, rfl⟩
  have hsession : crankRound.session (atSlot 1000) s = .ok r :=
    UpdateOracleConsensus.session_eq_ok.mpr ⟨oc, _, hoc, hmint, hreports, hr⟩
  have haccepted : r.accepted = [{ price := 1, expo }] := Session.accepted_one (by rw [hr])
  have hone : r.reports ≠ [] := by
    rw [hr]
    exact List.cons_ne_nil _ _
  have hsame : r.oc = oc := by rw [hr]
  have hagreed : r.Agreed := by
    refine ⟨hone, ?_⟩
    rw [haccepted, hsame, hmin]
    exact Nat.le_refl 1
  have hprices : oc.accepted r.fresh = [1] := by
    rw [← hsame, ← Session.accepted_prices, haccepted]
    rfl
  have hfresh : freshPrices (atSlot 1000) s oc.maxAgeSlots
      (oc.sources.zip crankRound.remainingAccounts) = .ok r.fresh :=
    freshPrices_eq_ok.mpr ⟨_, hreports, by rw [Session.fresh, hr]⟩
  have hready : crankRound.Ready s c oc := by
    refine ⟨hc, hoc, hmint, ?_, rfl, ?_⟩
    · simpa [StablecoinConfig.checkFeatureFlag] using hflag
    · rw [hcount]
      decide
  have hround : oc.Round (atSlot 1000) r.fresh (oc.conclude (median (oc.accepted r.fresh))
      (spread (oc.accepted r.fresh) (median (oc.accepted r.fresh))) (atSlot 1000).slot) := by
    refine .agreed (fun hnil => hone (List.map_eq_nil_iff.mp hnil)) ?_ ?_
    · rw [hprices, hmin]
      exact Nat.le_refl 1
    · rw [hprices]
      decide
  have hput := put_self s.oracleConsensuses (.oracleConsensus mint.key)
    (oc.conclude (median (oc.accepted r.fresh))
      (spread (oc.accepted r.fresh) (median (oc.accepted r.fresh))) (atSlot 1000).slot)
  refine ⟨_, _, r, updateOracleConsensusHandler_eq_ok.mpr
    ⟨c, oc, r.fresh, _, hready, hfresh, hround, rfl⟩, hput, ?_, ?_, ?_, hagreed, haccepted⟩
  · change median (oc.accepted r.fresh) = 1
    rw [hprices]
    decide
  · rfl
  · change (if mint.key = mint.key then
      (crankRound.session (atSlot 1000) s).toOption.toList else []) = [r]
    rw [if_pos rfl, hsession]
    rfl

/-- The one agreement of the run is on what the one source reports. -/
theorem scaled_agreed (expo : Int32) :
    ∃ (c : StablecoinConfig) (oc : OracleConsensus) (r : Session),
      c.checkFeatureFlag flagMultiOracleConsensus = true ∧
      (run localRuntime genesis (scaled expo)).oracleConsensuses (.oracleConsensus mint.key) =
        some oc ∧
      oc.lastConsensusPrice = 1 ∧ oc.lastConsensusSlot = 1000 ∧
      agreements (history (Action.exec localRuntime) (sessions mint.key) genesis
        (scaled expo)) = [r] ∧
      r.accepted = [{ price := 1, expo }] := by
  obtain ⟨c, oc, hc, hflag, hoc, hsingle⟩ := single_solo
  have hnone : (history (Action.exec localRuntime) (sessions mint.key) genesis solo).isEmpty =
      true := by decide +kernel
  obtain ⟨s, hs⟩ : ∃ s, run localRuntime genesis solo = s := ⟨_, rfl⟩
  rw [hs] at hc hoc
  have hpublish : (Action.world (.publishPythPrice feed (scaledPrice expo))).exec localRuntime s =
      .ok { s with pythPriceFeeds := put s.pythPriceFeeds feed (scaledPrice expo) } := rfl
  have hput := put_self s.pythPriceFeeds feed (scaledPrice expo)
  obtain ⟨s', oc', r, hround, hoc', hprice, hslot, hsession, hagreed, haccepted⟩ :=
    hsingle.round (s := { s with pythPriceFeeds := put s.pythPriceFeeds feed (scaledPrice expo) })
      hc hflag hoc hput
  have hrun : run localRuntime genesis (scaled expo) = s' := by
    refine (run_append genesis solo _).trans ((congrArg (run localRuntime · _) hs).trans ?_)
    exact (congrArg (next (Action.exec localRuntime) · (Market.round 1000))
      (next_of_ok hpublish)).trans (next_of_ok hround)
  refine ⟨c, oc', r, hflag, hrun ▸ hoc', hprice, hslot, ?_, haccepted⟩
  have htail : history (Action.exec localRuntime) (sessions mint.key) s
      [.world (.publishPythPrice feed (scaledPrice expo)), Market.round 1000] = [r] := by
    rw [history_of_ok hpublish, history_of_ok hround, hsession]
    rfl
  have hhistory : history (Action.exec localRuntime) (sessions mint.key) genesis (scaled expo) =
      [r] := by
    rw [scaled, history_append, List.isEmpty_iff.mp hnone, List.nil_append]
    exact (congrArg (history (Action.exec localRuntime) (sessions mint.key) · _) hs).trans htail
  rw [hhistory, agreements_agreed hagreed]

/-- The price of the round is worth what the source says for one exponent alone. -/
theorem scaled_kept {e : Int32}
    (h : ScaleKept mint.key (run localRuntime genesis (scaled e))
      (history (Action.exec localRuntime) (sessions mint.key) genesis (scaled e))) : e = -8 := by
  obtain ⟨c, oc, r, hflag, hoc, hprice, hslot, hone, haccepted⟩ := scaled_agreed e
  have hread : getEffectiveOraclePrice localRuntime (atSlot 1000)
      (run localRuntime genesis (scaled e)) feed c (some oc) = .ok (oc.reading 1) := by
    refine (getEffectiveOraclePrice_consensus hflag).mpr ⟨?_, ?_, ?_⟩
    · rw [hprice]
      decide
    · rw [hslot]
      exact Nat.le_add_right ..
    · rw [hprice]
      rfl
  have hbetween : Between [{ price := 1, expo := e }] (oc.reading 1).value := by
    rcases h localRuntime _ feed c oc _ hflag hoc hread with ⟨last, hlast, -, hlast'⟩ | ⟨-, hall⟩
    · rw [hone, List.getLast?_singleton] at hlast
      rwa [← Option.some.inj hlast, haccepted] at hlast'
    · rwa [hone, List.flatMap_singleton, haccepted] at hall
  exact Report.expo_of_between (x := 1) (by decide) (by decide) rfl hbetween

end Market

open Market in
/-- A price keeps its scale in every run exactly if its accepted sources give it with the exponent
that the reader puts back. -/
theorem consensus_scale (E : Int32 → Prop) :
    (∀ rt s M as, (∀ k, s.oracleConsensuses k = none) →
        (∀ r ∈ agreements (history (Action.exec rt) (sessions M) s as), ∀ q ∈ r.accepted,
          E q.expo) →
        ScaleKept M (run rt s as) (history (Action.exec rt) (sessions M) s as)) ↔
      ∀ e, E e → e = -8 := by
  constructor
  · intro h e he
    obtain ⟨c, oc, r, -, -, -, -, hone, haccepted⟩ := scaled_agreed e
    refine scaled_kept (h localRuntime genesis mint.key (scaled e) (fun _ => rfl) ?_)
    intro r' hr' q hq
    rw [hone, List.mem_singleton] at hr'
    rw [hr', haccepted, List.mem_singleton] at hq
    rw [hq]
    exact he
  · intro h rt s M as hs hE
    have hsourced := consensusSourced_run (M := M) rt (hs _) as
    intro rt' clock feed c oc p hflag hoc hp
    rw [ConsensusSourced, hoc] at hsourced
    exact hsourced.scaleKept hoc (fun r hr q hq => h _ (hE r hr q hq)) rt' clock feed c oc p hflag
      hoc hp

open Market in
/-- A source that counts in millionths is read in hundred-millionths. -/
theorem scale_lost :
    Genesis genesis ∧
      (agreements (history (Action.exec localRuntime) (sessions mint.key) genesis
        (scaled (-6)))).map Session.accepted = [[{ price := 1, expo := -6 }]] ∧
      ¬ ScaleKept mint.key (run localRuntime genesis (scaled (-6)))
        (history (Action.exec localRuntime) (sessions mint.key) genesis (scaled (-6))) :=
  ⟨genesis_genesis, by decide +kernel, fun h => absurd (scaled_kept h) (by decide)⟩

end SolanaStablecoin
