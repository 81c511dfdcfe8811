import SolanaStablecoin.Base.Majority
import SolanaStablecoin.Verify.Guards

/-! One round of the oracle consensus: which of the fresh prices it accepts, what it makes of them,
and why a majority of honest sources decides it. -/

namespace SolanaStablecoin

variable {clock : Clock} {s s' : State} {c : StablecoinConfig} {oc oc' : OracleConsensus}
  {fresh : List UInt64} {a b p : UInt64}

/-! ## Medians -/

theorem UInt64.toNat_mean (lo hi : UInt64) :
    (lo / 2 + hi / 2 + (lo &&& hi &&& 1)).toNat = (lo.toNat + hi.toNat) / 2 := by
  have hodd : (lo &&& hi &&& 1).toNat = lo.toNat % 2 * (hi.toNat % 2) := by
    rw [UInt64.toNat_and, UInt64.toNat_and, UInt64.toNat_one, Nat.and_one_is_mod]
    have hbit := Nat.and_mod_two_pow (a := lo.toNat) (b := hi.toNat) (n := 1)
    rw [Nat.pow_one] at hbit
    rw [hbit]
    rcases Nat.mod_two_eq_zero_or_one lo.toNat with h | h <;>
      rcases Nat.mod_two_eq_zero_or_one hi.toNat with h' | h' <;> rw [h, h'] <;> rfl
  have hlo := lo.toNat_lt
  have hhi := hi.toNat_lt
  have htwo : (2 : UInt64).toNat = 2 := rfl
  rw [UInt64.toNat_add, UInt64.toNat_add, UInt64.toNat_div, UInt64.toNat_div, hodd, htwo]
  rcases Nat.mod_two_eq_zero_or_one lo.toNat with h | h <;>
    rcases Nat.mod_two_eq_zero_or_one hi.toNat with h' | h' <;> rw [h, h'] <;> omega

/-- A price in the interval. -/
def Within (a b p : UInt64) : Bool := decide (a ≤ p ∧ p ≤ b)

theorem within_iff : Within a b p = true ↔ a ≤ p ∧ p ≤ b := decide_eq_true_iff

/-- The middle elements of a sorted list lie where a majority lies. -/
theorem medianOf_within {l : List UInt64} (hl : l.Pairwise (· ≤ ·))
    (h : l.Majority (Within a b)) : Within a b (medianOf l) := by
  have hlower : l.Majority (fun p => decide (a ≤ p)) :=
    h.mono fun x _ hx => decide_eq_true (within_iff.mp hx).1
  have hupper : l.Majority (fun p => decide (p ≤ b)) :=
    h.mono fun x _ hx => decide_eq_true (within_iff.mp hx).2
  have hmiddle {i : Nat} (hi : i < l.length) (hle : l.length ≤ 2 * (i + 1))
      (hge : 2 * i ≤ l.length) : a ≤ l.getD i 0 ∧ l.getD i 0 ≤ b := by
    rw [List.getD_eq_getElem?_getD, List.getElem?_eq_getElem hi, Option.getD_some]
    constructor
    · refine of_decide_eq_true (hlower.upper hl (fun x y hxy hx => ?_) hi hle)
      exact decide_eq_true (UInt64.le_trans (of_decide_eq_true hx) hxy)
    · refine of_decide_eq_true (hupper.lower hl (fun x y hxy hy => ?_) hi hge)
      exact decide_eq_true (UInt64.le_trans hxy (of_decide_eq_true hy))
  have hpos := h.length_pos
  rw [within_iff, medianOf]
  dsimp only
  rw [if_neg hpos.ne']
  split
  · exact hmiddle (by omega) (by omega) (by omega)
  next heven =>
    obtain ⟨hlo, hlo'⟩ := hmiddle (i := l.length / 2 - 1) (by omega) (by omega) (by omega)
    obtain ⟨hhi, hhi'⟩ := hmiddle (i := l.length / 2) (by omega) (by omega) (by omega)
    rw [UInt64.le_iff_toNat_le] at hlo hlo' hhi hhi'
    rw [UInt64.le_iff_toNat_le, UInt64.le_iff_toNat_le, UInt64.toNat_mean]
    omega

theorem median_within {l : List UInt64} (h : l.Majority (Within a b)) :
    Within a b (median l) :=
  medianOf_within (List.pairwise_insertionSort ..) (h.perm (List.perm_insertionSort ..))

/-! ## Outliers -/

/-- The fresh prices that are no outliers. -/
def OracleConsensus.accepted (oc : OracleConsensus) (fresh : List UInt64) : List UInt64 :=
  fresh.filter fun p => deviationOf (median fresh) p ≤ oc.outlierThresholdBps.toUInt64

theorem toNat_absDiff (a b : UInt64) :
    (absDiff a b).toNat = max a.toNat b.toNat - min a.toNat b.toNat := by
  rw [absDiff]
  split
  next h =>
    have := UInt64.le_iff_toNat_le.mp h
    rw [UInt64.toNat_saturatingSub]
    omega
  next h =>
    have := UInt64.lt_iff_toNat_lt.mp (UInt64.not_le.mp h)
    rw [UInt64.toNat_saturatingSub]
    omega

/-- Two prices that differ by less than the threshold are no outliers to each other. -/
theorem deviationOf_le {m : UInt64} {bps : UInt16}
    (hspread : (b.toNat - a.toNat) * 10000 ≤ bps.toNat * a.toNat) (hm : Within a b m)
    (hp : Within a b p) : deviationOf m p ≤ bps.toUInt64 := by
  simp only [within_iff, UInt64.le_iff_toNat_le] at hm hp
  have hdiff : (absDiff p m).toNat ≤ b.toNat - a.toNat := by
    rw [toNat_absDiff]
    omega
  have hscaled : (absDiff p m).toNat * 10000 ≤ max m.toNat 1 * bps.toNat :=
    calc (absDiff p m).toNat * 10000
      _ ≤ (b.toNat - a.toNat) * 10000 := Nat.mul_le_mul_right _ hdiff
      _ ≤ bps.toNat * a.toNat := hspread
      _ ≤ bps.toNat * max m.toNat 1 :=
        Nat.mul_le_mul_left _ (hm.1.trans (Nat.le_max_left ..))
      _ = max m.toNat 1 * bps.toNat := Nat.mul_comm ..
  rw [deviationOf, UInt64.le_iff_toNat_le, UInt64.toNat_div, UInt64.toNat_saturatingMul,
    UInt64.toNat_max, UInt16.toNat_toUInt64]
  refine Nat.div_le_of_le_mul (Nat.le_trans (Nat.min_le_left ..) ?_)
  exact hscaled

/-! ## One round -/

theorem OracleConsensus.twap_eq_ok :
    oc.twap clock = .ok p ↔
      0 < oc.twapPrice ∧ clock.slot.toNat ≤ oc.twapLastSlot.toNat + 1000 ∧ oc.twapPrice = p := by
  simp only [twap, bind_eq_ok, require_eq_ok, pure_eq_ok, UInt64.le_iff_toNat_le,
    UInt64.toNat_saturatingSub]
  constructor
  · intro h
    obtain ⟨-, hpos, -, hage, hp⟩ := h
    exact ⟨hpos, Nat.sub_le_iff_le_add'.mp hage, hp⟩
  · intro h
    obtain ⟨hpos, hage, hp⟩ := h
    exact ⟨(), hpos, (), Nat.sub_le_iff_le_add'.mpr hage, hp⟩

/-- The largest deviation of an accepted price from the consensus. -/
def spread (accepted : List UInt64) (price : UInt64) : UInt64 :=
  (accepted.map fun p => absDiff p price).foldl max 0

/-- A price becomes the consensus of the slot. -/
def OracleConsensus.conclude (oc : OracleConsensus) (price conf slot : UInt64) :
    OracleConsensus :=
  { oc.updateTwap price slot with
    lastConsensusPrice := price, lastConsensusConf := conf, lastConsensusSlot := slot }

/-- What a successful round makes of the record. -/
inductive OracleConsensus.Round (clock : Clock) (oc : OracleConsensus) (fresh : List UInt64) :
    OracleConsensus → Prop where
  /-- Enough sources agree. -/
  | agreed (some : fresh ≠ []) (enough : oc.minOracles.toNat ≤ (oc.accepted fresh).length)
    (pos : 0 < median (oc.accepted fresh)) :
    Round clock oc fresh
      (oc.conclude (median (oc.accepted fresh))
        (spread (oc.accepted fresh) (median (oc.accepted fresh))) clock.slot)
  /-- Too few do, and the average becomes the consensus. -/
  | fellBack (some : fresh ≠ []) (few : (oc.accepted fresh).length < oc.minOracles.toNat)
    (pos : 0 < oc.twapPrice) (recent : clock.slot.toNat ≤ oc.twapLastSlot.toNat + 1000) :
    Round clock oc fresh (oc.conclude oc.twapPrice 0 clock.slot)
  /-- There is no fresh price, and the average is renewed. -/
  | renewed (none : fresh = []) (pos : 0 < oc.twapPrice)
    (recent : clock.slot.toNat ≤ oc.twapLastSlot.toNat + 1000) :
    Round clock oc fresh (oc.updateTwap oc.twapPrice clock.slot)

/-- A round may be held with these accounts. -/
structure UpdateOracleConsensus.Ready (u : UpdateOracleConsensus) (s : State)
    (c : StablecoinConfig) (oc : OracleConsensus) : Prop where
  config : loadConfigOfMint s u.mint = .ok c
  consensus : s.oracleConsensuses (.oracleConsensus u.mint) = some oc
  mint : oc.mint = u.mint
  flag : c.featureFlags &&& flagMultiOracleConsensus ≠ 0
  accounts : u.remainingAccounts.length = OracleConsensus.maxSources
  sources : 0 < oc.sourceCount

theorem OracleConsensus.agree_eq_ok {x : UInt64 × UInt64} :
    oc.agree clock fresh = .ok x ↔
      (oc.minOracles.toNat ≤ (oc.accepted fresh).length ∧
        x = (median (oc.accepted fresh),
          spread (oc.accepted fresh) (median (oc.accepted fresh)))) ∨
      ((oc.accepted fresh).length < oc.minOracles.toNat ∧ 0 < oc.twapPrice ∧
        clock.slot.toNat ≤ oc.twapLastSlot.toNat + 1000 ∧ x = (oc.twapPrice, 0)) := by
  change (if (oc.accepted fresh).length ≥ oc.minOracles.toNat then
    pure (median (oc.accepted fresh), spread (oc.accepted fresh) (median (oc.accepted fresh)))
    else oc.twap clock >>= fun price => pure (price, 0)) = .ok x ↔ _
  split
  next henough =>
    rw [pure_eq_ok, eq_comm]
    simp [henough, Nat.not_lt.mpr henough]
  next hfew =>
    simp only [bind_eq_ok, twap_eq_ok, pure_eq_ok, hfew, Nat.not_le.mp hfew, false_and, false_or,
      true_and]
    constructor
    · intro h
      obtain ⟨_, ⟨hpos, hage, rfl⟩, rfl⟩ := h
      exact ⟨hpos, hage, rfl⟩
    · intro h
      obtain ⟨hpos, hage, rfl⟩ := h
      exact ⟨_, ⟨hpos, hage, rfl⟩, rfl⟩

theorem loadConsensus_eq_ok {mint : Pubkey} :
    loadConsensus s mint = .ok oc ↔
      s.oracleConsensuses (.oracleConsensus mint) = some oc ∧ oc.mint = mint := by
  rw [loadConsensus, checked_eq_ok, load_eq_ok]

theorem updateOracleConsensusHandler_eq_ok {u : UpdateOracleConsensus} :
    updateOracleConsensusHandler clock s u = .ok s' ↔
      ∃ c oc fresh oc', u.Ready s c oc ∧
        freshPrices clock s oc.maxAgeSlots (oc.sources.zip u.remainingAccounts) = .ok fresh ∧
        oc.Round clock fresh oc' ∧
        s' = { s with
          oracleConsensuses := put s.oracleConsensuses (.oracleConsensus u.mint) oc' } := by
  simp only [updateOracleConsensusHandler, loadConsensus_eq_ok, bind_eq_ok, require_eq_ok]
  constructor
  · intro h
    obtain ⟨c, hc, oc, ⟨hoc, hmint⟩, -, hflag, -, hlen, -, hcount, fresh, hfresh, h⟩ := h
    have hready : u.Ready s c oc := ⟨hc, hoc, hmint, hflag, hlen, hcount⟩
    split at h
    next hnone =>
      simp only [bind_eq_ok, OracleConsensus.twap_eq_ok, pure_eq_ok] at h
      obtain ⟨_, ⟨hpos, hage, rfl⟩, rfl⟩ := h
      exact ⟨c, oc, fresh, _, hready, hfresh, .renewed hnone hpos hage, rfl⟩
    next hsome =>
      simp only [bind_eq_ok, require_eq_ok, pure_eq_ok] at h
      obtain ⟨⟨price, conf⟩, hagree, -, hpos, rfl⟩ := h
      rcases OracleConsensus.agree_eq_ok.mp hagree with ⟨henough, heq⟩ | ⟨hfew, htwap, hage, heq⟩
      · cases heq
        exact ⟨c, oc, fresh, _, hready, hfresh, .agreed hsome henough hpos, rfl⟩
      · cases heq
        exact ⟨c, oc, fresh, _, hready, hfresh, .fellBack hsome hfew htwap hage, rfl⟩
  · intro h
    obtain ⟨c, oc, fresh, oc', hready, hfresh, hround, rfl⟩ := h
    refine ⟨c, hready.config, oc, ⟨hready.consensus, hready.mint⟩, (), hready.flag, (),
      hready.accounts, (), hready.sources, fresh, hfresh, ?_⟩
    cases hround with
    | agreed hsome henough hpos =>
      rw [if_neg hsome, OracleConsensus.agree_eq_ok.mpr (.inl ⟨henough, rfl⟩), ok_bind]
      dsimp only
      rw [require_pos hpos]
      rfl
    | fellBack hsome hfew hpos hage =>
      rw [if_neg hsome, OracleConsensus.agree_eq_ok.mpr (.inr ⟨hfew, hpos, hage, rfl⟩), ok_bind]
      dsimp only
      rw [require_pos hpos]
      rfl
    | renewed hnone hpos hage =>
      rw [if_pos hnone, OracleConsensus.twap_eq_ok.mpr ⟨hpos, hage, rfl⟩]
      rfl

/-! ## An honest majority -/

/-- No price of an honest majority is an outlier. -/
theorem OracleConsensus.not_outlier
    (hspread : (b.toNat - a.toNat) * 10000 ≤ oc.outlierThresholdBps.toNat * a.toNat)
    (hmajority : fresh.Majority (Within a b)) (hp : Within a b p) :
    decide (deviationOf (median fresh) p ≤ oc.outlierThresholdBps.toUInt64) = true :=
  decide_eq_true (deviationOf_le hspread (median_within hmajority) hp)

/-- An interval with a relative width holds positive prices when it holds any. -/
theorem pos_of_spread {bps : Nat} (hspread : (b.toNat - a.toNat) * 10000 ≤ bps * a.toNat)
    (hp : Within a b p) (hpos : 0 < p) : 0 < a := by
  simp only [within_iff, UInt64.le_iff_toNat_le] at hp
  rw [UInt64.lt_iff_toNat_lt, UInt64.toNat_zero] at hpos ⊢
  refine Nat.pos_of_ne_zero fun hzero => ?_
  rw [hzero, Nat.mul_zero] at hspread
  omega

/-- Where more than half of the fresh sources, and enough of them, report prices that lie close
together, the round succeeds and its price lies among them, whatever the other sources report and
whatever the average is. -/
theorem honest_majority (hpositive : ∀ p ∈ fresh, 0 < p)
    (hspread : (b.toNat - a.toNat) * 10000 ≤ oc.outlierThresholdBps.toNat * a.toNat)
    (hmajority : fresh.Majority (Within a b))
    (henough : oc.minOracles.toNat ≤ fresh.countP (Within a b)) :
    ∃ price conf, price = median (oc.accepted fresh) ∧ a ≤ price ∧ price ≤ b ∧
      oc.agree clock fresh = .ok (price, conf) ∧
      ∀ s c u, UpdateOracleConsensus.Ready u s c oc →
        freshPrices clock s oc.maxAgeSlots (oc.sources.zip u.remainingAccounts) = .ok fresh →
        updateOracleConsensusHandler clock s u = .ok { s with
          oracleConsensuses := put s.oracleConsensuses (.oracleConsensus u.mint)
            (oc.conclude price conf clock.slot) } := by
  have haccepted : (oc.accepted fresh).Majority (Within a b) :=
    hmajority.filter fun p _ hp => OracleConsensus.not_outlier hspread hmajority hp
  have hprice := median_within haccepted
  have hle : oc.minOracles.toNat ≤ (oc.accepted fresh).length := by
    refine henough.trans ?_
    rw [OracleConsensus.accepted, ← List.countP_eq_length_filter]
    exact List.countP_mono_left fun p _ hp =>
      OracleConsensus.not_outlier hspread hmajority hp
  have hsome : fresh ≠ [] := List.ne_nil_of_length_pos hmajority.length_pos
  have hpos : 0 < median (oc.accepted fresh) := by
    have hcount : 0 < fresh.countP (Within a b) := by
      have := hmajority.length_pos
      rw [List.Majority] at hmajority
      omega
    obtain ⟨p, hp, hwithin⟩ := List.countP_pos_iff.mp hcount
    have ha := pos_of_spread hspread hwithin (hpositive p hp)
    exact UInt64.lt_of_lt_of_le ha (within_iff.mp hprice).1
  refine ⟨_, _, rfl, (within_iff.mp hprice).1, (within_iff.mp hprice).2,
    OracleConsensus.agree_eq_ok.mpr (.inl ⟨hle, rfl⟩), fun s c u hready hfresh => ?_⟩
  exact updateOracleConsensusHandler_eq_ok.mpr
    ⟨c, oc, fresh, _, hready, hfresh, .agreed hsome hle hpos, rfl⟩

namespace Market

/-- Two of three sources have to agree within two percent. -/
def twoOfThree : OracleConsensus := { minOracles := 2, outlierThresholdBps := 200 }

/-- Two honest prices, and the largest number there is. -/
def oneLiar : List UInt64 := [100, 18446744073709551615, 101]

end Market

open Market in
theorem honest_majority_oneLiar :
    ∃ price conf, price = median (twoOfThree.accepted oneLiar) ∧ 100 ≤ price ∧ price ≤ 101 ∧
      twoOfThree.agree { slot := 0, epoch := 0, unixTimestamp := 0 } oneLiar =
        .ok (price, conf) := by
  have hmajority : oneLiar.Majority (Within 100 101) := by
    rw [List.Majority]
    decide
  have hpositive : ∀ p ∈ oneLiar, 0 < p := by simp [oneLiar]
  obtain ⟨price, conf, hprice, hle, hge, hagree, -⟩ :=
    @honest_majority _ twoOfThree oneLiar 100 101 hpositive (by decide) hmajority (by decide)
  exact ⟨price, conf, hprice, hle, hge, hagree⟩

end SolanaStablecoin
