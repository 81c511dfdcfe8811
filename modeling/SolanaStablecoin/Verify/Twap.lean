import SolanaStablecoin.Base.Smoothing
import SolanaStablecoin.Verify.Freshness

/-! The average price of the oracle consensus. Every update leaves it between the old average and
the new price, and updates at one price bring it to within 7 below that price. -/

namespace SolanaStablecoin

open Transition

variable {rt : Runtime} {s : State} {M : Pubkey} {oc : OracleConsensus} {t p : UInt64}

/-! ## One update -/

theorem toNat_weigh (ht : 0 < t) : (weigh t p).toNat = Smoothing.next 7 p.toNat t.toNat := by
  have hne : t ≠ 0 := by
    rintro rfl
    exact absurd ht (by decide)
  have hold := t.toNat_lt
  have hnew := p.toNat_lt
  rw [weigh, if_neg hne, UInt64.toNat_ofNat_of_lt' (show _ < 2 ^ 64 by omega), Smoothing.next,
    Nat.mul_comm]

theorem weigh_pos (ht : 0 < t) (hp : 0 < p) : 0 < weigh t p := by
  rw [UInt64.lt_iff_toNat_lt] at ht hp ⊢
  rw [toNat_weigh (UInt64.lt_iff_toNat_lt.mpr ht)]
  exact Smoothing.next_pos ht hp

/-! ## Updates at one price -/

theorem foldl_weigh (ht : 0 < t) (hp : 0 < p) {l : List UInt64} (hl : ∀ x ∈ l, x = p) :
    (l.foldl weigh t).toNat = (Smoothing.next 7 p.toNat)^[l.length] t.toNat := by
  induction l generalizing t with
  | nil => rfl
  | cons x l ih =>
    cases hl x List.mem_cons_self
    rw [List.foldl_cons, ih (weigh_pos ht hp) fun y hy => hl y (List.mem_cons_of_mem _ hy),
      toNat_weigh ht, List.length_cons, Function.iterate_succ_apply]

/-- The average under updates at the price `p`, one in each of `slots`. -/
def OracleConsensus.updateTwaps (oc : OracleConsensus) (p : UInt64) (slots : List UInt64) :
    OracleConsensus :=
  slots.foldl (·.updateTwap p ·) oc

theorem OracleConsensus.updateTwaps_twapPrice (oc : OracleConsensus) (p : UInt64)
    (slots : List UInt64) : (oc.updateTwaps p slots).twapPrice =
      (List.replicate slots.length p).foldl weigh oc.twapPrice := by
  induction slots generalizing oc with
  | nil => rfl
  | cons slot slots ih =>
    rw [List.length_cons, List.replicate_succ, List.foldl_cons, ← updateTwap_twapPrice oc p slot]
    exact ih (oc.updateTwap p slot)

theorem OracleConsensus.toNat_updateTwaps (ht : 0 < oc.twapPrice) (hp : 0 < p)
    (slots : List UInt64) : (oc.updateTwaps p slots).twapPrice.toNat =
      (Smoothing.next 7 p.toNat)^[slots.length] oc.twapPrice.toNat := by
  rw [updateTwaps_twapPrice, foldl_weigh ht hp fun x hx => List.eq_of_mem_replicate hx,
    List.length_replicate]

/-- An update rounds the average down and nothing overflows; it lies between the old average and
the price. Under updates at one price it moves toward the price only, never past it, and in the end
stays within 7 below it. -/
theorem twap_update (oc : OracleConsensus) (p : UInt64) (hold : 0 < oc.twapPrice) (hnew : 0 < p) :
    (∀ slot, 7 * oc.twapPrice.toNat + p.toNat < 2 ^ 128 ∧
      (oc.updateTwap p slot).twapPrice.toNat = (7 * oc.twapPrice.toNat + p.toNat) / 8 ∧
      0 < (oc.updateTwap p slot).twapPrice ∧
      Smoothing.Toward p.toNat oc.twapPrice.toNat (oc.updateTwap p slot).twapPrice.toNat) ∧
    (∀ slots more, Smoothing.Toward p.toNat (oc.updateTwaps p slots).twapPrice.toNat
      (oc.updateTwaps p (slots ++ more)).twapPrice.toNat) ∧
    ∃ n, ∀ slots : List UInt64, n ≤ slots.length →
      p.toNat - 7 ≤ (oc.updateTwaps p slots).twapPrice.toNat ∧
      (oc.updateTwaps p slots).twapPrice.toNat ≤ p.toNat := by
  refine ⟨fun slot => ?_, fun slots more => ?_, Nat.dist oc.twapPrice.toNat p.toNat,
    fun slots hlen => ?_⟩
  · have hlt := oc.twapPrice.toNat_lt
    have hlt' := p.toNat_lt
    rw [OracleConsensus.updateTwap_twapPrice, toNat_weigh hold]
    exact ⟨by omega, rfl, weigh_pos hold hnew, Smoothing.toward_next ..⟩
  · rw [OracleConsensus.toNat_updateTwaps hold hnew, OracleConsensus.toNat_updateTwaps hold hnew,
      List.length_append]
    exact Smoothing.toward_iterate _ _ _ (Nat.le_add_right ..)
  · obtain ⟨hle, hband⟩ := Smoothing.settled_iterate (m := 7) hlen
    rw [OracleConsensus.toNat_updateTwaps hold hnew]
    exact ⟨Nat.sub_le_of_le_add hband, hle⟩

/-- Where updates at 100 leave the average. -/
def stalledTwap : OracleConsensus := { twapPrice := 93 }

theorem twap_update_stalled :
    (∀ slot, 7 * stalledTwap.twapPrice.toNat + (100 : UInt64).toNat < 2 ^ 128 ∧
      (stalledTwap.updateTwap 100 slot).twapPrice.toNat =
        (7 * stalledTwap.twapPrice.toNat + (100 : UInt64).toNat) / 8 ∧
      0 < (stalledTwap.updateTwap 100 slot).twapPrice ∧
      Smoothing.Toward (100 : UInt64).toNat stalledTwap.twapPrice.toNat
        (stalledTwap.updateTwap 100 slot).twapPrice.toNat) ∧
    (∀ slots more, Smoothing.Toward (100 : UInt64).toNat
      (stalledTwap.updateTwaps 100 slots).twapPrice.toNat
      (stalledTwap.updateTwaps 100 (slots ++ more)).twapPrice.toNat) ∧
    ∃ n, ∀ slots : List UInt64, n ≤ slots.length →
      (100 : UInt64).toNat - 7 ≤ (stalledTwap.updateTwaps 100 slots).twapPrice.toNat ∧
      (stalledTwap.updateTwaps 100 slots).twapPrice.toNat ≤ (100 : UInt64).toNat :=
  twap_update stalledTwap 100 (by decide) (by decide)

/-! ## Whole runs -/

/-- What was agreed on in a run. -/
def agreedIn (rt : Runtime) (M : Pubkey) (s : State) (as : List Action) : List Session :=
  agreements (history (Action.exec rt) (sessions M) s as)

theorem agreedIn_append (as bs : List Action) :
    agreedIn rt M s (as ++ bs) = agreedIn rt M s as ++ agreedIn rt M (run rt s as) bs := by
  rw [agreedIn, history_append, agreements_append]
  rfl

theorem average_concat (h l : List Session) :
    average (h ++ l) = (l.map Session.price).foldl weigh (average h) := by
  rw [average, List.map_append, List.foldl_append]
  rfl

/-- Once there is an average, enough agreements on one price bring it there, whatever other
transactions come in between. -/
theorem twap_settles (rt : Runtime) (hs : s.oracleConsensuses (.oracleConsensus M) = none)
    (as bs : List Action) (hpos : 0 < average (agreedIn rt M s as)) (hp : 0 < p)
    (hconst : ∀ r ∈ agreedIn rt M (run rt s as) bs, r.price = p)
    (hlen : Nat.dist (average (agreedIn rt M s as)).toNat p.toNat ≤
      (agreedIn rt M (run rt s as) bs).length) :
    ∃ oc, (run rt s (as ++ bs)).oracleConsensuses (.oracleConsensus M) = some oc ∧
      p.toNat - 7 ≤ oc.twapPrice.toNat ∧ oc.twapPrice.toNat ≤ p.toNat := by
  have hprices : ∀ x ∈ (agreedIn rt M (run rt s as) bs).map Session.price, x = p := by
    intro x hx
    obtain ⟨r, hr, rfl⟩ := List.mem_map.mp hx
    exact hconst r hr
  have haverage := foldl_weigh hpos hp hprices
  rw [← average_concat, ← agreedIn_append, List.length_map] at haverage
  obtain ⟨hle, hband⟩ := Smoothing.settled_iterate (m := 7) hlen
  rw [← haverage] at hle hband
  have hsourced := consensusSourced_run rt hs (as ++ bs)
  rw [ConsensusSourced] at hsourced
  cases hoc : (run rt s (as ++ bs)).oracleConsensuses (.oracleConsensus M) with
  | none =>
    rw [hoc] at hsourced
    have hnil : agreedIn rt M s (as ++ bs) = [] := hsourced
    rw [agreedIn_append, List.append_eq_nil_iff] at hnil
    rw [hnil.1] at hpos
    exact absurd hpos (by decide)
  | some oc =>
    rw [hoc] at hsourced
    have htwap : oc.twapPrice = average (agreedIn rt M s (as ++ bs)) := hsourced.twap
    rw [← htwap] at hle hband
    exact ⟨oc, rfl, Nat.sub_le_of_le_add hband, hle⟩

namespace Market

/-- Both feeds give a price of 9 at slot `n`, and the two are agreed on. -/
def nineAt (n : Nat) : List Action :=
  [ .world (.publishPythPrice feed { one n with price := 9 }),
    .world (.publishPythPrice stalledFeed { one n with price := 9 }), round n ]

/-- From an average of one, eight rounds at 9. -/
def repriced : List Action := (List.range 8).flatMap fun n => nineAt (1001 + n)

end Market

open Market in
/-- The average stays at two. -/
theorem twap_settles_repriced :
    ∃ oc, (run localRuntime genesis (convened ++ repriced)).oracleConsensuses
        (.oracleConsensus mint.key) = some oc ∧
      (9 : UInt64).toNat - 7 ≤ oc.twapPrice.toNat ∧ oc.twapPrice.toNat ≤ (9 : UInt64).toNat :=
  twap_settles localRuntime rfl convened repriced (by decide +kernel) (by decide)
    (by decide +kernel) (by decide +kernel)

end SolanaStablecoin
