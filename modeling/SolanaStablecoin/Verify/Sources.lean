import SolanaStablecoin.Verify.Freshness

/-! The slots of the oracle consensus. The record keeps beside them how many are in use, and a round
is held only where that count is positive. -/

namespace SolanaStablecoin

open Transition

variable {rt : Runtime} {clock : Clock} {s s' : State} {M : Pubkey} {oc oc' : OracleConsensus}
  {fresh : List UInt64} {src : OracleSource} {i : Nat} {a : Action}

namespace OracleConsensus

/-- How many slots have a feed. -/
def inUse (oc : OracleConsensus) : Nat := oc.sources.countP fun src => src.feed ≠ .default

/-- The count is that of the slots in use, and there are slots for the sources that have to
agree. -/
structure Counted (oc : OracleConsensus) : Prop where
  slots : oc.sources.length = maxSources
  count : oc.sourceCount.toNat = oc.inUse
  minOracles : oc.minOracles.toNat ≤ oc.sources.length

theorem inUse_le : oc.inUse ≤ oc.sources.length := List.countP_le_length

theorem sources_replaceSource : (oc.replaceSource i src).sources = oc.sources.set i src := rfl

/-- One slot more, one less or as many are in use. -/
theorem inUse_replaceSource (hi : i < oc.sources.length) :
    (oc.replaceSource i src).inUse =
      oc.inUse - (if oc.sources[i].feed ≠ .default then 1 else 0) +
        if src.feed ≠ .default then 1 else 0 := by
  rw [inUse, sources_replaceSource, List.countP_set hi]
  simp [inUse]

/-- A slot in use is among those counted, and an empty one is not. -/
theorem inUse_get (hi : i < oc.sources.length) :
    (oc.sources[i].feed ≠ .default → 0 < oc.inUse) ∧
      (oc.sources[i].feed = .default → oc.inUse < oc.sources.length) := by
  constructor
  · intro hused
    exact List.countP_pos_iff.mpr ⟨_, List.getElem_mem hi, decide_eq_true hused⟩
  · intro hempty
    refine Nat.lt_of_le_of_ne inUse_le fun hall => ?_
    have := List.countP_eq_length.mp hall _ (List.getElem_mem hi)
    exact of_decide_eq_true this hempty

theorem Counted.replaceSource (h : oc.Counted) (hi : i < maxSources) :
    (oc.replaceSource i src).Counted := by
  have hlt : i < oc.sources.length := h.slots ▸ hi
  have hget : oc.sources.getD i {} = oc.sources[i] := by
    rw [List.getD_eq_getElem?_getD, List.getElem?_eq_getElem hlt, Option.getD_some]
  have hlen : (oc.replaceSource i src).sources.length = oc.sources.length := List.length_set
  obtain ⟨hused, hempty⟩ := inUse_get hlt
  have hslots : oc.sources.length = 8 := h.slots
  refine ⟨hlen.trans h.slots, ?_, h.minOracles.trans_eq hlen.symm⟩
  rw [inUse_replaceSource hlt]
  change (if _ then _ else _ : UInt8).toNat = _
  rw [hget, h.count]
  by_cases hold : oc.sources[i].feed = .default
  · have hroom := hempty hold
    by_cases hnew : src.feed = .default
    · simp [hold, hnew, h.count]
    · rw [if_pos ⟨hold, hnew⟩, if_neg (not_not_intro hold), if_pos hnew, Nat.sub_zero,
        Nat.min_eq_left (by rw [maxSources]; omega)]
      exact UInt8.toNat_ofNat_of_lt' (by rw [UInt8.size]; omega)
  · have hsome := hused hold
    have hle := oc.inUse_le
    by_cases hnew : src.feed = .default
    · rw [if_neg fun hboth => hold hboth.1, if_pos ⟨hold, hnew⟩, if_pos hold,
        if_neg (not_not_intro hnew)]
      exact UInt8.toNat_ofNat_of_lt' (by rw [UInt8.size]; omega)
    · rw [if_neg fun hboth => hold hboth.1, if_neg fun hboth => hnew hboth.2, if_pos hold,
        if_pos hnew, h.count]
      omega

/-- A round leaves the slots as they are. -/
theorem Round.counted (hround : oc.Round clock fresh oc') (h : oc.Counted) : oc'.Counted := by
  cases hround <;> exact ⟨h.slots, h.count, h.minOracles⟩

end OracleConsensus

/-! ## Whole runs -/

/-- The record of `M`, if there is one, has its slots counted. -/
def SourcesCounted (M : Pubkey) (s : State) : Prop :=
  ∀ oc, s.oracleConsensuses (.oracleConsensus M) = some oc → oc.Counted

theorem SourcesCounted.put {mint : Pubkey} (hs : SourcesCounted M s)
    (h : s'.oracleConsensuses = put s.oracleConsensuses (.oracleConsensus mint) oc)
    (hoc : mint = M → oc.Counted) : SourcesCounted M s' := by
  intro oc' hoc'
  rw [h] at hoc'
  rcases put_consensus s.oracleConsensuses M mint oc with ⟨hmint, hput⟩ | ⟨-, hput⟩
  · rw [hput] at hoc'
    cases hoc'
    exact hoc hmint
  · exact hs oc' (hput.symm.trans hoc')

theorem initOracleConsensusHandler_counted {b : AuthorityAndMint} {x : UInt8} {y : UInt16}
    {z : UInt64} (hs : SourcesCounted M s)
    (h : initOracleConsensusHandler s b x y z = .ok s') : SourcesCounted M s' := by
  simp only [initOracleConsensusHandler, bind_eq_ok, requireFree, require_eq_ok, pure_eq_ok] at h
  obtain ⟨c, -, -, -, -, hmin, -, -, -, -, rfl⟩ := h
  exact hs.put rfl fun _ => ⟨List.length_replicate, rfl, hmin.2⟩

theorem setOracleSourceHandler_counted {b : AuthorityAndMint} {i type : UInt8} {feed : Pubkey}
    (hs : SourcesCounted M s) (h : setOracleSourceHandler s b i type feed = .ok s') :
    SourcesCounted M s' := by
  simp only [setOracleSourceHandler, bind_eq_ok, loadConsensus_eq_ok, require_eq_ok,
    pure_eq_ok] at h
  obtain ⟨_, -, oc, ⟨hoc, -⟩, -, hi, -, -, rfl⟩ := h
  exact hs.put rfl fun hmint => (hs oc (hmint ▸ hoc)).replaceSource hi

theorem removeOracleSourceHandler_counted {b : AuthorityAndMint} {i : UInt8}
    (hs : SourcesCounted M s) (h : removeOracleSourceHandler s b i = .ok s') :
    SourcesCounted M s' := by
  simp only [removeOracleSourceHandler, bind_eq_ok, loadConsensus_eq_ok, require_eq_ok,
    pure_eq_ok] at h
  obtain ⟨_, -, oc, ⟨hoc, -⟩, -, hi, rfl⟩ := h
  exact hs.put rfl fun hmint => (hs oc (hmint ▸ hoc)).replaceSource hi

theorem updateOracleConsensusHandler_counted {u : UpdateOracleConsensus}
    (hs : SourcesCounted M s) (h : updateOracleConsensusHandler clock s u = .ok s') :
    SourcesCounted M s' := by
  obtain ⟨c, oc, fresh, oc', hready, -, hround, rfl⟩ := updateOracleConsensusHandler_eq_ok.mp h
  exact hs.put rfl fun hmint => hround.counted (hs oc (hmint ▸ hready.consensus))

theorem SourcesCounted.step (hs : SourcesCounted M s) (h : a.exec rt s = .ok s') :
    SourcesCounted M s' := by
  have of_same (hsame : s'.oracleConsensuses = s.oracleConsensuses) : SourcesCounted M s' := by
    intro oc hoc
    exact hs oc (hsame ▸ hoc)
  cases a with
  | world w =>
    obtain ⟨t, p, q, d, rfl⟩ := World.exec_outside h
    exact hs
  | call clock i =>
    cases hkind : i.agrees with
    | false => exact of_same (oracleConsensuses_of_quiet hkind h)
    | true =>
      cases i with
      | initOracleConsensus => exact initOracleConsensusHandler_counted hs h
      | setOracleSource => exact setOracleSourceHandler_counted hs h
      | removeOracleSource => exact removeOracleSourceHandler_counted hs h
      | updateOracleConsensus => exact updateOracleConsensusHandler_counted hs h
      | _ => cases hkind

/-- From before the record of a mint is opened on, after any calls with whatever slots and keys, the
count is that of the slots that have a feed. -/
theorem sources_counted (rt : Runtime) (hnone : s.oracleConsensuses (.oracleConsensus M) = none)
    (as : List Action) :
    ∀ oc, (run rt s as).oracleConsensuses (.oracleConsensus M) = some oc →
      oc.sourceCount.toNat = oc.sources.countP (fun src => src.feed ≠ .default) ∧
        oc.minOracles.toNat ≤ oc.sources.length ∧
        oc.sources.length = OracleConsensus.maxSources := by
  have hstart : SourcesCounted M s := by
    intro oc hoc
    rw [hnone] at hoc
    cases hoc
  have hrun : SourcesCounted M (run rt s as) :=
    invariant_run_of_forall (fun hi hexec => hi.step hexec) as hstart
  intro oc hoc
  exact ⟨(hrun oc hoc).count, (hrun oc hoc).minOracles, (hrun oc hoc).slots⟩

namespace Market

/-- One slot is set twice and another is emptied twice. -/
def reshuffled : List Action :=
  convened ++
    [ .call (day 3) (.setOracleSource asAuthority 0 oracleCustom gold.key),
      .call (day 3) (.setOracleSource asAuthority 1 oraclePyth .default),
      .call (day 3) (.removeOracleSource asAuthority 1),
      .call (day 3) (.setOracleSource asAuthority 9 oraclePyth feed) ]

end Market

open Market in
theorem sources_counted_reshuffled :
    ∃ oc, (run localRuntime genesis reshuffled).oracleConsensuses (.oracleConsensus mint.key) =
        some oc ∧
      oc.sourceCount = 1 ∧
      oc.sourceCount.toNat = oc.sources.countP (fun src => src.feed ≠ .default) ∧
      oc.minOracles.toNat ≤ oc.sources.length := by
  have hone : ((run localRuntime genesis reshuffled).oracleConsensuses
      (.oracleConsensus mint.key)).any (·.sourceCount == 1) = true := by decide +kernel
  obtain ⟨oc, hoc, hcount⟩ := (Option.any_eq_true ..).mp hone
  obtain ⟨hkept, hmin, -⟩ := sources_counted localRuntime (s := genesis) rfl reshuffled oc hoc
  exact ⟨oc, hoc, eq_of_beq hcount, hkept, hmin⟩

end SolanaStablecoin
