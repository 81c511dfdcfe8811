import SolanaStablecoin.Verify.Monitors
import SolanaStablecoin.Verify.Rounds

/-! The rounds of the oracle consensus along a run, and where the prices in its record come from:
the last round in which enough sources agreed, or the average of all of these. -/

namespace SolanaStablecoin

open Transition

variable {rt : Runtime} {clock : Clock} {s s' : State} {M : Pubkey} {a : Action}
  {oc oc' : OracleConsensus} {as : List Action}

/-! ## Reports -/

/-- What a source reports: `price * 10 ^ expo` USD. The consensus takes the price alone. -/
structure Report where
  price : UInt64
  expo : Int32
deriving DecidableEq

/-- Where the exponent of a custom feed is. -/
def expoOff : Nat := 48

/-- The exponent that a source gives for its price. -/
def sourceExpo (s : State) (oracleType : UInt8) (feed : Pubkey) : Int32 :=
  if oracleType = oraclePyth then ((s.pythPriceFeeds feed).map (·.expo)).getD 0
  else ((Cell.i32.read (s.data feed) expoOff).getD 0)

/-- The fresh prices with their exponents. -/
def freshReports (clock : Clock) (s : State) (maxAge : UInt64) :
    List (OracleSource × Pubkey) → Result (List Report)
  | [] => pure []
  | (src, feed) :: rest =>
    if src.feed = .default then freshReports clock s maxAge rest
    else do
      require (feed = src.feed) (.sss .unexpectedPriceFeed)
      let reports ← freshReports clock s maxAge rest
      match readSourcePrice s src.oracleType feed with
      | .ok (some (price, lastSlot)) =>
        pure (if clock.slot.saturatingSub lastSlot > maxAge then reports
          else { price, expo := sourceExpo s src.oracleType feed } :: reports)
      | _ => pure reports

theorem freshPrices_eq_reports {maxAge : UInt64} (l : List (OracleSource × Pubkey)) :
    freshPrices clock s maxAge l = (·.map Report.price) <$> freshReports clock s maxAge l := by
  induction l with
  | nil => rfl
  | cons x rest ih =>
    obtain ⟨src, feed⟩ := x
    rw [freshPrices, freshReports]
    split
    · exact ih
    · rw [map_bind]
      refine congrArg _ (funext fun _ => ?_)
      rw [ih, map_bind, bind_map_left]
      refine congrArg _ (funext fun reports => ?_)
      cases readSourcePrice s src.oracleType feed with
      | error => rfl
      | ok read =>
        cases read with
        | none => rfl
        | some x =>
          dsimp only
          split <;> rfl

theorem freshPrices_eq_ok {maxAge : UInt64} {l : List (OracleSource × Pubkey)}
    {fresh : List UInt64} :
    freshPrices clock s maxAge l = .ok fresh ↔
      ∃ reports, freshReports clock s maxAge l = .ok reports ∧
        reports.map Report.price = fresh := by
  rw [freshPrices_eq_reports, map_eq_ok]

/-- A source that is read adds its report to those of the others, unless it is too old. -/
theorem freshReports_cons (src : OracleSource) {rest : List (OracleSource × Pubkey)}
    {maxAge price slot : UInt64} {reports : List Report} (hfeed : src.feed ≠ .default)
    (hread : readSourcePrice s src.oracleType src.feed = .ok (some (price, slot)))
    (hrest : freshReports clock s maxAge rest = .ok reports) :
    freshReports clock s maxAge ((src, src.feed) :: rest) =
      .ok (if clock.slot.saturatingSub slot > maxAge then reports
        else { price, expo := sourceExpo s src.oracleType src.feed } :: reports) := by
  rw [freshReports, if_neg hfeed, require_pos rfl, ok_bind, hrest, ok_bind, hread]
  rfl

theorem readSourcePrice_pyth {feed : Pubkey} {p : Price}
    (hp : s.pythPriceFeeds feed = some p) (hpos : 0 < p.price) :
    readSourcePrice s oraclePyth feed = .ok (some (p.price.toUInt64, p.pubSlot)) := by
  rw [readSourcePrice, if_pos rfl, hp]
  change Except.ok (if p.price ≤ 0 then none else _) = _
  rw [if_neg (Int64.not_le.mpr hpos)]

theorem sourceExpo_pyth {feed : Pubkey} {p : Price} (hp : s.pythPriceFeeds feed = some p) :
    sourceExpo s oraclePyth feed = p.expo := by
  rw [sourceExpo, if_pos rfl, hp]
  rfl

/-- A price that is read is a positive signed number. -/
theorem readSourcePrice_signed {oracleType : UInt8} {feed : Pubkey} {price slot : UInt64}
    (h : readSourcePrice s oracleType feed = .ok (some (price, slot))) :
    0 < price.toNat ∧ price.toNat < 2 ^ 63 := by
  have of_pos {x : Int64} (hx : ¬ x ≤ 0) : 0 < x.toUInt64.toNat ∧ x.toUInt64.toNat < 2 ^ 63 := by
    have hpos := Int64.lt_iff_toInt_lt.mp (Int64.not_le.mp hx)
    rw [Int64.toInt_zero] at hpos
    rw [Int64.toNat_toUInt64_of_le (Int64.le_of_lt (Int64.not_le.mp hx))]
    have := x.toInt_lt
    change 0 < x.toInt.toNat ∧ x.toInt.toNat < _
    omega
  rw [readSourcePrice] at h
  split at h
  · simp only [bind_eq_ok, pure_eq_ok] at h
    obtain ⟨p, -, h⟩ := h
    split at h
    · cases h
    · next hx =>
      cases h
      exact of_pos hx
  split at h
  · cases h
  split at h
  · rw [readCustomSource] at h
    split at h
    · cases h
    · simp only [bind_eq_ok, pure_eq_ok] at h
      obtain ⟨x, -, _, -, h⟩ := h
      split at h
      · cases h
      · next hx =>
        cases h
        exact of_pos hx
  · cases h

theorem freshReports_signed {maxAge : UInt64} {l : List (OracleSource × Pubkey)}
    {reports : List Report} (h : freshReports clock s maxAge l = .ok reports) :
    ∀ q ∈ reports, 0 < q.price.toNat ∧ q.price.toNat < 2 ^ 63 := by
  induction l generalizing reports with
  | nil =>
    cases h
    exact fun _ hq => nomatch hq
  | cons x rest ih =>
    obtain ⟨src, feed⟩ := x
    rw [freshReports] at h
    split at h
    · exact ih h
    rw [bind_eq_ok] at h
    obtain ⟨-, -, h⟩ := h
    rw [bind_eq_ok] at h
    obtain ⟨others, hothers, h⟩ := h
    split at h
    · next hread =>
      rw [pure_eq_ok] at h
      subst h
      split
      · exact ih hothers
      · intro q hq
        rcases List.mem_cons.mp hq with rfl | hq
        · exact readSourcePrice_signed hread
        · exact ih hothers q hq
    · cases h
      exact ih hothers

/-! ## The rounds of a run -/

/-- A round of the consensus: when it is held, under which record, and what the fresh sources
report. -/
structure Session where
  slot : UInt64
  oc : OracleConsensus
  reports : List Report

namespace Session

def fresh (r : Session) : List UInt64 := r.reports.map Report.price

/-- The reports that are no outliers. -/
def accepted (r : Session) : List Report :=
  r.reports.filter fun q =>
    deviationOf (median r.fresh) q.price ≤ r.oc.outlierThresholdBps.toUInt64

theorem accepted_prices (r : Session) :
    r.accepted.map Report.price = r.oc.accepted r.fresh := by
  rw [accepted, OracleConsensus.accepted, fresh, List.filter_map]
  rfl

theorem accepted_length (r : Session) : r.accepted.length = (r.oc.accepted r.fresh).length := by
  rw [← accepted_prices, List.length_map]

def price (r : Session) : UInt64 := median (r.accepted.map Report.price)

/-- Enough sources agree. -/
def Agreed (r : Session) : Prop := r.reports ≠ [] ∧ r.oc.minOracles.toNat ≤ r.accepted.length

instance Agreed.decidable (r : Session) : Decidable r.Agreed :=
  inferInstanceAs (Decidable (_ ∧ _))

/-- There are fresh sources, and too few of them agree. -/
def FellBack (r : Session) : Prop :=
  r.reports ≠ [] ∧ r.accepted.length < r.oc.minOracles.toNat

instance FellBack.decidable (r : Session) : Decidable r.FellBack :=
  inferInstanceAs (Decidable (_ ∧ _))

end Session

def UpdateOracleConsensus.session (clock : Clock) (s : State) (u : UpdateOracleConsensus) :
    Result Session := do
  let oc ← loadConsensus s u.mint
  let reports ← freshReports clock s oc.maxAgeSlots (oc.sources.zip u.remainingAccounts)
  pure { slot := clock.slot, oc, reports }

/-- The round that an action holds on `M`. -/
def sessions (M : Pubkey) (s : State) : Action → List Session
  | .call clock (.updateOracleConsensus u) =>
    if u.mint = M then (u.session clock s).toOption.toList else []
  | _ => []

def agreements (h : List Session) : List Session := h.filter (·.Agreed)

theorem agreements_agreed {r : Session} (h : r.Agreed) : agreements [r] = [r] :=
  List.filter_cons_of_pos (decide_eq_true h)

theorem agreements_skip {r : Session} (h : ¬ r.Agreed) : agreements [r] = [] :=
  List.filter_cons_of_neg (by rwa [decide_eq_true_iff])

theorem agreements_append (h h' : List Session) :
    agreements (h ++ h') = agreements h ++ agreements h' := List.filter_append ..

/-! ## The average -/

/-- How a new price enters an average. -/
def weigh (twap price : UInt64) : UInt64 :=
  if twap = 0 then price else .ofNat ((twap.toNat * 7 + price.toNat) / 8)

/-- The average of the prices that were agreed on. -/
def average (h : List Session) : UInt64 := (h.map Session.price).foldl weigh 0

/-- Nothing saturates when the average is brought up to date. -/
theorem OracleConsensus.updateTwap_twapPrice (oc : OracleConsensus) (price slot : UInt64) :
    (oc.updateTwap price slot).twapPrice = weigh oc.twapPrice price := by
  have hold := oc.twapPrice.toNat_lt
  have hnew := price.toNat_lt
  have hnext : min (U128.saturatingAdd (U128.saturatingMul oc.twapPrice.toNat 7) price.toNat / 8)
      (2 ^ 64 - 1) = (oc.twapPrice.toNat * 7 + price.toNat) / 8 := by
    rw [U128.saturatingMul, U128.saturatingAdd]
    omega
  rw [updateTwap, weigh, ← hnext]

theorem weigh_self (t : UInt64) : weigh t t = t := by
  rw [weigh]
  split
  · rfl
  · rw [← Nat.mul_succ, Nat.mul_div_cancel _ (by decide), UInt64.ofNat_toNat]

/-- An update with the average itself leaves it. -/
theorem OracleConsensus.updateTwap_self (oc : OracleConsensus) (slot : UInt64) :
    (oc.updateTwap oc.twapPrice slot).twapPrice = oc.twapPrice :=
  (oc.updateTwap_twapPrice ..).trans (weigh_self _)

theorem average_append (h : List Session) (r : Session) :
    average (h ++ [r]) = weigh (average h) r.price := by
  rw [average, List.map_append, List.foldl_append]
  rfl

theorem average_pos {h : List Session} (hpos : 0 < average h) : ∃ r, h.getLast? = some r := by
  cases hlast : h.getLast? with
  | some r => exact ⟨r, rfl⟩
  | none =>
    rw [List.getLast?_eq_none_iff.mp hlast] at hpos
    exact absurd hpos (by decide)

/-! ## One action -/

/-- What one action does to the consensus on `M`. -/
inductive ConsensusStep (M : Pubkey) (s : State) (h : List Session) (s' : State) : Prop where
  | same (hsame : s'.oracleConsensuses (.oracleConsensus M) =
      s.oracleConsensuses (.oracleConsensus M)) (none : h = [])
  | opened {oc : OracleConsensus} (free : s.oracleConsensuses (.oracleConsensus M) = none)
    (new : s'.oracleConsensuses (.oracleConsensus M) = some oc) (noAverage : oc.twapPrice = 0)
    (noPrice : oc.lastConsensusPrice = 0) (none : h = [])
  | sourced {oc : OracleConsensus} {i : Nat} {src : OracleSource}
    (old : s.oracleConsensuses (.oracleConsensus M) = some oc)
    (new : s'.oracleConsensuses (.oracleConsensus M) = some (oc.replaceSource i src))
    (none : h = [])
  | held {oc' : OracleConsensus} {r : Session} {clock : Clock}
    (old : s.oracleConsensuses (.oracleConsensus M) = some r.oc)
    (new : s'.oracleConsensuses (.oracleConsensus M) = some oc') (slot : r.slot = clock.slot)
    (round : r.oc.Round clock r.fresh oc') (signed : ∀ q ∈ r.reports, q.price.toNat < 2 ^ 63)
    (one : h = [r])

theorem put_consensus (m : Pubkey → Option OracleConsensus) (M mint : Pubkey)
    (oc : OracleConsensus) :
    (mint = M ∧ put m (.oracleConsensus mint) oc (.oracleConsensus M) = some oc) ∨
      mint ≠ M ∧ put m (.oracleConsensus mint) oc (.oracleConsensus M) =
        m (.oracleConsensus M) := by
  by_cases hmint : mint = M
  · exact .inl ⟨hmint, hmint ▸ put_self ..⟩
  · exact .inr ⟨hmint, put_of_ne _ _ fun heq => hmint (Pubkey.oracleConsensus.inj heq).symm⟩

theorem initOracleConsensusHandler_step {b : AuthorityAndMint} {x : UInt8} {y : UInt16}
    {z : UInt64} (h : initOracleConsensusHandler s b x y z = .ok s') :
    ConsensusStep M s [] s' := by
  simp only [initOracleConsensusHandler, bind_eq_ok, requireFree, require_eq_ok, pure_eq_ok] at h
  obtain ⟨c, -, -, hfree, -, -, -, -, -, -, rfl⟩ := h
  rcases put_consensus s.oracleConsensuses M b.mint _ with ⟨rfl, hput⟩ | ⟨-, hput⟩
  · exact .opened (Option.isNone_iff_eq_none.mp hfree) hput rfl rfl rfl
  · exact .same hput rfl

theorem ConsensusStep.replace {mint : Pubkey} {i : Nat} {src : OracleSource}
    (hoc : s.oracleConsensuses (.oracleConsensus mint) = some oc)
    (h : s'.oracleConsensuses = put s.oracleConsensuses (.oracleConsensus mint)
      (oc.replaceSource i src)) : ConsensusStep M s [] s' := by
  rcases put_consensus s.oracleConsensuses M mint (oc.replaceSource i src)
    with ⟨rfl, hput⟩ | ⟨-, hput⟩
  · exact .sourced hoc (h ▸ hput) rfl
  · exact .same (h ▸ hput) rfl

theorem setOracleSourceHandler_step {b : AuthorityAndMint} {i type : UInt8} {feed : Pubkey}
    (h : setOracleSourceHandler s b i type feed = .ok s') : ConsensusStep M s [] s' := by
  simp only [setOracleSourceHandler, bind_eq_ok, loadConsensus_eq_ok, pure_eq_ok] at h
  obtain ⟨_, -, oc, ⟨hoc, -⟩, -, -, -, -, rfl⟩ := h
  exact .replace hoc rfl

theorem removeOracleSourceHandler_step {b : AuthorityAndMint} {i : UInt8}
    (h : removeOracleSourceHandler s b i = .ok s') : ConsensusStep M s [] s' := by
  simp only [removeOracleSourceHandler, bind_eq_ok, loadConsensus_eq_ok, pure_eq_ok] at h
  obtain ⟨_, -, oc, ⟨hoc, -⟩, -, -, rfl⟩ := h
  exact .replace hoc rfl

theorem UpdateOracleConsensus.session_eq_ok {u : UpdateOracleConsensus} {r : Session} :
    u.session clock s = .ok r ↔
      ∃ oc reports, s.oracleConsensuses (.oracleConsensus u.mint) = some oc ∧ oc.mint = u.mint ∧
        freshReports clock s oc.maxAgeSlots (oc.sources.zip u.remainingAccounts) = .ok reports ∧
        r = { slot := clock.slot, oc, reports } := by
  simp only [session, bind_eq_ok, loadConsensus_eq_ok, pure_eq_ok]
  constructor
  · intro h
    obtain ⟨oc, ⟨hoc, hmint⟩, reports, hreports, rfl⟩ := h
    exact ⟨oc, reports, hoc, hmint, hreports, rfl⟩
  · intro h
    obtain ⟨oc, reports, hoc, hmint, hreports, rfl⟩ := h
    exact ⟨oc, ⟨hoc, hmint⟩, reports, hreports, rfl⟩

theorem updateOracleConsensusHandler_step {u : UpdateOracleConsensus}
    (h : updateOracleConsensusHandler clock s u = .ok s') :
    ConsensusStep M s (sessions M s (.call clock (.updateOracleConsensus u))) s' := by
  obtain ⟨c, oc, fresh, oc', hready, hfresh, hround, rfl⟩ :=
    updateOracleConsensusHandler_eq_ok.mp h
  obtain ⟨reports, hreports, rfl⟩ := freshPrices_eq_ok.mp hfresh
  have hsession : u.session clock s = .ok { slot := clock.slot, oc, reports } :=
    UpdateOracleConsensus.session_eq_ok.mpr
      ⟨oc, reports, hready.consensus, hready.mint, hreports, rfl⟩
  rw [sessions]
  rcases put_consensus s.oracleConsensuses M u.mint oc' with ⟨hmint, hput⟩ | ⟨hmint, hput⟩
  · rw [if_pos hmint, hsession]
    exact .held (hmint ▸ hready.consensus) hput rfl hround
      (fun q hq => (freshReports_signed hreports q hq).2) rfl
  · rw [if_neg hmint]
    exact .same hput rfl

/-- Only the four instructions of the consensus write its records. -/
theorem oracleConsensuses_of_quiet {i : Instruction} (hquiet : i.agrees = false)
    (h : (Action.call clock i).exec rt s = .ok s') :
    s'.oracleConsensuses = s.oracleConsensuses := by
  cases exec_monitors h with
  | same hsame => exact congrArg Monitors.oracleConsensuses hsame
  | cranked _ hsame => exact congrArg Monitors.oracleConsensuses hsame
  | agreed hagrees _ => exact absurd (hquiet.symm.trans hagrees) Bool.false_ne_true
  | metered _ hsame => exact congrArg Monitors.oracleConsensuses hsame

theorem consensusStep (h : a.exec rt s = .ok s') : ConsensusStep M s (sessions M s a) s' := by
  have of_same (hsame : s'.oracleConsensuses = s.oracleConsensuses)
      (hnone : sessions M s a = []) : ConsensusStep M s (sessions M s a) s' :=
    .same (congrFun hsame _) hnone
  cases a with
  | world w =>
    obtain ⟨t, p, q, d, rfl⟩ := World.exec_outside h
    exact of_same rfl rfl
  | call clock i =>
    cases hkind : i.agrees with
    | false =>
      refine of_same (oracleConsensuses_of_quiet hkind h) ?_
      cases i <;> first | rfl | cases hkind
    | true =>
      cases i with
      | initOracleConsensus => exact initOracleConsensusHandler_step h
      | setOracleSource => exact setOracleSourceHandler_step h
      | removeOracleSource => exact removeOracleSourceHandler_step h
      | updateOracleConsensus => exact updateOracleConsensusHandler_step h
      | _ => cases hkind

/-! ## Whole runs -/

/-- The average is that of the agreements, and the consensus is the price of the last of them, or
again the average. -/
structure OracleConsensus.Sourced (oc : OracleConsensus) (h : List Session) : Prop where
  twap : oc.twapPrice = average h
  enough : ∀ r ∈ h, oc.minOracles.toNat ≤ r.accepted.length
  heard : ∀ r ∈ h, r.accepted ≠ []
  signed : ∀ r ∈ h, ∀ q ∈ r.accepted, q.price.toNat < 2 ^ 63
  derived : 0 < oc.lastConsensusPrice →
    ∃ last ∈ h.getLast?, oc.lastConsensusPrice = last.price ∨ oc.lastConsensusPrice = average h

/-- Without a record there was no agreement. -/
def ConsensusSourced (M : Pubkey) (s : State) (h : List Session) : Prop :=
  match s.oracleConsensuses (.oracleConsensus M) with
  | none => agreements h = []
  | some oc => oc.Sourced (agreements h)

theorem Session.agreed_of_fresh {r : Session} (hsome : r.fresh ≠ [])
    (henough : r.oc.minOracles.toNat ≤ (r.oc.accepted r.fresh).length) : r.Agreed :=
  ⟨fun hnil => hsome (congrArg _ hnil), henough.trans_eq r.accepted_length.symm⟩

theorem Session.fellBack_of_fresh {r : Session} (hsome : r.fresh ≠ [])
    (hfew : (r.oc.accepted r.fresh).length < r.oc.minOracles.toNat) : r.FellBack :=
  ⟨fun hnil => hsome (congrArg _ hnil), r.accepted_length.trans_lt hfew⟩

theorem Session.FellBack.not_agreed {r : Session} (h : r.FellBack) : ¬ r.Agreed :=
  fun hagreed => Nat.not_lt.mpr hagreed.2 h.2

theorem Session.not_agreed_of_fresh {r : Session} (hnone : r.fresh = []) : ¬ r.Agreed :=
  fun hagreed => hagreed.1 (List.map_eq_nil_iff.mp hnone)

theorem OracleConsensus.Round.sourced {r : Session} {h : List Session}
    (hround : r.oc.Round clock r.fresh oc')
    (hsigned : ∀ q ∈ r.reports, q.price.toNat < 2 ^ 63) (hs : r.oc.Sourced (agreements h)) :
    oc'.Sourced (agreements (h ++ [r])) := by
  rw [agreements_append]
  cases hround with
  | agreed hsome henough hpos =>
    have hagreed := Session.agreed_of_fresh hsome henough
    have hprice : r.price = median (r.oc.accepted r.fresh) :=
      congrArg median r.accepted_prices
    rw [agreements_agreed hagreed]
    have hsome' : r.accepted ≠ [] := by
      intro hnil
      rw [← hprice, Session.price, hnil] at hpos
      exact absurd hpos (by decide)
    refine ⟨?_, fun q hq => ?_, fun q hq => ?_, fun q hq => ?_,
      fun _ => ⟨r, by simp, .inl hprice.symm⟩⟩
    · rw [average_append, ← hs.twap, hprice]
      exact r.oc.updateTwap_twapPrice _ clock.slot
    · rcases List.mem_append.mp hq with hq | hq
      · exact hs.enough q hq
      · exact List.mem_singleton.mp hq ▸ hagreed.2
    · rcases List.mem_append.mp hq with hq | hq
      · exact hs.heard q hq
      · exact List.mem_singleton.mp hq ▸ hsome'
    · rcases List.mem_append.mp hq with hq | hq
      · exact hs.signed q hq
      · rw [List.mem_singleton.mp hq]
        exact fun x hx => hsigned x (List.mem_of_mem_filter hx)
  | fellBack hsome hfew hpos hage =>
    rw [agreements_skip (Session.fellBack_of_fresh hsome hfew).not_agreed, List.append_nil]
    have hpos' := hs.twap ▸ hpos
    obtain ⟨last, hlast⟩ := average_pos hpos'
    exact ⟨(r.oc.updateTwap_self clock.slot).trans hs.twap, hs.enough, hs.heard, hs.signed,
      fun _ => ⟨last, hlast, .inr hs.twap⟩⟩
  | renewed hnone hpos hage =>
    rw [agreements_skip (Session.not_agreed_of_fresh hnone), List.append_nil]
    exact ⟨(r.oc.updateTwap_self clock.slot).trans hs.twap, hs.enough, hs.heard, hs.signed,
      hs.derived⟩

theorem ConsensusStep.sourced_of {h l : List Session} (hstep : ConsensusStep M s l s')
    (hs : ConsensusSourced M s h) : ConsensusSourced M s' (h ++ l) := by
  rw [ConsensusSourced] at hs ⊢
  cases hstep with
  | same hsame hnone =>
    rw [hnone, List.append_nil, hsame]
    exact hs
  | opened hfree hnew haverage hprice hnone =>
    rw [hfree] at hs
    rw [hnone, List.append_nil, hnew]
    change agreements h = [] at hs
    change OracleConsensus.Sourced _ (agreements h)
    rw [hs]
    refine ⟨haverage, fun _ hr => (nomatch hr), fun _ hr => (nomatch hr), fun _ hr => (nomatch hr),
      fun hpos => ?_⟩
    rw [hprice] at hpos
    exact absurd hpos (by decide)
  | sourced hold hnew hnone =>
    rw [hold] at hs
    rw [hnone, List.append_nil, hnew]
    exact ⟨hs.twap, hs.enough, hs.heard, hs.signed, hs.derived⟩
  | held hold hnew hslot hround hsigned hone =>
    rw [hold] at hs
    subst hone
    rw [hnew]
    exact hround.sourced hsigned hs

theorem consensusSourced_run (rt : Runtime) (hs : s.oracleConsensuses (.oracleConsensus M) = none)
    (as : List Action) :
    ConsensusSourced M (run rt s as) (history (Action.exec rt) (sessions M) s as) := by
  refine invariant_history (h := []) (P := fun _ _ => True)
    (fun hi _ hexec => (consensusStep hexec).sourced_of hi) ?_
    (along_of_forall fun _ _ _ => trivial)
  rw [ConsensusSourced, hs]
  rfl

/-! ## The price that is read -/

theorem UInt64.saturatingSub_le {x y z : UInt64} :
    x.saturatingSub y ≤ z ↔ x.toNat ≤ y.toNat + z.toNat := by
  rw [UInt64.le_iff_toNat_le, UInt64.toNat_saturatingSub]
  omega

theorem getEffectiveOraclePrice_consensus {c : StablecoinConfig} {feed : Pubkey} {p : OraclePrice}
    (hflag : c.checkFeatureFlag flagMultiOracleConsensus = true) :
    getEffectiveOraclePrice rt clock s feed c (some oc) = .ok p ↔
      0 < oc.lastConsensusPrice ∧
        clock.slot.toNat ≤ oc.lastConsensusSlot.toNat + oc.maxAgeSlots.toNat ∧
        p =
          { price := oc.lastConsensusPrice.toInt64, conf := oc.lastConsensusConf, expo := -8 } := by
  have hset : c.featureFlags &&& flagMultiOracleConsensus ≠ 0 := by
    simpa [StablecoinConfig.checkFeatureFlag] using hflag
  simp only [getEffectiveOraclePrice, if_pos hset, bind_eq_ok, Option.okOr_eq_ok, require_eq_ok,
    pure_eq_ok, UInt64.saturatingSub_le, Option.some.injEq]
  constructor
  · intro h
    obtain ⟨_, rfl, -, hpos, -, hage, rfl⟩ := h
    exact ⟨hpos, hage, rfl⟩
  · intro h
    obtain ⟨hpos, hage, rfl⟩ := h
    exact ⟨_, rfl, (), hpos, (), hage, rfl⟩

end SolanaStablecoin
