import SolanaStablecoin.Base.SignedSum
import SolanaStablecoin.Verify.Administration
import SolanaStablecoin.Verify.FeeRate

/-! The fee controller. Its arithmetic is signed and stops at the ends of its range, so that the fee
follows the error; but the prices are unsigned, and one of them read as a negative number turns the
response around. -/

namespace SolanaStablecoin

open Transition SignedSum

variable {rt : Runtime} {clock : Clock} {s s' : State} {M : Pubkey} {a : Action}
  {pid : PidConfig} {target p q : UInt64}

theorem clamp64_mono {x y : Int} (h : x ≤ y) : Int.clamp64 x ≤ Int.clamp64 y :=
  max_le_max_left _ (min_le_min_right _ h)

namespace PidConfig

/-- The gains push the fee the way of the error. -/
structure Forward (pid : PidConfig) : Prop where
  kp : 0 ≤ pid.kp.toInt
  ki : 0 ≤ pid.ki.toInt
  kd : 0 ≤ pid.kd.toInt

variable {e e' : Int} {bps : UInt16}

/-! ## One correction -/

theorem newIntegral_bounds : -1000000000 ≤ pid.newIntegral e ∧ pid.newIntegral e ≤ 1000000000 := by
  rw [newIntegral]
  omega

theorem newIntegral_mono (h : e ≤ e') : pid.newIntegral e ≤ pid.newIntegral e' :=
  max_le_max_left _ (min_le_min_right _ (clamp64_mono (Int.add_le_add_left h _)))

/-- Every term stops at the ends of its range and grows up to there. -/
theorem deltaBps_mono (hpid : pid.Forward) (h : e ≤ e') : pid.deltaBps e ≤ pid.deltaBps e' := by
  have hproportional := clamp64_mono (Int.mul_le_mul_of_nonneg_left h hpid.kp)
  have hintegral :=
    clamp64_mono (Int.mul_le_mul_of_nonneg_left (pid.newIntegral_mono h) hpid.ki)
  have hderivative := clamp64_mono
    (Int.mul_le_mul_of_nonneg_left (clamp64_mono (Int.sub_le_sub_right h pid.lastError.toInt))
      hpid.kd)
  exact Int.tdiv_le_tdiv (by decide) (clamp64_mono
    (Int.add_le_add (clamp64_mono (Int.add_le_add hproportional hintegral)) hderivative))

theorem newBps_toInt (h : pid.minFeeBps ≤ pid.maxFeeBps) : ((pid.newBps bps e).toNat : Int) =
    max (pid.minFeeBps.toNat : Int)
      (min (Int.clamp64 (bps.toNat + pid.deltaBps e)) pid.maxFeeBps.toNat) := by
  have hle := UInt16.le_iff_toNat_le.mp h
  have hmin := pid.minFeeBps.toNat_lt
  have hmax := pid.maxFeeBps.toNat_lt
  rw [newBps, UInt16.toNat_ofNat_of_lt' (by rw [UInt16.size]; omega)]
  omega

theorem newBps_mono (hrange : pid.minFeeBps ≤ pid.maxFeeBps) (hpid : pid.Forward) (h : e ≤ e') :
    pid.newBps bps e ≤ pid.newBps bps e' := by
  rw [UInt16.le_iff_toNat_le, ← Int.ofNat_le, newBps_toInt hrange, newBps_toInt hrange]
  exact max_le_max_left _ (min_le_min_right _
    (clamp64_mono (Int.add_le_add_left (deltaBps_mono hpid h) _)))

theorem le_newBps (hrange : pid.minFeeBps ≤ pid.maxFeeBps) : pid.minFeeBps ≤ pid.newBps bps e := by
  rw [UInt16.le_iff_toNat_le, ← Int.ofNat_le, newBps_toInt hrange]
  exact le_max_left _ _

/-! ## The error -/

/-- The higher of two prices has the smaller error. They are both read as numbers of the same sign,
or neither error fits. -/
def Ordered (target p q : UInt64) : Prop :=
  (p.toNat < 2 ^ 63 ↔ q.toNat < 2 ^ 63) ∨ target.toNat = 2 ^ 63 - 1 ∧ p = 0

theorem error_eq : pid.error p =
    Int.clamp64 (signed (2 ^ 63) pid.targetPrice.toNat - signed (2 ^ 63) p.toNat) := by
  rw [error, toInt_toInt64, toInt_toInt64]

theorem error_le_iff (hle : p ≤ q) :
    pid.error q ≤ pid.error p ↔ Ordered pid.targetPrice p q := by
  have hle' := UInt64.le_iff_toNat_le.mp hle
  have ht := pid.targetPrice.toNat_lt
  have hp := p.toNat_lt
  have hq := q.toNat_lt
  have hzero : p = 0 ↔ p.toNat = 0 := UInt64.toNat_inj.symm
  rw [error_eq, error_eq, Ordered, hzero, Int.clamp64, Int.clamp64, signed, signed, signed]
  split <;> split <;> split <;> omega

theorem error_fits : -2 ^ 63 ≤ pid.error p ∧ pid.error p < 2 ^ 63 := by
  rw [error, Int.clamp64]
  omega

/-- A controller that looks at the change of the error alone, after an update at the price `p`. -/
def differential (target p : UInt64) : PidConfig :=
  { kd := 1000000, targetPrice := target, maxFeeBps := 1
    lastError := .ofInt (error { targetPrice := target } p) }

theorem differential_forward : (differential target p).Forward :=
  ⟨Int.le_refl 0, Int.le_refl 0, show 0 ≤ (1000000 : Int64).toInt by decide⟩

theorem differential_range :
    (differential target p).minFeeBps ≤ (differential target p).maxFeeBps :=
  show (0 : UInt16) ≤ 1 by decide

theorem differential_deltaBps (e : Int) : (differential target p).deltaBps e =
    (Int.clamp64 (1000000 * Int.clamp64 (e - (differential target p).error p))).tdiv 1000000 := by
  have hlast : (differential target p).lastError.toInt = (differential target p).error p :=
    Int64.toInt_ofInt_of_le error_fits.1 error_fits.2
  have hkd : (differential target p).kd.toInt = 1000000 :=
    show (1000000 : Int64).toInt = 1000000 by decide
  have hzero : Int.clamp64 0 = 0 := by decide
  have hclamp (x : Int) : Int.clamp64 (Int.clamp64 x) = Int.clamp64 x := by
    rw [Int.clamp64, Int.clamp64]
    omega
  have hkp : (differential target p).kp.toInt = 0 := rfl
  have hki : (differential target p).ki.toInt = 0 := rfl
  rw [deltaBps, hlast, hkd, hkp, hki, Int.zero_mul, Int.zero_mul, hzero, Int.add_zero, hzero,
    Int.zero_add, hclamp]

/-- It shows when two prices are not ordered. -/
theorem differential_newBps
    (h : (differential target p).error p < (differential target p).error q) :
    (differential target p).newBps 0 ((differential target p).error p) <
      (differential target p).newBps 0 ((differential target p).error q) := by
  have hstill : (differential target p).deltaBps ((differential target p).error p) = 0 := by
    rw [differential_deltaBps, Int.sub_self]
    decide
  have hmoved : 1 ≤ (differential target p).deltaBps ((differential target p).error q) := by
    have hlarge : 1000000 ≤ Int.clamp64 (1000000 * Int.clamp64
        ((differential target p).error q - (differential target p).error p)) := by
      rw [Int.clamp64, Int.clamp64]
      omega
    rw [differential_deltaBps]
    exact Int.tdiv_le_tdiv (by decide) hlarge
  have hbase : ((0 : UInt16).toNat : Int) = 0 := rfl
  have hmin : ((differential target p).minFeeBps.toNat : Int) = 0 := rfl
  have hmax : ((differential target p).maxFeeBps.toNat : Int) = 1 := rfl
  rw [UInt16.lt_iff_toNat_lt, ← Int.ofNat_lt, newBps_toInt differential_range,
    newBps_toInt differential_range, hstill, hbase, hmin, hmax, Int.clamp64, Int.clamp64]
  omega

/-- Of two prices the higher one never gives the higher fee, whatever the controller has seen,
exactly if they are ordered. -/
theorem newBps_anti_iff (hle : p ≤ q) :
    (∀ (pid : PidConfig) (bps : UInt16), pid.targetPrice = target →
      pid.minFeeBps ≤ pid.maxFeeBps → pid.Forward →
      pid.newBps bps (pid.error q) ≤ pid.newBps bps (pid.error p)) ↔ Ordered target p q := by
  constructor
  · intro h
    by_contra hnot
    have hlt := Int.not_le.mp fun h => hnot ((@error_le_iff (differential target p) p q hle).mp h)
    have hfee := h (differential target p) 0 rfl differential_range
      differential_forward
    exact absurd (differential_newBps hlt) (UInt16.not_lt.mpr hfee)
  · intro hordered pid bps htarget hrange hforward
    subst htarget
    exact newBps_mono hrange hforward ((error_le_iff hle).mpr hordered)

end PidConfig

/-! ## Whole runs -/

/-- The instruction writes the accounts of the fee controller. -/
def Instruction.controls : Instruction → Bool
  | initPidConfig .. | updateStabilityFeePid .. => true
  | _ => false

theorem Instruction.samePidConfigs {i : Instruction} (hi : i.controls = false) :
    Ensures (i.exec rt clock s) fun s' => s'.pidConfigs = s.pidConfigs := by
  intro s' h
  refine exec_same State.pidConfigs (fun t => ?_) h
  cases i with
  | _ => first | rfl | cases hi

/-- What an update writes. -/
structure Corrects (clock : Clock) (s : State) (k : Pubkey) (price : UInt64) (c : StablecoinConfig)
    (pid : PidConfig) (s' : State) : Prop where
  config : s.configs k = some c
  own : k = .stablecoinConfig c.mint
  controller : s.pidConfigs (.pidConfig c.mint) = some pid
  range : pid.minFeeBps ≤ pid.maxFeeBps
  configs : s'.configs = put s.configs k
    { c with stabilityFeeBps := pid.newBps c.stabilityFeeBps (pid.error price) }
  pidConfigs : s'.pidConfigs = put s.pidConfigs (.pidConfig c.mint)
    { pid with
      lastError := .ofInt (pid.error price)
      integral := .ofInt (pid.newIntegral (pid.error price))
      lastUpdateSlot := clock.slot }

theorem updateStabilityFeePidHandler_corrects {b : UpdateStabilityFeePid}
    (h : updateStabilityFeePidHandler clock s b p = .ok s') :
    ∃ c pid, Corrects clock s b.config p c pid s' := by
  simp [updateStabilityFeePidHandler] at h
  obtain ⟨c, ⟨hc, hown⟩, pid, hpid, -, -, -, hrange, rfl⟩ := h
  exact ⟨c, pid, hc, hown, hpid, hrange, rfl, rfl⟩

/-- The integral of the controller of `M` is within its bound. -/
def IntegralBounded (M : Pubkey) (s : State) : Prop :=
  ∀ pid, s.pidConfigs (.pidConfig M) = some pid →
    -1000000000 ≤ pid.integral.toInt ∧ pid.integral.toInt ≤ 1000000000

theorem IntegralBounded.put {mint : Pubkey} (hs : IntegralBounded M s)
    (h : s'.pidConfigs = put s.pidConfigs (.pidConfig mint) pid)
    (hpid : -1000000000 ≤ pid.integral.toInt ∧ pid.integral.toInt ≤ 1000000000) :
    IntegralBounded M s' := by
  intro pid' hpid'
  rw [h, put_eq_ite _ _ (Pubkey.pidConfig.injEq ..).to_iff] at hpid'
  split at hpid'
  · cases hpid'
    exact hpid
  · exact hs pid' hpid'

theorem PidConfig.toInt_newIntegral (e : Int) :
    (Int64.ofInt (pid.newIntegral e)).toInt = pid.newIntegral e := by
  have hbounds := @PidConfig.newIntegral_bounds pid e
  exact Int64.toInt_ofInt_of_le (by omega) (by omega)

theorem IntegralBounded.step (hs : IntegralBounded M s) (h : a.exec rt s = .ok s') :
    IntegralBounded M s' := by
  have of_same (hsame : s'.pidConfigs = s.pidConfigs) : IntegralBounded M s' := by
    intro pid hpid
    exact hs pid (hsame ▸ hpid)
  cases a with
  | world w =>
    obtain ⟨t, p, q, d, rfl⟩ := World.exec_outside h
    exact hs
  | call clock i =>
    cases hkind : i.controls with
    | false => exact of_same (Instruction.samePidConfigs hkind s' h)
    | true =>
      cases i with
      | initPidConfig b params =>
        change initPidConfigHandler clock s b params = .ok s' at h
        simp only [initPidConfigHandler, bind_eq_ok, pure_eq_ok] at h
        obtain ⟨c, -, -, -, -, -, -, -, rfl⟩ := h
        exact hs.put rfl
          (show -1000000000 ≤ (0 : Int64).toInt ∧ (0 : Int64).toInt ≤ 1000000000 by decide)
      | updateStabilityFeePid b price =>
        obtain ⟨c, pid, h⟩ := updateStabilityFeePidHandler_corrects h
        refine hs.put h.pidConfigs ?_
        rw [PidConfig.toInt_newIntegral]
        exact PidConfig.newIntegral_bounds
      | _ => cases hkind

/-- The fee of a mint. -/
def State.stabilityFee (s : State) (M : Pubkey) : Option UInt16 :=
  (s.configs (.stablecoinConfig M)).map (·.stabilityFeeBps)

theorem Corrects.fee {price : UInt64} {c : StablecoinConfig}
    (h : Corrects clock s (.stablecoinConfig M) price c pid s') :
    s.pidConfigs (.pidConfig M) = some pid ∧
      s'.stabilityFee M = some (pid.newBps c.stabilityFeeBps (pid.error price)) := by
  have hM : M = c.mint := Pubkey.stablecoinConfig.inj h.own
  refine ⟨hM ▸ h.controller, ?_⟩
  rw [State.stabilityFee, h.configs, put_self]
  rfl

/-- In every state of a run the integral is within its bound, and an update sets a fee in the range
of the controller, which is not lower than at a higher price when the two prices are ordered. Prices
that are not ordered give the higher fee to the higher price in some state of the controller. -/
theorem pid_controlled (rt : Runtime) (hnone : s.pidConfigs (.pidConfig M) = none)
    (as : List Action) :
    (∀ pid, (run rt s as).pidConfigs (.pidConfig M) = some pid →
      -1000000000 ≤ pid.integral.toInt ∧ pid.integral.toInt ≤ 1000000000) ∧
    (∀ clock caller p s', (Instruction.updateStabilityFeePid
        { caller, config := .stablecoinConfig M } p).exec rt clock (run rt s as) = .ok s' →
      ∃ pid fee, (run rt s as).pidConfigs (.pidConfig M) = some pid ∧
        s'.stabilityFee M = some fee ∧ pid.minFeeBps ≤ fee ∧ fee ≤ pid.maxFeeBps ∧
        (pid.Forward → ∀ clock' caller' q s'' fee', (Instruction.updateStabilityFeePid
            { caller := caller', config := .stablecoinConfig M } q).exec rt clock' (run rt s as) =
              .ok s'' →
          s''.stabilityFee M = some fee' → p ≤ q → PidConfig.Ordered pid.targetPrice p q →
          fee' ≤ fee)) ∧
    ∀ target p q : UInt64, p ≤ q →
      ((∀ (pid : PidConfig) (bps : UInt16), pid.targetPrice = target →
        pid.minFeeBps ≤ pid.maxFeeBps → pid.Forward →
        pid.newBps bps (pid.error q) ≤ pid.newBps bps (pid.error p)) ↔
          PidConfig.Ordered target p q) := by
  have hstart : IntegralBounded M s := by
    intro pid hpid
    rw [hnone] at hpid
    cases hpid
  have hrun : IntegralBounded M (run rt s as) :=
    invariant_run_of_forall (fun hi hexec => hi.step hexec) as hstart
  refine ⟨hrun, fun clock caller p s' h => ?_, fun target p q => PidConfig.newBps_anti_iff⟩
  obtain ⟨c, pid, hp⟩ := updateStabilityFeePidHandler_corrects h
  refine ⟨pid, _, hp.fee.1, hp.fee.2, PidConfig.le_newBps hp.range, PidConfig.newBps_le hp.range ..,
    fun hforward clock' caller' q s'' fee' h' hfee' hle hordered => ?_⟩
  obtain ⟨c', pid', hq⟩ := updateStabilityFeePidHandler_corrects h'
  cases hp.config.symm.trans hq.config
  cases hp.controller.symm.trans hq.controller
  cases hq.fee.2.symm.trans hfee'
  exact PidConfig.newBps_mono hp.range hforward ((PidConfig.error_le_iff hle).mpr hordered)

namespace Market

/-- The price that the cast takes for the lowest number there is. -/
def wrapped : UInt64 := .ofNat (2 ^ 63)

def correct (price : UInt64) : Instruction :=
  .updateStabilityFeePid { caller := other, config := .stablecoinConfig mint.key } price

end Market

open Market in
theorem pid_controlled_market :
    ∃ (s' s'' : State) (pid : PidConfig) (fee fee' : UInt16),
      (correct 900).exec localRuntime (day 1) controlled = .ok s' ∧
      (correct 1000).exec localRuntime (day 1) controlled = .ok s'' ∧
      s'.stabilityFee mint.key = some fee ∧ s''.stabilityFee mint.key = some fee' ∧
      pid.minFeeBps ≤ fee ∧ fee ≤ pid.maxFeeBps ∧ fee' ≤ fee := by
  obtain ⟨s', h⟩ : ∃ s', (correct 900).exec localRuntime (day 1) controlled = .ok s' :=
    isOk_iff.mp (by decide +kernel)
  obtain ⟨s'', h'⟩ : ∃ s'', (correct 1000).exec localRuntime (day 1) controlled = .ok s'' :=
    isOk_iff.mp (by decide +kernel)
  obtain ⟨pid, fee, hpid, hfee, hmin, hmax, hmono⟩ :=
    (pid_controlled (s := genesis) localRuntime rfl _).2.1 (day 1) other 900 s' h
  obtain ⟨-, fee', -, hfee', -⟩ :=
    (pid_controlled (s := genesis) localRuntime rfl _).2.1 (day 1) other 1000 s'' h'
  have hgains : (controlled.pidConfigs (.pidConfig mint.key)).any (fun pid =>
      decide (0 ≤ pid.kp.toInt ∧ 0 ≤ pid.ki.toInt ∧ 0 ≤ pid.kd.toInt)) = true := by
    decide +kernel
  obtain ⟨pid', hpid', hdecide⟩ := (Option.any_eq_true ..).mp hgains
  cases hpid.symm.trans hpid'
  have hforward := of_decide_eq_true hdecide
  exact ⟨s', s'', pid, fee, fee', h, h', hfee, hfee', hmin, hmax,
    hmono ⟨hforward.1, hforward.2.1, hforward.2.2⟩ (day 1) other 1000 s'' fee' h' hfee'
      (by decide) (.inl (by decide))⟩

open Market in
/-- On its target of 1000 the fee is at the lower end of its range, and at `2 ^ 63` it is at the
upper one. -/
theorem pid_inverted :
    ((correct 1000).exec localRuntime (day 1) controlled).toOption.bind
        (·.stabilityFee mint.key) = some 5 ∧
      ((correct wrapped).exec localRuntime (day 1) controlled).toOption.bind
        (·.stabilityFee mint.key) = some 50 ∧
      ((controlled.pidConfigs (.pidConfig mint.key)).map fun pid =>
        (pid.kp.toInt, pid.ki.toInt, pid.kd.toInt, pid.targetPrice)) =
          some (1000000, 0, 0, 1000) ∧ 1000 < wrapped := by
  decide +kernel

end SolanaStablecoin
