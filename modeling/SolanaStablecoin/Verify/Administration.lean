import Mathlib.Data.UInt
import SolanaStablecoin.Program.Token2022
import SolanaStablecoin.Verify.Settings

/-! The two ways of administration. While the timelock has a delay, settings change through executed
operations, apart from the writes listed here; without a delay there are direct setters as well,
and they do not do what the operations do. -/

namespace SolanaStablecoin

open Transition

variable {rt : Runtime} {clock : Clock} {s s' : State} {a : Action} {c c' : StablecoinConfig}
  {k M : Pubkey}

/-! ## With a delay -/

/-- The settings that an instruction may leave behind while the timelock has a delay: the
controller writes the fee under its flag, an instruction raises the flag of what it creates, and
the committee sets flags. -/
inductive Unguarded (c : StablecoinConfig) : Instruction → Settings → Prop where
  | control {a : UpdateStabilityFeePid} {price : UInt64} {fee : UInt16}
    (flag : c.checkFeatureFlag flagPidFeeControl = true) :
    Unguarded c (.updateStabilityFeePid a price) { c.settings with stabilityFeeBps := fee }
  | own {i : Instruction} {flag : UInt64} (sets : i.ownFlag = some flag) :
    Unguarded c i { c.settings with featureFlags := c.featureFlags ||| flag }
  | enact {a : CallerAndMint} {n flags : UInt64} :
    Unguarded c (.executeAction a n) { c.settings with featureFlags := flags }

theorem Resets.unguarded {i : Instruction} (h : Resets clock s k c i c')
    (hdelay : 0 < c.adminTimelockDelay) (hexecute : ∀ b, i ≠ .executeTimelockedOp b)
    (hclear : ∀ b, i ≠ .clearSanctionsOracle b) : Unguarded c i c'.settings := by
  cases h with
  | direct _ hzero =>
    rw [hzero] at hdelay
    exact absurd hdelay (UInt64.lt_irrefl 0)
  | own hsets hsettings =>
    rw [hsettings]
    exact .own hsets
  | control _ hflag => exact .control hflag
  | enact _ _ henact =>
    obtain ⟨paused, flags, rfl⟩ := StablecoinConfig.enact_ok henact
    exact .enact
  | clear => exact absurd rfl (hclear _)
  | execute => exact absurd rfl (hexecute _)

theorem exec_unguarded (h : Action.exec rt s a = .ok s') (hc : s.configs k = some c)
    (hdelay : 0 < c.adminTimelockDelay)
    (hexecute : ∀ clock b, a ≠ .call clock (.executeTimelockedOp b))
    (hclear : ∀ clock b, a ≠ .call clock (.clearSanctionsOracle b)) :
    ∃ c', s'.configs k = some c' ∧
      (c'.settings = c.settings ∨
        ∃ clock i, a = .call clock i ∧ Unguarded c i c'.settings) := by
  cases exec_settings h with
  | same h =>
    obtain ⟨c', hc', hsettings⟩ := h.config' hc
    exact ⟨c', hc', .inl hsettings⟩
  | @reset clock i _ h =>
    obtain ⟨k₁, c₁, c₁', hc₁, hput, hresets⟩ := h
    by_cases hk : k = k₁
    · subst hk
      rw [hc] at hc₁
      cases hc₁
      refine ⟨c₁', by rw [hput, put_self], .inr ⟨clock, i, rfl, ?_⟩⟩
      apply hresets.unguarded hdelay
      · intro b hi
        exact hexecute clock b (by rw [hi])
      · intro b hi
        exact hclear clock b (by rw [hi])
    · exact ⟨c, by rw [hput, put_of_ne _ _ hk, hc], .inl rfl⟩
  | @initialized _ mint _ h =>
    obtain ⟨c₁, hput, -⟩ := h.config
    have hne : k ≠ .stablecoinConfig mint := by
      intro hk
      rw [hk, h.free] at hc
      cases hc
    exact ⟨c, by rw [hput, put_of_ne _ _ hne, hc], .inl rfl⟩

/-- While the timelock has a delay, a transaction that executes no operation leaves the settings of
a config as they are, but for the writes of `Unguarded`. Clearing the sanctions oracle is not
covered. -/
theorem settings_behind_timelock (hc : s.configs (.stablecoinConfig M) = some c)
    (hdelay : 0 < c.adminTimelockDelay)
    (hexecute : ∀ clock b, a ≠ .call clock (.executeTimelockedOp b))
    (hclear : ∀ clock b, a ≠ .call clock (.clearSanctionsOracle b)) :
    ∃ c', (next (Action.exec rt) s a).configs (.stablecoinConfig M) = some c' ∧
      (c'.settings = c.settings ∨
        ∃ clock i, a = .call clock i ∧ Unguarded c i c'.settings) := by
  cases h : Action.exec rt s a with
  | ok s' =>
    rw [next_of_ok h]
    exact exec_unguarded h hc hdelay hexecute hclear
  | error e =>
    rw [next_of_error h]
    exact ⟨c, hc, .inl rfl⟩

namespace Market

/-- The fee controller and the committee are set up, and the committee has voted for a flag. -/
def controlled : State :=
  run localRuntime genesis (opening 1000 ++
    [ .call (day 0) (.initPidConfig { authority, config }
        { kp := 1000000, ki := 0, kd := 0, targetPrice := 1000, minFeeBps := 5
          maxFeeBps := 50 }),
      .call (day 0) (.initDaoCommittee asAuthority [user.key] 1),
      .call (day 0) (.proposeAction { caller := authority, mint := mint.key } .setFeatureFlag
        flagPorHaltOnBreach .default),
      .call (day 0) (.voteAction { caller := user, mint := mint.key } 0) ])

def adjustFee : Instruction := .updateStabilityFeePid { caller := other, config } 900

def raiseFlag : Instruction := .initYieldCollateral asAuthority []

def enactVote : Instruction := .executeAction { caller := other, mint := mint.key } 0

end Market

/-- The instruction goes through while the timelock has a delay, and changes settings. -/
def MovesSettings (rt : Runtime) (clock : Clock) (s : State) (i : Instruction) (k : Pubkey) :
    Prop :=
  ∃ c s' c', s.configs k = some c ∧ 0 < c.adminTimelockDelay ∧ i.exec rt clock s = .ok s' ∧
    s'.configs k = some c' ∧ c'.settings ≠ c.settings

theorem MovesSettings.of_eq {i : Instruction} {d d' : Settings}
    (h : (s.configs k).map (·.settings) = some d)
    (h' : ((i.exec rt clock s).toOption.bind (·.configs k)).map (·.settings) = some d')
    (hdelay : 0 < d.adminTimelockDelay) (hne : d' ≠ d) : MovesSettings rt clock s i k := by
  obtain ⟨c, hc, rfl⟩ := Option.map_eq_some_iff.mp h
  obtain ⟨c', hc', rfl⟩ := Option.map_eq_some_iff.mp h'
  obtain ⟨s', hs', hc'⟩ := Option.bind_eq_some_iff.mp hc'
  cases hexec : i.exec rt clock s with
  | error e =>
    rw [hexec] at hs'
    cases hs'
  | ok s₁ =>
    rw [hexec] at hs'
    cases hs'
    exact ⟨c, s', c', hc, hdelay, hexec, hc', hne⟩

open Market in
/-- The controller, an initialisation and the committee all do. -/
theorem settings_move_behind_timelock :
    MovesSettings localRuntime (day 1) controlled adjustFee config ∧
      MovesSettings localRuntime (day 1) controlled raiseFlag config ∧
      MovesSettings localRuntime (day 1) controlled enactVote config := by
  refine ⟨?_, ?_, ?_⟩
  all_goals
    exact .of_eq (Option.some_get (by decide +kernel)).symm
      (Option.some_get (by decide +kernel)).symm (by decide +kernel) (by decide +kernel)

open Market in
/-- The new fee is all that the controller leaves behind. -/
theorem adjusted_behind_timelock : ∃ c, controlled.configs config = some c ∧
    ∃ c', (next (Action.exec localRuntime) controlled (.call (day 1) adjustFee)).configs config =
      some c' ∧
    (c'.settings = c.settings ∨
      ∃ clock i, Action.call (day 1) adjustFee = .call clock i ∧
        Unguarded c i c'.settings) := by
  have hdelay : (controlled.configs config).map (fun c => decide (0 < c.adminTimelockDelay)) =
      some true := by
    decide +kernel
  obtain ⟨c, hc, hpos⟩ := Option.map_eq_some_iff.mp hdelay
  refine ⟨c, hc, ?_⟩
  apply settings_behind_timelock hc (of_decide_eq_true hpos)
  · intro clock b h
    cases h
  · intro clock b h
    cases h

/-! ## Without a delay -/

/-- The operations that there is a direct instruction for. -/
inductive Twofold where
  | transferAuthority
  | setFeatureFlag
  | clearFeatureFlag
  | setPythFeed
  | setOracleParams
  | setStabilityFee
  | setPsmFee
  | setBackstopParams
  | setSpendLimit
  | setOracleConfig
  | setTravelRuleThreshold
  | setSanctionsParams
  | pause
  | unpause

/-- The config and its authority, in a state where the timelock has no delay. -/
structure Administered (s : State) (who : Signer) (M : Pubkey) (c : StablecoinConfig) : Prop where
  config : s.configs (.stablecoinConfig M) = some c
  mint_eq : M = c.mint
  mint : ∃ m, s.tokens.mints M = some m
  authority : c.authority = who.key
  delay : c.adminTimelockDelay = 0

/-- The multisig signs, if there is one. -/
def StablecoinConfig.SquadsSigns (c : StablecoinConfig) (who : Pubkey) : Prop :=
  c.featureFlags &&& flagSquadsAuthority ≠ 0 →
    c.squadsMultisig ≠ .default ∧ who = c.squadsMultisig

/-- The config that a transaction leaves behind, without the pending operation. -/
def configLeft (M : Pubkey) (x : Result State) : Option StablecoinConfig :=
  x.toOption.bind fun s => (s.configs (.stablecoinConfig M)).map (·.clearTimelockedOp)

namespace Twofold

def opKind : Twofold → UInt8
  | transferAuthority => adminOpTransferAuthority
  | setFeatureFlag => adminOpSetFeatureFlag
  | clearFeatureFlag => adminOpClearFeatureFlag
  | setPythFeed => adminOpSetPythFeed
  | setOracleParams => adminOpSetOracleParams
  | setStabilityFee => adminOpSetStabilityFee
  | setPsmFee => adminOpSetPsmFee
  | setBackstopParams => adminOpSetBackstopParams
  | setSpendLimit => adminOpSetSpendLimit
  | setOracleConfig => adminOpSetOracleConfig
  | setTravelRuleThreshold => adminOpSetTravelRuleThreshold
  | setSanctionsParams => adminOpSetSanctionsParams
  | pause => adminOpPause
  | unpause => adminOpUnpause

/-- The direct instruction with the parameters of an operation, as the source describes how they
are packed. There is none for a parameter that does not fit the type of the instruction's. -/
def instruction (who : Signer) (M : Pubkey) (param : UInt64) (target : Pubkey) :
    Twofold → Option Instruction
  | transferAuthority =>
    some (.updateRoles { authority := who, mint := M } { newAuthority := some target })
  | setFeatureFlag => some (.setFeatureFlag { authority := who, mint := M } param)
  | clearFeatureFlag => some (.clearFeatureFlag { authority := who, mint := M } param)
  | setPythFeed => some (.setPythFeed { authority := who, mint := M } target)
  | setOracleParams =>
    if param < 2 ^ 48 then
      some (.setOracleParams { authority := who, mint := M } (param >>> 16).toUInt32
        (param &&& 0xFFFF).toUInt16)
    else none
  | setStabilityFee =>
    if param < 2 ^ 16 then
      some (.setStabilityFee { authority := who, config := .stablecoinConfig M } param.toUInt16)
    else none
  | setPsmFee =>
    if param < 2 ^ 16 then some (.setPsmFee { authority := who, mint := M } param.toUInt16)
    else none
  | setBackstopParams =>
    if param < 2 ^ 16 then
      some (.setBackstopParams { authority := who, sssMint := M } target param.toUInt16)
    else none
  | setSpendLimit =>
    if param = 0 then some (.clearSpendLimit { authority := who, mint := M })
    else some (.setSpendLimit { authority := who, mint := M } param)
  | setOracleConfig =>
    if param < 2 ^ 8 then
      some (.setOracleConfig { authority := who, mint := M } param.toUInt8 target)
    else none
  | setTravelRuleThreshold =>
    some (.setTravelRuleThreshold { authority := who, config := .stablecoinConfig M } param)
  | setSanctionsParams =>
    some (.setSanctionsOracle { authority := who, config := .stablecoinConfig M } target param)
  | pause => some (.pause { authority := who, mint := M } true)
  | unpause => some (.pause { authority := who, mint := M } false)

/-- What the direct instruction leaves. -/
def directly (rt : Runtime) (clock : Clock) (s : State) (who : Signer) (M : Pubkey)
    (param : UInt64) (target : Pubkey) (op : Twofold) : Option StablecoinConfig :=
  (op.instruction who M param target).bind fun i => configLeft M (i.exec rt clock s)

/-- What the operation leaves that is proposed and executed. -/
def timelocked (rt : Runtime) (clock : Clock) (s : State) (who : Signer) (M : Pubkey)
    (param : UInt64) (target : Pubkey) (op : Twofold) : Option StablecoinConfig :=
  configLeft M do
    let s ← Instruction.exec rt clock s
      (.proposeTimelockedOp { authority := who, mint := M } op.opKind param target)
    Instruction.exec rt clock s (.executeTimelockedOp { authority := who, mint := M })

end Twofold

theorem configLeft_eq_some {x : Result State} :
    configLeft M x = some c' ↔
      ∃ s', x = .ok s' ∧ ∃ c, s'.configs (.stablecoinConfig M) = some c ∧
        c.clearTimelockedOp = c' := by
  cases x with
  | ok s' => simp [configLeft, Except.toOption]
  | error e => simp [configLeft, Except.toOption]

theorem checkSquads_eq_ok {who : Pubkey} {u : Unit} :
    checkSquads c who = .ok u ↔ c.SquadsSigns who := by
  simp only [checkSquads, verifySquadsSigner, requireWhen_eq_ok, bind_eq_ok, require_eq_ok,
    StablecoinConfig.SquadsSigns]
  constructor
  · intro h hflag
    obtain ⟨-, -, -, hset, hwho⟩ := h hflag
    exact ⟨hset, hwho⟩
  · intro h hflag
    exact ⟨(), hflag, (), (h hflag).1, (h hflag).2⟩

section Administered

variable {who : Signer} {param : UInt64} {target : Pubkey}

theorem Administered.loadConfig (h : Administered s who M c) :
    AuthorityAndMint.loadConfig s { authority := who, mint := M } = .ok c' ↔ c = c' := by
  rw [AuthorityAndMint.loadConfig_eq_ok, h.config, Option.some_inj]
  constructor
  · intro h'
    exact h'.1
  · rintro rfl
    exact ⟨rfl, h.authority, h.mint, h.mint_eq⟩

theorem Administered.loadConfig' (h : Administered s who M c) :
    AuthorityAndConfig.loadConfig s { authority := who, config := .stablecoinConfig M } =
      .ok c' ↔ c = c' := by
  rw [AuthorityAndConfig.loadConfig_eq_ok, h.config, Option.some_inj]
  constructor
  · intro h'
    exact h'.1
  · rintro rfl
    exact ⟨rfl, congrArg _ h.mint_eq, h.authority⟩

theorem Administered.loadSssConfig (h : Administered s who M c) :
    AuthorityAndSssMint.loadConfig s { authority := who, sssMint := M } = .ok c' ↔
      c.preset = 3 ∧ c = c' := by
  rw [AuthorityAndSssMint.loadConfig_eq_ok, h.config, Option.some_inj]
  constructor
  · rintro ⟨rfl, -, hpreset, -⟩
    exact ⟨hpreset, rfl⟩
  · rintro ⟨hpreset, rfl⟩
    exact ⟨rfl, h.authority, hpreset, h.mint⟩

namespace Twofold

/-- The direct instruction is accepted. -/
def Admits (c : StablecoinConfig) (who : Pubkey) (param : UInt64) : Twofold → Prop
  | transferAuthority | setSpendLimit | setSanctionsParams => c.SquadsSigns who
  | setPythFeed => True
  | setOracleParams => param < 2 ^ 48
  | setFeatureFlag | pause | unpause =>
    c.SquadsSigns who ∧ c.featureFlags &&& flagDaoCommittee = 0
  | clearFeatureFlag =>
    c.SquadsSigns who ∧ param &&& flagDaoCommittee = 0 ∧ param &&& flagSquadsAuthority = 0 ∧
      c.featureFlags &&& flagDaoCommittee = 0
  | setStabilityFee => c.SquadsSigns who ∧ c.preset = 3 ∧ param ≤ 2000
  | setPsmFee => c.SquadsSigns who ∧ c.preset = 3 ∧ param ≤ 1000
  | setBackstopParams => c.SquadsSigns who ∧ c.preset = 3 ∧ param ≤ 10000
  | setOracleConfig => c.SquadsSigns who ∧ param ≤ 2
  | setTravelRuleThreshold =>
    c.SquadsSigns who ∧ (c.checkFeatureFlag flagTravelRule = true → 0 < param)

/-- What it makes of the config. -/
def sets (c : StablecoinConfig) (param : UInt64) (target : Pubkey) : Twofold → StablecoinConfig
  | transferAuthority => { c with pendingAuthority := target }
  | setFeatureFlag => { c with featureFlags := c.featureFlags ||| param }
  | clearFeatureFlag => { c with featureFlags := c.featureFlags &&& ~~~param }
  | setPythFeed => { c with expectedPythFeed := target }
  | setOracleParams =>
    { c with
      maxOracleAgeSecs := (param >>> 16).toUInt32
      maxOracleConfBps := (param &&& 0xFFFF).toUInt16 }
  | setStabilityFee => { c with stabilityFeeBps := param.toUInt16 }
  | setPsmFee => { c with redemptionFeeBps := param.toUInt16 }
  | setBackstopParams =>
    { c with insuranceFundPubkey := target, maxBackstopBps := param.toUInt16 }
  | setSpendLimit =>
    { c with
      maxTransferAmount := param
      featureFlags :=
        if param = 0 then c.featureFlags &&& ~~~flagSpendPolicy
        else c.featureFlags ||| flagSpendPolicy }
  | setOracleConfig => { c with oracleType := param.toUInt8, oracleFeed := target }
  | setTravelRuleThreshold => { c with travelRuleThreshold := param }
  | setSanctionsParams =>
    { c with
      sanctionsOracle := target, sanctionsMaxStalenessSlots := param
      featureFlags := c.featureFlags ||| flagSanctionsOracle }
  | pause => { c with paused := true }
  | unpause => { c with paused := false }

end Twofold

theorem toUInt16_le_iff {m : UInt16} (h : param < 2 ^ 16) :
    param.toUInt16 ≤ m ↔ param ≤ m.toUInt64 := by
  have hlt : param.toNat < 2 ^ 16 := UInt64.lt_iff_toNat_lt.mp h
  rw [UInt16.le_iff_toNat_le, UInt64.le_iff_toNat_le, UInt64.toNat_toUInt16,
    UInt16.toNat_toUInt64, Nat.mod_eq_of_lt hlt]

theorem toUInt8_le_iff {m : UInt8} (h : param < 2 ^ 8) :
    param.toUInt8 ≤ m ↔ param ≤ m.toUInt64 := by
  have hlt : param.toNat < 2 ^ 8 := UInt64.lt_iff_toNat_lt.mp h
  rw [UInt8.le_iff_toNat_le, UInt64.le_iff_toNat_le, UInt64.toNat_toUInt8,
    UInt8.toNat_toUInt64, Nat.mod_eq_of_lt hlt]

theorem or_eq_self_iff {flags flag : UInt64} : flags ||| flag = flags ↔ flags &&& flag = flag := by
  rw [← UInt64.toBitVec_inj, ← UInt64.toBitVec_inj, UInt64.toBitVec_or, UInt64.toBitVec_and,
    BitVec.eq_of_getLsbD_eq_iff, BitVec.eq_of_getLsbD_eq_iff]
  apply forall_congr'
  intro i
  rw [BitVec.getLsbD_or, BitVec.getLsbD_and]
  cases flags.toBitVec.getLsbD i <;> simp

theorem and_not_eq_self_iff {flags flag : UInt64} :
    flags &&& ~~~flag = flags ↔ flags &&& flag = 0 := by
  rw [← UInt64.toBitVec_inj, ← UInt64.toBitVec_inj, UInt64.toBitVec_and, UInt64.toBitVec_and,
    BitVec.eq_of_getLsbD_eq_iff, BitVec.eq_of_getLsbD_eq_iff]
  apply forall_congr'
  intro i
  simp only [BitVec.getLsbD_and, UInt64.toBitVec_not, BitVec.getLsbD_not]
  cases flags.toBitVec.getLsbD i <;> simp +contextual

/-- An instruction that stores `c'` under the condition `P` leaves `c'` under it. -/
theorem configLeft_of_put {x : Result State} {c' d : StablecoinConfig} {P : Prop}
    (h : ∀ s', x = .ok s' ↔
      P ∧ { s with configs := put s.configs (.stablecoinConfig M) c' } = s') :
    configLeft M x = some d ↔ P ∧ c'.clearTimelockedOp = d := by
  have hself : put s.configs (.stablecoinConfig M) c' (.stablecoinConfig M) = some c' :=
    put_self ..
  rw [configLeft_eq_some]
  constructor
  · rintro ⟨s', hs', c₁, hc₁, hd⟩
    obtain ⟨hP, rfl⟩ := (h s').mp hs'
    cases hself.symm.trans hc₁
    exact ⟨hP, hd⟩
  · rintro ⟨hP, hd⟩
    exact ⟨_, (h _).mpr ⟨hP, rfl⟩, c', hself, hd⟩

namespace Twofold

variable {op : Twofold} {i : Instruction} {n : UInt64} {d : StablecoinConfig} {P : Prop}

theorem directly_of_put (hop : op.instruction who M param target = some i)
    (h : ∀ s', i.exec rt clock s = .ok s' ↔
      P ∧ { s with configs := put s.configs (.stablecoinConfig M) c' } = s') :
    op.directly rt clock s who M param target = some d ↔ P ∧ c'.clearTimelockedOp = d := by
  rw [directly, hop, Option.bind_some]
  exact configLeft_of_put h

/-- A parameter that does not fit the type of the instruction's is not accepted. -/
theorem directly_of_fits
    (hop : op.instruction who M param target = if param < n then some i else none)
    (hP : P → param < n)
    (h : param < n → ∀ s', i.exec rt clock s = .ok s' ↔
      P ∧ { s with configs := put s.configs (.stablecoinConfig M) c' } = s') :
    op.directly rt clock s who M param target = some d ↔ P ∧ c'.clearTimelockedOp = d := by
  by_cases hfit : param < n
  · exact directly_of_put (hop.trans (if_pos hfit)) (h hfit)
  · rw [directly, hop, if_neg hfit, Option.bind_none]
    constructor
    · intro h
      cases h
    · rintro ⟨h, -⟩
      exact absurd (hP h) hfit

theorem directly_setStabilityFee (h : Administered s who M c) :
    setStabilityFee.directly rt clock s who M param target = some c' ↔
      setStabilityFee.Admits c who.key param ∧
        (setStabilityFee.sets c param target).clearTimelockedOp = c' := by
  apply directly_of_fits rfl
  · rintro ⟨-, -, hle⟩
    exact UInt64.lt_of_le_of_lt hle (by decide)
  · intro hfit s'
    have hmax : maxStabilityFeeBps.toUInt64 = 2000 := rfl
    change setStabilityFeeHandler .. = _ ↔ _
    simp [setStabilityFeeHandler, h.loadConfig', requireTimelockExecuted,
      h.delay, checkSquads_eq_ok, toUInt16_le_iff hfit, hmax, Admits, sets, and_assoc,
      and_left_comm]

theorem directly_setPsmFee (h : Administered s who M c) :
    setPsmFee.directly rt clock s who M param target = some c' ↔
      setPsmFee.Admits c who.key param ∧
        (setPsmFee.sets c param target).clearTimelockedOp = c' := by
  apply directly_of_fits rfl
  · rintro ⟨-, -, hle⟩
    exact UInt64.lt_of_le_of_lt hle (by decide)
  · intro hfit s'
    have hmax : maxPsmFeeBps.toUInt64 = 1000 := rfl
    change setPsmFeeHandler .. = _ ↔ _
    simp [setPsmFeeHandler, h.loadConfig, requireTimelockExecuted, h.delay,
      checkSquads_eq_ok, toUInt16_le_iff hfit, hmax, AuthorityAndMint.config, Admits, sets,
      and_assoc, and_left_comm]

theorem directly_setBackstopParams (h : Administered s who M c) :
    setBackstopParams.directly rt clock s who M param target = some c' ↔
      setBackstopParams.Admits c who.key param ∧
        (setBackstopParams.sets c param target).clearTimelockedOp = c' := by
  apply directly_of_fits rfl
  · rintro ⟨-, -, hle⟩
    exact UInt64.lt_of_le_of_lt hle (by decide)
  · intro hfit s'
    change setBackstopParamsHandler .. = _ ↔ _
    simp [setBackstopParamsHandler, h.loadSssConfig, requireTimelockExecuted,
      h.delay, checkSquads_eq_ok, toUInt16_le_iff hfit, Admits, sets, and_assoc,
      and_left_comm]

theorem directly_setOracleConfig (h : Administered s who M c) :
    setOracleConfig.directly rt clock s who M param target = some c' ↔
      setOracleConfig.Admits c who.key param ∧
        (setOracleConfig.sets c param target).clearTimelockedOp = c' := by
  apply directly_of_fits rfl
  · rintro ⟨-, hle⟩
    exact UInt64.lt_of_le_of_lt hle (by decide)
  · intro hfit s'
    change setOracleConfigHandler .. = _ ↔ _
    simp [setOracleConfigHandler, h.loadConfig, requireTimelockExecuted,
      h.delay, checkSquads_eq_ok, toUInt8_le_iff hfit, AuthorityAndMint.config, Admits, sets,
      and_assoc]

theorem directly_setOracleParams (h : Administered s who M c) :
    setOracleParams.directly rt clock s who M param target = some c' ↔
      setOracleParams.Admits c who.key param ∧
        (setOracleParams.sets c param target).clearTimelockedOp = c' := by
  apply directly_of_fits rfl
  · intro hfit
    exact hfit
  · intro hfit s'
    have hadmits : setOracleParams.Admits c who.key param := hfit
    change setOracleParamsHandler .. = _ ↔ _
    simp [setOracleParamsHandler, h.loadConfig, requireTimelockExecuted,
      h.delay, AuthorityAndMint.config, sets, hadmits]

theorem directly_setSpendLimit (h : Administered s who M c) :
    setSpendLimit.directly rt clock s who M param target = some c' ↔
      setSpendLimit.Admits c who.key param ∧
        (setSpendLimit.sets c param target).clearTimelockedOp = c' := by
  by_cases hzero : param = 0
  · have hop : setSpendLimit.instruction who M param target = some _ := if_pos hzero
    apply directly_of_put hop
    intro s'
    change clearSpendLimitHandler .. = _ ↔ _
    simp [clearSpendLimitHandler, h.loadConfig, requireTimelockExecuted,
      h.delay, checkSquads_eq_ok, AuthorityAndMint.config, Admits, sets, hzero]
  · have hpos : 0 < param := UInt64.pos_iff_ne_zero.mpr hzero
    have hop : setSpendLimit.instruction who M param target = some _ := if_neg hzero
    apply directly_of_put hop
    intro s'
    change setSpendLimitHandler .. = _ ↔ _
    simp [setSpendLimitHandler, h.loadConfig, requireTimelockExecuted,
      h.delay, checkSquads_eq_ok, AuthorityAndMint.config, Admits, sets, hzero, hpos]

/-- The direct instruction leaves what `sets` says, under the condition `Admits`. -/
theorem directly_eq_some (h : Administered s who M c) :
    op.directly rt clock s who M param target = some c' ↔
      op.Admits c who.key param ∧ (op.sets c param target).clearTimelockedOp = c' := by
  cases op with
  | setOracleParams => exact directly_setOracleParams h
  | setStabilityFee => exact directly_setStabilityFee h
  | setPsmFee => exact directly_setPsmFee h
  | setBackstopParams => exact directly_setBackstopParams h
  | setSpendLimit => exact directly_setSpendLimit h
  | setOracleConfig => exact directly_setOracleConfig h
  | transferAuthority =>
    apply directly_of_put rfl
    intro s'
    change updateRolesHandler .. = _ ↔ _
    simp [updateRolesHandler, h.loadConfig, h.delay, checkSquads_eq_ok,
      AuthorityAndMint.config, Admits, sets]
  | setFeatureFlag =>
    apply directly_of_put rfl
    intro s'
    change setFeatureFlagHandler .. = _ ↔ _
    simp [setFeatureFlagHandler, h.loadConfig, requireTimelockExecuted, h.delay,
      requireNoDao, checkSquads_eq_ok, AuthorityAndMint.config, Admits, sets, and_assoc]
  | clearFeatureFlag =>
    apply directly_of_put rfl
    intro s'
    change clearFeatureFlagHandler .. = _ ↔ _
    simp [clearFeatureFlagHandler, h.loadConfig, requireTimelockExecuted,
      h.delay, requireNoDao, checkSquads_eq_ok, AuthorityAndMint.config, Admits, sets, and_assoc]
  | setPythFeed =>
    apply directly_of_put rfl
    intro s'
    change setPythFeedHandler .. = _ ↔ _
    simp [setPythFeedHandler, h.loadConfig, requireTimelockExecuted, h.delay,
      AuthorityAndMint.config, Admits, sets]
  | setTravelRuleThreshold =>
    apply directly_of_put rfl
    intro s'
    change setTravelRuleThresholdHandler .. = _ ↔ _
    simp [setTravelRuleThresholdHandler, h.loadConfig', requireTimelockExecuted,
      h.delay, checkSquads_eq_ok, Admits, sets, and_assoc]
  | setSanctionsParams =>
    apply directly_of_put rfl
    intro s'
    change setSanctionsOracleHandler .. = _ ↔ _
    simp [setSanctionsOracleHandler, h.loadConfig', requireTimelockExecuted,
      h.delay, checkSquads_eq_ok, Admits, sets]
  | pause | unpause =>
    apply directly_of_put rfl
    intro s'
    change pauseHandler .. = _ ↔ _
    simp [pauseHandler, h.loadConfig, requireTimelockExecuted, h.delay,
      requireNoDao, checkSquads_eq_ok, AuthorityAndMint.config, Admits, sets, and_assoc]

/-- The operation is executed. -/
def Accepts (param : UInt64) (target : Pubkey) : Twofold → Prop
  | transferAuthority => target ≠ .default
  | clearFeatureFlag => param &&& flagDaoCommittee = 0 ∧ param &&& flagSquadsAuthority = 0
  | setStabilityFee | setBackstopParams => param ≤ 10000
  | setPsmFee => param ≤ 1000
  | setOracleConfig => param.toUInt8 ≤ 2
  | unpause => False
  | setFeatureFlag | setPythFeed | setOracleParams | setSpendLimit | setTravelRuleThreshold
  | setSanctionsParams | pause => True

/-- What it makes of the config: the same as the direct instruction, for most kinds. -/
def enacts (c : StablecoinConfig) (param : UInt64) (target : Pubkey) (op : Twofold) :
    StablecoinConfig :=
  match op with
  | setPythFeed =>
    { c with
      expectedPythFeed := target
      oracleFeed := if c.oracleType = 0 then target else c.oracleFeed }
  | setSpendLimit => { c with maxTransferAmount := param }
  | setSanctionsParams => { c with sanctionsOracle := target, sanctionsMaxStalenessSlots := param }
  | op => op.sets c param target

/-- An operation of this kind does what `enacts` says, under the condition `Accepts`. -/
theorem applyTimelockedOp_eq_ok (hkind : c.adminOpKind = op.opKind) :
    c.applyTimelockedOp = .ok c' ↔
      op.Accepts c.adminOpParam c.adminOpTarget ∧
        op.enacts c c.adminOpParam c.adminOpTarget = c' := by
  unfold StablecoinConfig.applyTimelockedOp
  cases op
  all_goals
    rw [opKind] at hkind
    simp +decide [hkind, Accepts, enacts, sets, and_assoc]

/-- The config with the operation proposed. -/
def proposed (clock : Clock) (c : StablecoinConfig) (param : UInt64) (target : Pubkey)
    (op : Twofold) : StablecoinConfig :=
  { c with
    adminOpKind := op.opKind, adminOpParam := param, adminOpTarget := target
    adminOpMatureSlot := clock.slot }

theorem opKind_ne_none (op : Twofold) : op.opKind ≠ adminOpNone := by
  cases op
  all_goals
    intro h
    cases h

/-- Without a delay, an operation is due at once. -/
theorem propose_eq_ok (h : Administered s who M c) :
    Instruction.exec rt clock s
        (.proposeTimelockedOp { authority := who, mint := M } op.opKind param target) =
      .ok s' ↔
    (c.SquadsSigns who.key ∧ op ≠ unpause) ∧
      { s with
        configs := put s.configs (.stablecoinConfig M) (op.proposed clock c param target) } =
      s' := by
  have hzero : clock.slot.checkedAdd 0 = some clock.slot := by
    simp [UInt64.checkedAdd_eq_some]
  cases op
  all_goals
    change proposeTimelockedOpHandler .. = _ ↔ _
    simp +decide [proposeTimelockedOpHandler, h.loadConfig, h.delay,
      checkSquads_eq_ok, opKind, hzero, AuthorityAndMint.config, proposed]

/-- The administration is the same in the state after a write of the config. -/
theorem administered_proposed (h : Administered s who M c) :
    Administered { s with
        configs := put s.configs (.stablecoinConfig M) (op.proposed clock c param target) }
      who M (op.proposed clock c param target) where
  config := put_self ..
  mint_eq := h.mint_eq
  mint := h.mint
  authority := h.authority
  delay := h.delay

theorem execute_eq_ok (h : Administered s who M c) (hkind : c.adminOpKind = op.opKind) :
    Instruction.exec rt clock s (.executeTimelockedOp { authority := who, mint := M }) =
      .ok s' ↔
    (c.SquadsSigns who.key ∧ c.adminOpMatureSlot ≤ clock.slot ∧
      op.Accepts c.adminOpParam c.adminOpTarget) ∧
      { s with
        configs := put s.configs (.stablecoinConfig M)
          (op.enacts c c.adminOpParam c.adminOpTarget).clearTimelockedOp } = s' := by
  have hpending : c.adminOpKind ≠ adminOpNone := hkind ▸ op.opKind_ne_none
  change executeTimelockedOpHandler .. = _ ↔ _
  simp [executeTimelockedOpHandler, h.loadConfig, checkSquads_eq_ok, hpending,
    applyTimelockedOp_eq_ok hkind, AuthorityAndMint.config, and_assoc]

/-- The other settings do not depend on what is pending. -/
theorem clear_enacts_proposed (clock : Clock) :
    (op.enacts (op.proposed clock c param target) param
        target).clearTimelockedOp.clearTimelockedOp =
      (op.enacts c param target).clearTimelockedOp := by
  cases op
  all_goals rfl

/-- Proposed and executed, the operation leaves what `enacts` says, under the condition
`Accepts`. -/
theorem timelocked_eq_some (h : Administered s who M c) :
    op.timelocked rt clock s who M param target = some c' ↔
      (c.SquadsSigns who.key ∧ op.Accepts param target) ∧
        (op.enacts c param target).clearTimelockedOp = c' := by
  have hne : op.Accepts param target → op ≠ unpause := by
    rintro haccepts rfl
    exact haccepts
  have hdue : clock.slot ≤ clock.slot := UInt64.le_refl _
  have hkind : (op.proposed clock c param target).adminOpKind = op.opKind := rfl
  rw [← clear_enacts_proposed clock]
  apply configLeft_of_put
  intro s'
  simp only [bind_eq_ok, propose_eq_ok h]
  constructor
  · rintro ⟨s₁, ⟨⟨hsquads, -⟩, rfl⟩, hexec⟩
    obtain ⟨⟨-, -, haccepts⟩, hs'⟩ := (execute_eq_ok (administered_proposed h) hkind).mp hexec
    exact ⟨⟨hsquads, haccepts⟩, hs'⟩
  · rintro ⟨⟨hsquads, haccepts⟩, hs'⟩
    exact ⟨_, ⟨⟨hsquads, hne haccepts⟩, rfl⟩,
      (execute_eq_ok (administered_proposed h) hkind).mpr ⟨⟨hsquads, hdue, haccepts⟩, hs'⟩⟩

/-- Where the two ways do the same. -/
def Agrees (c : StablecoinConfig) (who : Pubkey) (param : UInt64) (target : Pubkey) :
    Twofold → Prop
  -- the committee binds the direct instructions only
  | setFeatureFlag | pause => c.SquadsSigns who → c.featureFlags &&& flagDaoCommittee = 0
  | clearFeatureFlag =>
    c.SquadsSigns who → param &&& flagDaoCommittee = 0 → param &&& flagSquadsAuthority = 0 →
      c.featureFlags &&& flagDaoCommittee = 0
  -- no operation unpauses
  | unpause => c.SquadsSigns who → c.featureFlags &&& flagDaoCommittee ≠ 0
  -- the multisig binds the operations only
  | setPythFeed => c.SquadsSigns who ∧ (c.oracleType = 0 → c.oracleFeed = target)
  | setOracleParams => c.SquadsSigns who ↔ param < 2 ^ 48
  -- different bounds
  | transferAuthority => c.SquadsSigns who → target ≠ .default
  | setStabilityFee => c.SquadsSigns who → param ≤ 10000 → c.preset = 3 ∧ param ≤ 2000
  | setPsmFee => c.SquadsSigns who → param ≤ 1000 → c.preset = 3
  | setBackstopParams => c.SquadsSigns who → param ≤ 10000 → c.preset = 3
  | setOracleConfig => c.SquadsSigns who → param.toUInt8 ≤ 2 → param ≤ 2
  | setTravelRuleThreshold =>
    c.SquadsSigns who → c.checkFeatureFlag flagTravelRule = true → 0 < param
  -- the flags are set directly only
  | setSpendLimit =>
    c.SquadsSigns who →
      c.featureFlags &&& flagSpendPolicy = if param = 0 then 0 else flagSpendPolicy
  | setSanctionsParams =>
    c.SquadsSigns who → c.featureFlags &&& flagSanctionsOracle = flagSanctionsOracle

/-- Two outcomes are the same when they are allowed alike and allowed ones are equal. -/
theorem outcome_eq_iff {α : Type} {x y : Option α} {P Q : Prop} {a b : α}
    (hx : ∀ d, x = some d ↔ P ∧ a = d) (hy : ∀ d, y = some d ↔ Q ∧ b = d) :
    x = y ↔ (P ↔ Q) ∧ (P → a = b) := by
  rw [Option.ext_iff]
  constructor
  · intro h
    have hPQ : ∀ d, P ∧ a = d ↔ Q ∧ b = d := by
      intro d
      rw [← hx, ← hy]
      exact h d
    refine ⟨⟨fun hP => ((hPQ a).mp ⟨hP, rfl⟩).1, fun hQ => ((hPQ b).mpr ⟨hQ, rfl⟩).1⟩, ?_⟩
    intro hP
    exact ((hPQ a).mp ⟨hP, rfl⟩).2.symm
  · rintro ⟨hPQ, hab⟩ d
    rw [hx, hy]
    constructor
    · rintro ⟨hP, rfl⟩
      exact ⟨hPQ.mp hP, (hab hP).symm⟩
    · rintro ⟨hQ, rfl⟩
      exact ⟨hPQ.mpr hQ, hab (hPQ.mpr hQ)⟩

theorem agrees_iff {who : Pubkey} :
    op.Agrees c who param target ↔
      (op.Admits c who param ↔ c.SquadsSigns who ∧ op.Accepts param target) ∧
        (op.Admits c who param →
          (op.sets c param target).clearTimelockedOp =
            (op.enacts c param target).clearTimelockedOp) := by
  have hfee : param ≤ 2000 → param ≤ 10000 := fun h => UInt64.le_trans h (by decide)
  have htype : param ≤ 2 → param.toUInt8 ≤ 2 := by
    intro h
    exact (toUInt8_le_iff (UInt64.lt_of_le_of_lt h (by decide))).mpr h
  cases op
  all_goals simp [Agrees, Admits, Accepts, sets, enacts, StablecoinConfig.clearTimelockedOp]
  case setOracleParams => exact ⟨Iff.symm, Iff.symm⟩
  case setStabilityFee =>
    apply forall_congr'
    intro _
    exact ⟨fun h => ⟨fun h' => hfee h'.2, h⟩, Iff.mpr⟩
  case setOracleConfig =>
    apply forall_congr'
    intro _
    exact ⟨fun h => ⟨htype, h⟩, Iff.mpr⟩
  case setSpendLimit =>
    apply forall_congr'
    intro _
    by_cases hzero : param = 0
    · rw [if_pos hzero, if_pos hzero, and_not_eq_self_iff]
    · rw [if_neg hzero, if_neg hzero, or_eq_self_iff]
  case setSanctionsParams =>
    apply forall_congr'
    intro _
    exact or_eq_self_iff.symm

end Twofold

/-- Without a delay, the direct instruction and the operation do the same exactly where
`Twofold.Agrees` says. -/
theorem directly_eq_timelocked (op : Twofold) (param : UInt64) (target : Pubkey)
    (h : Administered s who M c) :
    op.directly rt clock s who M param target = op.timelocked rt clock s who M param target ↔
      op.Agrees c who.key param target := by
  rw [Twofold.agrees_iff]
  apply Twofold.outcome_eq_iff
  · intro d
    exact Twofold.directly_eq_some h
  · intro d
    exact Twofold.timelocked_eq_some h

end Administered

namespace Market

/-- A stablecoin of preset 1 whose timelock has no delay. -/
def undelayed : State :=
  run localRuntime genesis
    [ .call (day 0) (.initializeStablecoin
        { payer := authority, mint, tokenProgram := token2022Id }
        { preset := 1, decimals := 6, adminTimelockDelay := some 0 }) ]

theorem undelayed_administered : ∃ c, Administered undelayed authority mint.key c := by
  have h : (undelayed.configs config).map (fun c => (c.mint, c.authority, c.adminTimelockDelay)) =
      some (mint.key, authority.key, 0) := by
    decide +kernel
  have hmint : (undelayed.tokens.mints mint.key).isSome := by decide +kernel
  obtain ⟨c, hc, hread⟩ := Option.map_eq_some_iff.mp h
  cases c
  cases hread
  exact ⟨_, hc, rfl, Option.isSome_iff_exists.mp hmint, rfl, rfl⟩

end Market

open Market in
/-- A type that the direct instruction has no value for is cut to a byte by the operation; the
operation leaves the flag of the sanctions oracle as it was. -/
theorem directly_ne_timelocked :
    (Twofold.setOracleConfig.directly localRuntime (day 0) undelayed authority mint.key 256
        feed ≠
      Twofold.setOracleConfig.timelocked localRuntime (day 0) undelayed authority mint.key 256
        feed) ∧
    (Twofold.setSanctionsParams.directly localRuntime (day 0) undelayed authority mint.key 0
        feed ≠
      Twofold.setSanctionsParams.timelocked localRuntime (day 0) undelayed authority mint.key 0
        feed) := by
  constructor
  · apply ne_of_apply_ne Option.isSome
    decide +kernel
  · apply ne_of_apply_ne (Option.map (·.featureFlags))
    decide +kernel

open Market in
/-- A type that fits is stored alike. -/
theorem directly_eq_timelocked_switchboard : ∃ c,
    Twofold.setOracleConfig.directly localRuntime (day 0) undelayed authority mint.key 1 feed =
      Twofold.setOracleConfig.timelocked localRuntime (day 0) undelayed authority mint.key 1
        feed ↔
    Twofold.setOracleConfig.Agrees c authority.key 1 feed := by
  obtain ⟨c, h⟩ := undelayed_administered
  exact ⟨c, directly_eq_timelocked .setOracleConfig 1 feed h⟩

end SolanaStablecoin
