import Mathlib.Data.List.DropRight
import Mathlib.Data.List.Induction
import SolanaStablecoin.Base.AntiJoin
import SolanaStablecoin.Base.Transition
import SolanaStablecoin.Backend.Liquidations

/-! The liquidation history against the event log. The query tells the events that have a row from
those that do not by their address and signature, which are not always those of the row. -/

namespace SolanaStablecoin.Backend

variable (json : SerdeJson)

/-- The row that an event should have. -/
def EventLogEntry.liquidation (el : EventLogEntry) : Option LiquidationHistoryEntry :=
  if el.eventType = "cdp_liquidate" then liquidationEntry json el else none

theorem filterMap_unsynced (db : LiquidationDb) :
    db.unsynced.filterMap (liquidationEntry json) =
      (db.eventLog.filter fun el => !db.liquidationHistory.any (·.joins el)).filterMap
        (EventLogEntry.liquidation json) := by
  rw [LiquidationDb.unsynced, ← List.filter_filter, List.filterMap_filter]
  congr 1
  funext el
  simp only [EventLogEntry.liquidation, decide_eq_true_eq]

/-- The synchronisation is a copy by anti-join. -/
theorem syncLiquidationsFromEventLog_eq (db : LiquidationDb) :
    (syncLiquidationsFromEventLog json db).liquidationHistory =
      AntiJoin.sync LiquidationHistoryEntry.joins (EventLogEntry.liquidation json) db.eventLog
        db.liquidationHistory := by
  rw [syncLiquidationsFromEventLog, filterMap_unsynced, AntiJoin.sync]

namespace LiquidationDb

def empty : LiquidationDb := ⟨[], []⟩

def Action.isSync : Action → Bool
  | .sync => true
  | .log _ => false

def Action.entry : Action → Option EventLogEntry
  | .log el => some el
  | .sync => none

/-- All the events of a run, -/
def logged (as : List Action) : List EventLogEntry := as.filterMap Action.entry

/-- those before its last synchronisation, -/
def synced (as : List Action) : List EventLogEntry := logged (as.rdropWhile (!·.isSync))

/-- and those after it. -/
def pending (as : List Action) : List EventLogEntry := logged (as.rtakeWhile (!·.isSync))

theorem synced_append_pending (as : List Action) : synced as ++ pending as = logged as := by
  rw [synced, pending, logged, logged, ← List.filterMap_append, List.rdropWhile_append_rtakeWhile]
  rfl

@[simp] theorem logged_log (as : List Action) (el : EventLogEntry) :
    logged (as ++ [.log el]) = logged as ++ [el] := List.filterMap_append ..

@[simp] theorem logged_sync (as : List Action) : logged (as ++ [.sync]) = logged as := by
  rw [logged, List.filterMap_append]
  exact List.append_nil _

@[simp] theorem synced_log (as : List Action) (el : EventLogEntry) :
    synced (as ++ [.log el]) = synced as := by
  rw [synced, List.rdropWhile_concat_pos _ _ _ rfl, synced]

@[simp] theorem synced_sync (as : List Action) : synced (as ++ [.sync]) = logged as := by
  rw [synced, List.rdropWhile_concat_neg _ _ _ Bool.false_ne_true, logged_sync]

/-- The join would be right now: for every event that has its row there is one, of this event or
another, with its address and signature, and for none of the new ones there is. -/
abbrev Joined (as : List Action) : Prop :=
  (∀ el ∈ synced as, (el.liquidation json).isSome = true →
    ∃ r ∈ (synced as).filterMap (EventLogEntry.liquidation json), r.joins el = true) ∧
  ∀ el ∈ pending as, (el.liquidation json).isSome = true →
    ∀ r ∈ (synced as).filterMap (EventLogEntry.liquidation json), r.joins el = false

/-- It is at each synchronisation. -/
def Keyed (as : List Action) : Prop :=
  ∀ init tail, as = init ++ .sync :: tail → Joined json init

variable {json}

theorem Keyed.of_append {as bs : List Action} (h : Keyed json (as ++ bs)) : Keyed json as := by
  rintro init tail rfl
  exact h init (tail ++ bs) (List.append_assoc ..)

theorem Keyed.nil : Keyed json [] := fun init tail h => by simp at h

theorem Keyed.append {as : List Action} {a : Action} (h : Keyed json as)
    (ha : a.isSync = true → Joined json as) : Keyed json (as ++ [a]) := by
  intro init tail heq
  rcases List.eq_nil_or_concat tail with rfl | ⟨tail, b, rfl⟩
  · obtain ⟨rfl, rfl⟩ := List.append_singleton_inj.mp heq
    exact ha rfl
  · rw [List.concat_eq_append, ← List.cons_append, ← List.append_assoc] at heq
    exact h init tail (List.append_singleton_inj.mp heq).1

/-- One synchronisation, where the history is right for the events before the last one. -/
theorem sync_eq {as : List Action} {db : LiquidationDb} (h : Keyed json (as ++ [.sync]))
    (hlog : db.eventLog = logged as)
    (hrows : db.liquidationHistory.Perm
      ((synced as).filterMap (EventLogEntry.liquidation json))) :
    (syncLiquidationsFromEventLog json db).liquidationHistory =
      db.liquidationHistory ++ (pending as).filterMap (EventLogEntry.liquidation json) := by
  obtain ⟨hold, hfresh⟩ := h as [] rfl
  rw [syncLiquidationsFromEventLog_eq, hlog, ← synced_append_pending]
  refine AntiJoin.sync_append (fun el hel hsome => ?_) fun el hel hsome r hr => ?_
  · obtain ⟨r, hr, hjoins⟩ := hold el hel hsome
    exact ⟨r, hrows.mem_iff.mpr hr, hjoins⟩
  · exact hfresh el hel hsome r (hrows.mem_iff.mp hr)

/-- The invariant: the history has the rows of the events before the last synchronisation. -/
theorem run_perm {as : List Action} (h : Keyed json as) :
    (Transition.run (exec json) empty as).eventLog = logged as ∧
      (Transition.run (exec json) empty as).liquidationHistory.Perm
        ((synced as).filterMap (EventLogEntry.liquidation json)) := by
  induction as using List.reverseRecOn with
  | nil => exact ⟨rfl, .refl _⟩
  | append_singleton as a ih =>
    obtain ⟨hlog, hrows⟩ := ih h.of_append
    rw [Transition.run_append]
    cases a with
    | log el =>
      rw [logged_log, synced_log, ← hlog]
      exact ⟨rfl, hrows⟩
    | sync =>
      rw [logged_sync, synced_sync]
      refine ⟨hlog, ?_⟩
      have heq := sync_eq h hlog hrows
      rw [← synced_append_pending, List.filterMap_append]
      exact heq ▸ hrows.append_right _

end LiquidationDb

open LiquidationDb in
/-- After every synchronisation each event has its row once, and where nothing is new nothing is
inserted. -/
theorem liquidation_history_mirrors {as : List LiquidationDb.Action} (h : Keyed json as) :
    ∀ init tail, as = init ++ .sync :: tail →
      (Transition.run (exec json) empty (init ++ [.sync])).liquidationHistory.Perm
          ((logged init).filterMap (EventLogEntry.liquidation json)) ∧
        (pending init = [] →
          (Transition.run (exec json) empty (init ++ [.sync])).liquidationHistory =
            (Transition.run (exec json) empty init).liquidationHistory) := by
  rintro init tail rfl
  rw [List.append_cons] at h
  have hsync := h.of_append
  obtain ⟨hlog, hrows⟩ := run_perm hsync.of_append
  refine ⟨synced_sync init ▸ (run_perm hsync).2, fun hpending => ?_⟩
  have heq := sync_eq hsync hlog hrows
  rw [hpending, List.filterMap_nil, List.append_nil] at heq
  rw [Transition.run_append]
  exact heq

/-! ## A few liquidations -/

/-- An object with a collateral mint, as text, -/
def seizure : String := "\x7b\"collateral_mint\":\"MintSOL\"\x7d"

/-- and all that the runs below ask of `serde_json`. -/
def seizures : SerdeJson where
  fromStr text := if text = seizure then some (.object [("collateral_mint", .string "MintSOL")])
    else none
  toString _ := seizure

def liquidated (position : String) (txSignature : Option String) : EventLogEntry where
  eventType := "cdp_liquidate"
  address := position
  data := seizure
  txSignature
  slot := some 1

/-- Two liquidations, each with a signature of its own. -/
def separate : List LiquidationDb.Action :=
  [.log (liquidated "P" (some "A")), .sync, .log (liquidated "Q" (some "B")), .sync, .sync]

open LiquidationDb in
theorem liquidation_history_separate : Keyed seizures separate ∧
    ∀ init tail, separate = init ++ .sync :: tail →
      (Transition.run (exec seizures) empty (init ++ [.sync])).liquidationHistory.Perm
          ((logged init).filterMap (EventLogEntry.liquidation seizures)) ∧
        (pending init = [] →
          (Transition.run (exec seizures) empty (init ++ [.sync])).liquidationHistory =
            (Transition.run (exec seizures) empty init).liquidationHistory) := by
  have h : Keyed seizures separate := by
    refine ((((Keyed.nil.append ?_).append ?_).append ?_).append ?_).append ?_ <;> decide
  exact ⟨h, liquidation_history_mirrors seizures h⟩

open LiquidationDb in
/-- Without a signature an event is inserted at every synchronisation, and the second of two
liquidations of a position in one transaction is not inserted where the first already is. -/
theorem liquidation_history_differs :
    ¬ (Transition.run (exec seizures) empty
      [.log (liquidated "P" none), .sync, .sync]).liquidationHistory.Perm
        ((logged [.log (liquidated "P" none), .sync]).filterMap
          (EventLogEntry.liquidation seizures)) ∧
    ¬ (Transition.run (exec seizures) empty [.log (liquidated "P" (some "A")), .sync,
      .log (liquidated "P" (some "A")), .sync]).liquidationHistory.Perm
        ((logged [.log (liquidated "P" (some "A")), .sync,
          .log (liquidated "P" (some "A"))]).filterMap (EventLogEntry.liquidation seizures)) := by
  decide

end SolanaStablecoin.Backend
