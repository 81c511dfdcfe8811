import Mathlib.Data.List.Nodup
import Mathlib.Data.List.Perm.Subperm
import SolanaStablecoin.Base.Feed
import SolanaStablecoin.Base.Transition
import SolanaStablecoin.Backend.Indexer

/-! The event log against the chain. A poll writes what it can of each new transaction and then
moves the cursor past all of them, whatever became of them, and the two programs do so without
regard to each other; the log has each event exactly once as long as no poll passes over an event
and none meets one again. -/

namespace SolanaStablecoin.Backend

open Feed

variable (json : SerdeJson) (s : Indexer) (a : Answers)

/-! ## What the log should have -/

/-- The row of an event. -/
def eventRow (signature : String) (slot : Int) : String × String × Value → EventLogEntry
  | (eventType, address, data) =>
    { eventType, address, data := json.toString data, txSignature := some signature
      slot := some slot }

def eventRows (signature : String) (slot : Int) (programId : String) (logs : List String) :
    List EventLogEntry :=
  logs.filterMap fun line => (parseEventLog json line programId).map (eventRow json signature slot)

/-- The rows that a poll of the program writes for the transaction, if nothing fails. -/
def Transaction.rows (programId : String) (t : Transaction) : List EventLogEntry :=
  eventRows json t.signature t.slot programId t.logMessages

/-- An event is what is in its log line, which leaves out the address of the program that stands in
for one. -/
def EventLogEntry.event (r : EventLogEntry) : String × String := (r.eventType, r.data)

/-- The recognised events of the transaction. -/
def Transaction.events (t : Transaction) : List (String × String) :=
  (t.rows json WatchedProgram.sssToken.id).map EventLogEntry.event

/-- Only the address depends on the program. -/
theorem matchPattern_event (logBody p q : String) (pattern : EventPattern) :
    (matchPattern json logBody p pattern).map (fun e => (e.1, e.2.2)) =
      (matchPattern json logBody q pattern).map (fun e => (e.1, e.2.2)) := by
  unfold matchPattern
  generalize stripPrefix logBody pattern.anchorName = rest
  generalize (stripPrefix logBody "\x7b").isSome = braced
  generalize json.fromStr logBody = parsed
  cases rest with
  | some rest => simp only [Option.map_some]
  | none =>
    cases parsed with
    | none => rfl
    | some v =>
      dsimp only
      split
      · split <;> rfl
      · rfl

theorem parseEventLog_event (line p q : String) :
    (parseEventLog json line p).map (fun e => (e.1, e.2.2)) =
      (parseEventLog json line q).map (fun e => (e.1, e.2.2)) := by
  unfold parseEventLog
  generalize (stripPrefix line "Program log: ").or (stripPrefix line "Program data: ") = body
  cases body with
  | none => rfl
  | some logBody =>
    simp only [List.map_findSome?, Function.comp_def, matchPattern_event json logBody p q]

theorem Transaction.map_event_rows (programId : String) (t : Transaction) :
    (t.rows json programId).map EventLogEntry.event = t.events json := by
  have hrow : ∀ e : Option (String × String × Value),
      (e.map (eventRow json t.signature t.slot)).map EventLogEntry.event =
        (e.map fun e => (e.1, e.2.2)).map fun e => (e.1, json.toString e.2) := fun e => by
    rw [Option.map_map, Option.map_map]
    rfl
  simp only [events, rows, eventRows, List.map_filterMap, hrow,
    parseEventLog_event json _ programId WatchedProgram.sssToken.id]

theorem Transaction.rows_eq_nil {t : Transaction} (h : t.events json = []) (programId : String) :
    t.rows json programId = [] :=
  List.map_eq_nil_iff.mp ((t.map_event_rows json programId).trans h)

theorem WatchedProgram.id_inj {p q : WatchedProgram} (h : p.id = q.id) : p = q := by
  cases p <;> cases q <;> first | rfl | exact absurd h (by decide)

namespace Indexer

/-- The transactions that touch the program. -/
def feed (p : WatchedProgram) : List Transaction := s.ledger.filter (p.id ∈ ·.accounts)

/-- Those after the stored cursor, of which a poll sees the first page, -/
def fresh (p : WatchedProgram) : List Transaction :=
  unseen Transaction.signature (s.feed p) (s.cursors p.id)

/-- without those that failed. -/
def page (p : WatchedProgram) : List Transaction := ((s.fresh p).take sigBatch).filter (!·.err)

/-- Those at the stored cursor or before it. -/
def covered (p : WatchedProgram) : List Transaction :=
  seen Transaction.signature (s.feed p) (s.cursors p.id)

/-- What the log has of the transaction. -/
def rowsOf (t : Transaction) : List EventLogEntry :=
  tagged EventLogEntry.txSignature t.signature s.eventLog

/-- Nothing is lost at or before a cursor, and nothing is there twice. -/
structure Exact : Prop where
  complete : ∀ p, ∀ t ∈ s.covered p, t.err = false →
    ((s.rowsOf t).map EventLogEntry.event).Perm (t.events json)
  noneTwice : ∀ t ∈ s.ledger, ((s.rowsOf t).map EventLogEntry.event).Subperm (t.events json)

/-- Before the first poll. -/
structure Start : Prop where
  distinct : (s.ledger.map (·.signature)).Nodup
  eventLog : s.eventLog = []
  cursors : ∀ p, s.cursors p = none

end Indexer

/-- The transaction is fetched, and each of its events is inserted. -/
abbrev Answers.Indexes (t : Transaction) : Prop :=
  a.transaction t.signature = .found ∧
    ∀ n < (t.events json).length, a.inserts t.signature n = true

/-- The transaction is fetched, and its first event is inserted. -/
abbrev Answers.Writes (t : Transaction) : Prop :=
  a.transaction t.signature = .found ∧ a.inserts t.signature 0 = true

/-- If it has events and is not in the log, it is on the page and is indexed. If it is in the log
already, it is not written again, nor is it if the cursor stays where it is. -/
abbrev Indexer.CleanOn (p : WatchedProgram) (t : Transaction) : Prop :=
  t.err = false → t.events json ≠ [] →
    if a.writesCursor = true ∧ s.rowsOf t = [] then t ∈ s.page p ∧ a.Indexes json t
    else t ∈ s.page p → ¬ a.Writes t

/-- The poll passes over no event of a new transaction and meets none again. -/
def Indexer.Clean (p : WatchedProgram) : Prop := ∀ t ∈ s.fresh p, s.CleanOn json a p t

instance (p : WatchedProgram) : Decidable (s.Clean json a p) :=
  List.decidableBAll (s.CleanOn json a p) (s.fresh p)

/-- Every poll that gets as far as a page is clean. -/
def Indexer.CleanAction : Indexer → Indexer.Action → Prop
  | s, .poll p a => a.readsCursor = true → a.signatures = true → s.page p ≠ [] → s.Clean json a p
  | _, _ => True

instance : ∀ s b, Decidable (Indexer.CleanAction json s b)
  | s, .poll p a => inferInstanceAs
    (Decidable (a.readsCursor = true → a.signatures = true → s.page p ≠ [] → s.Clean json a p))
  | _, .land _ | _, .log .. => isTrue trivial

/-! ## What a poll writes -/

variable {json s a} {p q : WatchedProgram} {t : Transaction}

section
variable (insert : Nat → Bool) (signature : String) (slot : Int) (programId : String)

/-- The log only grows. -/
theorem insertEvents_snd (count : Nat) (logs : List String) (log : List EventLogEntry) :
    (insertEvents json insert signature slot programId count logs log).2 =
      log ++ (insertEvents json insert signature slot programId count logs []).2 := by
  induction logs generalizing count log with
  | nil => simp [insertEvents]
  | cons line logs ih =>
    simp only [insertEvents]
    cases parseEventLog json line programId with
    | none => exact ih ..
    | some e =>
      cases insert count with
      | false => simp
      | true =>
        simp only [if_true]
        rw [ih _ (insertEventLog ..), ih _ (insertEventLog json [] ..), ← List.append_assoc]
        rfl

theorem insertEvents_txSignature (count : Nat) (logs : List String) :
    ∀ r ∈ (insertEvents json insert signature slot programId count logs []).2,
      r.txSignature = some signature := by
  induction logs generalizing count with
  | nil => exact fun r hr => absurd hr List.not_mem_nil
  | cons line logs ih =>
    simp only [insertEvents]
    cases parseEventLog json line programId with
    | none => exact ih count
    | some e =>
      cases insert count with
      | false => exact fun r hr => absurd hr List.not_mem_nil
      | true =>
        simp only [if_true]
        rw [insertEvents_snd]
        intro r hr
        rcases List.mem_append.mp hr with hr | hr
        · rw [List.mem_singleton.mp hr]
        · exact ih _ r hr

/-- If every insert works, all the events are there. -/
theorem insertEvents_eq {count : Nat} {logs : List String}
    (h : ∀ n < (eventRows json signature slot programId logs).length, insert (count + n) = true) :
    (insertEvents json insert signature slot programId count logs []).2 =
      eventRows json signature slot programId logs := by
  induction logs generalizing count with
  | nil => rfl
  | cons line logs ih =>
    simp only [insertEvents]
    cases hline : parseEventLog json line programId with
    | none =>
      simp only [eventRows, List.filterMap_cons, hline, Option.map_none] at h ⊢
      exact ih h
    | some e =>
      simp only [eventRows, List.filterMap_cons, hline, Option.map_some, List.length_cons] at h ⊢
      have hfirst : insert count = true := h 0 (Nat.succ_pos _)
      rw [if_pos hfirst, insertEvents_snd,
        ih fun n hn => Nat.add_right_comm count n 1 ▸ h (n + 1) (Nat.succ_lt_succ hn)]
      rfl

/-- If the first insert fails, none is there. -/
theorem insertEvents_eq_nil {count : Nat} (h : insert count = false) (logs : List String) :
    (insertEvents json insert signature slot programId count logs []).2 = [] := by
  induction logs with
  | nil => rfl
  | cons line logs ih =>
    simp only [insertEvents]
    cases parseEventLog json line programId with
    | none => exact ih
    | some e => simp [h]

end

variable (json s a) in
/-- What a poll of the program writes for the transaction. -/
def Indexer.written (p : WatchedProgram) (t : Transaction) : List EventLogEntry :=
  (fetchAndIndexTx json s.ledger a t.signature t.slot p.id []).2

theorem fetchAndIndexTx_snd (log : List EventLogEntry) :
    (fetchAndIndexTx json s.ledger a t.signature t.slot p.id log).2 =
      log ++ s.written json a p t := by
  unfold Indexer.written fetchAndIndexTx
  split
  · exact (List.append_nil log).symm
  · exact (List.append_nil log).symm
  · split
    · exact (List.append_nil log).symm
    · exact insertEvents_snd ..

theorem Indexer.txSignature_of_mem_written {r : EventLogEntry} (h : r ∈ s.written json a p t) :
    r.txSignature = some t.signature := by
  unfold written fetchAndIndexTx at h
  split at h
  · exact absurd h List.not_mem_nil
  · exact absurd h List.not_mem_nil
  · split at h
    · exact absurd h List.not_mem_nil
    · exact insertEvents_txSignature _ _ _ _ _ _ r h

namespace Indexer

/-- The signature leads back to the transaction. -/
theorem find?_ledger (hnodup : (s.ledger.map (·.signature)).Nodup) (ht : t ∈ s.ledger) :
    s.ledger.find? (·.signature = t.signature) = some t := by
  generalize s.ledger = ledger at hnodup ht
  induction ledger with
  | nil => cases ht
  | cons t' ledger ih =>
    rw [List.map_cons, List.nodup_cons] at hnodup
    rcases List.mem_cons.mp ht with rfl | ht
    · simp
    · have hne : t'.signature ≠ t.signature := fun h => hnodup.1 (h ▸ List.mem_map_of_mem ht)
      rw [List.find?_cons_of_neg (by simpa using hne), ih hnodup.2 ht]

theorem written_of_indexes (hnodup : (s.ledger.map (·.signature)).Nodup) (ht : t ∈ s.ledger)
    (h : a.Indexes json t) : s.written json a p t = t.rows json p.id := by
  have hrows : ∀ n < (t.rows json p.id).length, a.inserts t.signature (0 + n) = true := fun n hn =>
    (Nat.zero_add n).symm ▸ h.2 n (by rwa [← t.map_event_rows json p.id, List.length_map])
  simp only [written, fetchAndIndexTx, h.1, find?_ledger hnodup ht]
  exact insertEvents_eq _ _ _ _ hrows

theorem written_of_not_writes (h : ¬ a.Writes t) : s.written json a p t = [] := by
  unfold written fetchAndIndexTx
  split
  · rfl
  · rfl
  · rename_i hfound
    split
    · rfl
    · exact insertEvents_eq_nil _ _ _ _ (Bool.eq_false_iff.mpr fun h0 => h ⟨hfound, h0⟩) _

/-- A transaction without events leaves nothing in the log. -/
theorem written_of_events_eq_nil (hnodup : (s.ledger.map (·.signature)).Nodup) (ht : t ∈ s.ledger)
    (h : t.events json = []) : s.written json a p t = [] := by
  by_cases hfound : a.transaction t.signature = .found
  · rw [written_of_indexes hnodup ht ⟨hfound, by simp [h]⟩, t.rows_eq_nil json h]
  · exact written_of_not_writes fun hw => hfound hw.1

/-- The loop over the transactions. -/
theorem foldl_fetchAndIndexTx (ts : List Transaction) (log : List EventLogEntry) :
    (ts.map fun t => (t.signature, t.slot)).foldl
      (fun log (sig, slot) => (fetchAndIndexTx json s.ledger a sig slot p.id log).2) log =
    log ++ ts.flatMap (s.written json a p) := by
  induction ts generalizing log with
  | nil => simp
  | cons t ts ih =>
    simp only [List.map_cons, List.foldl_cons, ih, List.flatMap_cons, fetchAndIndexTx_snd,
      List.append_assoc]

variable (json s a) in
/-- The page is written, and the cursor moves to the newest transaction of it if it can. -/
def polled (p : WatchedProgram) (newest : Transaction) : Indexer where
  ledger := s.ledger
  eventLog := s.eventLog ++ (s.page p).reverse.flatMap (s.written json a p)
  cursors := if a.writesCursor = true then
    Function.update s.cursors p.id (some newest.signature) else s.cursors

/-- Whatever a poll meets, it does nothing or gets as far as the page. -/
theorem pollProgram_cases (json : SerdeJson) (s : Indexer) (p : WatchedProgram) (a : Answers) :
    (pollProgram json s p a).2 = s ∨
      (a.readsCursor = true ∧ a.signatures = true ∧
        ∃ newest ∈ s.page p, (pollProgram json s p a).2 = s.polled json a p newest) := by
  have hsigs : fetchSignatures s.ledger p.id sigBatch (s.cursors p.id) =
      (s.page p).map fun t => (t.signature, t.slot) := rfl
  unfold pollProgram
  split
  · exact .inl rfl
  · split
    · exact .inl rfl
    · rw [hsigs]
      cases hpage : s.page p with
      | nil => exact .inl rfl
      | cons newest older =>
        refine .inr ⟨by simp_all, by simp_all, newest, List.mem_cons_self, ?_⟩
        simp only [List.map_cons]
        rw [← List.map_cons (f := fun t : Transaction => (t.signature, t.slot)), ← List.map_reverse,
          foldl_fetchAndIndexTx, polled, hpage]
        cases a.writesCursor <;> rfl

theorem page_sublist (p : WatchedProgram) : (s.page p).Sublist s.ledger :=
  (List.filter_sublist.trans (List.take_sublist _ _)).trans
    ((List.takeWhile_sublist _).trans List.filter_sublist)

theorem mem_page (h : t ∈ s.page p) : t ∈ s.fresh p ∧ t.err = false := by
  obtain ⟨htake, herr⟩ := List.mem_filter.mp h
  exact ⟨List.mem_of_mem_take htake, by simpa using herr⟩

theorem mem_ledger_of_covered (h : t ∈ s.covered p) : t ∈ s.ledger :=
  List.mem_of_mem_filter (mem_of_mem_seen h)

variable (json s) in
/-- The log has all of the transaction, as a poll of one of the programs wrote it. -/
def Indexed (t : Transaction) : Prop := ∃ q : WatchedProgram, s.rowsOf t = t.rows json q.id

variable (json s) in
/-- The invariant: a transaction is in the log with all of its events, or not at all, and it is
there if a cursor has passed it. -/
structure Sound : Prop where
  distinct : (s.ledger.map (·.signature)).Nodup
  cursor : ∀ p c, s.cursors p = some c → c ∈ s.ledger.map (·.signature)
  known : ∀ r ∈ s.eventLog, ∀ c, r.txSignature = some c → c ∈ s.ledger.map (·.signature)
  rows : ∀ t ∈ s.ledger, s.rowsOf t = [] ∨ s.Indexed json t
  covered : ∀ p, ∀ t ∈ s.covered p, t.err = false → s.Indexed json t

theorem Start.sound (h : s.Start) : s.Sound json where
  distinct := h.distinct
  cursor p c hc := by
    rw [h.cursors] at hc
    cases hc
  known r hr := by
    rw [h.eventLog] at hr
    exact absurd hr List.not_mem_nil
  rows t _ := .inl (by rw [rowsOf, h.eventLog]; rfl)
  covered p t ht := by
    rw [Indexer.covered, h.cursors, seen_none] at ht
    exact absurd ht List.not_mem_nil

theorem Sound.exact (h : s.Sound json) : s.Exact json where
  complete p t ht herr := by
    obtain ⟨q, hq⟩ := h.covered p t ht herr
    rw [hq, t.map_event_rows]
  noneTwice t ht := by
    rcases h.rows t ht with hnil | ⟨q, hq⟩
    · rw [hnil]
      exact List.nil_subperm
    · rw [hq, t.map_event_rows]

/-! ## Each action keeps it -/

/-- A transaction that lands is after every cursor, and the log has nothing of it. -/
theorem Sound.land (h : s.Sound json) (ht : t.signature ∉ s.ledger.map (·.signature)) :
    ({ s with ledger := t :: s.ledger } : Indexer).Sound json where
  distinct := List.nodup_cons.mpr ⟨ht, h.distinct⟩
  cursor p c hc := List.mem_cons_of_mem _ (h.cursor p c hc)
  known r hr c hc := List.mem_cons_of_mem _ (h.known r hr c hc)
  rows t' ht' := by
    rcases List.mem_cons.mp ht' with rfl | ht'
    · exact .inl (tagged_eq_nil fun r hr hc => ht (h.known r hr _ hc))
    · exact h.rows t' ht'
  covered p t' ht' herr := by
    have hne : some t.signature ≠ s.cursors p.id := fun hc => ht (h.cursor _ _ hc.symm)
    refine h.covered p t' ?_ herr
    simp only [Indexer.covered, feed, List.filter_cons] at ht'
    split at ht'
    · rwa [seen_cons hne] at ht'
    · exact ht'

/-- An entry without a signature is no transaction's. -/
theorem Sound.log (h : s.Sound json) {r : EventLogEntry} (hr : r.txSignature = none) :
    ({ s with eventLog := s.eventLog ++ [r] } : Indexer).Sound json := by
  have hrows : ∀ t, ({ s with eventLog := s.eventLog ++ [r] } : Indexer).rowsOf t = s.rowsOf t := by
    intro t
    have hnil : tagged EventLogEntry.txSignature t.signature [r] = [] :=
      tagged_eq_nil fun r' hr' => by
        rw [List.mem_singleton.mp hr', hr]
        exact Option.some_ne_none _ |>.symm
    rw [rowsOf, tagged_append, hnil, List.append_nil, rowsOf]
  refine ⟨h.distinct, h.cursor, fun r' hr' c hc => ?_, fun t ht => ?_, fun p t ht herr => ?_⟩
  · rcases List.mem_append.mp hr' with hr' | hr'
    · exact h.known r' hr' c hc
    · rw [List.mem_singleton.mp hr', hr] at hc
      cases hc
  · rw [Indexed, hrows]
    exact h.rows t ht
  · rw [Indexed, hrows]
    exact h.covered p t ht herr

/-- What a poll adds to what the log has of one transaction. -/
theorem tagged_written (hnodup : (s.ledger.map (·.signature)).Nodup) (ht : t ∈ s.ledger) :
    tagged EventLogEntry.txSignature t.signature
      ((s.page p).reverse.flatMap (s.written json a p)) =
    if t ∈ s.page p then s.written json a p t else [] := by
  have htag : ∀ t' ∈ (s.page p).reverse, ∀ r ∈ s.written json a p t',
      r.txSignature = some t'.signature := fun _ _ _ => txSignature_of_mem_written
  have hpage : (((s.page p).reverse).map Transaction.signature).Nodup := by
    rw [List.map_reverse, List.nodup_reverse]
    exact hnodup.sublist ((page_sublist p).map _)
  split
  · rename_i hmem
    exact tagged_flatMap_of_mem htag hpage (List.mem_reverse.mpr hmem)
  · rename_i hmem
    refine tagged_flatMap_of_notMem htag fun hsig => hmem ?_
    obtain ⟨t', ht', heq⟩ := List.mem_map.mp hsig
    rw [List.mem_reverse] at ht'
    have hsame : t' = t := List.inj_on_of_nodup_map hnodup ((page_sublist p).mem ht') ht heq
    exact hsame ▸ ht'

theorem rowsOf_polled (hnodup : (s.ledger.map (·.signature)).Nodup) (ht : t ∈ s.ledger)
    (newest : Transaction) : (s.polled json a p newest).rowsOf t =
      s.rowsOf t ++ if t ∈ s.page p then s.written json a p t else [] := by
  rw [rowsOf, polled, tagged_append, tagged_written hnodup ht, rowsOf]

/-- In a clean poll a transaction stays as it is in the log, or it comes in as a whole. -/
theorem rowsOf_polled_cases (h : s.Sound json) (hclean : s.Clean json a p)
    (ht : t ∈ s.ledger) (newest : Transaction) :
    (s.polled json a p newest).rowsOf t = s.rowsOf t ∨
      (s.polled json a p newest).rowsOf t = t.rows json p.id := by
  rw [rowsOf_polled h.distinct ht]
  split
  · rename_i hpage
    obtain ⟨hfresh, herr⟩ := mem_page hpage
    by_cases hev : t.events json = []
    · rw [written_of_events_eq_nil h.distinct ht hev]
      exact .inl (List.append_nil _)
    · have hwritten := hclean t hfresh herr hev
      split at hwritten
      · rename_i hnew
        rw [hnew.2, written_of_indexes h.distinct ht hwritten.2]
        exact .inr rfl
      · rw [written_of_not_writes (hwritten hpage)]
        exact .inl (List.append_nil _)
  · exact .inl (List.append_nil _)

theorem Indexed.polled (h : s.Sound json) (hclean : s.Clean json a p) (ht : t ∈ s.ledger)
    (hin : s.Indexed json t) (newest : Transaction) :
    (s.polled json a p newest).Indexed json t := by
  obtain ⟨q, hq⟩ := hin
  rcases rowsOf_polled_cases h hclean ht newest with hsame | hnew
  · exact ⟨q, hsame.trans hq⟩
  · exact ⟨p, hnew⟩

/-- All that a clean poll may pass over is in the log afterwards. -/
theorem indexed_of_fresh (h : s.Sound json) (hclean : s.Clean json a p) (ht : t ∈ s.fresh p)
    (herr : t.err = false) (hcursor : a.writesCursor = true) (newest : Transaction) :
    (s.polled json a p newest).Indexed json t := by
  have hmem : t ∈ s.ledger := List.mem_of_mem_filter (mem_of_mem_unseen ht)
  have hrows : (s.polled json a p newest).rowsOf t = _ := rowsOf_polled h.distinct hmem newest
  rcases h.rows t hmem with hnil | hin
  · by_cases hev : t.events json = []
    · exact Indexed.polled h hclean hmem ⟨p, hnil.trans (t.rows_eq_nil json hev _).symm⟩ newest
    · have hwritten := hclean t ht herr hev
      rw [if_pos ⟨hcursor, hnil⟩] at hwritten
      rw [if_pos hwritten.1, hnil, written_of_indexes h.distinct hmem hwritten.2] at hrows
      exact ⟨p, hrows⟩
  · exact hin.polled h hclean hmem newest

theorem Sound.polled (h : s.Sound json) (hclean : s.Clean json a p) {newest : Transaction}
    (hnewest : newest ∈ s.page p) : (s.polled json a p newest).Sound json := by
  have hlanded : newest.signature ∈ s.ledger.map (·.signature) :=
    List.mem_map_of_mem ((page_sublist p).mem hnewest)
  refine ⟨h.distinct, fun q c hc => ?_, fun r hr c hc => ?_, fun t ht => ?_, fun q t ht herr => ?_⟩
  · dsimp only [Indexer.polled] at hc
    split at hc
    · rcases eq_or_ne q p.id with rfl | hne
      · rw [Function.update_self, Option.some.injEq] at hc
        exact hc ▸ hlanded
      · rw [Function.update_of_ne hne] at hc
        exact h.cursor q c hc
    · exact h.cursor q c hc
  · rcases List.mem_append.mp hr with hr | hr
    · exact h.known r hr c hc
    · obtain ⟨t, ht, hrt⟩ := List.mem_flatMap.mp hr
      rw [txSignature_of_mem_written hrt, Option.some.injEq] at hc
      exact hc ▸ List.mem_map_of_mem ((page_sublist p).mem (List.mem_reverse.mp ht))
  · rcases rowsOf_polled_cases h hclean ht newest with hsame | hnew
    · exact (h.rows t ht).imp (hsame.trans ·) fun hin => hin.polled h hclean ht newest
    · exact .inr ⟨p, hnew⟩
  · have hmem := mem_ledger_of_covered ht
    by_cases hmoved : q = p ∧ a.writesCursor = true
    · obtain ⟨rfl, hcursor⟩ := hmoved
      rcases mem_unseen_or_seen (mem_of_mem_seen ht) (s.cursors q.id) with hfresh | hseen
      · exact indexed_of_fresh h hclean hfresh herr hcursor newest
      · exact (h.covered q t hseen herr).polled h hclean hmem newest
    · have hcursor : (s.polled json a p newest).cursors q.id = s.cursors q.id := by
        dsimp only [Indexer.polled]
        split
        · rename_i hw
          exact Function.update_of_ne (fun hid => hmoved ⟨WatchedProgram.id_inj hid, hw⟩) ..
        · rfl
      rw [Indexer.covered, hcursor] at ht
      exact (h.covered q t ht herr).polled h hclean hmem newest

theorem Sound.exec {s' : Indexer} {b : Action} (h : s.Sound json) (hclean : CleanAction json s b)
    (hexec : Indexer.exec json s b = .ok s') : s'.Sound json := by
  cases b with
  | land t =>
    simp only [Indexer.exec] at hexec
    split at hexec
    · cases hexec
    · cases hexec
      exact h.land ‹_›
  | log eventType address data slot =>
    cases hexec
    exact h.log rfl
  | poll p a =>
    cases hexec
    rcases pollProgram_cases json s p a with hnop | ⟨hread, hsigs, newest, hnewest, heq⟩
    · rwa [hnop]
    · rw [heq]
      exact h.polled (hclean hread hsigs (List.ne_nil_of_mem hnewest)) hnewest

end Indexer

open Indexer in
/-- In every run from an empty log whose polls are clean, every state is exact. -/
theorem indexer_exact {as : List Indexer.Action} (h : s.Start)
    (H : Transition.Along (exec json) (CleanAction json) s as) :
    (Transition.run (exec json) s as).Exact json :=
  Sound.exact <| Transition.invariant_run
    (fun hi hclean hexec => Sound.exec hi hclean hexec) h.sound H

/-! ## Two transactions -/

/-- All that the runs below ask of `serde_json` is the text of the empty object. -/
def emptyObjects : SerdeJson where
  fromStr _ := none
  toString _ := "{}"

/-- The breaker is toggled, and the programs are named. -/
def toggle (signature : String) (programs : List WatchedProgram) : Transaction where
  signature
  slot := 1
  err := false
  accounts := programs.map WatchedProgram.id
  logMessages := ["Program log: Instruction: ToggleCircuitBreaker",
    "Program log: CircuitBreakerToggled"]

def idle : Indexer where
  ledger := []
  eventLog := []
  cursors _ := none

open Indexer in
/-- A poll that fails to get the page does no harm. -/
theorem indexer_exact_run :
    (Transition.run (exec emptyObjects) idle
      [.land (toggle "A" [.sssToken]), .poll .sssToken { signatures := false },
        .poll .sssToken {}, .land (toggle "B" [.sssTransferHook]), .poll .sssToken {},
        .poll .sssTransferHook {}]).Exact emptyObjects :=
  indexer_exact ⟨List.nodup_nil, rfl, fun _ => rfl⟩ (by decide +kernel)

open Indexer in
/-- A transaction that could not be fetched is passed over, and one that touches both programs is
indexed for each. -/
theorem indexer_not_exact :
    idle.Start ∧
      ¬ (Transition.run (exec emptyObjects) idle
        [.land (toggle "A" [.sssToken]),
          .poll .sssToken { transaction := fun _ => .failed }]).Exact emptyObjects ∧
      ¬ (Transition.run (exec emptyObjects) idle
        [.land (toggle "A" [.sssToken, .sssTransferHook]), .poll .sssToken {},
          .poll .sssTransferHook {}]).Exact emptyObjects := by
  refine ⟨⟨List.nodup_nil, rfl, fun _ => rfl⟩, fun h => ?_, fun h => ?_⟩
  · have hlost := h.complete .sssToken (toggle "A" [.sssToken]) (by decide +kernel) rfl
    revert hlost
    decide +kernel
  · have htwice := h.noneTwice (toggle "A" [.sssToken, .sssTransferHook]) (by decide +kernel)
    revert htwice
    decide +kernel

end SolanaStablecoin.Backend
