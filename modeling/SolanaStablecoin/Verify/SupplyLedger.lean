import SolanaStablecoin.Base.Conservation
import SolanaStablecoin.Base.Transition
import SolanaStablecoin.Backend.Supply

/-! The supply ledger against the requests it has accepted. A burn is recorded whatever is minted, a
signature counts as often as it is posted, and a sum is right as long as the amounts behind it are
less than `2 ^ 63` together or one of them is not. -/

namespace SolanaStablecoin.Backend

open Transition SignedSum

/-! ## Amounts as signed integers -/

theorem toNat_ofInt (z : Int) : (UInt64.ofInt z).toNat = unsigned (2 ^ 63) z := by
  have hlt := Int.emod_lt_of_pos z (b := 2 ^ 64) (by decide)
  have hsize : (z % 2 ^ 64).toNat < UInt64.size := by
    rw [UInt64.size]
    omega
  rw [UInt64.ofInt, UInt64.toNat_ofNat_of_lt' hsize, unsigned]
  rfl

theorem ofInt_toInt64 (n : UInt64) : UInt64.ofInt n.toInt64.toInt = n := by
  rw [← UInt64.toNat_inj, toNat_ofInt, toInt_toInt64, unsigned, signed]
  have hlt := n.toNat_lt
  split <;> omega

namespace SupplyDb

/-! ## What is accepted -/

def empty (blacklist : List String) : SupplyDb := ⟨[], [], blacklist⟩

/-- The row of a request in the table of the mints, -/
def Action.mintEvent : Action → Option MintEvent
  | .mint _ req => some
    ⟨req.tokenMint, req.amount.toInt64.toInt, req.recipient, req.txSignature⟩
  | .burn _ _ => none

/-- and in that of the burns. -/
def Action.burnEvent : Action → Option BurnEvent
  | .mint _ _ => none
  | .burn _ req => some ⟨req.tokenMint, req.amount.toInt64.toInt, req.source, req.txSignature⟩

/-- What it mints of which token, -/
def Action.minted : Action → Option (String × ℕ)
  | .mint _ req => some (req.tokenMint, req.amount.toNat)
  | .burn _ _ => none

/-- what it burns, -/
def Action.burned : Action → Option (String × ℕ)
  | .mint _ _ => none
  | .burn _ req => some (req.tokenMint, req.amount.toNat)

/-- and its transaction. -/
def Action.txSignature : Action → Option String
  | .mint _ req => req.txSignature
  | .burn _ req => req.txSignature

/-- The amounts of a token, or of all of them. -/
def amountsOf (tokenMint : Option String) (entries : List (String × ℕ)) : List ℕ :=
  (entries.filter fun e => tokenMint.all (· = e.1)).map Prod.snd

variable (accepted : List Action)

def totalMinted (tokenMint : Option String) : ℕ :=
  (amountsOf tokenMint (accepted.filterMap Action.minted)).sum

def totalBurned (tokenMint : Option String) : ℕ :=
  (amountsOf tokenMint (accepted.filterMap Action.burned)).sum

/-- The ledger is right for the requests it has accepted. -/
structure Right (db : SupplyDb) : Prop where
  covered : ∀ tokenMint, totalBurned accepted (some tokenMint) ≤
    totalMinted accepted (some tokenMint)
  once : (accepted.filterMap Action.txSignature).Nodup
  supply : ∀ tokenMint, ∃ minted burned, db.getSupply tokenMint = .ok (minted, burned) ∧
    minted.toNat = totalMinted accepted tokenMint ∧ burned.toNat = totalBurned accepted tokenMint
  difference : ∀ tokenMint, ∃ n, db.dbSupply tokenMint = .ok n ∧
    (n.toNat : Int) = totalMinted accepted (some tokenMint) - totalBurned accepted (some tokenMint)

/-! ## When it stays right -/

section
variable (db : SupplyDb)

/-- The amounts of the rows, as they are read back. -/
def mints : List (String × ℕ) :=
  db.mintEvents.map fun e => (e.tokenMint, (UInt64.ofInt e.amount).toNat)

def burns : List (String × ℕ) :=
  db.burnEvents.map fun e => (e.tokenMint, (UInt64.ofInt e.amount).toNat)

def signatures : List String :=
  db.mintEvents.filterMap MintEvent.txSignature ++ db.burnEvents.filterMap BurnEvent.txSignature

/-- The transaction, if one is named, is new, the amounts of the table still fit with the new one,
and a burn is covered by what is left of its token. -/
def Admits (a : Action) : Prop :=
  (∀ sig ∈ a.txSignature, sig ∉ db.signatures) ∧
    match a with
    | .mint _ req => Fits (2 ^ 63) (amountsOf none db.mints ++ [req.amount.toNat])
    | .burn _ req =>
      Fits (2 ^ 63) (amountsOf none db.burns ++ [req.amount.toNat]) ∧
        (amountsOf (some req.tokenMint) db.burns).sum + req.amount.toNat ≤
          (amountsOf (some req.tokenMint) db.mints).sum

end

/-! ## The tables -/

variable {accepted} {db db' : SupplyDb} {a : Action}

/-- The tables have the rows of what is accepted. -/
structure Records (accepted : List Action) (db : SupplyDb) : Prop where
  mintEvents : db.mintEvents = accepted.filterMap Action.mintEvent
  burnEvents : db.burnEvents = accepted.filterMap Action.burnEvent

theorem exec_rows (h : db.exec a = .ok db') :
    db'.mintEvents = db.mintEvents ++ a.mintEvent.toList ∧
      db'.burnEvents = db.burnEvents ++ a.burnEvent.toList := by
  cases a with
  | mint verifyTxSignature req =>
    simp only [exec, mint, bind_eq_ok, pure_eq_ok] at h
    obtain ⟨_, _, _, _, rfl⟩ := h
    exact ⟨rfl, (List.append_nil _).symm⟩
  | burn verifyTxSignature req =>
    simp only [exec, burn, bind_eq_ok, pure_eq_ok] at h
    obtain ⟨_, _, rfl⟩ := h
    exact ⟨(List.append_nil _).symm, rfl⟩

namespace Records

theorem append (h : Records accepted db) (hexec : db.exec a = .ok db') :
    Records (accepted ++ [a]) db' := by
  obtain ⟨hmint, hburn⟩ := exec_rows hexec
  constructor
  · rw [hmint, h.mintEvents, List.filterMap_append]
    cases a <;> rfl
  · rw [hburn, h.burnEvents, List.filterMap_append]
    cases a <;> rfl

/-- What is read off the rows of the mints is read off the requests, -/
theorem map_mintEvents {β : Type} (h : Records accepted db) {f : MintEvent → β}
    {g : Action → Option β} (hfg : ∀ a : Action, a.mintEvent.map f = g a) :
    db.mintEvents.map f = accepted.filterMap g := by
  rw [h.mintEvents, List.map_filterMap]
  exact congrArg (accepted.filterMap ·) (funext hfg)

/-- and so is what is read off those of the burns. -/
theorem map_burnEvents {β : Type} (h : Records accepted db) {f : BurnEvent → β}
    {g : Action → Option β} (hfg : ∀ a : Action, a.burnEvent.map f = g a) :
    db.burnEvents.map f = accepted.filterMap g := by
  rw [h.burnEvents, List.map_filterMap]
  exact congrArg (accepted.filterMap ·) (funext hfg)

theorem mints (h : Records accepted db) : db.mints = accepted.filterMap Action.minted := by
  refine h.map_mintEvents fun a => ?_
  cases a with
  | mint verifyTxSignature req =>
    simp only [Action.mintEvent, Action.minted, Option.map_some, ofInt_toInt64]
  | burn verifyTxSignature req => rfl

theorem burns (h : Records accepted db) : db.burns = accepted.filterMap Action.burned := by
  refine h.map_burnEvents fun a => ?_
  cases a with
  | mint verifyTxSignature req => rfl
  | burn verifyTxSignature req =>
    simp only [Action.burnEvent, Action.burned, Option.map_some, ofInt_toInt64]

theorem mem_signatures (h : Records accepted db) (sig : String) :
    sig ∈ db.signatures ↔ sig ∈ accepted.filterMap Action.txSignature := by
  rw [signatures, h.mintEvents, h.burnEvents, List.filterMap_filterMap, List.filterMap_filterMap,
    List.mem_append, List.mem_filterMap, List.mem_filterMap, List.mem_filterMap, ← exists_or]
  refine exists_congr fun a => ?_
  rw [← and_or_left]
  refine and_congr_right fun _ => ?_
  cases a with
  | mint verifyTxSignature req => simp [Action.mintEvent, Action.burnEvent, Action.txSignature]
  | burn verifyTxSignature req => simp [Action.mintEvent, Action.burnEvent, Action.txSignature]

end Records

/-! ## The sums -/

theorem amountsOf_none (entries : List (String × ℕ)) :
    amountsOf none entries = entries.map Prod.snd := by
  rw [amountsOf]
  congr
  exact List.filter_eq_self.mpr fun _ _ => rfl

theorem amountsOf_sublist (tokenMint : Option String) (entries : List (String × ℕ)) :
    (amountsOf tokenMint entries).Sublist (amountsOf none entries) := by
  rw [amountsOf_none]
  exact List.filter_sublist.map _

theorem amountsOf_append (tokenMint : Option String) (entries entries' : List (String × ℕ)) :
    amountsOf tokenMint (entries ++ entries') =
      amountsOf tokenMint entries ++ amountsOf tokenMint entries' := by
  rw [amountsOf, List.filter_append, List.map_append, amountsOf, amountsOf]

/-- The rows of the entries have a sum that reads back right exactly if the amounts fit. -/
theorem sumAmounts_iff (tokenMint : Option String) (entries : List (String × ℕ)) :
    (∃ z, sumAmounts tokenMint (entries.map fun e => (e.1, signed (2 ^ 63) e.2)) = .ok z ∧
      (UInt64.ofInt z).toNat = (amountsOf tokenMint entries).sum) ↔
      Fits (2 ^ 63) (amountsOf tokenMint entries) := by
  have hrows : ((entries.map fun e => (e.1, signed (2 ^ 63) e.2)).filter
      fun row => tokenMint.all (· = row.1)).map Prod.snd =
      (amountsOf tokenMint entries).map (signed (2 ^ 63)) := by
    rw [List.filter_map, List.map_map, amountsOf, List.map_map]
    rfl
  rw [← accumulate_eq_sum_iff (by decide), Option.map_eq_some_iff, sumAmounts, hrows]
  simp only [Option.okOr_eq_ok, toNat_ofInt]

theorem Records.mintRows (h : Records accepted db) :
    db.mintEvents.map (fun e => (e.tokenMint, e.amount)) =
      (accepted.filterMap Action.minted).map fun e => (e.1, signed (2 ^ 63) e.2) := by
  rw [List.map_filterMap]
  refine h.map_mintEvents fun a => ?_
  cases a with
  | mint verifyTxSignature req =>
    simp only [Action.mintEvent, Action.minted, Option.map_some, toInt_toInt64]
  | burn verifyTxSignature req => rfl

theorem Records.burnRows (h : Records accepted db) :
    db.burnEvents.map (fun e => (e.tokenMint, e.amount)) =
      (accepted.filterMap Action.burned).map fun e => (e.1, signed (2 ^ 63) e.2) := by
  rw [List.map_filterMap]
  refine h.map_burnEvents fun a => ?_
  cases a with
  | mint verifyTxSignature req => rfl
  | burn verifyTxSignature req =>
    simp only [Action.burnEvent, Action.burned, Option.map_some, toInt_toInt64]

theorem getSupply_eq_ok {tokenMint : Option String} {minted burned : UInt64} :
    db.getSupply tokenMint = .ok (minted, burned) ↔
      ∃ z, sumAmounts tokenMint (db.mintEvents.map fun e => (e.tokenMint, e.amount)) = .ok z ∧
        UInt64.ofInt z = minted ∧
        ∃ y, sumAmounts tokenMint (db.burnEvents.map fun e => (e.tokenMint, e.amount)) = .ok y ∧
          UInt64.ofInt y = burned := by
  simp only [getSupply, bind_eq_ok, pure_eq_ok, Prod.mk.injEq]
  constructor
  · rintro ⟨z, hz, y, hy, rfl, rfl⟩
    exact ⟨z, hz, rfl, y, hy, rfl⟩
  · rintro ⟨z, hz, rfl, y, hy, rfl⟩
    exact ⟨z, hz, y, hy, rfl, rfl⟩

/-- The supply is right exactly if the amounts of both tables fit. -/
theorem Records.getSupply_iff (h : Records accepted db) (tokenMint : Option String) :
    (∃ minted burned, db.getSupply tokenMint = .ok (minted, burned) ∧
      minted.toNat = totalMinted accepted tokenMint ∧
        burned.toNat = totalBurned accepted tokenMint) ↔
      Fits (2 ^ 63) (amountsOf tokenMint (accepted.filterMap Action.minted)) ∧
        Fits (2 ^ 63) (amountsOf tokenMint (accepted.filterMap Action.burned)) := by
  rw [← sumAmounts_iff, ← sumAmounts_iff]
  simp only [getSupply_eq_ok, h.mintRows, h.burnRows]
  constructor
  · rintro ⟨_, _, ⟨z, hz, rfl, y, hy, rfl⟩, hminted, hburned⟩
    exact ⟨⟨z, hz, hminted⟩, y, hy, hburned⟩
  · rintro ⟨⟨z, hz, hminted⟩, y, hy, hburned⟩
    exact ⟨_, _, ⟨z, hz, rfl, y, hy, rfl⟩, hminted, hburned⟩

/-- What is right of the ledger, without the readers. -/
theorem Records.right_iff (h : Records accepted db) :
    Right accepted db ↔
      ((∀ tokenMint, totalBurned accepted (some tokenMint) ≤
          totalMinted accepted (some tokenMint)) ∧
        (accepted.filterMap Action.txSignature).Nodup ∧
        Fits (2 ^ 63) (amountsOf none (accepted.filterMap Action.minted)) ∧
        Fits (2 ^ 63) (amountsOf none (accepted.filterMap Action.burned))) := by
  constructor
  · intro hright
    exact ⟨hright.covered, hright.once, (h.getSupply_iff none).mp (hright.supply none)⟩
  · rintro ⟨hcovered, honce, hminted, hburned⟩
    have hsupply (tokenMint : Option String) := (h.getSupply_iff tokenMint).mpr
      ⟨hminted.sublist (amountsOf_sublist ..), hburned.sublist (amountsOf_sublist ..)⟩
    refine ⟨hcovered, honce, hsupply, fun tokenMint => ?_⟩
    obtain ⟨minted, burned, hget, hm, hb⟩ := hsupply (some tokenMint)
    have hle := hcovered tokenMint
    refine ⟨minted.saturatingSub burned, ?_, ?_⟩
    · rw [dbSupply, hget]
      rfl
    · rw [UInt64.toNat_saturatingSub, hm, hb]
      omega

/-! ## The readers -/

theorem toNat_absDiff (n m : UInt64) :
    (absDiff n m).toNat = ((n.toNat : Int) - m.toNat).natAbs := by
  rw [absDiff]
  split
  · next hlt =>
    rw [UInt64.lt_iff_toNat_lt] at hlt
    rw [UInt64.toNat_sub_of_le _ _ (UInt64.le_iff_toNat_le.mpr hlt.le)]
    omega
  · next hle =>
    rw [UInt64.not_lt] at hle
    rw [UInt64.toNat_sub_of_le _ _ hle]
    rw [UInt64.le_iff_toNat_le] at hle
    omega

namespace Right

/-- Then the monitor has it right. -/
theorem checkSupplyConsistency_eq (h : Right accepted db) : db.checkSupplyConsistency = .ok := by
  obtain ⟨minted, burned, hget, hminted, hburned⟩ := h.supply none
  have hle : totalBurned accepted none ≤ totalMinted accepted none := by
    rw [totalBurned, totalMinted, amountsOf_none, amountsOf_none]
    exact (Conservation.sumsTo_balance _).mono (Conservation.sumsTo_balance _) h.covered
  have hnot : ¬ minted < burned := by
    rw [UInt64.lt_iff_toNat_lt]
    omega
  rw [checkSupplyConsistency, hget]
  exact if_neg hnot

/-- And the worker warns of the tokens whose supply on the chain is not the difference. -/
theorem mem_reconcile_iff (h : Right accepted db) {fetchTokenSupply : String → Option UInt64}
    {threshold : UInt64} {token : String} :
    token ∈ db.reconcile fetchTokenSupply threshold ↔
      token ∈ db.listTokenMints ∧ ∃ onchain ∈ fetchTokenSupply token,
        threshold.toNat < ((totalMinted accepted (some token) : Int) -
          totalBurned accepted (some token) - onchain.toNat).natAbs := by
  obtain ⟨n, hdb, hn⟩ := h.difference token
  rw [reconcile, List.mem_filter, hdb, ← hn]
  refine and_congr_right fun _ => ?_
  cases hfetch : fetchTokenSupply token with
  | none => simp
  | some onchain => simp [UInt64.lt_iff_toNat_lt, toNat_absDiff]

end Right

/-! ## Runs -/

theorem filterMap_append_singleton {β : Type} (f : Action → Option β) :
    (accepted ++ [a]).filterMap f = accepted.filterMap f ++ (f a).toList := by
  rw [List.filterMap_append]
  cases h : f a <;> simp [h]

theorem totalMinted_append (tokenMint : Option String) :
    totalMinted (accepted ++ [a]) tokenMint =
      totalMinted accepted tokenMint + (amountsOf tokenMint a.minted.toList).sum := by
  rw [totalMinted, filterMap_append_singleton, amountsOf_append, List.sum_append, totalMinted]

theorem totalBurned_append (tokenMint : Option String) :
    totalBurned (accepted ++ [a]) tokenMint =
      totalBurned accepted tokenMint + (amountsOf tokenMint a.burned.toList).sum := by
  rw [totalBurned, filterMap_append_singleton, amountsOf_append, List.sum_append, totalBurned]

/-- A mint never uncovers anything. -/
theorem covered_mint (verifyTxSignature : VerifyTxSignature) (req : MintRequest)
    (h : ∀ token, totalBurned accepted (some token) ≤ totalMinted accepted (some token))
    (token : String) :
    totalBurned (accepted ++ [.mint verifyTxSignature req]) (some token) ≤
      totalMinted (accepted ++ [.mint verifyTxSignature req]) (some token) := by
  rw [totalBurned_append, totalMinted_append]
  exact Nat.add_le_add (h token) (Nat.zero_le _)

/-- A burn uncovers nothing exactly if its own token stays covered. -/
theorem covered_burn (verifyTxSignature : VerifyTxSignature) (req : BurnRequest)
    (h : ∀ token, totalBurned accepted (some token) ≤ totalMinted accepted (some token)) :
    (∀ token, totalBurned (accepted ++ [.burn verifyTxSignature req]) (some token) ≤
      totalMinted (accepted ++ [.burn verifyTxSignature req]) (some token)) ↔
      totalBurned accepted (some req.tokenMint) + req.amount.toNat ≤
        totalMinted accepted (some req.tokenMint) := by
  simp only [totalBurned_append, totalMinted_append, Action.minted, Action.burned,
    Option.toList_some, Option.toList_none]
  constructor
  · intro hcovered
    simpa [amountsOf] using hcovered req.tokenMint
  · intro hle token
    rcases eq_or_ne token req.tokenMint with rfl | hne
    · simpa [amountsOf] using hle
    · simpa [amountsOf, hne] using h token

theorem once_append (h : (accepted.filterMap Action.txSignature).Nodup) :
    ((accepted ++ [a]).filterMap Action.txSignature).Nodup ↔
      ∀ sig ∈ a.txSignature, sig ∉ accepted.filterMap Action.txSignature := by
  rw [List.filterMap_append, List.nodup_append', and_iff_right h]
  cases hsig : a.txSignature with
  | none => simp [hsig]
  | some sig => simp [hsig, List.disjoint_singleton]

/-- A request keeps the ledger right exactly if the ledger admits it. -/
theorem right_step (hrec : Records accepted db) (h : Right accepted db)
    (hexec : db.exec a = .ok db') : Right (accepted ++ [a]) db' ↔ db.Admits a := by
  obtain ⟨hcovered, honce, hminted, hburned⟩ := hrec.right_iff.mp h
  have hsig : ((accepted ++ [a]).filterMap Action.txSignature).Nodup ↔
      ∀ sig ∈ a.txSignature, sig ∉ db.signatures := by
    simp only [once_append honce, hrec.mem_signatures]
  rw [(hrec.append hexec).right_iff, hsig, filterMap_append_singleton, filterMap_append_singleton,
    amountsOf_append, amountsOf_append]
  cases a with
  | mint verifyTxSignature req =>
    simp only [Admits, hrec.mints]
    rw [and_iff_right (covered_mint verifyTxSignature req hcovered)]
    refine and_congr_right fun _ => and_iff_left ?_
    exact (List.append_nil _).symm ▸ hburned
  | burn verifyTxSignature req =>
    simp only [Admits, hrec.mints, hrec.burns]
    rw [covered_burn verifyTxSignature req hcovered, and_comm, and_assoc]
    refine and_congr_right fun _ => and_congr_left fun _ => and_iff_right ?_
    exact (List.append_nil _).symm ▸ hminted

theorem records_empty (blacklist : List String) : Records [] (empty blacklist) := ⟨rfl, rfl⟩

theorem right_empty (blacklist : List String) : Right [] (empty blacklist) := by
  refine (records_empty blacklist).right_iff.mpr ⟨fun _ => Nat.le_refl 0, .nil, ?_, ?_⟩
  all_goals exact .inl (by decide)

instance Admits.decidable (db : SupplyDb) : (a : Action) → Decidable (db.Admits a)
  | .mint _ _ => inferInstanceAs (Decidable (_ ∧ _))
  | .burn _ _ => inferInstanceAs (Decidable (_ ∧ _))

/-- What has been accepted by the end of the run. -/
def acceptedBy (blacklist : List String) (as : List Action) : List Action :=
  history exec (fun _ a => [a]) (empty blacklist) as

end SupplyDb

open SupplyDb in
/-- The ledger is right all along a run exactly if every request that is accepted is one it admits:
of a new transaction, with amounts that fit, and, if it burns, covered. -/
theorem supply_ledger (blacklist : List String) (as : List SupplyDb.Action) :
    (∀ init tail, as = init ++ tail →
      Right (acceptedBy blacklist init) (Transition.run SupplyDb.exec (empty blacklist) init)) ↔
      Along SupplyDb.exec (fun db a => (db.exec a).isOk → db.Admits a) (empty blacklist) as := by
  have hall : Along SupplyDb.exec (fun _ _ => True) (empty blacklist) as :=
    along_of_forall fun _ _ _ => trivial
  exact prefix_iff_along (I := fun db accepted => Right accepted db)
    (J := fun db accepted => SupplyDb.Records accepted db) (h := [])
    (fun hrec _ hexec => hrec.append hexec) (fun hrec h _ hexec => right_step hrec h hexec)
    (records_empty blacklist) (right_empty blacklist) hall

namespace SupplyDb

/-- Requests for one token with verified transactions. -/
def Action.mintOf (amount : ℕ) (txSignature : Option String) : Action :=
  .mint (fun _ => .ok ()) ⟨"token", .ofNat amount, "holder", txSignature⟩

def Action.burnOf (amount : ℕ) (txSignature : Option String) : Action :=
  .burn (fun _ => .ok ()) ⟨"token", .ofNat amount, "holder", txSignature⟩

end SupplyDb

open SupplyDb in
/-- One amount is past the signed integers, and what is left is burned. -/
theorem supply_ledger_right :
    Right (acceptedBy [] [.mintOf (2 ^ 63 + 5) (some "a"), .burnOf 3 (some "b"), .burnOf 2 none])
      (Transition.run SupplyDb.exec (empty [])
        [.mintOf (2 ^ 63 + 5) (some "a"), .burnOf 3 (some "b"), .burnOf 2 none]) :=
  (supply_ledger [] _).mpr (by decide +kernel) _ [] (List.append_nil _).symm

open SupplyDb in
/-- A burn of what was never minted, on which the monitor reports what cannot be; a transaction that
counts twice; and amounts that the sum overflows with. -/
theorem supply_ledger_wrong :
    (¬ Right (acceptedBy [] [.burnOf 1 (some "a")])
        (Transition.run SupplyDb.exec (empty []) [.burnOf 1 (some "a")]) ∧
      (Transition.run SupplyDb.exec (empty []) [.burnOf 1 (some "a")]).checkSupplyConsistency =
        .violated "supply_consistency"
          "burned (1) > minted (0): circulating supply would be negative") ∧
    ¬ Right (acceptedBy [] [.mintOf 1 (some "a"), .mintOf 1 (some "a")])
        (Transition.run SupplyDb.exec (empty []) [.mintOf 1 (some "a"), .mintOf 1 (some "a")]) ∧
    ¬ Right (acceptedBy [] [.mintOf (2 ^ 62) (some "a"), .mintOf (2 ^ 62) (some "b")])
        (Transition.run SupplyDb.exec (empty [])
          [.mintOf (2 ^ 62) (some "a"), .mintOf (2 ^ 62) (some "b")]) := by
  refine ⟨⟨fun h => ?_, by decide +kernel⟩, fun h => ?_, fun h => ?_⟩
  · exact absurd (h.covered "token") (by decide +kernel)
  · exact absurd h.once (by decide +kernel)
  · obtain ⟨minted, burned, hget, -⟩ := h.supply none
    have hoverflow : (Transition.run SupplyDb.exec (empty [])
        [.mintOf (2 ^ 62) (some "a"), .mintOf (2 ^ 62) (some "b")]).getSupply none =
        .error (.database "integer overflow") := by decide +kernel
    rw [hoverflow] at hget
    cases hget

end SolanaStablecoin.Backend
