import SolanaStablecoin.Verify.Policy
import SolanaStablecoin.Verify.Settings

/-! The bridge over whole runs: every message is consumed once, and the totals are those of what was
minted and burned. -/

namespace SolanaStablecoin

open Transition

variable {rt : Runtime} {clock : Clock} {s s' : State} {a : Action} {M : Pubkey} {bc : BridgeConfig}

/-! ## Events -/

/-- What the bridge shows: a message for which it minted, or a fee and what was burned besides. -/
inductive BridgeEvent where
  | minted (id : BitVec 256) (amount : UInt64)
  | burned (fee net : UInt64)
deriving DecidableEq

namespace BridgeEvent

def message : BridgeEvent → Option (BitVec 256)
  | minted id _ => some id
  | burned .. => none

def amountIn : BridgeEvent → Nat
  | minted _ amount => amount.toNat
  | burned .. => 0

def amountOut : BridgeEvent → Nat
  | minted .. => 0
  | burned _ net => net.toNat

end BridgeEvent

/-- The messages for which was minted. -/
def messages (es : List BridgeEvent) : List (BitVec 256) := es.filterMap (·.message)

def bridgedIn (es : List BridgeEvent) : Nat := (es.map (·.amountIn)).sum

def bridgedOut (es : List BridgeEvent) : Nat := (es.map (·.amountOut)).sum

namespace State

variable (s : State) (M : Pubkey)

def bridgeFeeBps : UInt16 := (s.bridgeConfigs (.bridgeConfig M)).elim 0 (·.bridgeFeeBps)

def totalBridgedIn : UInt64 := (s.bridgeConfigs (.bridgeConfig M)).elim 0 (·.totalBridgedIn)

def totalBridgedOut : UInt64 := (s.bridgeConfigs (.bridgeConfig M)).elim 0 (·.totalBridgedOut)

/-- The message has been consumed. -/
def Consumed (id : BitVec 256) : Prop :=
  ∃ r, s.consumedMessageIds (.consumedMessageId M id) = some r

end State

/-- What a transaction shows of the bridge of `M` when it succeeds. -/
def bridgeEvents (M : Pubkey) (s : State) : Action → List BridgeEvent
  | .call _ (.bridgeIn b _ n _ id) => if b.mint = M then [.minted id n] else []
  | .call _ (.bridgeOut b n) =>
    if b.mint = M then
      [.burned (feeOf n (s.bridgeFeeBps M)) (n - feeOf n (s.bridgeFeeBps M))]
    else []
  | _ => []

/-- The tokens move by an event: the mint gains the amount of a message, or a sender pays the fee
and the rest is burned. -/
inductive BridgeMoves (rt : Runtime) (M : Pubkey) (feeBps : UInt16) (t t' : Tokens) :
    Instruction → BridgeEvent → Prop where
  | bridgeIn {b : BridgeTokensIn} {proof : List UInt8} {n : UInt64} {recipient : Pubkey}
    {id : BitVec 256} (mint : b.mint = M)
    (minted : t.MintsTo M b.recipientTokenAccount (.stablecoinConfig M) n t') :
    BridgeMoves rt M feeBps t t' (.bridgeIn b proof n recipient id) (.minted id n)
  | bridgeOut {b : BridgeTokensOut} {n fee net : UInt64} {t₁ : Tokens} (mint : b.mint = M)
    (fee_eq : fee.toNat = n.toNat * feeBps.toNat / 10000) (whole : fee.toNat + net.toNat = n.toNat)
    (paid : t.Pays rt b.senderTokenAccount M b.feeVault b.sender.key fee t₁)
    (burned : t₁.Burns M b.senderTokenAccount b.sender.key net t') :
    BridgeMoves rt M feeBps t t' (.bridgeOut b n) (.burned fee net)

/-! ## The calls -/

/-- The successful call and the accounts that it writes. -/
inductive BridgeCall (rt : Runtime) (s : State) (M : Pubkey) (s' : State) : Instruction → Prop where
  | init {b : AuthorityAndMint} {type : UInt8} {program vault : Pubkey} {n : UInt64} {fee : UInt16}
    {bc : BridgeConfig} (mint : b.mint = M) (free : s.bridgeConfigs (.bridgeConfig M) = none)
    (bounded : bc.bridgeFeeBps ≤ 1000) (totalIn : bc.totalBridgedIn = 0)
    (totalOut : bc.totalBridgedOut = 0)
    (configs : s'.bridgeConfigs = put s.bridgeConfigs (.bridgeConfig M) bc)
    (ids : s'.consumedMessageIds = s.consumedMessageIds) :
    BridgeCall rt s M s' (.initBridgeConfig b type program n fee vault)
  | bridgeIn {b : BridgeTokensIn} {proof : List UInt8} {n total : UInt64} {recipient : Pubkey}
    {id : BitVec 256} {bc : BridgeConfig} (mint : b.mint = M)
    (stored : s.bridgeConfigs (.bridgeConfig M) = some bc)
    (fresh : s.consumedMessageIds (.consumedMessageId M id) = none)
    (added : total.toNat = bc.totalBridgedIn.toNat + n.toNat)
    (moves : BridgeMoves rt M bc.bridgeFeeBps s.tokens s'.tokens
      (.bridgeIn b proof n recipient id) (.minted id n))
    (configs : s'.bridgeConfigs =
      put s.bridgeConfigs (.bridgeConfig M) { bc with totalBridgedIn := total })
    (ids : s'.consumedMessageIds = put s.consumedMessageIds (.consumedMessageId M id)
      { messageId := id, sssMint := M }) :
    BridgeCall rt s M s' (.bridgeIn b proof n recipient id)
  | bridgeOut {b : BridgeTokensOut} {n total : UInt64} {bc : BridgeConfig} (mint : b.mint = M)
    (stored : s.bridgeConfigs (.bridgeConfig M) = some bc)
    (added : total.toNat = bc.totalBridgedOut.toNat + (n - feeOf n bc.bridgeFeeBps).toNat)
    (moves : bc.bridgeFeeBps ≤ 1000 → BridgeMoves rt M bc.bridgeFeeBps s.tokens s'.tokens
      (.bridgeOut b n) (.burned (feeOf n bc.bridgeFeeBps) (n - feeOf n bc.bridgeFeeBps)))
    (configs : s'.bridgeConfigs =
      put s.bridgeConfigs (.bridgeConfig M) { bc with totalBridgedOut := total })
    (ids : s'.consumedMessageIds = s.consumedMessageIds) :
    BridgeCall rt s M s' (.bridgeOut b n)

theorem initBridgeConfigHandler_call {b : AuthorityAndMint} {type : UInt8} {program vault : Pubkey}
    {n : UInt64} {fee : UInt16}
    (h : initBridgeConfigHandler s b type program n fee vault = .ok s') :
    BridgeCall rt s b.mint s' (.initBridgeConfig b type program n fee vault) := by
  simp only [initBridgeConfigHandler, bind_eq_ok, requireFree_eq_ok, pure_eq_ok] at h
  obtain ⟨c, -, -, -, -, -, -, hfree, _, hbounded, -, -, rfl⟩ := h
  exact .init rfl hfree (require_eq_ok.mp hbounded) rfl rfl rfl rfl

theorem bridgeInHandler_call {b : BridgeTokensIn} {proof : List UInt8} {n : UInt64}
    {recipient : Pubkey} {id : BitVec 256}
    (h : bridgeInHandler rt s b proof n recipient id = .ok s') :
    BridgeCall rt s b.mint s' (.bridgeIn b proof n recipient id) := by
  simp only [bridgeInHandler, bind_eq_ok, loadBridgeConfig_eq_ok, requireFree_eq_ok,
    Option.okOr_eq_ok, UInt64.checkedAdd_eq_some, pure_eq_ok] at h
  obtain ⟨c, -, bc, ⟨hbc, -⟩, -, -, -, hfresh, _, -, -, -, -, -, -, -, -, -, -, -, -, -, -, -, t,
    ht, c', -, x, hx, rfl⟩ := h
  exact .bridgeIn rfl hbc hfresh hx (.bridgeIn rfl (rt.token.mintTo_ok ht)) rfl rfl

/-- The fee fits, whatever the amount is. -/
theorem toNat_feeOf {n : UInt64} {feeBps : UInt16} (h : feeBps ≤ 1000) :
    (feeOf n feeBps).toNat = n.toNat * feeBps.toNat / 10000 := by
  have hfee : feeBps.toNat ≤ 1000 := h
  have hn : n.toNat < 2 ^ 64 := n.toNat_lt
  have hle : n.toNat * feeBps.toNat ≤ n.toNat * 1000 := Nat.mul_le_mul_left _ hfee
  rw [feeOf, UInt64.toNat_ofNat_of_lt']
  apply lt_of_le_of_lt (Nat.div_le_div_right hle)
  change n.toNat * 1000 / 10000 < 2 ^ 64
  omega

/-- What the sender pays as a fee. -/
theorem onlyTransfer_ok {t t' : Tokens} {src mint dst owner : Pubkey} {n : UInt64}
    (h : onlyWhen (n > 0) t ((rt.token.transferChecked t src mint dst owner n).okOr .token) =
      (.ok t' : Result Tokens)) : t.Pays rt src mint dst owner n t' := by
  rw [onlyWhen_eq_ok] at h
  rcases h with ⟨hn, h⟩ | ⟨hn, rfl⟩
  · exact .inr ⟨hn, rt.token.transferChecked_ok (Option.okOr_eq_ok.mp h)⟩
  · exact .inl ⟨UInt64.le_zero_iff.mp (UInt64.not_lt.mp hn), rfl⟩

theorem bridgeOutHandler_call {b : BridgeTokensOut} {n : UInt64}
    (h : bridgeOutHandler rt s b n = .ok s') :
    BridgeCall rt s b.mint s' (.bridgeOut b n) := by
  simp only [bridgeOutHandler, bind_eq_ok, loadBridgeConfig_eq_ok, Option.okOr_eq_ok,
    UInt64.checkedAdd_eq_some, pure_eq_ok] at h
  obtain ⟨c, -, bc, ⟨hbc, -⟩, _, -, -, -, -, -, _, -, -, -, -, -, -, -, -, -, net, hnet, -, -, t₁,
    hfee, t, hburn, c', -, x, hx, rfl⟩ := h
  have hsum := UInt64.checkedSub_eq_some.mp hnet
  obtain rfl := UInt64.sub_eq_of_checkedSub hnet
  refine .bridgeOut rfl hbc hx ?_ rfl rfl
  intro hbounded
  refine .bridgeOut rfl (toNat_feeOf hbounded) ?_ (onlyTransfer_ok hfee)
    (rt.token.burn_ok hburn)
  rw [hsum, Nat.add_comm]

/-! ## Steps -/

/-- A successful transaction is a call of the bridge, or leaves its accounts and shows nothing. -/
theorem exec_bridge (h : Action.exec rt s a = .ok s') :
    (bridgeEvents M s a = [] ∧ s'.bridgeConfigs = s.bridgeConfigs ∧
        s'.consumedMessageIds = s.consumedMessageIds) ∨
      ∃ clock i mint, a = .call clock i ∧ BridgeCall rt s mint s' i := by
  cases a with
  | world w =>
    obtain ⟨t, p, q, d, rfl⟩ := World.exec_outside h
    exact .inl ⟨rfl, rfl, rfl⟩
  | call clock i =>
    change i.exec rt clock s = .ok s' at h
    cases i with
    | initBridgeConfig => exact .inr ⟨clock, _, _, rfl, initBridgeConfigHandler_call h⟩
    | bridgeIn => exact .inr ⟨clock, _, _, rfl, bridgeInHandler_call h⟩
    | bridgeOut => exact .inr ⟨clock, _, _, rfl, bridgeOutHandler_call h⟩
    | _ =>
      exact .inl ⟨rfl, Instruction.exec_same State.bridgeConfigs (fun _ => rfl) h,
        Instruction.exec_same State.consumedMessageIds (fun _ => rfl) h⟩

/-- A call concerns the bridge of one mint. -/
theorem BridgeCall.elsewhere {i : Instruction} {mint : Pubkey} (h : BridgeCall rt s mint s' i)
    (hne : mint ≠ M) :
    bridgeEvents M s (.call clock i) = [] ∧
      s'.bridgeConfigs (.bridgeConfig M) = s.bridgeConfigs (.bridgeConfig M) ∧
      ∀ id, s'.consumedMessageIds (.consumedMessageId M id) =
        s.consumedMessageIds (.consumedMessageId M id) := by
  have hconfig : Pubkey.bridgeConfig M ≠ .bridgeConfig mint := by
    intro heq
    cases heq
    exact hne rfl
  cases h with
  | init _ _ _ _ _ configs ids =>
    rw [configs, ids]
    exact ⟨rfl, put_of_ne _ _ hconfig, fun _ => rfl⟩
  | bridgeIn hmint _ _ _ _ configs ids =>
    rw [configs, ids]
    refine ⟨if_neg (hmint ▸ hne), put_of_ne _ _ hconfig, fun id => put_of_ne _ _ ?_⟩
    intro heq
    cases heq
    exact hne rfl
  | bridgeOut hmint _ _ _ configs ids =>
    rw [configs, ids]
    exact ⟨if_neg (hmint ▸ hne), put_of_ne _ _ hconfig, fun _ => rfl⟩

/-! ## Runs -/

/-- The books of the bridge of `M` after a run with the history `es`. -/
structure BridgeBooks (M : Pubkey) (s : State) (es : List BridgeEvent) : Prop where
  bounded : ∀ bc, s.bridgeConfigs (.bridgeConfig M) = some bc → bc.bridgeFeeBps ≤ 1000
  totalIn : (s.totalBridgedIn M).toNat = bridgedIn es
  totalOut : (s.totalBridgedOut M).toNat = bridgedOut es
  once : (messages es).Nodup
  consumed : ∀ id, s.Consumed M id ↔ id ∈ messages es

theorem State.totalBridgedIn_eq (h : s.bridgeConfigs (.bridgeConfig M) = some bc) :
    s.totalBridgedIn M = bc.totalBridgedIn := by
  rw [State.totalBridgedIn, h]
  rfl

theorem State.totalBridgedOut_eq (h : s.bridgeConfigs (.bridgeConfig M) = some bc) :
    s.totalBridgedOut M = bc.totalBridgedOut := by
  rw [State.totalBridgedOut, h]
  rfl

theorem State.bridgeFeeBps_eq (h : s.bridgeConfigs (.bridgeConfig M) = some bc) :
    s.bridgeFeeBps M = bc.bridgeFeeBps := by
  rw [State.bridgeFeeBps, h]
  rfl

theorem messages_append (es fs : List BridgeEvent) :
    messages (es ++ fs) = messages es ++ messages fs := List.filterMap_append

theorem bridgedIn_append (es fs : List BridgeEvent) :
    bridgedIn (es ++ fs) = bridgedIn es + bridgedIn fs := by
  rw [bridgedIn, List.map_append, List.sum_append]
  rfl

theorem bridgedOut_append (es fs : List BridgeEvent) :
    bridgedOut (es ++ fs) = bridgedOut es + bridgedOut fs := by
  rw [bridgedOut, List.map_append, List.sum_append]
  rfl

namespace BridgeBooks

variable {es : List BridgeEvent}

/-- The books depend on the accounts of one bridge only. -/
theorem of_same (hb : BridgeBooks M s es)
    (hconfig : s'.bridgeConfigs (.bridgeConfig M) = s.bridgeConfigs (.bridgeConfig M))
    (hids : ∀ id, s'.consumedMessageIds (.consumedMessageId M id) =
      s.consumedMessageIds (.consumedMessageId M id)) : BridgeBooks M s' es where
  bounded := by
    rw [hconfig]
    exact hb.bounded
  totalIn := by
    rw [State.totalBridgedIn, hconfig]
    exact hb.totalIn
  totalOut := by
    rw [State.totalBridgedOut, hconfig]
    exact hb.totalOut
  once := hb.once
  consumed id := by
    rw [State.Consumed, hids]
    exact hb.consumed id

/-- A bridge appears with nothing in its books. -/
theorem opened {bc : BridgeConfig} (hb : BridgeBooks M s es)
    (hnone : s.bridgeConfigs (.bridgeConfig M) = none)
    (hconfigs : s'.bridgeConfigs (.bridgeConfig M) = some bc)
    (hids : s'.consumedMessageIds = s.consumedMessageIds) (hbounded : bc.bridgeFeeBps ≤ 1000)
    (hin : bc.totalBridgedIn = 0) (hout : bc.totalBridgedOut = 0) : BridgeBooks M s' es where
  bounded bc' h := by
    cases hconfigs.symm.trans h
    exact hbounded
  totalIn := by
    rw [State.totalBridgedIn_eq hconfigs, hin, ← hb.totalIn, State.totalBridgedIn, hnone]
    rfl
  totalOut := by
    rw [State.totalBridgedOut_eq hconfigs, hout, ← hb.totalOut, State.totalBridgedOut, hnone]
    rfl
  once := hb.once
  consumed id := by
    rw [State.Consumed, hids]
    exact hb.consumed id

/-- A message is new, and consumed from now on. -/
theorem minted {id : BitVec 256} {n total : UInt64} (hb : BridgeBooks M s es)
    (hbc : s.bridgeConfigs (.bridgeConfig M) = some bc)
    (hfresh : s.consumedMessageIds (.consumedMessageId M id) = none)
    (hadded : total.toNat = bc.totalBridgedIn.toNat + n.toNat)
    (hconfigs : s'.bridgeConfigs (.bridgeConfig M) = some { bc with totalBridgedIn := total })
    (hids : s'.consumedMessageIds = put s.consumedMessageIds (.consumedMessageId M id)
      { messageId := id, sssMint := M }) : BridgeBooks M s' (es ++ [.minted id n]) where
  bounded bc' h := by
    cases hconfigs.symm.trans h
    exact hb.bounded bc hbc
  totalIn := by
    rw [State.totalBridgedIn_eq hconfigs, bridgedIn_append, ← hb.totalIn,
      State.totalBridgedIn_eq hbc]
    exact hadded
  totalOut := by
    rw [State.totalBridgedOut_eq hconfigs, bridgedOut_append, ← hb.totalOut,
      State.totalBridgedOut_eq hbc]
    rfl
  once := by
    have hnew : id ∉ messages es := by
      intro hmem
      obtain ⟨r, hr⟩ := (hb.consumed id).mpr hmem
      cases hfresh.symm.trans hr
    rw [messages_append]
    exact List.nodup_append_comm.mp (List.nodup_cons.mpr ⟨hnew, hb.once⟩)
  consumed id' := by
    rw [State.Consumed, hids, messages_append, List.mem_append]
    by_cases hid : id' = id
    · subst hid
      rw [put_self]
      exact ⟨fun _ => .inr (List.mem_singleton_self _), fun _ => ⟨_, rfl⟩⟩
    · have hne : Pubkey.consumedMessageId M id' ≠ .consumedMessageId M id := by
        intro heq
        cases heq
        exact hid rfl
      rw [put_of_ne _ _ hne]
      refine (hb.consumed id').trans ⟨.inl, ?_⟩
      rintro (hmem | hmem)
      · exact hmem
      · exact absurd (List.mem_singleton.mp hmem) hid

theorem burned {fee net total : UInt64} (hb : BridgeBooks M s es)
    (hbc : s.bridgeConfigs (.bridgeConfig M) = some bc)
    (hadded : total.toNat = bc.totalBridgedOut.toNat + net.toNat)
    (hconfigs : s'.bridgeConfigs (.bridgeConfig M) = some { bc with totalBridgedOut := total })
    (hids : s'.consumedMessageIds = s.consumedMessageIds) :
    BridgeBooks M s' (es ++ [.burned fee net]) where
  bounded bc' h := by
    cases hconfigs.symm.trans h
    exact hb.bounded bc hbc
  totalIn := by
    rw [State.totalBridgedIn_eq hconfigs, bridgedIn_append, ← hb.totalIn,
      State.totalBridgedIn_eq hbc]
    rfl
  totalOut := by
    rw [State.totalBridgedOut_eq hconfigs, bridgedOut_append, ← hb.totalOut,
      State.totalBridgedOut_eq hbc]
    exact hadded
  once := by
    rw [messages_append]
    exact (List.append_nil _).symm ▸ hb.once
  consumed id := by
    rw [State.Consumed, hids, messages_append]
    exact (List.append_nil (messages es)).symm ▸ hb.consumed id

theorem step (hb : BridgeBooks M s es) (h : Action.exec rt s a = .ok s') :
    BridgeBooks M s' (es ++ bridgeEvents M s a) := by
  rcases exec_bridge (M := M) h with ⟨hnone, hconfigs, hids⟩ | ⟨clock, i, mint, rfl, hcall⟩
  · rw [hnone, List.append_nil]
    apply hb.of_same
    · rw [hconfigs]
    · intro id
      rw [hids]
  · by_cases hmint : mint = M
    · subst hmint
      cases hcall with
      | init hmint free bounded totalIn totalOut configs ids =>
        have hconfig := configs ▸ put_self s.bridgeConfigs (.bridgeConfig mint) _
        rw [show bridgeEvents mint s _ = [] from rfl, List.append_nil]
        exact hb.opened free hconfig ids bounded totalIn totalOut
      | @bridgeIn b proof n total recipient id bc hmint stored fresh added _ configs ids =>
        have hevents : bridgeEvents mint s (.call clock (.bridgeIn b proof n recipient id)) =
          [.minted id n] := if_pos hmint
        rw [hevents]
        exact hb.minted stored fresh added (configs ▸ put_self ..) ids
      | @bridgeOut b n total bc hmint stored added _ configs ids =>
        have hevents : bridgeEvents mint s (.call clock (.bridgeOut b n)) =
            [.burned (feeOf n bc.bridgeFeeBps) (n - feeOf n bc.bridgeFeeBps)] := by
          rw [← State.bridgeFeeBps_eq stored]
          exact if_pos hmint
        rw [hevents]
        exact hb.burned stored added (configs ▸ put_self ..) ids
    · obtain ⟨hnone, hconfig, hids⟩ := hcall.elsewhere hmint
      rw [hnone, List.append_nil]
      exact hb.of_same hconfig hids

/-- What the bridge shows has happened to the tokens. -/
theorem moves {e : BridgeEvent} (hb : BridgeBooks M s es) (h : Action.exec rt s a = .ok s')
    (he : e ∈ bridgeEvents M s a) :
    ∃ clock i, a = .call clock i ∧
      BridgeMoves rt M (s.bridgeFeeBps M) s.tokens s'.tokens i e := by
  rcases exec_bridge (M := M) h with ⟨hnone, -⟩ | ⟨clock, i, mint, rfl, hcall⟩
  · rw [hnone] at he
    cases he
  · refine ⟨clock, i, rfl, ?_⟩
    by_cases hmint : mint = M
    · subst hmint
      cases hcall with
      | init => cases he
      | @bridgeIn b proof n total recipient id bc hmint stored _ _ moves =>
        have hevents : bridgeEvents mint s (.call clock (.bridgeIn b proof n recipient id)) =
          [.minted id n] := if_pos hmint
        rw [hevents, List.mem_singleton] at he
        rw [he, State.bridgeFeeBps_eq stored]
        exact moves
      | @bridgeOut b n total bc hmint stored _ moves =>
        have hevents : bridgeEvents mint s (.call clock (.bridgeOut b n)) =
            [.burned (feeOf n bc.bridgeFeeBps) (n - feeOf n bc.bridgeFeeBps)] := by
          rw [← State.bridgeFeeBps_eq stored]
          exact if_pos hmint
        rw [hevents, List.mem_singleton] at he
        rw [he, State.bridgeFeeBps_eq stored]
        exact moves (hb.bounded bc stored)
    · rw [(hcall.elsewhere hmint).1] at he
      cases he

end BridgeBooks

/-- A bridge that has not been set up. -/
structure Unbridged (s : State) (M : Pubkey) : Prop where
  config : s.bridgeConfigs (.bridgeConfig M) = none
  ids : ∀ id, s.consumedMessageIds (.consumedMessageId M id) = none

theorem Unbridged.books (h : Unbridged s M) : BridgeBooks M s [] where
  bounded bc hbc := by
    cases h.config.symm.trans hbc
  totalIn := by
    rw [State.totalBridgedIn, h.config]
    rfl
  totalOut := by
    rw [State.totalBridgedOut, h.config]
    rfl
  once := List.nodup_nil
  consumed id := by
    refine ⟨?_, fun hmem => absurd hmem List.not_mem_nil⟩
    rintro ⟨r, hr⟩
    cases (h.ids id).symm.trans hr

theorem run_bridgeBooks (as : List Action) (hs : Unbridged s M) :
    BridgeBooks M (run rt s as) (history (Action.exec rt) (bridgeEvents M) s as) := by
  rw [← List.nil_append (history (Action.exec rt) (bridgeEvents M) s as)]
  exact invariant_history (I := BridgeBooks M) (fun hb _ h => hb.step h) hs.books
    (along_of_forall fun _ _ _ => trivial)

/-- What a run shows of the bridge of `M`. -/
structure BridgeAccounts (rt : Runtime) (s : State) (as : List Action) (M : Pubkey) : Prop where
  once : (messages (history (Action.exec rt) (bridgeEvents M) s as)).Nodup
  consumed : ∀ id, (run rt s as).Consumed M id ↔
    id ∈ messages (history (Action.exec rt) (bridgeEvents M) s as)
  totalIn : ((run rt s as).totalBridgedIn M).toNat =
    bridgedIn (history (Action.exec rt) (bridgeEvents M) s as)
  totalOut : ((run rt s as).totalBridgedOut M).toNat =
    bridgedOut (history (Action.exec rt) (bridgeEvents M) s as)
  calls : ∀ init a tail s', as = init ++ a :: tail → Action.exec rt (run rt s init) a = .ok s' →
    ∀ e ∈ bridgeEvents M (run rt s init) a, ∃ clock i, a = .call clock i ∧
      BridgeMoves rt M ((run rt s init).bridgeFeeBps M) (run rt s init).tokens s'.tokens i e

/-- Every message mints once, the totals are the sums of what was minted and burned, and every
event shows what happened to the tokens. -/
theorem bridge_accounts (as : List Action) (hs : Unbridged s M) : BridgeAccounts rt s as M := by
  have hbooks : BridgeBooks M (run rt s as) _ := run_bridgeBooks as hs
  refine ⟨hbooks.once, hbooks.consumed, hbooks.totalIn, hbooks.totalOut, ?_⟩
  intro init a tail s' _ hexec e he
  exact (run_bridgeBooks init hs).moves hexec he

namespace Market

def relay (id : BitVec 256) : Action :=
  .call (day 1) (.bridgeIn
    { relayer := authority, mint := mint.key, recipientTokenAccount := userStable.key }
    (List.replicate 32 0) 500 user.key id)

/-- A message is relayed twice; the user sends some back. -/
def bridged : List Action :=
  featured flagBridgeEnabled ++
    [ .call (day 1) (.initBridgeConfig asAuthority 0 (.key 70) 1000 100 otherStable.key),
      relay 1, relay 1,
      .call (day 1) (.bridgeOut
        { sender := user, mint := mint.key, senderTokenAccount := userStable.key
          feeVault := otherStable.key } 250) ]

end Market

open Market in
theorem bridged_accounts :
    BridgeAccounts localRuntime genesis bridged mint.key ∧
      history (Action.exec localRuntime) (bridgeEvents mint.key) genesis bridged =
        [.minted 1 500, .burned 2 248] :=
  ⟨bridge_accounts bridged ⟨rfl, fun _ => rfl⟩, by decide +kernel⟩

end SolanaStablecoin
