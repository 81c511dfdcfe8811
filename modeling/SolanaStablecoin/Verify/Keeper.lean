import SolanaStablecoin.Verify.Layout
import SolanaStablecoin.Verify.Admin

/-! The cranks of the circuit breaker and the migration write one setting of a config each. -/

namespace SolanaStablecoin

variable {rt : Runtime} {clock : Clock} {s s' : State} {a : Crank}

theorem Crank.loadAccounts_eq_ok {x : StablecoinConfig × KeeperConfig} :
    a.loadAccounts s = .ok x ↔
      s.configs a.config = some x.1 ∧ s.keeperConfigs (.keeperConfig x.1.mint) = some x.2 ∧
        a.config = .stablecoinConfig x.1.mint ∧ x.2.sssMint = x.1.mint := by
  simp only [Crank.loadAccounts, bind_eq_ok, load_eq_ok, require_eq_ok, pure_eq_ok]
  constructor
  · intro h
    obtain ⟨c, hc, kc, hkc, -, hkey, -, hmint, rfl⟩ := h
    exact ⟨hc, hkc, hkey, hmint⟩
  · intro h
    obtain ⟨hc, hkc, hkey, hmint⟩ := h
    exact ⟨x.1, hc, x.2, hkc, (), hkey, (), hmint, rfl⟩

theorem initKeeperConfigHandler_ok {b : AuthorityAndConfig} {p : InitKeeperConfigParams}
    (h : initKeeperConfigHandler s b p = .ok s') : Quiet s s' := by
  simp [initKeeperConfigHandler] at h
  obtain ⟨c, -, -, -, -, rfl⟩ := h
  exact .of_eq rfl rfl ⟨rfl, rfl, rfl⟩

theorem crankCircuitBreakerHandler_ok (h : crankCircuitBreakerHandler rt clock s a = .ok s') :
    Quiet s s' := by
  simp only [crankCircuitBreakerHandler, bind_eq_ok, Crank.loadAccounts_eq_ok, pure_eq_ok] at h
  obtain ⟨⟨c, kc⟩, ⟨hc, -⟩, -, -, -, -, -, -, price, -, dev, -, -, -, rfl⟩ := h
  exact .of_put hc rfl rfl rfl rfl ⟨rfl, rfl, rfl⟩

theorem crankUnpauseHandler_ok (h : crankUnpauseHandler rt clock s a = .ok s') : Quiet s s' := by
  simp only [crankUnpauseHandler, bind_eq_ok, Crank.loadAccounts_eq_ok, pure_eq_ok] at h
  obtain ⟨⟨c, kc⟩, ⟨hc, -⟩, -, -, price, -, dev, -, -, -, -, -, rfl⟩ := h
  exact .of_put hc rfl rfl rfl rfl ⟨rfl, rfl, rfl⟩

theorem migrateConfigHandler_ok {b : MigrateConfig} (h : migrateConfigHandler s b = .ok s') :
    Quiet s s' := by
  simp only [migrateConfigHandler, bind_eq_ok, load_eq_ok] at h
  obtain ⟨c, hc, -, -, -, -, -, -, version, -, authority, -, -, -, h⟩ := h
  split at h
  · cases h
    exact .of_eq rfl rfl ⟨rfl, rfl, rfl⟩
  · simp only [bind_eq_ok, pure_eq_ok] at h
    obtain ⟨-, -, rfl⟩ := h
    exact .of_put hc rfl rfl rfl rfl ⟨rfl, rfl, rfl⟩

end SolanaStablecoin
