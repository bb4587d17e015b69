import DropRoom.Proofs.Url.Web
import DropRoom.Settings.Basic

namespace DropRoom.Settings

/-!
# The check of settings

* `check_eq_ok` — which settings pass their check;
* `base_isWeb` — their server is one of the web.
-/

variable {settings : Settings}

/-- Settings pass their check exactly if the server has an address of the web, the version is not
blank, and the first wait is not nothing. -/
theorem check_eq_ok [Url.DomainNames] :
    settings.check = .ok () ↔ ∃ url, settings.base = .ok url ∧ url.isHttp = true ∧
      Text.isBlank settings.cache.version = false ∧ waitsAtFirst settings.reconnection = true := by
  rw [check]
  cases settings.base with
  | error e => simp
  | ok url =>
    simp only [Except.ok.injEq, exists_eq_left']
    cases url.isHttp with
    | false => simp
    | true =>
      cases Text.isBlank settings.cache.version with
      | true => simp
      | false => cases waitsAtFirst settings.reconnection <;> simp

/-- The address of settings that pass their check is one of the web. -/
theorem base_isWeb [Url.DomainNames] (h : settings.check = .ok ()) :
    ∃ base, settings.base = .ok base ∧ base.IsWeb := by
  obtain ⟨base, hbase, hhttp, _⟩ := check_eq_ok.mp h
  refine ⟨base, hbase, ?_⟩
  rw [Settings.base] at hbase
  split at hbase
  · rename_i hparse
    cases hbase
    exact Url.parse_isWeb hparse hhttp
  · cases hbase

end DropRoom.Settings
