import DropRoom.Proofs.Cache.NetworkFirst

namespace DropRoom

/-!
# Versions

The version tag is the end of the names of both current partitions, and what comes before it in one
name is the start of what comes before it in the other.  So two versions may share a name, and what
one of them has kept there is then left when the other one becomes current.

* `CacheSettings.Owns`, `CacheSettings.shared_iff` — the names of a version, and which versions
  share one;
* `Cache.Engine.lookup_activate` — what is found where only the current partitions are left;
* `Cache.Engine.activate_forgets_unless_shared` — what is left of another version.
-/

/-! ### Names of partitions -/

namespace CacheSettings

/-- A name is that of a current partition. -/
def Owns (settings : CacheSettings) (name : String) : Prop :=
  name = settings.staticPartition ∨ name = settings.runtimePartition

instance (settings : CacheSettings) : DecidablePred settings.Owns := fun name =>
  inferInstanceAs (Decidable (name = settings.staticPartition ∨ name = settings.runtimePartition))

/-- The tag of one version is that of the other with the mark of static assets before it. -/
def Extends (v w : CacheSettings) : Prop :=
  v.version = "static-" ++ w.version

variable {v w : CacheSettings}

/-- Different versions have different partitions for static assets. -/
theorem staticPartition_eq_iff : v.staticPartition = w.staticPartition ↔ v.version = w.version :=
  String.append_right_inj _

/-- They have different partitions for responses, too. -/
theorem runtimePartition_eq_iff : v.runtimePartition = w.runtimePartition ↔ v.version = w.version :=
  String.append_right_inj _

/-- The partition of one for responses is that of another for assets exactly if its version is
spelled so. -/
theorem runtimePartition_eq_staticPartition_iff :
    v.runtimePartition = w.staticPartition ↔ v.Extends w := by
  have hstart : "eventdrop-static-" = "eventdrop-" ++ "static-" := by decide
  have hstatic : w.staticPartition = "eventdrop-" ++ ("static-" ++ w.version) := by
    show "eventdrop-static-" ++ w.version = _
    rw [hstart, String.append_assoc]
  rw [hstatic]
  exact String.append_right_inj _

/-- **Shared names.** Two versions share the name of a partition exactly if the tag of one is that
of the other with the mark of static assets before it. -/
theorem shared_iff (h : v.version ≠ w.version) :
    (∃ name, v.Owns name ∧ w.Owns name) ↔ v.Extends w ∨ w.Extends v := by
  constructor
  · rintro ⟨name, rfl | rfl, hname | hname⟩
    · exact absurd (staticPartition_eq_iff.mp hname) h
    · exact .inr (runtimePartition_eq_staticPartition_iff.mp hname.symm)
    · exact .inl (runtimePartition_eq_staticPartition_iff.mp hname)
    · exact absurd (runtimePartition_eq_iff.mp hname) h
  · rintro (hextends | hextends)
    · exact ⟨v.runtimePartition, .inr rfl,
        .inl (runtimePartition_eq_staticPartition_iff.mpr hextends)⟩
    · exact ⟨v.staticPartition, .inl rfl,
        .inr (runtimePartition_eq_staticPartition_iff.mpr hextends).symm⟩

end CacheSettings

namespace Cache.Engine

/-! ### Deletion of other versions -/

/-- What is found afterwards: what the static partition has, else what the other current one has. -/
theorem lookup_activate {e : Engine} (hreadable : e.readable = true) (key : Key) :
    e.activate.2.lookup key =
      (e.store.get? e.staticPartition key).or (e.store.get? e.runtimePartition key) := by
  have hothers (name : String) (hstatic : name ≠ e.staticPartition)
      (hruntime : name ≠ e.runtimePartition) : e.activate.2.store.get? name key = none := by
    rw [get?_activate, if_neg (by simp [isCurrent, hstatic, hruntime])]
  have hlookup := @lookup_of_current e.activate.2 hreadable key hothers
  rw [hlookup]
  show (e.activate.2.store.get? e.staticPartition key).or
    (e.activate.2.store.get? e.runtimePartition key) = _
  rw [get?_activate, get?_activate, if_pos (by simp [isCurrent]), if_pos (by simp [isCurrent])]

/-- The current partitions are those that the version owns. -/
theorem SetUpBy.isCurrent_iff {w : CacheSettings} {e : Engine} (h : e.SetUpBy w) {name : String} :
    e.isCurrent name = true ↔ w.Owns name := by
  simp [isCurrent, h.staticPartition, h.runtimePartition, CacheSettings.Owns]

/-- So it is for an engine of settings. -/
theorem isCurrent_ofSettings (w : CacheSettings) (store : Store) (name : String) :
    (ofSettings w store).isCurrent name = true ↔ w.Owns name :=
  (ofSettings_setUpBy w store).isCurrent_iff

/-- **What is left of another version.** Two versions with different tags share the name of a
partition exactly if the tag of one is that of the other with `static-` before it.  When one of them
becomes current over any store, a lookup finds what its own partitions had before.  Of the
partitions of the other version, those whose names it shares stay as they were, and nothing is left
of the rest.  So where no name is shared, what the other version kept makes no difference to any
lookup. -/
theorem activate_forgets_unless_shared (v w : CacheSettings) (h : v.version ≠ w.version)
    (store : Store) :
    let engine := (ofSettings w store).activate.2
    ((∃ name, v.Owns name ∧ w.Owns name) ↔
      v.version = "static-" ++ w.version ∨ w.version = "static-" ++ v.version) ∧
    (∀ key, engine.lookup key =
      (store.get? w.staticPartition key).or (store.get? w.runtimePartition key)) ∧
    (∀ name, v.Owns name → w.Owns name → ∀ key,
      engine.store.get? name key = store.get? name key) ∧
    (∀ name, v.Owns name → ¬ w.Owns name →
      name ∉ engine.store.partitions ∧ ∀ key, engine.store.get? name key = none) ∧
    ((¬ ∃ name, v.Owns name ∧ w.Owns name) → ∀ other : Store,
      (∀ name key, ¬ v.Owns name → other.get? name key = store.get? name key) →
      ∀ key, (ofSettings w other).activate.2.lookup key = engine.lookup key) := by
  intro engine
  have hlookup (store : Store) (key : Key) : (ofSettings w store).activate.2.lookup key =
      (store.get? w.staticPartition key).or (store.get? w.runtimePartition key) :=
    @lookup_activate (ofSettings w store) rfl key
  refine ⟨CacheSettings.shared_iff h, hlookup store, fun name _ howns key => ?_,
    fun name _ hother => ⟨fun hmem => ?_, fun key => ?_⟩, fun hapart other hsame key => ?_⟩
  · rw [get?_activate, if_pos ((isCurrent_ofSettings w store name).mpr howns)]
    rfl
  · have hcurrent := (mem_partitions_activate.mp hmem).2
    exact hother ((isCurrent_ofSettings w store name).mp hcurrent)
  · have hstale := fun hcurrent => hother ((isCurrent_ofSettings w store name).mp hcurrent)
    rw [get?_activate, if_neg hstale]
  · -- the partitions that are asked are none of the other version
    have hstatic := hsame w.staticPartition key fun howns => hapart ⟨_, howns, .inl rfl⟩
    have hruntime := hsame w.runtimePartition key fun howns => hapart ⟨_, howns, .inr rfl⟩
    rw [hlookup other key, hlookup store key, hstatic, hruntime]

/-- The settings of a version, with all else at its default. -/
def taggedSettings (version : String) : Settings :=
  { Settings.initial with cache := { CacheSettings.initial with version := version } }

/-- The versions `static-x` and `x` are both accepted, and what the first one kept of an answer from
the network is found under the second one. -/
theorem activate_forgets_unless_shared_of_prefix :
    let v := (taggedSettings "static-x").cache
    let w := (taggedSettings "x").cache
    let key := Key.get "http://origin.test/a.css"
    let old : Http.Response := .ofBody 200 [111, 108, 100]
    let engine := (ofSettings w (Store.empty.put v.runtimePartition key old)).activate.2
    (taggedSettings "static-x").check = .ok () ∧ (taggedSettings "x").check = .ok () ∧
      v.version ≠ w.version ∧ (∃ name, v.Owns name ∧ w.Owns name) ∧
      engine.lookup key = some old := by
  intro v w key old engine
  have htags : v.version ≠ w.version := by decide
  obtain ⟨hshared, hlookup, _⟩ := activate_forgets_unless_shared v w htags
    (Store.empty.put v.runtimePartition key old)
  refine ⟨by rfl, by rfl, htags, hshared.mpr (.inl (by decide)), ?_⟩
  exact (hlookup key).trans (by rfl)

end Cache.Engine

end DropRoom
