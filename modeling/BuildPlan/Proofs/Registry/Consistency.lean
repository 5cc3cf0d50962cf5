import BuildPlan.Proofs.Registry.Lookup

/-!
# Consistent registries

A registry says twice which projects there are, which are under way and which are resolved: in its
entries, and in its lists of names.  In a consistent registry the two agree and no name is listed twice.
Registering a project, beginning an assembly and ending the innermost one keep a registry consistent.
-/

namespace BuildPlan

namespace Registry

/-- The lists of names have no repetitions and agree with the entries and their states. -/
structure Consistent (r : Registry) : Prop where
  /-- No name has two entries. -/
  keys_nodup : r.keys.Nodup
  names_nodup : r.names.Nodup
  mem_names_iff : ∀ name, name ∈ r.names ↔ r.contains name
  stack_nodup : r.stack.Nodup
  mem_stack_iff : ∀ name, name ∈ r.stack ↔ r.state? name = some .inProgress
  resolved_nodup : r.resolvedNames.Nodup
  mem_resolved_iff : ∀ name,
    name ∈ r.resolvedNames ↔ ∃ plan, r.state? name = some (.resolved plan)

variable {r r' : Registry} {name : String} {config : ProjectConfig}

/-! ### States after each step -/

theorem state?_enter (h : r.get? name = some ⟨config, .unresolved⟩) (n : String) :
    (r.enter name).state? n = if n = name then some .inProgress else r.state? n := by
  by_cases hn : n = name
  · subst hn
    rw [if_pos rfl, state?_of_get? (get?_enter_self h)]
  · rw [if_neg hn, state?, get?_enter_of_ne hn, state?]

theorem state?_leave (h : r.state? name = some .inProgress)
    (result : Except CompileError ProjectPlan) (n : String) :
    (r.leave name result).state? n = if n = name then some (.ofResult result) else r.state? n := by
  obtain ⟨config, hc⟩ := state?_eq_some_iff.mp h
  by_cases hn : n = name
  · subst hn
    rw [if_pos rfl, state?_of_get? (get?_leave_self hc result)]
  · rw [if_neg hn, state?, get?_leave_of_ne hn, state?]

theorem state?_register (h : r.register config = .ok r') (n : String) :
    r'.state? n = if n = config.name then some .unresolved else r.state? n := by
  rw [state?, get?_register h]
  split
  · rfl
  · rfl

theorem state?_eq_none_of_notMem (h : name ∉ r.keys) : r.state? name = none := by
  rw [state?, get?_eq_none_iff.mpr h, Option.map_none]

/-! ### Each step keeps a registry consistent -/

theorem consistent_empty : Consistent {} where
  keys_nodup := List.nodup_nil
  names_nodup := List.nodup_nil
  mem_names_iff name := by simp [names, contains, get?]
  stack_nodup := List.nodup_nil
  mem_stack_iff name := by simp [state?, get?]
  resolved_nodup := List.nodup_nil
  mem_resolved_iff name := by simp [state?, get?]

namespace Consistent

/-- The declared names are those of the entries. -/
theorem mem_names_iff_mem_keys (h : r.Consistent) : name ∈ r.names ↔ name ∈ r.keys :=
  (h.mem_names_iff name).trans mem_keys_iff_contains.symm

/-- The entries stand for the declared names, in whatever order. -/
theorem names_perm_keys (h : r.Consistent) : r.names.Perm r.keys :=
  (List.perm_ext_iff_of_nodup h.names_nodup h.keys_nodup).mpr fun _ => h.mem_names_iff_mem_keys

theorem notMem_stack (h : r.Consistent) (hu : r.state? name = some .unresolved) :
    name ∉ r.stack := by
  rw [h.mem_stack_iff, hu]
  simp

theorem notMem_resolved (h : r.Consistent) (hu : r.state? name = some .unresolved) :
    name ∉ r.resolvedNames := by
  rw [h.mem_resolved_iff, hu]
  simp

theorem notMem_resolved_of_mem_stack (h : r.Consistent) (hs : name ∈ r.stack) :
    name ∉ r.resolvedNames := by
  rw [h.mem_resolved_iff, (h.mem_stack_iff name).mp hs]
  simp

theorem register (h : r.Consistent) (hr : r.register config = .ok r') : r'.Consistent := by
  have hstate := state?_register hr
  have hget := get?_register hr
  have hnames := names_register hr
  obtain ⟨hnew, rfl⟩ := register_eq_ok_iff.mp hr
  have hnone := state?_eq_none_of_notMem hnew
  have hdeclared : config.name ∉ r.names := fun hn => hnew (h.mem_names_iff_mem_keys.mp hn)
  -- the new name is added in both places, and to no other list
  refine ⟨?_, ?_, fun n => ?_, h.stack_nodup, fun n => ?_, h.resolved_nodup, fun n => ?_⟩
  · simpa [keys] using h.keys_nodup.concat hnew
  · rw [hnames]
    simpa using h.names_nodup.concat hdeclared
  · rw [contains, hget, hnames, List.mem_append, List.mem_singleton]
    by_cases hn : n = config.name
    · simp [hn]
    · rw [if_neg hn, or_iff_left hn]
      exact h.mem_names_iff n
  · rw [hstate]
    by_cases hn : n = config.name
    · rw [if_pos hn, hn, h.mem_stack_iff, hnone]
      simp
    · rw [if_neg hn]
      exact h.mem_stack_iff n
  · rw [hstate]
    by_cases hn : n = config.name
    · rw [if_pos hn, hn, h.mem_resolved_iff, hnone]
      simp
    · rw [if_neg hn]
      exact h.mem_resolved_iff n

theorem enter (h : r.Consistent) (he : r.get? name = some ⟨config, .unresolved⟩) :
    (r.enter name).Consistent := by
  have hu : r.state? name = some .unresolved := state?_of_get? he
  refine ⟨?_, h.names_nodup, fun n => ?_, ?_, fun n => ?_, h.resolved_nodup, fun n => ?_⟩
  · rw [keys_enter]
    exact h.keys_nodup
  · rw [names_enter, contains_enter]
    exact h.mem_names_iff n
  · rw [stack_enter]
    simpa using h.stack_nodup.concat (h.notMem_stack hu)
  · rw [state?_enter he, stack_enter, List.mem_append, List.mem_singleton, h.mem_stack_iff]
    by_cases hn : n = name <;> simp [hn]
  · rw [state?_enter he, resolvedNames_enter]
    by_cases hn : n = name
    · subst hn
      simp [h.notMem_resolved hu]
    · rw [if_neg hn]
      exact h.mem_resolved_iff n

theorem leave {below : List String} (h : r.Consistent) (hs : r.stack = below ++ [name])
    (result : Except CompileError ProjectPlan) : (r.leave name result).Consistent := by
  have hname : name ∈ r.stack := by simp [hs]
  have hp := (h.mem_stack_iff name).mp hname
  have hnr := h.notMem_resolved_of_mem_stack hname
  have hstack : (r.leave name result).stack = below := by simp [hs]
  have hnd := h.stack_nodup
  rw [hs, List.nodup_append] at hnd
  have hbelow : name ∉ below := fun hn => hnd.2.2 name hn name (by simp) rfl
  -- only the state of `name` changes, and `name` is the last on the stack
  refine ⟨?_, ?_, fun n => ?_, ?_, fun n => ?_, ?_, fun n => ?_⟩
  · rw [keys_leave]
    exact h.keys_nodup
  · rw [names_leave]
    exact h.names_nodup
  · rw [names_leave, contains_leave]
    exact h.mem_names_iff n
  · rw [hstack]
    exact hnd.1
  · rw [hstack, state?_leave hp]
    by_cases hn : n = name
    · subst hn
      cases result <;> simp [hbelow, Resolution.ofResult]
    · rw [if_neg hn, ← h.mem_stack_iff, hs]
      simp [hn]
  · cases result with
    | error e => exact h.resolved_nodup
    | ok plan =>
      rw [resolvedNames_leave_ok]
      simpa using h.resolved_nodup.concat hnr
  · rw [state?_leave hp]
    by_cases hn : n = name
    · subst hn
      cases result <;> simp [hnr, Resolution.ofResult]
    · rw [if_neg hn, ← h.mem_resolved_iff]
      cases result <;> simp [hn]

end Consistent

/-! ### Fresh registries -/

/-- The registry in which the given projects are registered and nothing has been resolved. -/
def fresh (configs : List ProjectConfig) : Registry :=
  { entries := configs.map fun p => ⟨p, .unresolved⟩
    order := configs.map ProjectConfig.name }

@[simp] theorem configs_fresh (configs : List ProjectConfig) :
    (fresh configs).entries.map RegistryEntry.config = configs := by
  simp [fresh, Function.comp_def]

theorem names_fresh (configs : List ProjectConfig) :
    (fresh configs).names = configs.map ProjectConfig.name := rfl

theorem keys_fresh (configs : List ProjectConfig) :
    (fresh configs).keys = configs.map ProjectConfig.name := by
  rw [keys_eq_map_configs, configs_fresh]

theorem foldlM_register (configs more : List ProjectConfig)
    (h : ((configs ++ more).map ProjectConfig.name).Nodup) :
    more.foldlM Registry.register (fresh configs) = .ok (fresh (configs ++ more)) := by
  -- the projects so far are those of the fresh registry, and the next one comes behind them
  induction more generalizing configs with
  | nil =>
    rw [List.append_nil]
    rfl
  | cons p rest ih =>
    have hp : p.name ∉ (fresh configs).keys := by
      rw [keys_fresh]
      rw [List.map_append, List.map_cons, List.nodup_append] at h
      exact fun hm => h.2.2 p.name hm p.name List.mem_cons_self rfl
    have hr : (fresh configs).register p = .ok (fresh (configs ++ [p])) := by
      rw [register_of_notMem hp]
      simp [fresh]
    rw [List.foldlM_cons, hr]
    have := ih (configs ++ [p]) (by rwa [List.append_assoc])
    rwa [List.append_assoc] at this

/-- Projects with distinct names can be registered in any order. -/
theorem ofConfigs_of_nodup {configs : List ProjectConfig}
    (h : (configs.map ProjectConfig.name).Nodup) : ofConfigs configs = .ok (fresh configs) :=
  foldlM_register [] configs h

theorem state_of_mem_fresh {configs : List ProjectConfig} {e : RegistryEntry}
    (h : e ∈ (fresh configs).entries) : e.state = .unresolved := by
  obtain ⟨p, -, rfl⟩ := List.mem_map.mp h
  rfl

theorem eq_unresolved_of_state? {s : Resolution} (hu : ∀ e ∈ r.entries, e.state = .unresolved)
    (hs : r.state? name = some s) : s = .unresolved := by
  obtain ⟨config, he⟩ := state?_eq_some_iff.mp hs
  exact hu _ (mem_entries_of_get? he)

/-- Where all projects are unresolved, nothing is under way and nothing is listed as resolved. -/
theorem Consistent.idle_of_unresolved (h : r.Consistent)
    (hu : ∀ e ∈ r.entries, e.state = .unresolved) : r.stack = [] ∧ r.resolvedNames = [] := by
  constructor
  · rw [List.eq_nil_iff_forall_not_mem]
    intro name hn
    cases eq_unresolved_of_state? hu ((h.mem_stack_iff name).mp hn)
  · rw [List.eq_nil_iff_forall_not_mem]
    intro name hn
    obtain ⟨plan, hp⟩ := (h.mem_resolved_iff name).mp hn
    cases eq_unresolved_of_state? hu hp

theorem consistent_fresh {configs : List ProjectConfig}
    (h : (configs.map ProjectConfig.name).Nodup) : (fresh configs).Consistent := by
  have hu : ∀ e ∈ (fresh configs).entries, e.state = .unresolved := fun _ => state_of_mem_fresh
  refine ⟨by rwa [keys_fresh], h, fun name => ?_, List.nodup_nil, fun name => ?_, List.nodup_nil,
    fun name => ?_⟩
  · rw [← mem_keys_iff_contains, keys_fresh, names_fresh]
  · refine ⟨fun hn => (List.not_mem_nil hn).elim, fun hs => ?_⟩
    cases eq_unresolved_of_state? hu hs
  · refine ⟨fun hn => (List.not_mem_nil hn).elim, fun ⟨plan, hs⟩ => ?_⟩
    cases eq_unresolved_of_state? hu hs

end Registry

end BuildPlan
