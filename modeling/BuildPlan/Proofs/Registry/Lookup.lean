import BuildPlan.Registry
import Mathlib.Data.List.Nodup

/-!
# Looking names up in a registry

What `register`, `enter` and `leave` do to the answers of `get?`, `state?` and `config?`.  An entry
is found under its name, which is one of the keys of the registry; `enter` and `leave` change the state of
one entry and no configuration.
-/

namespace BuildPlan

/-- The state of a project whose assembly has ended. -/
def Resolution.ofResult : Except CompileError ProjectPlan → Resolution
  | .ok plan => .resolved plan
  | .error _ => .unresolved

namespace Registry

variable {r r' : Registry} {name : String} {e : RegistryEntry}

/-! ### Entries and keys -/

/-- The names under which entries stand. -/
def keys (r : Registry) : List String :=
  r.entries.map fun e => e.config.name

theorem name_of_get? (h : r.get? name = some e) : e.config.name = name := by
  simpa using List.find?_some h

theorem mem_entries_of_get? (h : r.get? name = some e) : e ∈ r.entries :=
  List.mem_of_find?_eq_some h

theorem mem_keys_iff : name ∈ r.keys ↔ ∃ e, r.get? name = some e := by
  constructor
  · intro h
    obtain ⟨e, he, rfl⟩ := List.mem_map.mp h
    have hs : (r.get? e.config.name).isSome := by
      rw [get?, List.find?_isSome]
      exact ⟨e, he, by simp⟩
    exact Option.isSome_iff_exists.mp hs
  · rintro ⟨e, h⟩
    exact List.mem_map.mpr ⟨e, mem_entries_of_get? h, name_of_get? h⟩

theorem contains_iff : r.contains name ↔ ∃ e, r.get? name = some e :=
  Option.isSome_iff_exists

theorem mem_keys_iff_contains : name ∈ r.keys ↔ r.contains name :=
  mem_keys_iff.trans contains_iff.symm

theorem get?_eq_none_iff : r.get? name = none ↔ name ∉ r.keys := by
  rw [mem_keys_iff, Option.eq_none_iff_forall_ne_some]
  exact not_exists.symm

/-- With distinct names, every entry is the one that is found under its name. -/
theorem get?_eq_of_mem (hr : r.keys.Nodup) (he : e ∈ r.entries) :
    r.get? e.config.name = some e := by
  obtain ⟨e', he'⟩ := mem_keys_iff.mp (List.mem_map.mpr ⟨e, he, rfl⟩)
  have := List.inj_on_of_nodup_map hr (mem_entries_of_get? he') he (name_of_get? he')
  rw [he', this]

theorem state?_eq_some_iff {s : Resolution} :
    r.state? name = some s ↔ ∃ config, r.get? name = some ⟨config, s⟩ := by
  rw [state?, Option.map_eq_some_iff]
  constructor
  · rintro ⟨⟨config, _⟩, he, rfl⟩
    exact ⟨config, he⟩
  · rintro ⟨config, he⟩
    exact ⟨_, he, rfl⟩

theorem config?_eq_some_iff {config : ProjectConfig} :
    r.config? name = some config ↔ ∃ s, r.get? name = some ⟨config, s⟩ := by
  rw [config?, Option.map_eq_some_iff]
  constructor
  · rintro ⟨⟨_, s⟩, he, rfl⟩
    exact ⟨s, he⟩
  · rintro ⟨s, he⟩
    exact ⟨_, he, rfl⟩

theorem plan?_eq_some_iff {plan : ProjectPlan} :
    r.plan? name = some plan ↔ r.state? name = some (.resolved plan) := by
  unfold plan?
  cases r.state? name with
  | none => simp
  | some s => cases s <;> simp

theorem state?_of_get? (h : r.get? name = some e) : r.state? name = some e.state := by
  rw [state?, h, Option.map_some]

theorem config?_of_get? (h : r.get? name = some e) : r.config? name = some e.config := by
  rw [config?, h, Option.map_some]

theorem config?_isSome : (r.config? name).isSome = r.contains name := by
  rw [config?, contains, Option.isSome_map]

theorem config?_eq_none_iff : r.config? name = none ↔ r.get? name = none :=
  Option.map_eq_none_iff

/-! ### Changing a state -/

@[simp] theorem map_config_setState (name : String) (s : Resolution) (es : List RegistryEntry) :
    (setState name s es).map RegistryEntry.config = es.map RegistryEntry.config := by
  induction es with
  | nil => rfl
  | cons e rest ih =>
    unfold setState
    split
    · rfl
    · rw [List.map_cons, List.map_cons, ih]

theorem find?_setState (name : String) (s : Resolution) (es : List RegistryEntry) (n : String) :
    (setState name s es).find? (fun e => e.config.name == n) =
      if n = name then (es.find? fun e => e.config.name == n).map fun e => { e with state := s }
      else es.find? fun e => e.config.name == n := by
  induction es with
  | nil => simp [setState]
  | cons e rest ih =>
    unfold setState
    -- the entry in front is the one that is changed, or the one that is looked up, or neither
    by_cases he : e.config.name = name
    · rw [if_pos he]
      by_cases hn : n = name
      · simp [he, hn]
      · have hne : (name == n) = false := by simpa using Ne.symm hn
        simp [he, hne, hn]
    · rw [if_neg he]
      by_cases hen : e.config.name = n
      · have hn : n ≠ name := fun h => he (hen.trans h)
        simp [hen, hn]
      · have hne : (e.config.name == n) = false := by simpa using hen
        simp [hne, ih]

/-- Changing a state back leaves no trace. -/
theorem setState_setState_of_find? {es : List RegistryEntry} {s : Resolution}
    (h : es.find? (fun e => e.config.name == name) = some e) :
    setState name e.state (setState name s es) = es := by
  induction es with
  | nil => simp at h
  | cons e' rest ih =>
    by_cases he : e'.config.name = name
    · have h' : e' = e := by simpa [he] using h
      subst h'
      simp [setState, he]
    · have hb : (e'.config.name == name) = false := by simpa using he
      rw [List.find?_cons, hb] at h
      rw [setState, if_neg he, setState, if_neg he, ih h]

/-! ### The beginning and the end of an assembly -/

theorem get?_enter (r : Registry) (name n : String) :
    (r.enter name).get? n =
      if n = name then (r.get? n).map fun e => { e with state := .inProgress } else r.get? n :=
  find?_setState _ _ _ _

theorem get?_enter_self (h : r.get? name = some e) :
    (r.enter name).get? name = some { e with state := .inProgress } := by
  rw [get?_enter, if_pos rfl, h, Option.map_some]

theorem get?_enter_of_ne {n : String} (h : n ≠ name) : (r.enter name).get? n = r.get? n := by
  rw [get?_enter, if_neg h]

theorem get?_leave (r : Registry) (name : String) (result : Except CompileError ProjectPlan)
    (n : String) :
    (r.leave name result).get? n =
      if n = name then (r.get? n).map fun e => { e with state := .ofResult result }
      else r.get? n := by
  cases result <;> exact find?_setState _ _ _ _

theorem get?_leave_self (h : r.get? name = some e) (result : Except CompileError ProjectPlan) :
    (r.leave name result).get? name = some { e with state := .ofResult result } := by
  rw [get?_leave, if_pos rfl, h, Option.map_some]

theorem get?_leave_of_ne {n : String} (h : n ≠ name)
    (result : Except CompileError ProjectPlan) : (r.leave name result).get? n = r.get? n := by
  rw [get?_leave, if_neg h]

@[simp] theorem configs_enter (r : Registry) (name : String) :
    (r.enter name).entries.map RegistryEntry.config = r.entries.map RegistryEntry.config :=
  map_config_setState _ _ _

@[simp] theorem configs_leave (r : Registry) (name : String)
    (result : Except CompileError ProjectPlan) :
    (r.leave name result).entries.map RegistryEntry.config =
      r.entries.map RegistryEntry.config := by
  cases result <;> exact map_config_setState _ _ _

theorem keys_eq_map_configs (r : Registry) :
    r.keys = (r.entries.map RegistryEntry.config).map ProjectConfig.name := by
  rw [keys, List.map_map]
  rfl

@[simp] theorem keys_enter (r : Registry) (name : String) : (r.enter name).keys = r.keys := by
  rw [keys_eq_map_configs, keys_eq_map_configs, configs_enter]

@[simp] theorem keys_leave (r : Registry) (name : String)
    (result : Except CompileError ProjectPlan) : (r.leave name result).keys = r.keys := by
  rw [keys_eq_map_configs, keys_eq_map_configs, configs_leave]

@[simp] theorem names_enter (r : Registry) (name : String) : (r.enter name).names = r.names := rfl

@[simp] theorem names_leave (r : Registry) (name : String)
    (result : Except CompileError ProjectPlan) : (r.leave name result).names = r.names := by
  cases result <;> rfl

@[simp] theorem stack_enter (r : Registry) (name : String) :
    (r.enter name).stack = r.stack ++ [name] := rfl

@[simp] theorem resolvedNames_enter (r : Registry) (name : String) :
    (r.enter name).resolvedNames = r.resolvedNames := rfl

@[simp] theorem stack_leave (r : Registry) (name : String)
    (result : Except CompileError ProjectPlan) :
    (r.leave name result).stack = r.stack.dropLast := by
  cases result <;> rfl

@[simp] theorem resolvedNames_leave_ok (r : Registry) (name : String) (plan : ProjectPlan) :
    (r.leave name (.ok plan)).resolvedNames = r.resolvedNames ++ [name] := rfl

@[simp] theorem resolvedNames_leave_error (r : Registry) (name : String) (e : CompileError) :
    (r.leave name (.error e)).resolvedNames = r.resolvedNames := rfl

/-- An assembly that fails without touching the registry leaves it as it was. -/
theorem leave_enter_error {config : ProjectConfig} (h : r.get? name = some ⟨config, .unresolved⟩)
    (e : CompileError) : (r.enter name).leave name (.error e) = r := by
  have hs := setState_setState_of_find? (s := .inProgress) h
  show (⟨setState name .unresolved (setState name .inProgress r.entries), r.order, r.resolvedNames,
    (r.stack ++ [name]).dropLast⟩ : Registry) = r
  rw [hs, List.dropLast_concat]

/-- The configuration under a name is a matter of the list of configurations. -/
theorem config?_eq_find? (r : Registry) (name : String) :
    r.config? name = (r.entries.map RegistryEntry.config).find? fun p => p.name == name := by
  rw [config?, get?, List.find?_map]
  rfl

/-- With distinct names, the configurations under the names are those in the list. -/
theorem config?_eq_some_iff_mem (hr : r.keys.Nodup) {p : ProjectConfig} :
    r.config? name = some p ↔ p ∈ r.entries.map RegistryEntry.config ∧ p.name = name := by
  constructor
  · intro h
    obtain ⟨s, he⟩ := config?_eq_some_iff.mp h
    exact ⟨List.mem_map.mpr ⟨_, mem_entries_of_get? he, rfl⟩, name_of_get? he⟩
  · rintro ⟨hp, rfl⟩
    obtain ⟨e, he, rfl⟩ := List.mem_map.mp hp
    exact config?_of_get? (get?_eq_of_mem hr he)

@[simp] theorem config?_enter (r : Registry) (name : String) :
    (r.enter name).config? = r.config? := by
  funext n
  rw [config?_eq_find?, config?_eq_find?, configs_enter]

@[simp] theorem config?_leave (r : Registry) (name : String)
    (result : Except CompileError ProjectPlan) : (r.leave name result).config? = r.config? := by
  funext n
  rw [config?_eq_find?, config?_eq_find?, configs_leave]

theorem contains_enter (r : Registry) (name n : String) : (r.enter name).contains n = r.contains n := by
  rw [← config?_isSome, config?_enter, config?_isSome]

theorem contains_leave (r : Registry) (name : String) (result : Except CompileError ProjectPlan)
    (n : String) : (r.leave name result).contains n = r.contains n := by
  rw [← config?_isSome, config?_leave, config?_isSome]

/-! ### Registration -/

/-- A new name stands behind the others. -/
theorem insert_of_notMem {es : List RegistryEntry} (h : e.config.name ∉ es.map fun e => e.config.name) :
    insert e es = es ++ [e] := by
  induction es with
  | nil => rfl
  | cons e' rest ih =>
    rw [List.map_cons, List.mem_cons, not_or] at h
    rw [insert, if_neg (Ne.symm h.1), ih h.2, List.cons_append]

theorem register_of_mem {config : ProjectConfig} (h : config.name ∈ r.keys) :
    r.register config = .error (.invalidConfig (.duplicateProject config.name)) :=
  if_pos (mem_keys_iff_contains.mp h)

theorem register_of_notMem {config : ProjectConfig} (h : config.name ∉ r.keys) :
    r.register config = .ok { r with
      order := r.order ++ [config.name], entries := r.entries ++ [⟨config, .unresolved⟩] } := by
  have hinsert : insert ⟨config, .unresolved⟩ r.entries = _ := insert_of_notMem h
  rw [register, if_neg fun hc => h (mem_keys_iff_contains.mpr hc), hinsert]

theorem register_eq_ok_iff {config : ProjectConfig} :
    r.register config = .ok r' ↔
      config.name ∉ r.keys ∧ r' = { r with
        order := r.order ++ [config.name], entries := r.entries ++ [⟨config, .unresolved⟩] } := by
  constructor
  · intro h
    by_cases hm : config.name ∈ r.keys
    · rw [register_of_mem hm] at h
      cases h
    · rw [register_of_notMem hm] at h
      exact ⟨hm, (Except.ok.inj h).symm⟩
  · rintro ⟨hm, rfl⟩
    exact register_of_notMem hm

theorem names_register {config : ProjectConfig} (h : r.register config = .ok r') :
    r'.names = r.names ++ [config.name] := by
  obtain ⟨-, rfl⟩ := register_eq_ok_iff.mp h
  rfl

theorem get?_register {config : ProjectConfig} (h : r.register config = .ok r') (n : String) :
    r'.get? n = if n = config.name then some ⟨config, .unresolved⟩ else r.get? n := by
  obtain ⟨hnew, rfl⟩ := register_eq_ok_iff.mp h
  rw [get?, List.find?_append]
  by_cases hn : n = config.name
  · have hnone := get?_eq_none_iff.mpr hnew
    rw [get?] at hnone
    rw [if_pos hn, hn, hnone]
    simp
  · have hne : (config.name == n) = false := by simpa using Ne.symm hn
    simp [hne, hn, get?]

theorem get?_register_of_some {config : ProjectConfig} (h : r.register config = .ok r')
    (he : r.get? name = some e) : r'.get? name = some e := by
  have hne : name ≠ config.name := by
    rintro rfl
    exact (register_eq_ok_iff.mp h).1 (mem_keys_iff.mpr ⟨e, he⟩)
  rw [get?_register h, if_neg hne, he]

/-! ### Loops -/

/-- The path of a loop begins where the name stands on the stack. -/
theorem loop_of_mem (h : name ∈ r.stack) : r.loop name = r.stack.dropWhile (· != name) ++ [name] := by
  have hdrop : ∀ stack : List String, name ∈ stack →
      stack.drop ((stack.idxOf? name).getD 0) = stack.dropWhile (· != name) := by
    intro stack hs
    induction stack with
    | nil => cases hs
    | cons n rest ih =>
      by_cases hn : n = name
      · simp [List.idxOf?_cons, hn]
      · -- the name stands further back, and either way the entry in front is dropped
        have hne : (n == name) = false := by simpa using hn
        have hrest : name ∈ rest := (List.mem_cons.mp hs).resolve_left (Ne.symm hn)
        obtain ⟨i, hi⟩ := Option.isSome_iff_exists.mp (List.isSome_idxOf?.mpr hrest)
        have hcut := ih hrest
        rw [hi, Option.getD_some] at hcut
        simpa [List.idxOf?_cons, hne, hi, hn] using hcut
  rw [loop, hdrop _ h]

/-! ### Resolved projects -/

/-- Every project that is resolved in `r` is so in `r'`, with the same plan. -/
def Keeps (r r' : Registry) : Prop :=
  ∀ ⦃n p plan⦄, r.get? n = some ⟨p, .resolved plan⟩ → r'.get? n = some ⟨p, .resolved plan⟩

theorem Keeps.plan?_eq (h : r.Keeps r') {plan : ProjectPlan} (hp : r.plan? name = some plan) :
    r'.plan? name = some plan := by
  rw [plan?_eq_some_iff] at hp ⊢
  obtain ⟨config, he⟩ := state?_eq_some_iff.mp hp
  exact state?_of_get? (h he)

theorem keeps_register {config : ProjectConfig} (h : r.register config = .ok r') : r.Keeps r' :=
  fun _ _ _ he => get?_register_of_some h he

theorem keeps_enter {config : ProjectConfig} (h : r.get? name = some ⟨config, .unresolved⟩) :
    r.Keeps (r.enter name) := by
  intro n p plan he
  have hne : n ≠ name := by
    rintro rfl
    cases h.symm.trans he
  rw [get?_enter_of_ne hne, he]

theorem keeps_leave {config : ProjectConfig} (h : r.get? name = some ⟨config, .inProgress⟩)
    (result : Except CompileError ProjectPlan) : r.Keeps (r.leave name result) := by
  intro n p plan he
  have hne : n ≠ name := by
    rintro rfl
    cases h.symm.trans he
  rw [get?_leave_of_ne hne, he]

end Registry

end BuildPlan
