import BuildPlan.Proofs.Project.Ancestry

/-!
# Registries with further projects

Projects may be registered behind those that a registry has.  As long as nobody asks for one of them, they
are not seen: looking a name up, beginning an assembly and ending it are the same with them and without.
-/

namespace BuildPlan

namespace Registry

/-- The registry with further projects, all of them unresolved. -/
def extend (r : Registry) (more : List ProjectConfig) : Registry :=
  { r with
    entries := r.entries ++ more.map fun p => ⟨p, .unresolved⟩
    order := r.order ++ more.map ProjectConfig.name }

variable {r r' : Registry} {more : List ProjectConfig} {p : ProjectConfig} {e : RegistryEntry}
  {name parent : String}

@[simp] theorem extend_nil (r : Registry) : r.extend [] = r := by
  simp [extend]

theorem fresh_append (configs more : List ProjectConfig) :
    fresh (configs ++ more) = (fresh configs).extend more := by
  simp [fresh, extend]

theorem names_extend (r : Registry) (more : List ProjectConfig) :
    (r.extend more).names = r.names ++ more.map ProjectConfig.name := rfl

theorem keys_extend (r : Registry) (more : List ProjectConfig) :
    (r.extend more).keys = r.keys ++ more.map ProjectConfig.name := by
  simp [keys, extend]

theorem register_eq_extend (h : p.name ∉ r.keys) : r.register p = .ok (r.extend [p]) :=
  register_of_notMem h

/-- Projects that can be registered one after the other have new and different names. -/
theorem nodup_of_foldlM_register (hr : r.keys.Nodup) {configs : List ProjectConfig}
    (h : configs.foldlM register r = .ok r') :
    (r.keys ++ configs.map ProjectConfig.name).Nodup := by
  induction configs generalizing r with
  | nil => simpa using hr
  | cons p rest ih =>
    rw [List.foldlM_cons] at h
    by_cases hp : p.name ∈ r.keys
    · rw [register_of_mem hp] at h
      cases h
    · have hnd : (r.extend [p]).keys.Nodup := by
        simpa [keys_extend] using hr.concat hp
      rw [register_eq_extend hp] at h
      have hrest := ih hnd h
      simpa [keys_extend] using hrest

theorem ofConfigs_eq_ok_iff {configs : List ProjectConfig} :
    ofConfigs configs = .ok r ↔ (configs.map ProjectConfig.name).Nodup ∧ r = fresh configs := by
  constructor
  · intro h
    have hnd : (configs.map ProjectConfig.name).Nodup :=
      nodup_of_foldlM_register (r := {}) List.nodup_nil h
    exact ⟨hnd, Except.ok.inj (h.symm.trans (ofConfigs_of_nodup hnd))⟩
  · rintro ⟨hnd, rfl⟩
    exact ofConfigs_of_nodup hnd

/-! ### Names that are not among the further projects -/

theorem get?_extend_of_notMem (h : name ∉ more.map ProjectConfig.name) :
    (r.extend more).get? name = r.get? name := by
  have hnone : (more.map fun p => (⟨p, .unresolved⟩ : RegistryEntry)).find?
      (fun e => e.config.name == name) = none := by
    rw [List.find?_eq_none]
    intro e he hname
    obtain ⟨p, hp, rfl⟩ := List.mem_map.mp he
    exact h (List.mem_map.mpr ⟨p, hp, eq_of_beq hname⟩)
  show (r.entries ++ _).find? _ = _
  rw [List.find?_append, hnone, Option.or_none]
  rfl

theorem setState_append_of_notMem (es : List RegistryEntry) (s : Resolution)
    (h : name ∉ more.map ProjectConfig.name) :
    setState name s (es ++ more.map fun p => ⟨p, .unresolved⟩) =
      setState name s es ++ more.map fun p => ⟨p, .unresolved⟩ := by
  induction es with
  | nil =>
    -- behind the end stand only further projects, and none of them is the one to be changed
    induction more with
    | nil => rfl
    | cons p rest ih =>
      rw [List.map_cons, List.mem_cons, not_or] at h
      show setState name s (_ :: _) = _ :: _
      rw [setState, if_neg (Ne.symm h.1)]
      exact congrArg _ (ih h.2)
  | cons e rest ih =>
    rw [List.cons_append]
    unfold setState
    split
    · rfl
    · rw [ih, List.cons_append]

theorem enter_extend (r : Registry) (h : name ∉ more.map ProjectConfig.name) :
    (r.extend more).enter name = (r.enter name).extend more := by
  simp only [enter, extend, setState_append_of_notMem _ _ h]

theorem leave_extend (r : Registry) (h : name ∉ more.map ProjectConfig.name)
    (result : Except CompileError ProjectPlan) :
    (r.extend more).leave name result = (r.leave name result).extend more := by
  cases result with
  | ok plan => simp only [leave, extend, setState_append_of_notMem _ _ h]
  | error e => simp only [leave, extend, setState_append_of_notMem _ _ h]

/-! ### What was registered before -/

theorem get?_extend_of_some (h : r.get? name = some e) : (r.extend more).get? name = some e := by
  show (r.entries ++ _).find? _ = _
  rw [List.find?_append]
  show (r.get? name).or _ = _
  rw [h, Option.some_or]

theorem keeps_extend (r : Registry) (more : List ProjectConfig) : r.Keeps (r.extend more) :=
  fun _ _ _ he => get?_extend_of_some he

theorem Resolves.keeps {added : List String} (h : r.Resolves added r') : r.Keeps r' :=
  fun _ _ _ he => (h.get?_eq (state?_of_get? he) (by simp)).trans he

theorem Keeps.trans {r'' : Registry} (h : r.Keeps r') (h' : r'.Keeps r'') : r.Keeps r'' :=
  fun _ _ _ he => h' (h he)

/-- The plans that are there are found under the names of the resolved projects. -/
theorem Keeps.filterMap_plan? (h : r.Keeps r') (hc : r.Consistent) :
    r.resolvedNames.filterMap r'.plan? = r.plans := by
  refine List.filterMap_congr fun n hn => ?_
  obtain ⟨plan, hs⟩ := (hc.mem_resolved_iff n).mp hn
  have hp : r.plan? n = some plan := plan?_eq_some_iff.mpr hs
  rw [hp, h.plan?_eq hp]

/-- Where plans are kept and projects are resolved behind those that are there, plans are added behind
those that are there. -/
theorem Keeps.plans_prefix (h : r.Keeps r') (hc : r.Consistent)
    (hl : r.resolvedNames <+: r'.resolvedNames) : r.plans <+: r'.plans := by
  rw [← h.filterMap_plan? hc]
  exact hl.filterMap r'.plan?

end Registry

end BuildPlan
