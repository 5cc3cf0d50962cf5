import BuildPlan.Proofs.Registry.Consistency

/-!
# Progress

What a resolution, finished or failed, has done to a registry: some projects that were unresolved have
been resolved, one after the other, and everything else is as it was.
-/

namespace BuildPlan

namespace Registry

/-- From `r` to `r'` the listed projects have been resolved, in this order, and nothing else has
changed. -/
structure Resolves (r : Registry) (added : List String) (r' : Registry) : Prop where
  configs_eq : r'.entries.map RegistryEntry.config = r.entries.map RegistryEntry.config
  names_eq : r'.names = r.names
  stack_eq : r'.stack = r.stack
  resolvedNames_eq : r'.resolvedNames = r.resolvedNames ++ added
  unresolved : ∀ n ∈ added, r.state? n = some .unresolved
  resolved : ∀ n ∈ added, ∃ plan, r'.state? n = some (.resolved plan)
  others : ∀ n, n ∉ added → r'.get? n = r.get? n

namespace Resolves

variable {r r' r'' : Registry} {added more : List String} {name n : String} {config : ProjectConfig}
  {plan : ProjectPlan}

theorem refl (r : Registry) : r.Resolves [] r where
  configs_eq := rfl
  names_eq := rfl
  stack_eq := rfl
  resolvedNames_eq := (List.append_nil _).symm
  unresolved _ hn := (List.not_mem_nil hn).elim
  resolved _ hn := (List.not_mem_nil hn).elim
  others _ _ := rfl

theorem config_eq (h : r.Resolves added r') : r'.config? = r.config? := by
  funext n
  rw [config?_eq_find?, config?_eq_find?, h.configs_eq]

/-- What was not unresolved is as it was. -/
theorem get?_eq (h : r.Resolves added r') {s : Resolution} (hs : r.state? n = some s)
    (hu : s ≠ .unresolved) : r'.get? n = r.get? n := by
  refine h.others n fun hn => hu ?_
  have := (h.unresolved n hn).symm.trans hs
  exact (Option.some.inj this).symm

theorem state?_eq (h : r.Resolves added r') {s : Resolution} (hs : r.state? n = some s)
    (hu : s ≠ .unresolved) : r'.state? n = some s := by
  rw [state?, h.get?_eq hs hu]
  exact hs

theorem trans (h : r.Resolves added r') (h' : r'.Resolves more r'') :
    r.Resolves (added ++ more) r'' where
  configs_eq := h'.configs_eq.trans h.configs_eq
  names_eq := h'.names_eq.trans h.names_eq
  stack_eq := h'.stack_eq.trans h.stack_eq
  resolvedNames_eq := by
    rw [h'.resolvedNames_eq, h.resolvedNames_eq, List.append_assoc]
  unresolved n hn := by
    by_cases ha : n ∈ added
    · exact h.unresolved n ha
    · -- the first run has not touched what the second one found unresolved
      have hm : n ∈ more := (List.mem_append.mp hn).resolve_left ha
      have := h'.unresolved n hm
      rwa [state?, h.others n ha] at this
  resolved n hn := by
    rcases List.mem_append.mp hn with ha | hm
    · obtain ⟨plan, hp⟩ := h.resolved n ha
      exact ⟨plan, h'.state?_eq hp (by simp)⟩
    · exact h'.resolved n hm
  others n hn := by
    rw [List.mem_append, not_or] at hn
    rw [h'.others n hn.2, h.others n hn.1]

theorem unresolved_of_unresolved (h : r.Resolves added r')
    (hu : r'.state? n = some .unresolved) : r.state? n = some .unresolved := by
  by_cases hn : n ∈ added
  · exact h.unresolved n hn
  · rwa [state?, h.others n hn] at hu

/-! ### Around an assembly -/

section Assembly

variable (he : r.get? name = some ⟨config, .unresolved⟩) (h : (r.enter name).Resolves added r')
include he h

/-- The project whose assembly is under way is not resolved inside of it. -/
theorem notMem_of_enter : name ∉ added := by
  intro hn
  have hu := h.unresolved name hn
  rw [state?_enter he, if_pos rfl] at hu
  cases hu

theorem get?_of_enter : r'.get? name = some ⟨config, .inProgress⟩ := by
  rw [h.others name (notMem_of_enter he h), get?_enter_self he]

theorem unresolved_of_enter (hn : n ∈ added) : r.state? n = some .unresolved := by
  have hne : n ≠ name := fun hc => notMem_of_enter he h (hc ▸ hn)
  have hu := h.unresolved n hn
  rwa [state?_enter he, if_neg hne] at hu

/-- A project that succeeds is resolved last. -/
theorem leave_ok (plan : ProjectPlan) :
    r.Resolves (added ++ [name]) (r'.leave name (.ok plan)) := by
  have hi := state?_of_get? (get?_of_enter he h)
  refine ⟨?_, ?_, ?_, ?_, fun n hn => ?_, fun n hn => ?_, fun n hn => ?_⟩
  · rw [configs_leave, h.configs_eq, configs_enter]
  · rw [names_leave, h.names_eq, names_enter]
  · rw [stack_leave, h.stack_eq, stack_enter, List.dropLast_concat]
  · rw [resolvedNames_leave_ok, h.resolvedNames_eq, resolvedNames_enter, List.append_assoc]
  · rcases List.mem_append.mp hn with ha | hm
    · exact unresolved_of_enter he h ha
    · cases List.mem_singleton.mp hm
      exact state?_of_get? he
  · rw [state?_leave hi]
    -- the project itself, or one that has been resolved inside of its assembly
    split
    · exact ⟨plan, rfl⟩
    · next hne =>
      refine h.resolved n ((List.mem_append.mp hn).resolve_right ?_)
      exact fun hm => hne (List.mem_singleton.mp hm)
  · rw [List.mem_append, List.mem_singleton, not_or] at hn
    rw [get?_leave_of_ne hn.2, h.others n hn.1, get?_enter_of_ne hn.2]

/-- A project that fails is as it was. -/
theorem leave_error (e : CompileError) : r.Resolves added (r'.leave name (.error e)) := by
  have hi := get?_of_enter he h
  have hs := state?_of_get? hi
  refine ⟨?_, ?_, ?_, ?_, fun n hn => unresolved_of_enter he h hn, fun n hn => ?_, fun n hn => ?_⟩
  · rw [configs_leave, h.configs_eq, configs_enter]
  · rw [names_leave, h.names_eq, names_enter]
  · rw [stack_leave, h.stack_eq, stack_enter, List.dropLast_concat]
  · rw [resolvedNames_leave_error, h.resolvedNames_eq, resolvedNames_enter]
  · have hne : n ≠ name := fun hc => notMem_of_enter he h (hc ▸ hn)
    rw [state?_leave hs, if_neg hne]
    exact h.resolved n hn
  · by_cases hne : n = name
    · subst hne
      rw [get?_leave_self hi, he]
      rfl
    · rw [get?_leave_of_ne hne, h.others n hn, get?_enter_of_ne hne]

/-- However an assembly ends, nothing has happened but that projects have been resolved. -/
theorem exists_leave (result : Except CompileError ProjectPlan) :
    ∃ added, r.Resolves added (r'.leave name result) := by
  cases result with
  | ok plan => exact ⟨_, leave_ok he h plan⟩
  | error e => exact ⟨added, leave_error he h e⟩

end Assembly

end Resolves

/-- What is still unresolved inside of an assembly was so before, and is another project. -/
theorem unresolved_of_state?_enter {r : Registry} {name n : String} {config : ProjectConfig}
    (he : r.get? name = some ⟨config, .unresolved⟩)
    (h : (r.enter name).state? n = some .unresolved) : n ≠ name ∧ r.state? n = some .unresolved := by
  rw [state?_enter he] at h
  split at h
  · cases h
  · next hne => exact ⟨hne, h⟩

end Registry

end BuildPlan
