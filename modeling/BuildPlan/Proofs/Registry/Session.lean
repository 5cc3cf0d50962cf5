import BuildPlan.Proofs.Registry.Consistency

/-!
# Sessions

A session follows a registry through everything that callers and assemblies do with it.  Whoever is in
control registers a project, asks for one, or ends its assembly; which of these it does, and what it
makes of the answers, is left open.  So a list of actions is a run, finished or not, of some caller with
some assemblers, nested as deeply as they like, and every registry that one of them sees is the registry
of a session.
-/

namespace BuildPlan

/-- What the code in control of a registry does next. -/
inductive Action where
  | register (config : ProjectConfig)
  | resolve (name : String)
  /-- The innermost assembly ends. -/
  | finish (result : Except CompileError ProjectPlan)

/-- A registry and the projects whose assembly has been called, innermost first.  Without any, the
caller is in control. -/
structure Session where
  registry : Registry := {}
  frames : List String := []

namespace Session

/-- Takes one action.  To ask for a project leads into its assembly if the project is unresolved;
otherwise there is an answer at once. -/
def act (s : Session) : Action → Session
  | .register config =>
    match s.registry.register config with
    | .ok r => { s with registry := r }
    | .error _ => s
  | .resolve name =>
    match s.registry.get? name with
    | some ⟨_, .unresolved⟩ => ⟨s.registry.enter name, name :: s.frames⟩
    | _ => s
  | .finish result =>
    match s.frames with
    | [] => s
    | name :: rest => ⟨s.registry.leave name result, rest⟩

/-- Takes actions in order. -/
def run (s : Session) (actions : List Action) : Session :=
  actions.foldl act s

variable {s : Session} {name : String} {plan : ProjectPlan}

/-! ### What an action can do -/

theorem act_resolve {config : ProjectConfig}
    (h : s.registry.get? name = some ⟨config, .unresolved⟩) :
    s.act (.resolve name) = ⟨s.registry.enter name, name :: s.frames⟩ := by
  simp only [act, h]

/-- An answer that is there at once changes nothing. -/
theorem act_resolve_of_state?_ne (h : s.registry.state? name ≠ some .unresolved) :
    s.act (.resolve name) = s := by
  cases he : s.registry.get? name with
  | none => simp only [act, he]
  | some e =>
    obtain ⟨config, state⟩ := e
    have hs := Registry.state?_of_get? he
    cases state with
    | unresolved => exact absurd hs h
    | inProgress => simp only [act, he]
    | resolved plan => simp only [act, he]

/-- An action changes nothing, or a project is registered, or an assembly begins, or the innermost
one ends. -/
theorem act_cases (s : Session) (a : Action) :
    s.act a = s ∨
    (∃ config r, s.registry.register config = .ok r ∧ s.act a = ⟨r, s.frames⟩) ∨
    (∃ name config, s.registry.get? name = some ⟨config, .unresolved⟩ ∧
      s.act a = ⟨s.registry.enter name, name :: s.frames⟩) ∨
    (∃ name rest result, s.frames = name :: rest ∧
      s.act a = ⟨s.registry.leave name result, rest⟩) := by
  cases a with
  | register config =>
    cases h : s.registry.register config with
    | ok r => exact Or.inr (Or.inl ⟨config, r, h, by simp only [act, h]⟩)
    | error e => exact Or.inl (by simp only [act, h])
  | resolve name =>
    -- only a project that is unresolved leads into an assembly
    by_cases h : s.registry.state? name = some .unresolved
    · obtain ⟨config, he⟩ := Registry.state?_eq_some_iff.mp h
      exact Or.inr (Or.inr (Or.inl ⟨name, config, he, act_resolve he⟩))
    · exact Or.inl (act_resolve_of_state?_ne h)
  | finish result =>
    cases h : s.frames with
    | nil => exact Or.inl (by simp only [act, h])
    | cons name rest => exact Or.inr (Or.inr (Or.inr ⟨name, rest, result, rfl, by simp only [act, h]⟩))

/-! ### The invariant -/

/-- The registry is consistent, and its stack holds the assemblies that have been called. -/
structure Valid (s : Session) : Prop where
  consistent : s.registry.Consistent
  stack_eq : s.registry.stack = s.frames.reverse

theorem valid_start : Valid {} :=
  ⟨Registry.consistent_empty, rfl⟩

namespace Valid

theorem state?_of_mem_frames (h : s.Valid) (hn : name ∈ s.frames) :
    s.registry.state? name = some .inProgress := by
  rw [← h.consistent.mem_stack_iff, h.stack_eq]
  exact List.mem_reverse.mpr hn

/-- One action keeps the invariant. -/
theorem act (h : s.Valid) (a : Action) : (s.act a).Valid := by
  rcases s.act_cases a with ha | ⟨config, r, hr, ha⟩ | ⟨name, config, he, ha⟩ |
    ⟨name, rest, result, hf, ha⟩
  · rw [ha]
    exact h
  · rw [ha]
    refine ⟨h.consistent.register hr, ?_⟩
    obtain ⟨-, rfl⟩ := Registry.register_eq_ok_iff.mp hr
    exact h.stack_eq
  · rw [ha]
    refine ⟨h.consistent.enter he, ?_⟩
    rw [Registry.stack_enter, h.stack_eq, List.reverse_cons]
  · rw [ha]
    -- the assembly that ends is the innermost one, so its name is the last on the stack
    have hs : s.registry.stack = rest.reverse ++ [name] := by
      rw [h.stack_eq, hf, List.reverse_cons]
    refine ⟨h.consistent.leave hs result, ?_⟩
    rw [Registry.stack_leave, hs, List.dropLast_concat]

/-- A run keeps the invariant. -/
theorem run (h : s.Valid) (actions : List Action) : (s.run actions).Valid := by
  induction actions generalizing s with
  | nil => exact h
  | cons a rest ih => exact ih (h.act a)

/-- One action leaves the resolved projects as they are. -/
theorem keeps_act (h : s.Valid) (a : Action) : s.registry.Keeps (s.act a).registry := by
  rcases s.act_cases a with ha | ⟨config, r, hr, ha⟩ | ⟨n, config, he, ha⟩ |
    ⟨n, rest, result, hf, ha⟩
  · rw [ha]
    exact fun _ _ _ he => he
  · rw [ha]
    exact Registry.keeps_register hr
  · rw [ha]
    exact Registry.keeps_enter he
  · -- the project whose assembly ends was under way, so it is none of the resolved ones
    obtain ⟨config, hi⟩ := Registry.state?_eq_some_iff.mp
      (h.state?_of_mem_frames (hf ▸ List.mem_cons_self : n ∈ s.frames))
    rw [ha]
    exact Registry.keeps_leave hi result

/-- A run leaves a resolved project as it is. -/
theorem resolved_run (h : s.Valid) (hp : s.registry.state? name = some (.resolved plan))
    (actions : List Action) : (s.run actions).registry.state? name = some (.resolved plan) := by
  rw [← Registry.plan?_eq_some_iff] at hp ⊢
  induction actions generalizing s with
  | nil => exact hp
  | cons a rest ih => exact ih (h.act a) ((h.keeps_act a).plan?_eq hp)

/-- A resolved project is not under way, and to ask for it does not lead into its assembly. -/
theorem not_assembled_of_resolved (h : s.Valid)
    (hp : s.registry.state? name = some (.resolved plan)) :
    name ∉ s.frames ∧ s.act (.resolve name) = s := by
  refine ⟨fun hn => ?_, act_resolve_of_state?_ne ?_⟩
  · have hi := (h.state?_of_mem_frames hn).symm.trans hp
    cases hi
  · rw [hp]
    simp

/-- Between the calls of the caller nothing is under way. -/
theorem idle_of_frames_eq_nil (h : s.Valid) (hf : s.frames = []) :
    s.registry.stack = [] ∧ ∀ name, s.registry.state? name ≠ some .inProgress := by
  have hs : s.registry.stack = [] := by rw [h.stack_eq, hf, List.reverse_nil]
  refine ⟨hs, fun name hn => ?_⟩
  have := (h.consistent.mem_stack_iff name).mpr hn
  rw [hs] at this
  cases this

end Valid

end Session

end BuildPlan
