import BuildPlan.Proofs.Registry.Lookup
import BuildPlan.Registry.Resolution

/-!
# What a resolution comes to

The cases of `resolveWithin` by the state of the project that is asked for, and of `resolve`, which no
depth bounds.  A resolution that comes to an end within some depth comes to the same within any greater
depth, so `resolve` resolves the projects inside of an assembly by itself (`resolve_of_unresolved`).
-/

namespace BuildPlan

variable {ε : Type}

namespace Assembler

variable {a : Assembler ε} {depth : ℕ} {r : Registry} {name : String} {config : ProjectConfig}
  {plan : ProjectPlan} {o : Outcome ε ProjectPlan}

/-! ### Answers within a depth -/

theorem resolveWithin_of_none (a : Assembler ε) (depth : ℕ) (h : r.get? name = none) :
    a.resolveWithin depth r name = some ⟨.error (.unknownDependency name), r, []⟩ := by
  unfold resolveWithin
  rw [h]

theorem resolveWithin_of_resolved (a : Assembler ε) (depth : ℕ)
    (h : r.get? name = some ⟨config, .resolved plan⟩) :
    a.resolveWithin depth r name = some ⟨.ok plan, r, []⟩ := by
  unfold resolveWithin
  rw [h]

theorem resolveWithin_of_inProgress (a : Assembler ε) (depth : ℕ)
    (h : r.get? name = some ⟨config, .inProgress⟩) :
    a.resolveWithin depth r name = some ⟨.error (.dependencyCycle (r.loop name)), r,
      [a.report (.loopFound name (r.loop name))]⟩ := by
  unfold resolveWithin
  rw [h]

theorem resolveWithin_zero_of_unresolved (a : Assembler ε)
    (h : r.get? name = some ⟨config, .unresolved⟩) : a.resolveWithin 0 r name = none := by
  unfold resolveWithin
  rw [h]

theorem resolveWithin_succ_of_unresolved (a : Assembler ε) (depth : ℕ)
    (h : r.get? name = some ⟨config, .unresolved⟩) :
    a.resolveWithin (depth + 1) r name =
      ((a.assemble config).run (a.resolveWithin depth) (r.enter name)).map fun o =>
        { result := o.result
          registry := o.registry.leave name o.result
          events := a.report (.resolving name) :: o.events } := by
  rw [resolveWithin]
  rw [h]

/-- A resolution is answered at once, or the project is unresolved and its assembly comes to an end
within one depth less. -/
theorem resolveWithin_cases (h : a.resolveWithin depth r name = some o) :
    (r.get? name = none ∧ o = ⟨.error (.unknownDependency name), r, []⟩) ∨
    (∃ config plan, r.get? name = some ⟨config, .resolved plan⟩ ∧ o = ⟨.ok plan, r, []⟩) ∨
    (∃ config, r.get? name = some ⟨config, .inProgress⟩ ∧
      o = ⟨.error (.dependencyCycle (r.loop name)), r,
        [a.report (.loopFound name (r.loop name))]⟩) ∨
    (∃ config below o', r.get? name = some ⟨config, .unresolved⟩ ∧ depth = below + 1 ∧
      (a.assemble config).run (a.resolveWithin below) (r.enter name) = some o' ∧
      o = ⟨o'.result, o'.registry.leave name o'.result,
        a.report (.resolving name) :: o'.events⟩) := by
  cases he : r.get? name with
  | none =>
    rw [resolveWithin_of_none a depth he] at h
    exact Or.inl ⟨rfl, (Option.some.inj h).symm⟩
  | some e =>
    obtain ⟨config, state⟩ := e
    cases state with
    | resolved plan =>
      rw [resolveWithin_of_resolved a depth he] at h
      exact Or.inr (Or.inl ⟨config, plan, rfl, (Option.some.inj h).symm⟩)
    | inProgress =>
      rw [resolveWithin_of_inProgress a depth he] at h
      exact Or.inr (Or.inr (Or.inl ⟨config, rfl, (Option.some.inj h).symm⟩))
    | unresolved =>
      cases depth with
      | zero =>
        -- an assembly needs a depth of at least 1
        rw [resolveWithin_zero_of_unresolved a he] at h
        cases h
      | succ below =>
        rw [resolveWithin_succ_of_unresolved a below he] at h
        obtain ⟨o', h', rfl⟩ := Option.map_eq_some_iff.mp h
        exact Or.inr (Or.inr (Or.inr ⟨config, below, o', rfl, rfl, h', rfl⟩))

/-- To prove something of every resolution that comes to an end, follow it into the assembly and suppose
it of all resolutions there. -/
theorem resolveWithin_induction (a : Assembler ε)
    {motive : ℕ → Registry → String → Outcome ε ProjectPlan → Prop}
    (unknown : ∀ depth r name, r.get? name = none →
      motive depth r name ⟨.error (.unknownDependency name), r, []⟩)
    (resolved : ∀ depth r name config plan, r.get? name = some ⟨config, .resolved plan⟩ →
      motive depth r name ⟨.ok plan, r, []⟩)
    (underWay : ∀ depth r name config, r.get? name = some ⟨config, .inProgress⟩ →
      motive depth r name ⟨.error (.dependencyCycle (r.loop name)), r,
        [a.report (.loopFound name (r.loop name))]⟩)
    (assembled : ∀ depth r name config o, r.get? name = some ⟨config, .unresolved⟩ →
      (∀ r n o, a.resolveWithin depth r n = some o → motive depth r n o) →
      (a.assemble config).run (a.resolveWithin depth) (r.enter name) = some o →
      motive (depth + 1) r name
        ⟨o.result, o.registry.leave name o.result, a.report (.resolving name) :: o.events⟩)
    (depth : ℕ) (r : Registry) (name : String) (o : Outcome ε ProjectPlan)
    (h : a.resolveWithin depth r name = some o) : motive depth r name o := by
  induction depth generalizing r name o with
  | zero =>
    rcases resolveWithin_cases h with
      ⟨he, rfl⟩ | ⟨config, plan, he, rfl⟩ | ⟨config, he, rfl⟩ | ⟨_, _, _, _, hd, _⟩
    · exact unknown 0 r name he
    · exact resolved 0 r name config plan he
    · exact underWay 0 r name config he
    · cases hd
  | succ depth ih =>
    rcases resolveWithin_cases h with
      ⟨he, rfl⟩ | ⟨config, plan, he, rfl⟩ | ⟨config, he, rfl⟩ | ⟨config, _, o', he, hd, hrun, rfl⟩
    · exact unknown _ r name he
    · exact resolved _ r name config plan he
    · exact underWay _ r name config he
    · cases hd
      exact assembled depth r name config o' he ih hrun

end Assembler

/-! ### Resolutions inside of a script -/

/-- A script that has a project resolved comes to an end if the resolution does and then the rest. -/
theorem Script.run_resolve_eq_some_iff
    {nested : Registry → String → Option (Outcome ε ProjectPlan)} {name : String}
    {next : Except CompileError ProjectPlan → Script ε} {r : Registry} {o : Outcome ε ProjectPlan} :
    (Script.resolve name next).run nested r = some o ↔
      ∃ o₁ o₂, nested r name = some o₁ ∧ (next o₁.result).run nested o₁.registry = some o₂ ∧
        o₂.after o₁.events = o := by
  simp only [run]
  cases nested r name with
  | none =>
    constructor
    · intro h
      cases h
    · rintro ⟨o₁, o₂, h₁, -⟩
      cases h₁
  | some o₁ =>
    constructor
    · intro h
      obtain ⟨o₂, h₂, ho⟩ := Option.map_eq_some_iff.mp h
      exact ⟨o₁, o₂, rfl, h₂, ho⟩
    · rintro ⟨_, o₂, ⟨⟩, h₂, ho⟩
      exact Option.map_eq_some_iff.mpr ⟨o₂, h₂, ho⟩

/-! ### No depth is too great -/

/-- A run that comes to an end does so with every way to resolve that answers as much. -/
theorem Script.run_mono {nested nested' : Registry → String → Option (Outcome ε ProjectPlan)}
    (hn : ∀ r name o, nested r name = some o → nested' r name = some o) (s : Script ε)
    (r : Registry) (o : Outcome ε ProjectPlan) (h : s.run nested r = some o) :
    s.run nested' r = some o := by
  induction s generalizing r o with
  | finish result => exact h
  | emit event next ih =>
    obtain ⟨o₁, h₁, rfl⟩ := Option.map_eq_some_iff.mp h
    rw [run, ih r o₁ h₁, Option.map_some]
  | inspect next ih => exact ih r r o h
  | register config next ih =>
    simp only [run] at h ⊢
    split at h
    · exact ih _ _ o h
    · exact ih _ _ o h
  | resolve name next ih =>
    -- the answer is the same by `hn`, and so is what comes behind it
    obtain ⟨o₁, o₂, h₁, h₂, ho⟩ := run_resolve_eq_some_iff.mp h
    exact run_resolve_eq_some_iff.mpr ⟨o₁, o₂, hn r name o₁ h₁, ih _ _ o₂ h₂, ho⟩

namespace Assembler

variable {a : Assembler ε} {r : Registry} {name : String} {config : ProjectConfig}
  {plan : ProjectPlan} {o : Outcome ε ProjectPlan}

theorem resolveWithin_succ {depth : ℕ} (h : a.resolveWithin depth r name = some o) :
    a.resolveWithin (depth + 1) r name = some o := by
  refine a.resolveWithin_induction
    (motive := fun depth r name o => a.resolveWithin (depth + 1) r name = some o)
    (fun depth r name he => ?_) (fun depth r name config plan he => ?_)
    (fun depth r name config he => ?_) (fun depth r name config o he ih hrun => ?_) depth r name o h
  · exact resolveWithin_of_none a _ he
  · exact resolveWithin_of_resolved a _ he
  · exact resolveWithin_of_inProgress a _ he
  · rw [resolveWithin_succ_of_unresolved a _ he, Script.run_mono ih _ _ o hrun, Option.map_some]

theorem resolveWithin_mono {depth depth' : ℕ} (hd : depth ≤ depth')
    (h : a.resolveWithin depth r name = some o) : a.resolveWithin depth' r name = some o := by
  induction hd with
  | refl => exact h
  | step _ ih => exact resolveWithin_succ ih

/-- Whenever a resolution comes to an end within some depth, `resolve` comes to the same. -/
theorem resolve_eq_of_resolveWithin (ha : a.RegistersNothing) {depth : ℕ}
    (h : a.resolveWithin depth r name = some o) : a.resolve ha r name = o := by
  have hr := resolveWithin_isSome ha r.unresolvedCount r name (Nat.le_refl _)
  have h₁ := resolveWithin_mono (Nat.le_max_left depth r.unresolvedCount) h
  have h₂ := resolveWithin_mono (Nat.le_max_right depth r.unresolvedCount) (Option.some_get hr).symm
  exact Option.some.inj (h₂.symm.trans h₁)

theorem resolveWithin_eq_resolve (ha : a.RegistersNothing) (r : Registry) (name : String) :
    a.resolveWithin r.unresolvedCount r name = some (a.resolve ha r name) :=
  (Option.some_get (resolveWithin_isSome ha _ r name (Nat.le_refl _))).symm

/-! ### Answers without a depth -/

theorem resolve_of_none (ha : a.RegistersNothing) (h : r.get? name = none) :
    a.resolve ha r name = ⟨.error (.unknownDependency name), r, []⟩ :=
  resolve_eq_of_resolveWithin ha (resolveWithin_of_none a 0 h)

theorem resolve_of_resolved (ha : a.RegistersNothing)
    (h : r.get? name = some ⟨config, .resolved plan⟩) :
    a.resolve ha r name = ⟨.ok plan, r, []⟩ :=
  resolve_eq_of_resolveWithin ha (resolveWithin_of_resolved a 0 h)

theorem resolve_of_inProgress (ha : a.RegistersNothing)
    (h : r.get? name = some ⟨config, .inProgress⟩) :
    a.resolve ha r name = ⟨.error (.dependencyCycle (r.loop name)), r,
      [a.report (.loopFound name (r.loop name))]⟩ :=
  resolve_eq_of_resolveWithin ha (resolveWithin_of_inProgress a 0 h)

/-- An unresolved project is assembled, and `resolve` itself answers inside of the assembly. -/
theorem resolve_of_unresolved (ha : a.RegistersNothing)
    (h : r.get? name = some ⟨config, .unresolved⟩) :
    ∃ o, (a.assemble config).run (fun r n => some (a.resolve ha r n)) (r.enter name) = some o ∧
      a.resolve ha r name = ⟨o.result, o.registry.leave name o.result,
        a.report (.resolving name) :: o.events⟩ := by
  have hw := resolveWithin_eq_resolve ha r name
  rcases resolveWithin_cases hw with
    ⟨he, _⟩ | ⟨_, _, he, _⟩ | ⟨_, he, _⟩ | ⟨_, below, o', he, _, hrun, ho⟩
  · cases he.symm.trans h
  · cases he.symm.trans h
  · cases he.symm.trans h
  · cases he.symm.trans h
    -- an answer within some depth is the answer of `resolve`
    refine ⟨o', Script.run_mono (fun r n o hn => ?_) _ _ o' hrun, ho⟩
    rw [resolve_eq_of_resolveWithin ha hn]

end Assembler

end BuildPlan
