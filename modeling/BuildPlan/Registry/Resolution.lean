import BuildPlan.Registry.Script

/-!
# Resolution

A project is resolved by assembling it once; the assembly may ask for other projects, which are then
resolved inside of it.  A project that is asked for while its own assembly is under way is a loop.

`Assembler.resolveWithin` bounds how deep assemblies may nest.  An assembler that registers nothing
never nests deeper than the number of unresolved projects (`resolveWithin_isSome`), since every nested
assembly has one more project under way; `Assembler.resolve` is the resolution for such an assembler.
-/

namespace BuildPlan

namespace Assembler

variable {ε : Type}

/-- Resolves a project with at most `depth` assemblies inside each other, or gives up. -/
def resolveWithin (a : Assembler ε) :
    Nat → Registry → String → Option (Outcome ε ProjectPlan)
  | depth, r, name =>
    match r.get? name with
    | none => some ⟨.error (.unknownDependency name), r, []⟩
    | some ⟨_, .resolved plan⟩ => some ⟨.ok plan, r, []⟩
    | some ⟨_, .inProgress⟩ =>
      some ⟨.error (.dependencyCycle (r.loop name)), r, [a.report (.loopFound name (r.loop name))]⟩
    | some ⟨config, .unresolved⟩ =>
      match depth with
      | 0 => none
      | depth + 1 =>
        ((a.assemble config).run (resolveWithin a depth) (r.enter name)).map fun o =>
          { result := o.result
            registry := o.registry.leave name o.result
            events := a.report (.resolving name) :: o.events }

/-- No assembly registers a project. -/
def RegistersNothing (a : Assembler ε) : Prop :=
  ∀ config, (a.assemble config).RegistersNothing

end Assembler

/-! ### Unresolved projects -/

namespace Registry

theorem countP_setState_le (name : String) (state : Resolution) (es : List RegistryEntry) :
    (setState name state es).countP (fun e => e.state == .unresolved) ≤
      es.countP (fun e => e.state == .unresolved) + 1 := by
  induction es with
  | nil => simp [setState]
  | cons e rest ih =>
    unfold setState
    split
    · simp only [List.countP_cons]
      split <;> split <;> omega
    · simp only [List.countP_cons]
      omega

theorem unresolvedCount_leave_le (r : Registry) (name : String)
    (result : Except CompileError ProjectPlan) :
    (r.leave name result).unresolvedCount ≤ r.unresolvedCount + 1 := by
  cases result <;> exact countP_setState_le _ _ _

theorem unresolvedCount_enter_lt {r : Registry} {name : String} {config : ProjectConfig}
    (h : r.get? name = some ⟨config, .unresolved⟩) :
    (r.enter name).unresolvedCount < r.unresolvedCount := by
  obtain ⟨es, _, _, _⟩ := r
  simp only [get?, enter, unresolvedCount] at h ⊢
  induction es with
  | nil => simp at h
  | cons e rest ih =>
    unfold setState
    -- the entry that is found is the one that is changed
    by_cases hn : e.config.name = name
    · simp only [List.find?_cons, hn, beq_self_eq_true, Option.some.injEq] at h
      have hs : e.state = .unresolved := by rw [h]
      simp [hn, hs]
    · have hb : (e.config.name == name) = false := by simpa using hn
      simp only [List.find?_cons, hb] at h
      simp only [hn, if_false, List.countP_cons]
      have := ih h
      omega

end Registry

namespace Script

variable {ε : Type} {nested : Registry → String → Option (Outcome ε ProjectPlan)}

/-- A run does not add unresolved projects if no resolution inside of it does. -/
theorem unresolvedCount_run_le
    (hn : ∀ r name o, nested r name = some o → o.registry.unresolvedCount ≤ r.unresolvedCount) :
    ∀ (s : Script ε) (_ : s.RegistersNothing) (r : Registry) (o : Outcome ε ProjectPlan),
      s.run nested r = some o → o.registry.unresolvedCount ≤ r.unresolvedCount := by
  intro s
  -- by induction on the script; what is resolved inside of it is left to `hn`
  induction s with
  | finish result =>
    intro _ r o h
    simp only [run, Option.some.injEq] at h
    subst h
    exact Nat.le_refl _
  | emit event next ih =>
    intro hs r o h
    simp only [run, Option.map_eq_some_iff] at h
    obtain ⟨o', ho', rfl⟩ := h
    exact ih hs r o' ho'
  | inspect next ih =>
    intro hs r o h
    exact ih r (hs r) r o h
  | register config next => intro hs; exact hs.elim
  | resolve name next ih =>
    intro hs r o h
    simp only [run] at h
    split at h
    · cases h
    · rename_i o₁ h₁
      simp only [Option.map_eq_some_iff] at h
      obtain ⟨o₂, h₂, rfl⟩ := h
      exact Nat.le_trans (ih _ (hs _) _ o₂ h₂) (hn _ _ _ h₁)

/-- A run comes to its end if every resolution inside of it does. -/
theorem run_isSome {bound : Nat}
    (hn : ∀ r name o, nested r name = some o → o.registry.unresolvedCount ≤ r.unresolvedCount)
    (hb : ∀ r name, r.unresolvedCount ≤ bound → (nested r name).isSome) :
    ∀ (s : Script ε) (_ : s.RegistersNothing) (r : Registry),
      r.unresolvedCount ≤ bound → (s.run nested r).isSome := by
  intro s
  induction s with
  | finish result => intro _ r _; rfl
  | emit event next ih => intro hs r hr; simpa [run] using ih hs r hr
  | inspect next ih => intro hs r hr; exact ih r (hs r) r hr
  | register config next => intro hs; exact hs.elim
  | resolve name next ih =>
    intro hs r hr
    have h₁ := hb r name hr
    simp only [run]
    split
    · rename_i h
      simp [h] at h₁
    · rename_i o₁ h
      simpa using ih _ (hs _) o₁.registry (Nat.le_trans (hn _ _ _ h) hr)

end Script

namespace Assembler

variable {ε : Type} {a : Assembler ε}

/-- A resolution does not add unresolved projects. -/
theorem unresolvedCount_resolveWithin_le (ha : a.RegistersNothing) (depth : Nat) :
    ∀ (r : Registry) (name : String) (o : Outcome ε ProjectPlan),
      a.resolveWithin depth r name = some o → o.registry.unresolvedCount ≤ r.unresolvedCount := by
  induction depth with
  | zero =>
    intro r name o h
    unfold resolveWithin at h
    split at h <;> simp at h <;> subst h <;> exact Nat.le_refl _
  | succ depth ih =>
    intro r name o h
    unfold resolveWithin at h
    split at h
    · simp at h; subst h; exact Nat.le_refl _
    · simp at h; subst h; exact Nat.le_refl _
    · simp at h; subst h; exact Nat.le_refl _
    · rename_i config he
      simp only [Option.map_eq_some_iff] at h
      obtain ⟨o', ho', rfl⟩ := h
      -- the beginning of the assembly takes one project away, and its end gives at most that one back
      have h₁ := Script.unresolvedCount_run_le ih _ (ha config) _ _ ho'
      have h₂ := Registry.unresolvedCount_enter_lt he
      have h₃ := Registry.unresolvedCount_leave_le o'.registry name o'.result
      simp only
      omega

/-- As deep as there are unresolved projects is deep enough. -/
theorem resolveWithin_isSome (ha : a.RegistersNothing) (depth : Nat) :
    ∀ (r : Registry) (name : String), r.unresolvedCount ≤ depth →
      (a.resolveWithin depth r name).isSome := by
  induction depth with
  | zero =>
    intro r name hr
    unfold resolveWithin
    split
    · rfl
    · rfl
    · rfl
    · -- without unresolved projects no assembly begins
      rename_i config he
      have := Registry.unresolvedCount_enter_lt he
      omega
  | succ depth ih =>
    intro r name hr
    unfold resolveWithin
    split
    · rfl
    · rfl
    · rfl
    · rename_i config he
      -- inside of the assembly there is one unresolved project less
      have h₂ := Registry.unresolvedCount_enter_lt he
      have := Script.run_isSome (unresolvedCount_resolveWithin_le ha depth) ih _ (ha config)
        (r.enter name) (by omega)
      simpa using this

/-- Resolves a project with an assembler that registers nothing. -/
def resolve (a : Assembler ε) (ha : a.RegistersNothing) (r : Registry) (name : String) :
    Outcome ε ProjectPlan :=
  (a.resolveWithin r.unresolvedCount r name).get
    (resolveWithin_isSome ha _ r name (Nat.le_refl _))

end Assembler

end BuildPlan
