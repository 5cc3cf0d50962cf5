import BuildPlan.Proofs.Compiler.Plans
import BuildPlan.Proofs.Project.Schedulers
import Mathlib.Data.Set.Function

/-!
# Schedulers along a line of projects

A project has a dependent scheduler for each scheduler of its parent, and refers to that one by nothing
but its name.  Followed from name to name through the plans of the ancestors, every scheduler of a project
leads to one that waits for none; so a project has as many schedulers as there are such along its whole
line (`Compiler.schedulers_along_lineage`).
-/

namespace BuildPlan

/-! ### Schedulers that wait for none -/

namespace Scheduler

/-- The scheduler waits for no other one. -/
def Independent (s : Scheduler) : Prop :=
  s.trigger.upstream? = none

instance : DecidablePred Independent := fun s => inferInstanceAs (Decidable (s.trigger.upstream? = none))

end Scheduler

namespace ProjectConfig

variable {p : ProjectConfig} {parents : List Scheduler} {s : Scheduler}

theorem independent_of_mem_ownSchedulers (h : s ∈ p.ownSchedulers) : s.Independent := by
  rw [ownSchedulers_eq] at h
  obtain ⟨t, ht, rfl⟩ := List.mem_map.mp h
  show t.upstream? = none
  cases t with
  | dependent parent => exact absurd rfl (kind_of_mem_ownTriggers ht).1
  | _ => rfl

theorem independent_of_mem_watchScheduler? (h : s ∈ p.watchScheduler?) : s.Independent := by
  unfold watchScheduler? at h
  split at h
  · cases h
  · cases h
    rfl

theorem not_independent_dependentScheduler (p : ProjectConfig) (s : Scheduler) :
    ¬ (p.dependentScheduler s).Independent :=
  nofun

theorem mem_schedulers_iff :
    s ∈ p.schedulers parents ↔
      s ∈ p.ownSchedulers ∨ (∃ parent ∈ parents, p.dependentScheduler parent = s) ∨
        s ∈ p.watchScheduler? := by
  simp only [schedulers, List.mem_append, List.mem_map, Option.mem_toList, Option.mem_def, or_assoc]

/-- A scheduler of a project waits for none, or it is made for one of the parent's. -/
theorem mem_schedulers_cases (h : s ∈ p.schedulers parents) :
    s.Independent ∨ ∃ parent ∈ parents, p.dependentScheduler parent = s := by
  rcases mem_schedulers_iff.mp h with h | h | h
  · exact Or.inl (independent_of_mem_ownSchedulers h)
  · exact Or.inr h
  · exact Or.inl (independent_of_mem_watchScheduler? h)

/-- The schedulers of a project that wait for none. -/
theorem filter_independent_schedulers (p : ProjectConfig) (parents : List Scheduler) :
    (p.schedulers parents).filter (fun s => s.Independent) = p.ownSchedulers ++ p.watchScheduler?.toList := by
  have hown : p.ownSchedulers.filter (fun s => s.Independent) = p.ownSchedulers :=
    List.filter_eq_self.mpr fun s hs => decide_eq_true (independent_of_mem_ownSchedulers hs)
  have hwatch : p.watchScheduler?.toList.filter (fun s => s.Independent) = p.watchScheduler?.toList :=
    List.filter_eq_self.mpr fun s hs =>
      decide_eq_true (independent_of_mem_watchScheduler? (Option.mem_toList.mp hs))
  have hdependent : (parents.map p.dependentScheduler).filter (fun s => s.Independent) = [] := by
    refine List.filter_eq_nil_iff.mpr fun s hs => ?_
    obtain ⟨parent, -, rfl⟩ := List.mem_map.mp hs
    exact fun h => not_independent_dependentScheduler p parent (of_decide_eq_true h)
  rw [schedulers, List.filter_append, List.filter_append, hown, hwatch, hdependent, List.append_nil]

/-- All other schedulers are made one for each of the parent's. -/
theorem length_schedulers (p : ProjectConfig) (parents : List Scheduler) :
    (p.schedulers parents).length =
      ((p.schedulers parents).filter fun s => s.Independent).length + parents.length := by
  rw [filter_independent_schedulers, schedulers]
  simp only [List.length_append, List.length_map]
  omega

/-- The name of a dependent scheduler is longer than the one that it waits for. -/
theorem dependent_ne_name (h : s ∈ p.schedulers parents) : s.trigger ≠ .dependent s.name := by
  intro ht
  rcases mem_schedulers_cases h with hown | ⟨parent, -, rfl⟩
  · rw [Scheduler.Independent, ht] at hown
    cases hown
  · -- its name contains the upstream's behind an opening, so it is the longer of the two
    have hname : parent.name = (p.dependentScheduler parent).name := Trigger.dependent.inj ht
    have hlength := congrArg String.length hname
    simp only [dependentScheduler, scheduler, String.length_append] at hlength
    have hopening : "Dependent scheduler between scheduler <".length = 39 := by decide +kernel
    omega

end ProjectConfig

/-! ### Following names -/

namespace Scheduler

variable {p : ProjectConfig} {schedulers : List Scheduler} {ancestors : List ProjectPlan}
  {plan parentPlan : ProjectPlan} {s : Scheduler}

/-- The scheduler of a name, if there is one and no other. -/
def named? (schedulers : List Scheduler) (name : String) : Option Scheduler :=
  match schedulers.filter fun s => s.name = name with
  | [s] => some s
  | _ => none

/-- Where the names lead from a scheduler, looked up in the plans of the parent, of the grandparent and so
on: how many steps it takes, and the scheduler there that waits for no other. -/
def origin? : List ProjectPlan → Scheduler → Option (ℕ × Scheduler)
  | [], s =>
    match s.trigger.upstream? with
    | none => some (0, s)
    | some _ => none
  | parent :: ancestors, s =>
    match s.trigger.upstream? with
    | none => some (0, s)
    | some upstream =>
      ((named? parent.schedulers upstream).bind (origin? ancestors)).map fun o => (o.1 + 1, o.2)

/-- The positions in a line of plans with the schedulers there that wait for none. -/
def origins (plans : List ProjectPlan) : Set (Option (ℕ × Scheduler)) :=
  {o | ∃ i s plan, o = some (i, s) ∧ plans[i]? = some plan ∧ s ∈ plan.schedulers ∧ s.Independent}

theorem named?_of_mem (hnd : (schedulers.map Scheduler.name).Nodup) (hs : s ∈ schedulers) :
    named? schedulers s.name = some s := by
  have hfilter : schedulers.filter (fun t => t.name = s.name) = [s] := by
    induction schedulers with
    | nil => cases hs
    | cons first rest ih =>
      rw [List.map_cons, List.nodup_cons] at hnd
      rcases List.mem_cons.mp hs with rfl | hs
      · rw [List.filter_cons_of_pos (by simp), List.filter_eq_nil_iff.mpr]
        intro t ht hname
        exact hnd.1 (List.mem_map.mpr ⟨t, ht, of_decide_eq_true hname⟩)
      · rw [List.filter_cons_of_neg, ih hnd.2 hs]
        intro hname
        exact hnd.1 (List.mem_map.mpr ⟨s, hs, (of_decide_eq_true hname).symm⟩)
  unfold named?
  rw [hfilter]

theorem origin?_of_independent (h : s.Independent) (ancestors : List ProjectPlan) :
    origin? ancestors s = some (0, s) := by
  have hup : s.trigger.upstream? = none := h
  cases ancestors with
  | nil => rw [origin?, hup]
  | cons parent rest => rw [origin?, hup]

/-- A dependent scheduler leads one step further than the one that it waits for. -/
theorem origin?_dependentScheduler (hnd : (parentPlan.schedulers.map Scheduler.name).Nodup)
    (hs : s ∈ parentPlan.schedulers) (p : ProjectConfig) (ancestors : List ProjectPlan) :
    origin? (parentPlan :: ancestors) (p.dependentScheduler s) =
      (origin? ancestors s).map fun o => (o.1 + 1, o.2) := by
  have hup : (p.dependentScheduler s).trigger.upstream? = some s.name := rfl
  rw [origin?, hup]
  show ((named? parentPlan.schedulers s.name).bind _).map _ = _
  rw [named?_of_mem hnd hs, Option.bind_some]

/-- Without a parent all schedulers wait for none. -/
theorem bijOn_origin?_root (h : plan.schedulers = p.schedulers []) :
    Set.BijOn (origin? []) {s | s ∈ plan.schedulers} (origins [plan]) := by
  have hown : ∀ s ∈ plan.schedulers, s.Independent := by
    intro s hs
    rw [h] at hs
    exact (ProjectConfig.mem_schedulers_cases hs).resolve_right fun ⟨_, hmem, _⟩ => nomatch hmem
  refine ⟨fun s hs => ?_, fun s hs t ht heq => ?_, ?_⟩
  · exact ⟨0, s, plan, origin?_of_independent (hown s hs) [], rfl, hs, hown s hs⟩
  · rw [origin?_of_independent (hown s hs), origin?_of_independent (hown t ht)] at heq
    exact (Prod.mk.inj (Option.some.inj heq)).2
  · rintro _ ⟨i, s, found, rfl, hi, hs, hs'⟩
    obtain ⟨rfl, rfl⟩ : i = 0 ∧ plan = found := by simpa [List.getElem?_singleton] using hi
    exact ⟨s, hs, origin?_of_independent hs' []⟩

/-- Schedulers of a child lead to what those of the parent lead to, or to themselves. -/
theorem bijOn_origin?_child (h : plan.schedulers = p.schedulers parentPlan.schedulers)
    (hnd : (parentPlan.schedulers.map Scheduler.name).Nodup)
    (hparent : Set.BijOn (origin? ancestors) {s | s ∈ parentPlan.schedulers}
      (origins (parentPlan :: ancestors))) :
    Set.BijOn (origin? (parentPlan :: ancestors)) {s | s ∈ plan.schedulers}
      (origins (plan :: parentPlan :: ancestors)) := by
  -- a scheduler of the child is independent or made for one of the parent
  have hcases : ∀ s ∈ plan.schedulers, s.Independent ∨
      ∃ s' ∈ parentPlan.schedulers, p.dependentScheduler s' = s := by
    intro s hs
    rw [h] at hs
    exact ProjectConfig.mem_schedulers_cases hs
  -- one made for a scheduler of the parent has that one's origin, a step further away
  have hstep : ∀ s ∈ parentPlan.schedulers, ∃ i t found, origin? ancestors s = some (i, t) ∧
      origin? (parentPlan :: ancestors) (p.dependentScheduler s) = some (i + 1, t) ∧
      (parentPlan :: ancestors)[i]? = some found ∧ t ∈ found.schedulers ∧ t.Independent := by
    intro s hs
    obtain ⟨i, t, found, ho, hi, ht, ht'⟩ := hparent.mapsTo hs
    refine ⟨i, t, found, ho, ?_, hi, ht, ht'⟩
    rw [origin?_dependentScheduler hnd hs, ho, Option.map_some]
  refine ⟨fun s hs => ?_, fun s hs t ht heq => ?_, ?_⟩
  · rcases hcases s hs with hown | ⟨s', hs', rfl⟩
    · exact ⟨0, s, plan, origin?_of_independent hown _, rfl, hs, hown⟩
    · obtain ⟨i, t, found, -, ho, hi, ht, ht'⟩ := hstep s' hs'
      exact ⟨i + 1, t, found, ho, hi, ht, ht'⟩
  · -- no two schedulers share an origin: steps tell the independent ones from the others,
    -- and for two of the others it is the parent's line that tells them apart
    rcases hcases s hs with hs' | ⟨s', hs', rfl⟩ <;> rcases hcases t ht with ht' | ⟨t', ht', rfl⟩
    · rw [origin?_of_independent hs', origin?_of_independent ht'] at heq
      exact (Prod.mk.inj (Option.some.inj heq)).2
    · obtain ⟨i, u, -, -, ho, -⟩ := hstep t' ht'
      rw [origin?_of_independent hs', ho] at heq
      cases heq
    · obtain ⟨i, u, -, -, ho, -⟩ := hstep s' hs'
      rw [origin?_of_independent ht', ho] at heq
      cases heq
    · obtain ⟨i, u, -, hu, ho, -⟩ := hstep s' hs'
      obtain ⟨j, v, -, hv, ho', -⟩ := hstep t' ht'
      rw [ho, ho'] at heq
      cases heq
      rw [hparent.injOn hs' ht' (hu.trans hv.symm)]
  · rintro _ ⟨i, t, found, rfl, hi, ht, ht'⟩
    -- an origin no step away is the child's own, any other is reached through the parent
    cases i with
    | zero =>
      cases hi
      exact ⟨t, ht, origin?_of_independent ht' _⟩
    | succ i =>
      obtain ⟨s, hs, ho⟩ := hparent.surjOn ⟨i, t, found, rfl, hi, ht, ht'⟩
      refine ⟨p.dependentScheduler s, ?_, ?_⟩
      · show p.dependentScheduler s ∈ plan.schedulers
        rw [h]
        exact ProjectConfig.mem_schedulers_iff.mpr (Or.inr (Or.inl ⟨s, hs, rfl⟩))
      · rw [origin?_dependentScheduler hnd hs, ho, Option.map_some]

end Scheduler

/-! ### Lines of projects -/

/-- The plan of the project of a name, and the plans of its parent, of the parent's parent and so on, up to
the project without a parent. -/
inductive Registry.Lineage (r : Registry) : String → ProjectPlan → List ProjectPlan → Prop
  | root {name : String} {p : ProjectConfig} {plan : ProjectPlan} (hc : r.config? name = some p)
    (hd : p.schedule.dependent = none) (hp : r.plan? name = some plan) : Lineage r name plan []
  | child {name parent : String} {p : ProjectConfig} {plan parentPlan : ProjectPlan}
    {ancestors : List ProjectPlan} (hc : r.config? name = some p)
    (hd : p.schedule.dependent = some parent) (hp : r.plan? name = some plan)
    (h : Lineage r parent parentPlan ancestors) : Lineage r name plan (parentPlan :: ancestors)

namespace Registry.Lineage

variable {r : Registry} {name : String} {plan plan' : ProjectPlan}
  {ancestors ancestors' : List ProjectPlan}

theorem plan? (h : r.Lineage name plan ancestors) : r.plan? name = some plan := by
  cases h with
  | root hc hd hp => exact hp
  | child hc hd hp h => exact hp

/-- A project has one line of ancestors only. -/
theorem unique (h : r.Lineage name plan ancestors) (h' : r.Lineage name plan' ancestors') :
    plan = plan' ∧ ancestors = ancestors' := by
  induction h generalizing plan' ancestors' with
  | root hc hd hp =>
    -- a project has one configuration, so it cannot have a parent in one line and none in the other
    cases h' with
    | root hc' hd' hp' => exact ⟨Option.some.inj (hp.symm.trans hp'), rfl⟩
    | child hc' hd' hp' _ =>
      cases hc.symm.trans hc'
      cases hd.symm.trans hd'
  | child hc hd hp _ ih =>
    cases h' with
    | root hc' hd' hp' =>
      cases hc.symm.trans hc'
      cases hd.symm.trans hd'
    | child hc' hd' hp' h' =>
      cases hc.symm.trans hc'
      cases hd.symm.trans hd'
      obtain ⟨rfl, rfl⟩ := ih h'
      exact ⟨Option.some.inj (hp.symm.trans hp'), rfl⟩

end Registry.Lineage

namespace Compiler

variable {c : Compiler} {r : Registry} {name : String} {plan : ProjectPlan}
  {ancestors : List ProjectPlan}

/-- The schedulers of a plan have different names. -/
theorem Settled.nodup_scheduler_names (h : c.Settled r) (hp : plan ∈ r.plans) :
    (plan.schedulers.map Scheduler.name).Nodup := by
  refine (h.yields_of_mem_plans hp).plan_induction
    (motive := fun plan => (plan.schedulers.map Scheduler.name).Nodup) ?_ ?_ rfl
  · intro p plan hplan
    rw [schedulers_of_planWith hplan]
    exact ProjectConfig.nodup_names List.nodup_nil
  · intro p parentPlan plan ih hplan
    rw [schedulers_of_planWith hplan]
    exact ProjectConfig.nodup_names ih

/-- A project that has been resolved has a line of ancestors that have been resolved. -/
theorem Settled.exists_lineage (h : c.Settled r) (hp : r.plan? name = some plan) :
    ∃ ancestors, r.Lineage name plan ancestors := by
  obtain ⟨before, after, hl⟩ := List.append_of_mem (h.mem_resolvedNames_iff.mpr ⟨plan, hp⟩)
  -- the parent stands further in front in the order of resolution
  induction hn : before.length using Nat.strongRecOn generalizing before name after plan with
  | ind n ih =>
    subst hn
    obtain ⟨p, hc, -, ⟨hd, -⟩ | ⟨parent, parentPlan, hd, hparent, -⟩⟩ := h.plan_cases hp
    · exact ⟨[], .root hc hd hp⟩
    · obtain ⟨front, back, rfl, hl'⟩ := h.ordered.exists_split hl ⟨p, hc, hd⟩
      obtain ⟨ancestors, hline⟩ := ih _ (by simp) hparent front _ hl' rfl
      exact ⟨parentPlan :: ancestors, .child hc hd hp hline⟩

/-- To prove something of the plans along a line, follow how schedulers are made from those of the
parent. -/
theorem Settled.lineage_induction (h : c.Settled r) {motive : ProjectPlan → List ProjectPlan → Prop}
    (root : ∀ (p : ProjectConfig) plan, plan.schedulers = p.schedulers [] → motive plan [])
    (child : ∀ (p : ProjectConfig) plan parentPlan ancestors,
      plan.schedulers = p.schedulers parentPlan.schedulers →
      (parentPlan.schedulers.map Scheduler.name).Nodup → motive parentPlan ancestors →
      motive plan (parentPlan :: ancestors))
    (hl : r.Lineage name plan ancestors) : motive plan ancestors := by
  induction hl with
  | @root name p plan hc hd hp =>
    obtain ⟨q, hc', -, ⟨-, hplan⟩ | ⟨parent, parentPlan, hd', -, -⟩⟩ := h.plan_cases hp
    · exact root q plan (schedulers_of_planWith hplan)
    · cases hc.symm.trans hc'
      cases hd.symm.trans hd'
  | @child name parent p plan parentPlan ancestors hc hd hp hline ih =>
    have hparent := hline.plan?
    obtain ⟨q, hc', -, ⟨hd', -⟩ | ⟨parent', parentPlan', hd', hparent', hplan⟩⟩ := h.plan_cases hp
    · cases hc.symm.trans hc'
      cases hd.symm.trans hd'
    · cases hc.symm.trans hc'
      cases hd.symm.trans hd'
      cases hparent.symm.trans hparent'
      exact child p plan parentPlan ancestors (schedulers_of_planWith hplan)
        (h.nodup_scheduler_names (h.mem_plans_of_plan? hparent)) ih

/-- **Schedulers along a line of projects.**  After any calls a project that has been resolved has a line
of ancestors, all of them resolved.  Its schedulers have different names, and none waits for itself.  To
follow the names from scheduler to scheduler, looking each up among those of the next ancestor, is a
bijection between the schedulers of the project and the schedulers along the line that wait for none, each
reached in as many steps as there are generations up to it; so there are as many of the one as of the
other. -/
theorem schedulers_along_lineage (c : Compiler) (cs : List Call)
    (hp : (c.calls cs).plan? name = some plan) :
    ∃ ancestors, (c.calls cs).Lineage name plan ancestors ∧
      (plan.schedulers.map Scheduler.name).Nodup ∧
      Set.BijOn (Scheduler.origin? ancestors) {s | s ∈ plan.schedulers}
        (Scheduler.origins (plan :: ancestors)) ∧
      plan.schedulers.length =
        ((plan :: ancestors).flatMap fun q => q.schedulers.filter fun s => s.Independent).length ∧
      ∀ s ∈ plan.schedulers, s.trigger ≠ .dependent s.name := by
  have hset : c.Settled (c.calls cs) := c.settled_calls cs
  obtain ⟨ancestors, hline⟩ := hset.exists_lineage hp
  -- places and counts are both carried from the parent to the child along the line
  refine ⟨ancestors, hline, hset.nodup_scheduler_names (hset.mem_plans_of_plan? hp), ?_, ?_,
    fun s hs => ?_⟩
  · refine hset.lineage_induction (motive := fun plan ancestors =>
      Set.BijOn (Scheduler.origin? ancestors) {s | s ∈ plan.schedulers}
        (Scheduler.origins (plan :: ancestors))) (fun p plan h => ?_)
      (fun p plan parentPlan ancestors h hnd ih => ?_) hline
    · exact Scheduler.bijOn_origin?_root h
    · exact Scheduler.bijOn_origin?_child h hnd ih
  · refine hset.lineage_induction (motive := fun plan ancestors => plan.schedulers.length =
      ((plan :: ancestors).flatMap fun q => q.schedulers.filter fun s => s.Independent).length)
      (fun p plan h => ?_) (fun p plan parentPlan ancestors h _ ih => ?_) hline
    · rw [List.flatMap_singleton, h]
      exact p.length_schedulers []
    · rw [List.flatMap_cons, List.length_append, ← ih, h]
      exact p.length_schedulers _
  · obtain ⟨p, parents, -, -, hplan⟩ := hset.exists_planWith hp
    rw [schedulers_of_planWith hplan] at hs
    exact ProjectConfig.dependent_ne_name hs

/-- A project with a parent and a grandparent, which watches a path: the names lead from its schedulers to
one of its own, one of the parent and two of the grandparent. -/
theorem schedulers_along_lineage_of_grandchild :
    let c := ofWorkers (.ofList ["w"])
    let top := { ProjectConfig.chained "top" none with dependencies := ["d"] }
    let r := c.calls [.register top, .register (.chained "lib" (some "top")),
      .register (.chained "app" (some "lib")), .compileAll]
    ∃ plan parentPlan topPlan, r.plan? "app" = some plan ∧
      r.Lineage "app" plan [parentPlan, topPlan] ∧
      (plan.schedulers.map Scheduler.name).Nodup ∧
      plan.schedulers.map (fun s => (s.origin? [parentPlan, topPlan]).map Prod.fst) =
        [some 0, some 1, some 2, some 2] ∧
      Set.BijOn (Scheduler.origin? [parentPlan, topPlan]) {s | s ∈ plan.schedulers}
        (Scheduler.origins [plan, parentPlan, topPlan]) := by
  intro c top r
  have happ : (r.plan? "app").isSome := by decide +kernel
  have hlib : (r.plan? "lib").isSome := by decide +kernel
  have htop : (r.plan? "top").isSome := by decide +kernel
  have hsteps : (do
      let plan ← r.plan? "app"
      let parentPlan ← r.plan? "lib"
      let topPlan ← r.plan? "top"
      return plan.schedulers.map fun s => (s.origin? [parentPlan, topPlan]).map Prod.fst) =
        some [some 0, some 1, some 2, some 2] := by decide +kernel
  obtain ⟨plan, hp⟩ := Option.isSome_iff_exists.mp happ
  obtain ⟨parentPlan, hparent⟩ := Option.isSome_iff_exists.mp hlib
  obtain ⟨topPlan, htop⟩ := Option.isSome_iff_exists.mp htop
  rw [hp, hparent, htop] at hsteps
  have hline : r.Lineage "app" plan [parentPlan, topPlan] :=
    .child (p := .chained "app" (some "lib")) (by decide +kernel) rfl hp <|
      .child (p := .chained "lib" (some "top")) (by decide +kernel) rfl hparent <|
        .root (p := top) (by decide +kernel) rfl htop
  obtain ⟨ancestors, hline', hnd, hbij, -⟩ := c.schedulers_along_lineage _ hp
  obtain ⟨-, rfl⟩ := hline'.unique hline
  exact ⟨plan, parentPlan, topPlan, hp, hline, hnd, Option.some.inj hsteps, hbij⟩

end Compiler

end BuildPlan
