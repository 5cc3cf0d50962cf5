import BuildPlan.Scheduling
import Mathlib.Data.List.Nodup

/-!
# Schedulers and their names

A scheduler of a project is told from its trigger, the name included (`ProjectConfig.schedulers_eq`).  The
first letters of a name give the kind of the trigger away, so the schedulers of one project have different
names if those of its parent have.
-/

namespace BuildPlan

/-! ### Names by trigger -/

/-- The kinds of triggers that names tell apart. -/
inductive TriggerKind where
  | repository
  | window
  | period
  | cron
  | parent
  | watch
  deriving DecidableEq, Repr

namespace TriggerKind

/-- How names begin, by kind. -/
def opening : TriggerKind → String
  | .repository => "Scheduler for "
  | .window => "Default scheduler for "
  | .period => "Periodic scheduler for "
  | .cron => "Cron scheduler for "
  | .parent => "Dependent scheduler between scheduler <"
  | .watch => "Dependency scheduler watching "

theorem le_length_opening (k : TriggerKind) : 9 ≤ k.opening.toList.length := by
  cases k <;> decide +kernel

/-- Nine letters are enough to tell the kinds apart. -/
theorem take_opening_injective :
    Function.Injective fun k : TriggerKind => k.opening.toList.take 9 := by
  intro k k' h
  cases k <;> cases k' <;> first | rfl | (revert h; decide +kernel)

theorem eq_of_opening_append {k k' : TriggerKind} {rest rest' : String}
    (h : k.opening ++ rest = k'.opening ++ rest') : k = k' := by
  have hl := congrArg String.toList h
  rw [String.toList_append, String.toList_append] at hl
  have htake := congrArg (List.take 9) hl
  rw [List.take_append_of_le_length k.le_length_opening,
    List.take_append_of_le_length k'.le_length_opening] at htake
  exact take_opening_injective htake

end TriggerKind

namespace Trigger

variable {t t' : Trigger} {project project' : String}

/-- The kind of a trigger. -/
def kind : Trigger → TriggerKind
  | .svnPoll _ | .repositoryChange _ => .repository
  | .fixedWindow _ => .window
  | .periodic _ => .period
  | .cron _ => .cron
  | .dependent _ => .parent
  | .dependencyWatch _ _ => .watch

/-- Paths between apostrophes. -/
def watched (fragments : List String) : String :=
  String.intercalate ", " (fragments.map fun fragment => "'" ++ fragment ++ "'")

/-- How the name of a project's scheduler goes on behind its opening. -/
def ending (project : String) : Trigger → String
  | .svnPoll _ | .repositoryChange _ | .fixedWindow _ | .periodic _ => project
  | .cron spec => project ++ " at " ++ spec.text
  | .dependent parent => parent ++ "> and project " ++ project
  | .dependencyWatch filter _ => watched filter.fragments ++ " for " ++ project

/-- The name of the project's scheduler with this trigger. -/
def nameFor (project : String) (t : Trigger) : String :=
  t.kind.opening ++ t.ending project

/-- The name of the scheduler that a dependent one waits for. -/
def upstream? : Trigger → Option String
  | .dependent parent => some parent
  | _ => none

/-- What tells apart the triggers of one project. -/
def key (t : Trigger) : TriggerKind × Option String :=
  (t.kind, t.upstream?)

theorem eq_of_nameFor_eq (h : t.nameFor project = t'.nameFor project') :
    t.kind = t'.kind ∧ t.ending project = t'.ending project' := by
  have hk := TriggerKind.eq_of_opening_append h
  unfold nameFor at h
  rw [hk, String.append_right_inj] at h
  exact ⟨hk, h⟩

/-- For one project, a name also tells the scheduler that is waited for. -/
theorem upstream?_eq_of_nameFor_eq (h : t.nameFor project = t'.nameFor project) :
    t.upstream? = t'.upstream? := by
  obtain ⟨hk, he⟩ := eq_of_nameFor_eq h
  cases t with
  | dependent parent =>
    cases t' with
    | dependent parent' =>
      have hp : parent = parent' := by
        simpa only [ending, String.append_left_inj] using he
      rw [hp]
    | _ => cases hk
  | _ =>
    cases t' with
    | dependent parent' => cases hk
    | _ => rfl

end Trigger

/-! ### The schedulers of a project -/

namespace ProjectConfig

variable {p : ProjectConfig} {parents : List Scheduler} {s : Scheduler} {upstream : String}

/-- The triggers by version control system and by scheduling policy. -/
def ownTriggers (p : ProjectConfig) : List Trigger :=
  p.vcsTrigger?.toList ++
  (p.schedule.fixedWindow.map fun window => Trigger.fixedWindow window.secs).toList ++
  (p.schedule.periodic.map fun period => Trigger.periodic period.secs).toList ++
  (p.schedule.cron.map Trigger.cron).toList

/-- The trigger of the watch over the paths that the project depends on. -/
def watchTrigger? (p : ProjectConfig) : Option Trigger :=
  if p.dependencies.isEmpty then none else some (.dependencyWatch ⟨p.dependencies⟩ watchTimer)

/-- The triggers of a project whose parent has the given schedulers. -/
def triggers (p : ProjectConfig) (parents : List Scheduler) : List Trigger :=
  p.ownTriggers ++ parents.map (fun s => .dependent s.name) ++ p.watchTrigger?.toList

/-- The scheduler of a project with the given trigger. -/
def schedulerFor (p : ProjectConfig) (t : Trigger) : Scheduler :=
  p.scheduler (t.nameFor p.name) t

theorem ownSchedulers_eq (p : ProjectConfig) :
    p.ownSchedulers = p.ownTriggers.map p.schedulerFor := by
  have hvcs : (p.vcsTrigger?.map fun t => p.scheduler ("Scheduler for " ++ p.name) t) =
      p.vcsTrigger?.map p.schedulerFor := by
    unfold vcsTrigger?
    cases p.vcs <;> rfl
  have hcron : ∀ spec : CronSpec,
      p.scheduler ("Cron scheduler for " ++ p.name ++ " at " ++ spec.text) (.cron spec) =
        p.schedulerFor (.cron spec) := by
    intro spec
    simp only [schedulerFor, Trigger.nameFor, Trigger.kind, TriggerKind.opening, Trigger.ending,
      String.append_assoc]
  unfold ownSchedulers ownTriggers
  rw [hvcs]
  simp only [List.map_append, ← Option.toList_map, Option.map_map, hcron]
  rfl

theorem dependentScheduler_eq (p : ProjectConfig) (s : Scheduler) :
    p.dependentScheduler s = p.schedulerFor (.dependent s.name) := by
  simp only [dependentScheduler, schedulerFor, Trigger.nameFor, Trigger.kind, TriggerKind.opening,
    Trigger.ending, String.append_assoc]

theorem watchScheduler?_eq (p : ProjectConfig) :
    p.watchScheduler? = p.watchTrigger?.map p.schedulerFor := by
  unfold watchScheduler? watchTrigger?
  split
  · rfl
  · simp only [Option.map_some, schedulerFor, Trigger.nameFor, Trigger.kind, TriggerKind.opening,
      Trigger.ending, Trigger.watched, String.append_assoc]

/-- The schedulers of a project are told from their triggers. -/
theorem schedulers_eq (p : ProjectConfig) (parents : List Scheduler) :
    p.schedulers parents = (p.triggers parents).map p.schedulerFor := by
  have hdep : p.dependentScheduler = fun s => p.schedulerFor (.dependent s.name) :=
    funext p.dependentScheduler_eq
  unfold schedulers triggers
  rw [ownSchedulers_eq, hdep, watchScheduler?_eq]
  simp only [List.map_append, List.map_map, Option.toList_map, Function.comp_def]

/-! ### Which triggers a project has -/

/-- The triggers by system and policy are of different kinds, and wait for no scheduler. -/
theorem ownTriggers_keys_sublist (p : ProjectConfig) :
    List.Sublist (p.ownTriggers.map Trigger.key)
      [(.repository, none), (.window, none), (.period, none), (.cron, none)] := by
  -- each option gives one trigger at most
  have hpart : ∀ {α : Type} (o : Option α) (f : α → Trigger) (k : TriggerKind),
      (∀ a, (f a).key = (k, none)) →
        List.Sublist ((o.map f).toList.map Trigger.key) [(k, none)] := by
    intro α o f k hf
    cases o with
    | none => exact List.nil_sublist _
    | some a =>
      show List.Sublist [(f a).key] _
      rw [hf a]
  have hvcs : List.Sublist (p.vcsTrigger?.toList.map Trigger.key) [(.repository, none)] := by
    unfold vcsTrigger?
    cases p.vcs <;> simp [Trigger.key, Trigger.kind, Trigger.upstream?]
  have hwindow := hpart p.schedule.fixedWindow (fun w => .fixedWindow w.secs) .window fun _ => rfl
  have hperiod := hpart p.schedule.periodic (fun q => .periodic q.secs) .period fun _ => rfl
  have hcron := hpart p.schedule.cron .cron .cron fun _ => rfl
  unfold ownTriggers
  simp only [List.map_append]
  exact ((hvcs.append hwindow).append hperiod).append hcron

theorem kind_of_mem_ownTriggers {t : Trigger} (h : t ∈ p.ownTriggers) :
    t.kind ≠ .parent ∧ t.kind ≠ .watch := by
  have hmem := p.ownTriggers_keys_sublist.subset (List.mem_map_of_mem h)
  simp only [List.mem_cons, List.not_mem_nil, or_false, Trigger.key, Prod.mk.injEq] at hmem
  obtain ⟨hk, -⟩ | ⟨hk, -⟩ | ⟨hk, -⟩ | ⟨hk, -⟩ := hmem <;> simp [hk]

theorem mem_parents_of_dependent_mem (h : .dependent upstream ∈ p.triggers parents) :
    ∃ parent ∈ parents, parent.name = upstream := by
  rcases List.mem_append.mp h with h | h
  · rcases List.mem_append.mp h with h | h
    · exact absurd rfl (kind_of_mem_ownTriggers h).1
    · simpa using h
  · unfold watchTrigger? at h
    split at h <;> simp at h

theorem dependencies_of_dependencyWatch_mem {filter : ChangeFilter} {timer : UInt64}
    (h : .dependencyWatch filter timer ∈ p.triggers parents) :
    filter.fragments = p.dependencies ∧ p.dependencies ≠ [] := by
  rcases List.mem_append.mp h with h | h
  · rcases List.mem_append.mp h with h | h
    · exact absurd rfl (kind_of_mem_ownTriggers h).2
    · simp at h
  · unfold watchTrigger? at h
    split at h
    · simp at h
    · next hne =>
      cases List.mem_singleton.mp h
      exact ⟨rfl, fun hd => hne (by rw [hd]; rfl)⟩

/-- All schedulers of a project start all of its builders. -/
theorem builderNames_of_mem_schedulers (h : s ∈ p.schedulers parents) :
    s.builderNames = p.builderNames := by
  rw [schedulers_eq] at h
  obtain ⟨t, -, rfl⟩ := List.mem_map.mp h
  rfl

/-- A dependent scheduler waits for a scheduler of the parent. -/
theorem exists_parent_of_dependent (h : s ∈ p.schedulers parents)
    (ht : s.trigger = .dependent upstream) : ∃ parent ∈ parents, parent.name = upstream := by
  rw [schedulers_eq] at h
  obtain ⟨t, hmem, rfl⟩ := List.mem_map.mp h
  have ht' : t = .dependent upstream := ht
  exact mem_parents_of_dependent_mem (ht' ▸ hmem)

/-! ### Names within a project -/

/-- Of each kind a project has one trigger at most, except that it may wait for several schedulers. -/
theorem nodup_keys (hp : (parents.map Scheduler.name).Nodup) :
    ((p.triggers parents).map Trigger.key).Nodup := by
  have hdep : (parents.map fun s => Trigger.dependent s.name).map Trigger.key =
      (parents.map Scheduler.name).map fun n => (.parent, some n) := by
    rw [List.map_map, List.map_map]
    rfl
  have hwatch : List.Sublist (p.watchTrigger?.toList.map Trigger.key) [(.watch, none)] := by
    unfold watchTrigger?
    split <;> simp [Trigger.key, Trigger.kind, Trigger.upstream?]
  unfold triggers
  rw [List.map_append, List.map_append, hdep]
  -- kinds differ but for the dependent schedulers, and those have the parent's names for keys
  refine ((p.ownTriggers_keys_sublist.append (List.Sublist.refl _)).append hwatch).nodup ?_
  have hinj : Function.Injective fun n : String => (TriggerKind.parent, some n) := by
    intro n m h
    simpa using h
  have hnd := hp.map hinj
  rw [List.map_map] at hnd
  simp [List.nodup_append, hnd]

/-- The schedulers of a project have different names if those of its parent have. -/
theorem nodup_names (hp : (parents.map Scheduler.name).Nodup) :
    ((p.schedulers parents).map Scheduler.name).Nodup := by
  rw [schedulers_eq, List.map_map]
  refine List.pairwise_map.mpr ((List.pairwise_map.mp (nodup_keys hp)).imp fun hne heq => hne ?_)
  exact Prod.ext (Trigger.eq_of_nameFor_eq heq).1 (Trigger.upstream?_eq_of_nameFor_eq heq)

end ProjectConfig

end BuildPlan
