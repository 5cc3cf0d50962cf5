import BuildPlan.Proofs.Project.Schedulers
import BuildPlan.Proofs.Schedule.Cron
import BuildPlan.Proofs.Text.Separator

/-!
# Projects whose schedulers may have the same name

A scheduler's name ends with the name of the project, or with that and a cron schedule, as the texts are
written.  So schedulers of two projects can have the same name only if the name of one of the projects
ends in a piece of such a name (`ProjectConfig.Mimics`).
-/

namespace BuildPlan

/-! ### Endings of names -/

/-- The letter of the separator in front of a cron schedule does not come again in the schedule. -/
theorem CronSpec.letter_notMem_text (spec : CronSpec) : 'a' ∉ spec.text.toList := by
  have hfield : ∀ field : CronField, 'a' ∉ field.text.toList := by
    intro field h
    exact absurd (CronField.isDigit_or_star h) (by decide)
  have hblank : 'a' ∉ " ".toList := by decide
  unfold CronSpec.text CronSpec.fields
  simp only [List.map_cons, List.map_nil, String.toList_intercalate, List.intercalate_cons_cons,
    List.intercalate_singleton, List.mem_append, hfield, hblank, or_self, not_false_eq_true]

namespace Trigger

variable {project project' upstream upstream' : String} {filter filter' : ChangeFilter}
  {timer timer' : UInt64} {spec spec' : CronSpec}

/-- Watched paths end in an apostrophe. -/
theorem exists_watched_eq {fragments : List String} (h : fragments ≠ []) :
    ∃ body, (watched fragments).toList = body ++ ['\x27'] := by
  have hlast : ∀ fragment : String,
      ("'" ++ fragment ++ "'").toList = ("'" ++ fragment).toList ++ ['\x27'] :=
    fun _ => String.toList_append
  unfold watched
  rw [String.toList_intercalate]
  induction fragments with
  | nil => exact absurd rfl h
  | cons fragment rest ih =>
    cases rest with
    | nil =>
      simp only [List.map_cons, List.map_nil, List.intercalate_singleton]
      exact ⟨_, hlast fragment⟩
    | cons next rest =>
      obtain ⟨body, hbody⟩ := ih (by simp)
      simp only [List.map_cons, List.intercalate_cons_cons] at hbody ⊢
      rw [hbody]
      exact ⟨_, (List.append_assoc _ _ _).symm⟩

/-- In front of a cron schedule, the project can be told. -/
theorem eq_of_cron_ending (h : (cron spec).ending project = (cron spec').ending project') :
    project = project' := by
  have hl := congrArg String.toList h
  simp only [ending, String.toList_append] at hl
  have hl' : (project.toList ++ [' ']) ++ 'a' :: "t ".toList ++ spec.text.toList =
      (project'.toList ++ [' ']) ++ 'a' :: "t ".toList ++ spec'.text.toList := by
    simpa using hl
  -- the text of a schedule holds no letter, so both names are cut at the same one
  rcases Chars.append_separator_cases (by decide) hl' with ⟨hleft, -⟩ | hr | hr
  · exact String.toList_inj.mp (List.append_cancel_right hleft)
  · exact absurd (hr.subset (by simp)) spec'.letter_notMem_text
  · exact absurd (hr.subset (by simp)) spec.letter_notMem_text

/-- Behind the name of another scheduler, the project can be told unless one of the projects ends in the
separator and the other project. -/
theorem dependent_ending_cases
    (h : (dependent upstream).ending project = (dependent upstream').ending project') :
    project = project' ∨ "> and project ".toList ++ project.toList <:+ project'.toList ∨
      "> and project ".toList ++ project'.toList <:+ project.toList := by
  have hl := congrArg String.toList h
  simp only [ending, String.toList_append] at hl
  have hl' : upstream.toList ++ '>' :: " and project ".toList ++ project.toList =
      upstream'.toList ++ '>' :: " and project ".toList ++ project'.toList := hl
  -- cut at different places, one project's name ends with what stands in front of the other's
  rcases Chars.append_separator_cases (by decide) hl' with ⟨-, hright⟩ | hr
  · exact Or.inl (String.toList_inj.mp hright)
  · exact Or.inr hr

/-- Behind watched paths it is the same, with a separator that begins with the last apostrophe. -/
theorem watch_ending_cases (hf : filter.fragments ≠ []) (hf' : filter'.fragments ≠ [])
    (h : (dependencyWatch filter timer).ending project =
      (dependencyWatch filter' timer').ending project') :
    project = project' ∨ "' for ".toList ++ project.toList <:+ project'.toList ∨
      "' for ".toList ++ project'.toList <:+ project.toList := by
  obtain ⟨body, hbody⟩ := exists_watched_eq hf
  obtain ⟨body', hbody'⟩ := exists_watched_eq hf'
  have hl := congrArg String.toList h
  simp only [ending, String.toList_append, hbody, hbody'] at hl
  have hl' : body ++ '\x27' :: " for ".toList ++ project.toList =
      body' ++ '\x27' :: " for ".toList ++ project'.toList := by
    simpa using hl
  rcases Chars.append_separator_cases (by decide) hl' with ⟨-, hright⟩ | hr
  · exact Or.inl (String.toList_inj.mp hright)
  · exact Or.inr hr

end Trigger

/-! ### Names of two projects -/

namespace ProjectConfig

variable {p q : ProjectConfig} {parents parents' : List Scheduler} {t t' : Trigger}
  {upstream : String}

/-- The name of the project ends like the name of a scheduler of the other: both wait for projects and it
ends as dependent schedulers of the other do, or both watch paths and it ends as the other's watch
does. -/
def Mimics (p q : ProjectConfig) : Prop :=
  (p.schedule.dependent ≠ none ∧ q.schedule.dependent ≠ none ∧
    "> and project ".toList ++ q.name.toList <:+ p.name.toList) ∨
  (p.dependencies ≠ [] ∧ q.dependencies ≠ [] ∧ "' for ".toList ++ q.name.toList <:+ p.name.toList)

instance (p q : ProjectConfig) : Decidable (p.Mimics q) :=
  inferInstanceAs (Decidable (_ ∨ _))

theorem dependent_ne_none (hp : p.schedule.dependent = none → parents = [])
    (h : .dependent upstream ∈ p.triggers parents) : p.schedule.dependent ≠ none := by
  intro hd
  obtain ⟨s, hs, -⟩ := mem_parents_of_dependent_mem h
  rw [hp hd] at hs
  cases hs

/-- Schedulers of two projects have the same name only if one of the projects mimics the other. -/
theorem mimics_of_nameFor_eq (hne : p.name ≠ q.name)
    (hp : p.schedule.dependent = none → parents = [])
    (hq : q.schedule.dependent = none → parents' = [])
    (ht : t ∈ p.triggers parents) (ht' : t' ∈ q.triggers parents')
    (h : t.nameFor p.name = t'.nameFor q.name) : p.Mimics q ∨ q.Mimics p := by
  obtain ⟨hk, he⟩ := Trigger.eq_of_nameFor_eq h
  -- the kinds are the same, and an ending that is the project alone, or a project and a cron schedule,
  -- tells the project
  cases t with
  | cron spec =>
    cases t' with
    | cron spec' => exact absurd (Trigger.eq_of_cron_ending he) hne
    | _ => cases hk
  | dependent upstream =>
    cases t' with
    | dependent upstream' =>
      have hpd := dependent_ne_none hp ht
      have hqd := dependent_ne_none hq ht'
      rcases Trigger.dependent_ending_cases he with hname | hr | hr
      · exact absurd hname hne
      · exact Or.inr (Or.inl ⟨hqd, hpd, hr⟩)
      · exact Or.inl (Or.inl ⟨hpd, hqd, hr⟩)
    | _ => cases hk
  | dependencyWatch filter timer =>
    cases t' with
    | dependencyWatch filter' timer' =>
      obtain ⟨hf, hpd⟩ := dependencies_of_dependencyWatch_mem ht
      obtain ⟨hf', hqd⟩ := dependencies_of_dependencyWatch_mem ht'
      rcases Trigger.watch_ending_cases (hf ▸ hpd) (hf' ▸ hqd) he with hname | hr | hr
      · exact absurd hname hne
      · exact Or.inr (Or.inr ⟨hqd, hpd, hr⟩)
      · exact Or.inl (Or.inr ⟨hpd, hqd, hr⟩)
    | _ => cases hk
  | _ =>
    cases t' with
    | cron | dependent | dependencyWatch => cases hk
    | _ => exact absurd he hne

end ProjectConfig

end BuildPlan
