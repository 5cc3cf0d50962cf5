import BuildPlan.Proofs.Compiler.Batch
import BuildPlan.Proofs.Configuration.Acceptance
import BuildPlan.Proofs.Plan.Installation
import BuildPlan.Proofs.Plan.Ownership
import BuildPlan.Proofs.Registry.Extension
import BuildPlan.Proofs.Text.Separator

/-!
# Builders are told apart

The name of a builder and its directory put the project and the worker together around a separator that
the project's name may contain.  Workers are words, so the last space of a name still tells the project
and the worker, and on one worker the directory tells the project.
-/

namespace BuildPlan

variable {project project' worker worker' : String}

/-! ### Names and directories -/

/-- If no space stands in the workers, a name tells the project and the worker. -/
theorem BuilderName.ofPair_inj (hw : ' ' ∉ worker.toList) (hw' : ' ' ∉ worker'.toList) :
    ofPair project worker = ofPair project' worker' ↔ project = project' ∧ worker = worker' := by
  constructor
  · intro h
    have htext : (project ++ " " ++ worker).toList = (project' ++ " " ++ worker').toList :=
      congrArg (fun name : BuilderName => name.text.toList) h
    simp only [String.toList_append] at htext
    have hnone : ' ' ∉ ([] : List Char) := by simp
    have hcases := Chars.append_separator_cases hnone htext
    -- were the cuts at different blanks, the longer worker name would hold the other blank
    rcases hcases with ⟨hproject, hworker⟩ | hsuffix | hsuffix
    · exact ⟨String.toList_inj.mp hproject, String.toList_inj.mp hworker⟩
    · exact absurd (hsuffix.subset (by simp)) hw'
    · exact absurd (hsuffix.subset (by simp)) hw
  · rintro ⟨rfl, rfl⟩
    rfl

namespace Toolchain

variable {t : Toolchain} {p : ProjectConfig} {b : Builder} {builders : List Builder}

/-- The builders of a project run on its workers, one on each. -/
theorem map_worker_builders (h : t.builders p = .ok builders) :
    builders.map Builder.worker = p.workers := by
  obtain ⟨pipeline, -, hb⟩ := exists_of_bind_eq_ok h
  cases hb
  simp [builder, Function.comp_def]

theorem names_of_mem_builders (h : t.builders p = .ok builders) (hb : b ∈ builders) :
    b.name = .ofPair p.name b.worker ∧ b.buildDir = p.name ++ "_" ++ b.worker := by
  obtain ⟨pipeline, -, hall⟩ := exists_of_bind_eq_ok h
  cases hall
  obtain ⟨worker, -, rfl⟩ := List.mem_map.mp hb
  exact ⟨rfl, rfl⟩

end Toolchain

/-! ### Builders with their projects -/

/-- Each builder stands with the name of the project that it has been made for. -/
structure Toolchain.Builds (t : Toolchain) (projects : List ProjectConfig)
    (pieces : List (String × Builder)) : Prop where
  owner : ∀ piece ∈ pieces, ∃ p ∈ projects, p.name = piece.1
  builders : ∀ p ∈ projects,
    t.builders p = .ok ((pieces.filter fun piece => piece.1 == p.name).map Prod.snd)

namespace Toolchain.Builds

variable {t : Toolchain} {projects : List ProjectConfig} {pieces : List (String × Builder)}
  {piece piece' : String × Builder} {p : ProjectConfig}

theorem names_of_mem (h : t.Builds projects pieces) (hp : piece ∈ pieces) :
    piece.2.name = .ofPair piece.1 piece.2.worker ∧
      piece.2.buildDir = piece.1 ++ "_" ++ piece.2.worker := by
  obtain ⟨p, hproject, hname⟩ := h.owner piece hp
  have hmem : piece.2 ∈ (pieces.filter fun piece => piece.1 == p.name).map Prod.snd :=
    List.mem_map_of_mem (List.mem_filter.mpr ⟨hp, by simp [hname]⟩)
  rw [← hname]
  exact names_of_mem_builders (h.builders p hproject) hmem

/-- A builder runs on a worker of its project. -/
theorem worker_mem (h : t.Builds projects pieces) (hp : piece ∈ pieces) :
    ∃ p ∈ projects, p.name = piece.1 ∧ piece.2.worker ∈ p.workers := by
  obtain ⟨p, hproject, hname⟩ := h.owner piece hp
  refine ⟨p, hproject, hname, ?_⟩
  rw [← map_worker_builders (h.builders p hproject), List.map_map]
  exact List.mem_map_of_mem (List.mem_filter.mpr ⟨hp, by simp [hname]⟩)

/-- The name of a builder tells its project and its worker. -/
theorem name_eq_iff (h : t.Builds projects pieces)
    (hfree : ∀ p ∈ projects, ∀ worker ∈ p.workers, ' ' ∉ worker.toList)
    (hp : piece ∈ pieces) (hp' : piece' ∈ pieces) :
    piece.2.name = piece'.2.name ↔ piece.1 = piece'.1 ∧ piece.2.worker = piece'.2.worker := by
  obtain ⟨p, hproject, -, hw⟩ := h.worker_mem hp
  obtain ⟨p', hproject', -, hw'⟩ := h.worker_mem hp'
  rw [(h.names_of_mem hp).1, (h.names_of_mem hp').1]
  exact BuilderName.ofPair_inj (hfree p hproject _ hw) (hfree p' hproject' _ hw')

/-- On one worker, the directory of a builder tells its project. -/
theorem directory_eq_iff (h : t.Builds projects pieces) (hp : piece ∈ pieces) (hp' : piece' ∈ pieces) :
    (piece.2.worker = piece'.2.worker ∧ piece.2.buildDir = piece'.2.buildDir) ↔
      piece.1 = piece'.1 ∧ piece.2.worker = piece'.2.worker := by
  rw [(h.names_of_mem hp).2, (h.names_of_mem hp').2]
  constructor
  · rintro ⟨hw, hdir⟩
    rw [hw] at hdir
    exact ⟨by simpa using hdir, hw⟩
  · rintro ⟨hproject, hw⟩
    rw [hproject, hw]
    exact ⟨rfl, rfl⟩

/-- As many builders have the name of a project and a worker as the project names the worker. -/
theorem count_name (h : t.Builds projects pieces)
    (hfree : ∀ p ∈ projects, ∀ worker ∈ p.workers, ' ' ∉ worker.toList) (hproject : p ∈ projects)
    (hw : ' ' ∉ worker.toList) :
    (pieces.map fun piece => piece.2.name).count (.ofPair p.name worker) = p.workers.count worker := by
  have hsame : ∀ piece ∈ pieces, piece.2.name = .ofPair p.name worker ↔
      piece.2.worker = worker ∧ piece.1 = p.name := by
    intro piece hp
    obtain ⟨q, hq, -, hmem⟩ := h.worker_mem hp
    rw [(h.names_of_mem hp).1, BuilderName.ofPair_inj (hfree q hq _ hmem) hw, and_comm]
  rw [← map_worker_builders (h.builders p hproject), List.map_map, List.count_eq_countP,
    List.count_eq_countP, List.countP_map, List.countP_map, List.countP_filter]
  refine List.countP_congr fun piece hp => ?_
  simpa using hsame piece hp

/-- A name is there twice just if one project names one worker twice. -/
theorem repeated_iff (h : t.Builds projects pieces)
    (hfree : ∀ p ∈ projects, ∀ worker ∈ p.workers, ' ' ∉ worker.toList) (name : BuilderName) :
    1 < (pieces.map fun piece => piece.2.name).count name ↔
      ∃ p ∈ projects, ∃ worker, name = .ofPair p.name worker ∧ 1 < p.workers.count worker := by
  constructor
  · intro hcount
    have hmem : name ∈ pieces.map fun piece => piece.2.name := List.count_pos_iff.mp (by omega)
    obtain ⟨piece, hp, rfl⟩ := List.mem_map.mp hmem
    obtain ⟨p, hproject, hname, hw⟩ := h.worker_mem hp
    have hpair : piece.2.name = .ofPair p.name piece.2.worker := by
      rw [(h.names_of_mem hp).1, hname]
    rw [hpair, h.count_name hfree hproject (hfree p hproject _ hw)] at hcount
    exact ⟨p, hproject, piece.2.worker, hpair, hcount⟩
  · rintro ⟨p, hproject, worker, rfl, hcount⟩
    have hw : worker ∈ p.workers := List.count_pos_iff.mp (by omega)
    rwa [h.count_name hfree hproject (hfree p hproject worker hw)]

end Toolchain.Builds

/-! ### Builders of a master -/

/-- When all projects have been compiled, the builders stand with the projects that they have been made
for. -/
theorem Compiler.Settled.builds_owned {compiler : Compiler} {r : Registry} {master : MasterPlan}
    (h : compiler.Settled r) (hm : (compiler.compileAll r).result = .ok master) :
    compiler.toolchain.Builds (r.entries.map RegistryEntry.config)
      (owned ProjectPlan.builders (compiler.compileAll r).registry.plans) := by
  obtain ⟨added, hres⟩ := compiler.exists_resolves_compileAll r
  have hconfig : ∀ {name : String} {p : ProjectConfig},
      (compiler.compileAll r).registry.config? name = some p ↔
        p ∈ r.entries.map RegistryEntry.config ∧ p.name = name := by
    intro name p
    rw [hres.config_eq]
    exact Registry.config?_eq_some_iff_mem h.consistent.keys_nodup
  constructor
  · intro piece hpiece
    obtain ⟨plan, hplan, hname, -⟩ := mem_owned_iff.mp hpiece
    obtain ⟨p, hp, -⟩ := h.compileAll.exists_plans (h.compileAll.plan?_of_mem_plans hplan)
    obtain ⟨hmem, hp⟩ := hconfig.mp hp
    exact ⟨p, hmem, hp.trans hname⟩
  · intro p hp
    -- in a run that succeeds every project has a plan, and it was made from the project
    have hin : p.name ∈ r.names := by
      rw [h.consistent.mem_names_iff_mem_keys, Registry.keys_eq_map_configs]
      exact List.mem_map_of_mem hp
    obtain ⟨plan, hplan⟩ := h.exists_plan?_compileAll hm hin
    obtain ⟨q, hq, -, parents, hmade⟩ := h.compileAll.exists_plans hplan
    rw [hconfig.mpr ⟨hp, rfl⟩] at hq
    cases hq
    have hmem : plan ∈ (compiler.compileAll r).registry.plans :=
      List.mem_filterMap.mpr ⟨p.name, h.compileAll.mem_resolvedNames_iff.mpr ⟨plan, hplan⟩, hplan⟩
    rw [← Compiler.name_of_planWith hmade, filter_owned h.compileAll.nodup_plans hmem, List.map_map,
      Compiler.builders_of_planWith hmade]
    simp [Function.comp_def]

namespace Configuration

variable {credentials : CredentialStore} {text : String} {c : Configuration} {r : Registry}
  {master : MasterPlan}

/-- **Builders are told apart.**  The builders of a document stand with the projects that they have been
made for.  Two of them have the same name just if they belong to one project and run on one worker, and
just then they run on one worker in the same directory; so a name is there twice just if one project names
one worker twice. -/
theorem builders_told_apart (compiler : Compiler) (h : Configuration.parse credentials text = .ok c)
    (hr : Registry.ofConfigs c.projects = .ok r)
    (hm : (compiler.compileAll r).result = .ok master) :
    ∃ pieces : List (String × Builder), pieces.map Prod.snd = master.builders ∧
      compiler.toolchain.Builds c.projects pieces ∧
      (∀ piece ∈ pieces, ∀ piece' ∈ pieces,
        (piece.2.name = piece'.2.name ↔ piece.1 = piece'.1 ∧ piece.2.worker = piece'.2.worker) ∧
        ((piece.2.worker = piece'.2.worker ∧ piece.2.buildDir = piece'.2.buildDir) ↔
          piece.1 = piece'.1 ∧ piece.2.worker = piece'.2.worker) ∧
        (piece.1 ≠ piece'.1 → piece.2.name ≠ piece'.2.name ∧
          ¬(piece.2.worker = piece'.2.worker ∧ piece.2.buildDir = piece'.2.buildDir))) ∧
      ∀ name, 1 < (master.builders.map Builder.name).count name ↔
        ∃ p ∈ c.projects, ∃ worker, name = .ofPair p.name worker ∧ 1 < p.workers.count worker := by
  have hfree : ∀ p ∈ c.projects, ∀ worker ∈ p.workers, ' ' ∉ worker.toList := by
    intro p hp worker hw hspace
    -- worker names are read as words, and those hold no blank
    exact absurd ((of_mem_workers h hp hw).2 ' ' hspace) (by decide)
  obtain ⟨hnd, rfl⟩ := Registry.ofConfigs_eq_ok_iff.mp hr
  have hbuilds := (Compiler.settled_fresh hnd).builds_owned hm
  rw [Registry.configs_fresh] at hbuilds
  obtain ⟨-, rfl⟩ := Compiler.compileAll_eq_ok_iff.mp hm
  have hbuilders := map_snd_owned ProjectPlan.builders (compiler.compileAll (.fresh c.projects)).registry.plans
  rw [← MasterPlan.builders_ofPlans] at hbuilders
  refine ⟨_, hbuilders, hbuilds, fun piece hp piece' hp' => ?_, fun name => ?_⟩
  · have hname := hbuilds.name_eq_iff hfree hp hp'
    have hdir := hbuilds.directory_eq_iff hp hp'
    exact ⟨hname, hdir, fun hne => ⟨fun hn => hne (hname.mp hn).1, fun hd => hne (hdir.mp hd).1⟩⟩
  · rw [← hbuilders, List.map_map]
    exact hbuilds.repeated_iff hfree name

/-- Names of projects and workers run into each other: two builders have the same name, as one worker is
named twice, and two have the same directory, on different workers. -/
theorem builders_told_apart_by_last_space :
    let text :=
      "master \x7b\n workers \"b_c\" \"c\"\n\x7d\n" ++
        "project \"a\" \x7b\n repository \"r\"\n workers \"b_c c\"\n\x7d\n" ++
        "project \"a b\" \x7b\n repository \"r\"\n worker \"c\"\n slave_names \"c\"\n\x7d\n" ++
        "project \"a_b\" \x7b\n repository \"r\"\n workers \"c\"\n\x7d\n"
    let told : List (BuilderName × String × String) :=
      [(⟨"a b_c"⟩, "b_c", "a_b_c"), (⟨"a c"⟩, "c", "a_c"), (⟨"a b c"⟩, "c", "a b_c"),
        (⟨"a b c"⟩, "c", "a b_c"), (⟨"a_b c"⟩, "c", "a_b_c")]
    ∃ c r master, Configuration.parse (fun _ => none) text = .ok c ∧
      Registry.ofConfigs c.projects = .ok r ∧ (c.compiler.compileAll r).result = .ok master ∧
      (master.builders.map fun b => (b.name, b.worker, b.buildDir)) = told ∧
      ∃ p ∈ c.projects, ∃ worker, ⟨"a b c"⟩ = BuilderName.ofPair p.name worker ∧
        1 < p.workers.count worker := by
  intro text told
  obtain ⟨c, master, hc, hm, hbuilders⟩ := exists_of_run (fun _ => none) text "ci.kdl"
    (fun _ master => master.builders.map fun b => (b.name, b.worker, b.buildDir)) told
    (by decide +kernel)
  have hnd := names_nodup_of_parse hc
  have hr := Registry.ofConfigs_of_nodup hnd
  rw [compileConfiguration_eq_ok_iff hnd] at hm
  refine ⟨c, .fresh c.projects, master, hc, hr, hm, hbuilders, ?_⟩
  obtain ⟨-, -, -, -, hrepeated⟩ := builders_told_apart c.compiler hc hr hm
  have hnames : master.builders.map Builder.name = told.map Prod.fst := by
    rw [← hbuilders, List.map_map]
    rfl
  refine (hrepeated ⟨"a b c"⟩).mp ?_
  rw [hnames]
  decide

end Configuration

end BuildPlan
