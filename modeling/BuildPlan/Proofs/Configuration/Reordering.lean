import BuildPlan.Proofs.Configuration.Acceptance
import BuildPlan.Proofs.Configuration.Reading
import BuildPlan.Proofs.Plan.Installation
import BuildPlan.Proofs.Registry.Extension
import Mathlib.Data.List.Perm.Basic

/-!
# Documents in another order

The order of the nodes of a document decides in which order things are installed, and which one of several
faults is reported.  A project is read from its own node and the node of the master, and compiles as it
would by itself; so neither what it comes to nor whether all projects compile depends on what stands in
front of it (`compile_of_perm`).
-/

namespace BuildPlan

namespace Compiler

variable {c : Compiler} {r r' : Registry} {name : String} {plan : ProjectPlan}
  {master master' : MasterPlan}

/-! ### Registries of the same projects -/

namespace Settled

theorem mem_plans_iff (h : c.Settled r) : plan ∈ r.plans ↔ r.plan? plan.name = some plan := by
  refine ⟨h.plan?_of_mem_plans, fun hp => ?_⟩
  exact h.mem_plans_of_plan? hp

/-- When all projects have been compiled, the plans are what the projects come to by themselves. -/
theorem plan?_compileAll_eq_some_iff (h : c.Settled r) (hs : r.stack = [])
    (hm : (c.compileAll r).result = .ok master) :
    (c.compileAll r).registry.plan? name = some plan ↔ (c.resolve r name).result = .ok plan := by
  refine ⟨h.result_of_plan? hs, fun hp => ?_⟩
  have hy := h.yields_resolve name
  rw [hp] at hy
  obtain ⟨plan', hplan'⟩ := h.exists_plan?_compileAll hm ((h.consistent.mem_names_iff name).mpr hy.contains)
  cases hp.symm.trans (h.result_of_plan? hs hplan')
  exact hplan'

section Same

variable (h : c.Settled r) (h' : c.Settled r') (hs : r.stack = []) (hs' : r'.stack = [])
  (hc : r'.config? = r.config?)
include h h' hs hs' hc

/-- All projects compile in both or in neither. -/
theorem exists_compileAll_iff_of_config?_eq :
    (∃ master, (c.compileAll r).result = .ok master) ↔
      ∃ master, (c.compileAll r').result = .ok master := by
  have hnames : ∀ n, n ∈ r.names ↔ n ∈ r'.names := by
    intro n
    rw [h.consistent.mem_names_iff, h'.consistent.mem_names_iff, ← Registry.config?_isSome,
      ← Registry.config?_isSome, hc]
  rw [h.exists_compileAll_iff hs, h'.exists_compileAll_iff hs']
  simp only [hnames, h.result_eq h' hc hs hs']

/-- A project has the same plan in both. -/
theorem plan?_compileAll_eq (hm : (c.compileAll r).result = .ok master)
    (hm' : (c.compileAll r').result = .ok master') :
    (c.compileAll r').registry.plan? = (c.compileAll r).registry.plan? := by
  funext n
  apply Option.ext
  intro plan
  rw [h.plan?_compileAll_eq_some_iff hs hm, h'.plan?_compileAll_eq_some_iff hs' hm',
    h.result_eq h' hc hs hs']

theorem plans_compileAll_perm (hm : (c.compileAll r).result = .ok master)
    (hm' : (c.compileAll r').result = .ok master') :
    (c.compileAll r).registry.plans.Perm (c.compileAll r').registry.plans := by
  have hset := h.compileAll
  have hset' := h'.compileAll
  refine (List.perm_ext_iff_of_nodup hset.nodup_plans.of_map hset'.nodup_plans.of_map).mpr ?_
  intro plan
  rw [hset.mem_plans_iff, hset'.mem_plans_iff, h.plan?_compileAll_eq h' hs hs' hc hm hm']

end Same

end Settled

end Compiler

theorem Registry.config?_fresh_of_perm {configs configs' : List ProjectConfig}
    (hn : (configs.map ProjectConfig.name).Nodup) (hp : configs.Perm configs') :
    (fresh configs').config? = (fresh configs).config? := by
  have hn' : (configs'.map ProjectConfig.name).Nodup := (hp.map ProjectConfig.name).nodup_iff.mp hn
  refine config?_of_perm (by rwa [keys_fresh]) (by rwa [keys_fresh]) ?_
  rw [configs_fresh, configs_fresh]
  exact hp.symm

namespace Configuration

variable {credentials : CredentialStore} {text text' : String} {nodes nodes' : List Kdl.Node}
  {c : Configuration}

/-! ### Nodes in another order -/

/-- The master is read from the one node that there is, wherever it stands. -/
theorem readMaster_eq_of_perm (hp : nodes.Perm nodes') : readMaster nodes = readMaster nodes' := by
  have hf := hp.filter fun node => node.name == "master"
  have hlen := hf.length_eq
  unfold readMaster
  generalize nodes.filter _ = found at hf hlen ⊢
  generalize nodes'.filter _ = found' at hf hlen ⊢
  match found, found' with
  | [], [] => rfl
  | [node], [node'] => rw [List.singleton_perm_singleton.mp hf]
  | _ :: _ :: _, _ :: _ :: _ => rfl
  | [], _ :: _ => cases hlen
  | _ :: _, [] => cases hlen
  | [_], _ :: _ :: _ => cases hlen
  | _ :: _ :: _, [_] => cases hlen

/-- Nodes in another order are read to the same master and the same projects in another order. -/
theorem exists_ofNodes_of_perm (hp : nodes.Perm nodes') (h : ofNodes credentials nodes = .ok c) :
    ∃ c', ofNodes credentials nodes' = .ok c' ∧ c'.master = c.master ∧
      c.projects.Perm c'.projects := by
  obtain ⟨hm, hps⟩ := ofNodes_eq_ok_iff.mp h
  obtain ⟨hall, hnd, -⟩ := readProjects_eq_ok_iff.mp hps
  have hprojects := hp.symm.filter fun node => node.name == "project"
  -- the projects are moved along with their nodes
  obtain ⟨projects, hall', hperm⟩ := List.perm_comp_forall₂ hprojects hall
  have hnd' := (hperm.map ProjectConfig.name).nodup_iff.mpr hnd
  refine ⟨⟨c.master, projects⟩, ofNodes_eq_ok_iff.mpr ⟨?_, ?_⟩, rfl, hperm.symm⟩
  · rw [← readMaster_eq_of_perm hp, hm]
  · exact readProjects_eq_ok_iff.mpr ⟨hall', hnd', by simp⟩

/-- **Order of nodes.**  If the nodes of one document are those of another in another order, then both can
be read or neither, and they are read to the same master and the same projects in another order.  A
compiler compiles all projects of both or of neither; then every project has the same plan in both, and
the schedulers, the builders and the notifiers are the same in another order. -/
theorem compile_of_perm (ht : Kdl.Node.parse? text = some nodes)
    (ht' : Kdl.Node.parse? text' = some nodes') (hp : nodes.Perm nodes')
    (credentials : CredentialStore) :
    ((∃ c, parse credentials text = .ok c) ↔ ∃ c', parse credentials text' = .ok c') ∧
    ∀ c c', parse credentials text = .ok c → parse credentials text' = .ok c' →
      c'.master = c.master ∧ c.projects.Perm c'.projects ∧
      ∀ compiler : Compiler, ∃ r r', Registry.ofConfigs c.projects = .ok r ∧
        Registry.ofConfigs c'.projects = .ok r' ∧
        ((∃ master, (compiler.compileAll r).result = .ok master) ↔
          ∃ master', (compiler.compileAll r').result = .ok master') ∧
        ∀ master master', (compiler.compileAll r).result = .ok master →
          (compiler.compileAll r').result = .ok master' →
          (∀ p ∈ c.projects, ∃ plan, (compiler.compileAll r).registry.plan? p.name = some plan ∧
            (compiler.compileAll r').registry.plan? p.name = some plan) ∧
          master.schedulers.Perm master'.schedulers ∧ master.builders.Perm master'.builders ∧
          master.notifiers.Perm master'.notifiers := by
  constructor
  · rw [parse_of_nodes ht, parse_of_nodes ht']
    constructor
    · rintro ⟨c, hc⟩
      obtain ⟨c', hc', -⟩ := exists_ofNodes_of_perm hp hc
      exact ⟨c', hc'⟩
    · rintro ⟨c', hc'⟩
      obtain ⟨c, hc, -⟩ := exists_ofNodes_of_perm hp.symm hc'
      exact ⟨c, hc⟩
  intro c c' hc hc'
  have hnd := names_nodup_of_parse hc
  have hnd' := names_nodup_of_parse hc'
  rw [parse_of_nodes ht] at hc
  rw [parse_of_nodes ht'] at hc'
  obtain ⟨found, hfound, hmaster, hperm⟩ := exists_ofNodes_of_perm hp hc
  cases hfound.symm.trans hc'
  refine ⟨hmaster, hperm, fun compiler => ⟨_, _, Registry.ofConfigs_of_nodup hnd,
    Registry.ofConfigs_of_nodup hnd', ?_⟩⟩
  have hset : compiler.Settled (.fresh c.projects) := Compiler.settled_fresh hnd
  have hset' : compiler.Settled (.fresh c'.projects) := Compiler.settled_fresh hnd'
  have hconfig := Registry.config?_fresh_of_perm hnd hperm
  refine ⟨hset.exists_compileAll_iff_of_config?_eq hset' rfl rfl hconfig,
    fun master master' hm hm' => ⟨fun p hmem => ?_, ?_⟩⟩
  · have hname : p.name ∈ (Registry.fresh c.projects).names := by
      rw [Registry.names_fresh]
      exact List.mem_map_of_mem hmem
    obtain ⟨plan, hplan⟩ := hset.exists_plan?_compileAll hm hname
    exact ⟨plan, hplan, by rwa [hset.plan?_compileAll_eq hset' rfl rfl hconfig hm hm']⟩
  · have hplans := hset.plans_compileAll_perm hset' rfl rfl hconfig hm hm'
    obtain ⟨-, rfl⟩ := Compiler.compileAll_eq_ok_iff.mp hm
    obtain ⟨-, rfl⟩ := Compiler.compileAll_eq_ok_iff.mp hm'
    exact MasterPlan.ofPlans_perm hplans

/-- A child in front of its parent, with the master first, and the same nodes with the parent in front and
the master last: the builders are installed in another order. -/
theorem compile_of_perm_master_last :
    let master := "master \x7bworker w\x7d\n"
    let app := "project app \x7brepository r; worker w; dependent-scheduler lib\x7d\n"
    let lib := "project lib \x7brepository r; worker w\x7d\n"
    let top := "project top \x7brepository r; worker w\x7d\n"
    let text := master ++ app ++ lib ++ top
    let text' := top ++ lib ++ app ++ master
    ∃ nodes nodes' c c' r r' m m', Kdl.Node.parse? text = some nodes ∧
      Kdl.Node.parse? text' = some nodes' ∧ nodes.Perm nodes' ∧
      Configuration.parse (fun _ => none) text = .ok c ∧
      Configuration.parse (fun _ => none) text' = .ok c' ∧
      Registry.ofConfigs c.projects = .ok r ∧ Registry.ofConfigs c'.projects = .ok r' ∧
      (c.compiler.compileAll r).result = .ok m ∧ (c.compiler.compileAll r').result = .ok m' ∧
      m.builders.Perm m'.builders ∧
      m.builders.map Builder.buildDir = ["lib_w", "app_w", "top_w"] ∧
      m'.builders.map Builder.buildDir = ["top_w", "lib_w", "app_w"] := by
  intro master app lib top text text'
  let node (name value : String) (children : List Kdl.Node) : Kdl.Node :=
    ⟨name, [⟨none, .text value⟩], children⟩
  let common := [node "repository" "r" [], node "worker" "w" []]
  let masterNode : Kdl.Node := ⟨"master", [], [node "worker" "w" []]⟩
  let appNode := node "project" "app" (common ++ [node "dependent-scheduler" "lib" []])
  let libNode := node "project" "lib" common
  let topNode := node "project" "top" common
  have ht : Kdl.Node.parse? text = some [masterNode, appNode, libNode, topNode] := by
    decide +kernel
  have ht' : Kdl.Node.parse? text' = some [topNode, libNode, appNode, masterNode] := by
    decide +kernel
  have hperm : [masterNode, appNode, libNode, topNode].Perm
      [topNode, libNode, appNode, masterNode] := (List.reverse_perm [masterNode, appNode, libNode, topNode]).symm
  obtain ⟨c, m, hc, hm, hdirs⟩ := exists_of_run (fun _ => none) text "ci.kdl"
    (fun _ m => m.builders.map Builder.buildDir) ["lib_w", "app_w", "top_w"]
    (by rw [parse_of_nodes ht]; decide +kernel)
  obtain ⟨c', m', hc', hm', hdirs'⟩ := exists_of_run (fun _ => none) text' "ci.kdl"
    (fun _ m => m.builders.map Builder.buildDir) ["top_w", "lib_w", "app_w"]
    (by rw [parse_of_nodes ht']; decide +kernel)
  obtain ⟨-, hsame⟩ := compile_of_perm ht ht' hperm (fun _ => none)
  obtain ⟨hmaster, -, hcompile⟩ := hsame c c' hc hc'
  obtain ⟨r, r', hr, hr', -, hplans⟩ := hcompile c.compiler
  obtain ⟨hnd, rfl⟩ := Registry.ofConfigs_eq_ok_iff.mp hr
  obtain ⟨hnd', rfl⟩ := Registry.ofConfigs_eq_ok_iff.mp hr'
  have hcompiler : c'.compiler = c.compiler := by simp only [compiler, hmaster]
  rw [compileConfiguration_eq_ok_iff hnd] at hm
  rw [compileConfiguration_eq_ok_iff hnd', hcompiler] at hm'
  exact ⟨_, _, c, c', _, _, m, m', ht, ht', hperm, hc, hc', hr, hr', hm, hm',
    (hplans m m' hm hm').2.2.1, hdirs, hdirs'⟩

end Configuration

end BuildPlan
