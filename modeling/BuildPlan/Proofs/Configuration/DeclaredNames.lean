import BuildPlan.Proofs.Configuration.Stages

/-!
# Names and references in documents

A project keeps its name as it stands in the document, while the blanks around a reference to a project
are dropped.  So a project can be referred to by its declared name just if there are no blanks around it.
-/

namespace BuildPlan

namespace Kdl.Node

variable {node : Node} {text : String}

/-- The first argument is a text, and it is its own scalar. -/
theorem firstScalar?_of_firstText? (h : node.firstText? = some text) :
    node.firstScalar? = some text := by
  obtain ⟨value, hv, ht⟩ := Option.bind_eq_some_iff.mp h
  cases value with
  | text s =>
    cases ht
    rw [firstScalar?, hv]
    rfl
  | _ => cases ht

end Kdl.Node

/-! ### The last reference counts -/

namespace ProjectDraft

variable {d d' : ProjectDraft} {child : Kdl.Node} {nodes : List Kdl.Node}

/-- Of all references, the last one counts. -/
theorem dependent_of_foldlM (h : nodes.foldlM readOption d = .ok d')
    (hl : (Kdl.Node.keyed ProjectOption.dependent.keys nodes).getLast? = some child) :
    ∃ parent, child.firstScalar? = some parent ∧
      d'.schedule.dependent = some (Text.trim parent) := by
  obtain ⟨e, he⟩ := exists_readKnown_last h hl
  obtain ⟨parent, hparent, honly⟩ := bind_pure_eq_ok_iff.mp he
  refine ⟨parent, required_eq_ok_iff.mp hparent, ?_⟩
  show (d'.only .dependent).schedule.dependent = some (Text.trim parent)
  rw [honly]

end ProjectDraft

namespace ProjectConfig

variable {master : MasterSettings} {credentials : CredentialStore} {node child : Kdl.Node}
  {p : ProjectConfig} {text : String}

/-- The name of a project is the first argument of its node, as it stands. -/
theorem firstText?_of_ofNode (h : ofNode master credentials node = .ok p) :
    node.firstText? = some p.name :=
  (Option.filter_eq_some_iff.mp (readFrom_of_ofNode h).name).1

/-- The parent of a project is the text of the last reference, without the blanks around it. -/
theorem dependent_of_ofNode (h : ofNode master credentials node = .ok p)
    (hl : (Kdl.Node.keyed ProjectOption.dependent.keys node.children).getLast? = some child)
    (ht : child.firstText? = some text) : p.schedule.dependent = some (Text.trim text) := by
  obtain ⟨name, d, -, hfold, -, hfinish⟩ := ofNode_eq_ok_iff.mp h
  obtain ⟨-, timeouts, -, rfl⟩ := ProjectDraft.finish_eq_ok_iff.mp hfinish
  obtain ⟨parent, hs, hd⟩ := ProjectDraft.dependent_of_foldlM hfold hl
  cases hs.symm.trans (Kdl.Node.firstScalar?_of_firstText? ht)
  exact hd

end ProjectConfig

/-! ### Registered names are known -/

namespace Compiler

/-- No resolution finds a registered name unknown. -/
theorem resolve_ne_unknown {r : Registry} {n : String} (c : Compiler) (hn : n ∈ r.keys)
    (name : String) : (c.resolve r name).result ≠ .error (.unknownDependency n) := by
  have h := resolve_failsWith (P := (· ≠ .unknownDependency n)) nofun nofun nofun c r name
    fun m hm he => hm (CompileError.unknownDependency.inj he ▸ hn)
  exact fun he => h _ he rfl

end Compiler

namespace Configuration

variable {credentials : CredentialStore} {text : String} {c : Configuration} {nodes : List Kdl.Node}

/-- The projects of a document are read one from each project node. -/
theorem ofNode_of_mem_zip (h : parse credentials text = .ok c)
    (hnodes : Kdl.Node.parse? text = some nodes) {node : Kdl.Node} {p : ProjectConfig}
    (hm : (node, p) ∈ (nodes.filter fun node => node.name == "project").zip c.projects) :
    ProjectConfig.ofNode c.master credentials node = .ok p := by
  rw [parse_of_nodes hnodes, ofNodes_eq_ok_iff] at h
  exact (List.forall₂_iff_zip.mp (readProjects_eq_ok_iff.mp h.2).1).2 hm

/-- **A project is referred to by its name without the blanks around it.**  If the last reference of a
project holds the declared name of another character for character, then its parent is the name without
the blanks around it.  This is the other project just if there are none; then whatever compiler and
however far the registry has come, the other project is asked for, and its name is not unknown. -/
theorem dependent_of_declared (h : parse credentials text = .ok c)
    (hnodes : Kdl.Node.parse? text = some nodes) {a b child : Kdl.Node}
    {declared referring : ProjectConfig}
    (ha : (a, declared) ∈ (nodes.filter fun node => node.name == "project").zip c.projects)
    (hb : (b, referring) ∈ (nodes.filter fun node => node.name == "project").zip c.projects)
    (hchild : (Kdl.Node.keyed ProjectOption.dependent.keys b.children).getLast? = some child)
    (hsame : child.firstText? = a.firstText?) :
    referring.schedule.dependent = some (Text.trim declared.name) ∧
    (referring.schedule.dependent = some declared.name ↔ Text.trim declared.name = declared.name) ∧
    (Text.trim declared.name = declared.name →
      ∀ (compiler : Compiler) (r : Registry), r.entries.map RegistryEntry.config = c.projects →
        r.config? declared.name = some declared ∧
        (compiler.resolve r referring.name).result ≠ .error (.unknownDependency declared.name) ∧
        (r.state? referring.name = some .unresolved → compiler.knowsWorkerOf referring →
          let o := compiler.resolve (r.enter referring.name) declared.name
          (compiler.resolve r referring.name).result =
              compiler.planWith referring (o.result.map ProjectPlan.schedulers) ∧
            o.result ≠ .error (.unknownDependency declared.name))) := by
  have hname := ProjectConfig.firstText?_of_ofNode (ofNode_of_mem_zip h hnodes ha)
  have hdep : referring.schedule.dependent = some (Text.trim declared.name) :=
    ProjectConfig.dependent_of_ofNode (ofNode_of_mem_zip h hnodes hb) hchild (hsame.trans hname)
  refine ⟨hdep, ?_, fun htrim compiler r hr => ?_⟩
  · rw [hdep, Option.some.injEq]
  have hkeys : r.keys = c.projects.map ProjectConfig.name := by
    rw [Registry.keys_eq_map_configs, hr]
  have hnd : r.keys.Nodup := by
    rw [hkeys]
    exact names_nodup_of_parse h
  have hconfig : ∀ {p}, p ∈ c.projects → r.config? p.name = some p := fun hp =>
    (Registry.config?_eq_some_iff_mem hnd).mpr ⟨hr ▸ hp, rfl⟩
  have hdeclared := hconfig (List.of_mem_zip ha).2
  have hmem : declared.name ∈ r.keys := hkeys ▸ List.mem_map_of_mem (List.of_mem_zip ha).2
  refine ⟨hdeclared, compiler.resolve_ne_unknown hmem _, fun hstate hworker => ⟨?_, ?_⟩⟩
  · -- the reference names a registered project, so the resolution asks for it
    obtain ⟨p, he⟩ := Registry.state?_eq_some_iff.mp hstate
    cases (Registry.config?_of_get? he).symm.trans (hconfig (List.of_mem_zip hb).2)
    rw [Compiler.resolve_of_dependent he hworker (hdep.trans (by rw [htrim]))]
  · exact compiler.resolve_ne_unknown (Registry.keys_enter r _ ▸ hmem) _

/-- A name with a blank inside, and two references of which the last one counts. -/
theorem dependent_of_declared_last :
    let text :=
      "master \x7b\n workers \"w\"\n\x7d\n" ++
        "project \"app\" \x7b\n repository \"r\"\n workers \"w\"\n dependent-scheduler \"gui\"\n" ++
        " dependent_scheduler \"the lib\"\n\x7d\n" ++
        "project \"the lib\" \x7b\n repository \"r\"\n workers \"w\"\n\x7d\n"
    ∃ c app lib, parse (fun _ => none) text = .ok c ∧ c.projects = [app, lib] ∧ lib.name = "the lib" ∧
      app.schedule.dependent = some lib.name ∧
      (c.compiler.resolve (.fresh c.projects) app.name).result ≠ .error (.unknownDependency lib.name) ∧
      (c.compiler.resolve ((Registry.fresh c.projects).enter app.name) lib.name).result ≠
        .error (.unknownDependency lib.name) := by
  intro text
  let node (name value : String) (children : List Kdl.Node) : Kdl.Node :=
    ⟨name, [⟨none, .text value⟩], children⟩
  let common := [node "repository" "r" [], node "workers" "w" []]
  let last := node "dependent_scheduler" "the lib" []
  let appNode := node "project" "app" (common ++ [node "dependent-scheduler" "gui" [], last])
  let libNode := node "project" "the lib" common
  let app := { ProjectConfig.chained "app" (some "the lib") with repository := "r" }
  let lib := { ProjectConfig.chained "the lib" none with repository := "r" }
  let c : Configuration := ⟨{ workers := ["w"] }, [app, lib]⟩
  let masterNode : Kdl.Node := ⟨"master", [], [node "workers" "w" []]⟩
  -- the nodes are given by hand, for the lookups are about them and not about the text
  have hnodes : Kdl.Node.parse? text = some [masterNode, appNode, libNode] := by decide +kernel
  have hc : parse (fun _ => none) text = .ok c := by
    rw [parse_of_nodes hnodes]
    decide +kernel
  have hprojects : ∀ pair, pair ∈ [(appNode, app), (libNode, lib)] → pair ∈
      ([masterNode, appNode, libNode].filter fun node => node.name == "project").zip c.projects := by
    decide +kernel
  have hlast : (Kdl.Node.keyed ProjectOption.dependent.keys appNode.children).getLast? = some last := by
    decide +kernel
  obtain ⟨-, hdep, hresolve⟩ := dependent_of_declared hc hnodes (hprojects (libNode, lib) (by simp))
    (hprojects (appNode, app) (by simp)) hlast rfl
  have htrim : Text.trim lib.name = lib.name := by decide +kernel
  obtain ⟨-, hne, hasked⟩ := hresolve htrim c.compiler (.fresh c.projects) (Registry.configs_fresh _)
  obtain ⟨-, hne'⟩ := hasked (by decide +kernel) (by decide +kernel)
  exact ⟨c, app, lib, hc, rfl, rfl, hdep.mpr htrim, hne, hne'⟩

/-- Where there are blanks around the declared name, the reference to it is to a project that is not
there. -/
theorem dependent_of_declared_blank :
    let text :=
      "master \x7b\n workers \"w\"\n\x7d\n" ++
        "project \" lib\" \x7b\n repository \"r\"\n workers \"w\"\n\x7d\n" ++
        "project \"app\" \x7b\n repository \"r\"\n workers \"w\"\n dependent-scheduler \" lib\"\n\x7d\n"
    ∃ c nodes libNode appNode child lib app,
      parse (fun _ => none) text = .ok c ∧ Kdl.Node.parse? text = some nodes ∧
      (nodes.filter fun node => node.name == "project") = [libNode, appNode] ∧ c.projects = [lib, app] ∧
      (Kdl.Node.keyed ProjectOption.dependent.keys appNode.children).getLast? = some child ∧
      child.firstText? = libNode.firstText? ∧ libNode.firstText? = some lib.name ∧
      app.schedule.dependent ≠ some lib.name ∧
      (c.compiler.resolve (.fresh c.projects) app.name).result = .error (.unknownDependency "lib") := by
  intro text
  let node (name value : String) (children : List Kdl.Node) : Kdl.Node :=
    ⟨name, [⟨none, .text value⟩], children⟩
  let common := [node "repository" "r" [], node "workers" "w" []]
  let reference := node "dependent-scheduler" " lib" []
  let libNode := node "project" " lib" common
  let appNode := node "project" "app" (common ++ [reference])
  let lib := { ProjectConfig.chained " lib" none with repository := "r" }
  let app := { ProjectConfig.chained "app" (some "lib") with repository := "r" }
  let c : Configuration := ⟨{ workers := ["w"] }, [lib, app]⟩
  have hnodes : Kdl.Node.parse? text =
      some [⟨"master", [], [node "workers" "w" []]⟩, libNode, appNode] := by
    decide +kernel
  have hc : parse (fun _ => none) text = .ok c := by
    rw [parse_of_nodes hnodes]
    decide +kernel
  exact ⟨c, _, libNode, appNode, reference, lib, app, hc, hnodes, by decide +kernel, rfl,
    by decide +kernel, rfl, rfl, by decide, by decide +kernel⟩

end Configuration

end BuildPlan
