import BuildPlan.Proofs.Compiler.Credentials
import BuildPlan.Proofs.Configuration.Acceptance
import BuildPlan.Proofs.Plan.Ownership

/-!
# Documents with other credentials

A store of credentials is asked once for each project, for its repository, and what it answers comes out in
the checkouts of the project's builders.  Nothing else that is read, compiled or reported has to do with
the store (`compileText_confines_credentials`).
-/

namespace BuildPlan

variable {store other : CredentialStore}

/-! ### Reading with other credentials -/

theorem ProjectDraft.finish_withCredentials (store : CredentialStore) (d : ProjectDraft)
    (credentials : Option Credentials) :
    { d with credentials }.finish.map (ProjectConfig.withCredentials store) =
      { d with credentials := store d.repository }.finish := by
  unfold finish
  by_cases hb : Text.isBlank d.name
  · simp only [hb, if_true]
    rfl
  · simp only [hb]
    show (ProjectDraft.timeouts _ >>= _).map _ = (ProjectDraft.timeouts _ >>= _)
    have ht : ∀ credentials, { d with credentials }.timeouts = d.timeouts := fun _ => rfl
    rw [ht credentials, ht (store d.repository)]
    cases d.timeouts <;> rfl

theorem ProjectConfig.ofNode_withCredentials (master : MasterSettings) (store other : CredentialStore)
    (node : Kdl.Node) :
    (ofNode master other node).map (withCredentials store) = ofNode master store node := by
  unfold ofNode
  cases nameOf? node with
  | none => rfl
  | some name =>
    dsimp only
    cases node.children.foldlM ProjectDraft.readOption (.start name master) with
    | error e => rfl
    | ok d =>
      -- the store is asked for the repository of the draft, once that has been read
      have hfinish := ProjectDraft.finish_withCredentials store d (other d.repository)
      cases he : d.repository.isEmpty with
      | true =>
        simp only [bind, Except.bind, he]
        rfl
      | false =>
        simp only [bind, Except.bind, he, ← hfinish]
        cases ({ d with credentials := other d.repository }.finish) <;> rfl

namespace Configuration

variable {text : String} {c : Configuration}

/-- The configuration with the credentials of the store. -/
def withCredentials (store : CredentialStore) (c : Configuration) : Configuration :=
  { c with projects := c.projects.map (ProjectConfig.withCredentials store) }

theorem readProjects_withCredentials (master : MasterSettings) (store other : CredentialStore)
    (taken : List String) (nodes : List Kdl.Node) :
    (readProjects master other taken nodes).map (List.map (ProjectConfig.withCredentials store)) =
      readProjects master store taken nodes := by
  induction nodes generalizing taken with
  | nil => rfl
  | cons node rest ih =>
    have hnode := ProjectConfig.ofNode_withCredentials master store other node
    rw [readProjects, readProjects, ← hnode]
    cases ProjectConfig.ofNode master other node with
    | error e => rfl
    | ok p =>
      have hrest : _ = readProjects master store ((p.withCredentials store).name :: taken) rest :=
        ih (p.name :: taken)
      cases ht : taken.contains p.name with
      | true =>
        have ht' : taken.contains (p.withCredentials store).name = true := ht
        simp only [bind, Except.bind, Except.map, ht, ht']
        rfl
      | false =>
        have ht' : taken.contains (p.withCredentials store).name = false := ht
        simp only [bind, Except.bind, Except.map, ht, ht', ← hrest]
        cases readProjects master other (p.name :: taken) rest <;> rfl

theorem parse_withCredentials (store other : CredentialStore) (text : String) :
    (parse other text).map (withCredentials store) = parse store text := by
  unfold parse
  cases Kdl.Node.parse? text with
  | none => rfl
  | some nodes =>
    dsimp only
    unfold ofNodes
    cases readMaster nodes with
    | error e => rfl
    | ok master =>
      have hprojects := readProjects_withCredentials master store other []
        (nodes.filter fun node => node.name == "project")
      simp only [bind, Except.bind, ← hprojects]
      cases readProjects master other [] (nodes.filter fun node => node.name == "project") <;> rfl

/-- The credentials of a project that has been read are those that the store has for its repository. -/
theorem credentials_of_parse (h : parse store text = .ok c) {p : ProjectConfig} (hp : p ∈ c.projects) :
    p.credentials = store p.repository := by
  -- reading twice with one store, the second time gives no project other credentials
  have hsame := parse_withCredentials store store text
  rw [h] at hsame
  have hprojects : c.projects.map (ProjectConfig.withCredentials store) = c.projects.map id := by
    rw [List.map_id]
    exact congrArg Configuration.projects (Except.ok.inj hsame)
  have hfixed : p.withCredentials store = p := List.map_inj_left.mp hprojects p hp
  exact (congrArg ProjectConfig.credentials hfixed).symm

/-! ### Compiling with other credentials -/

/-- What the compilation of a document comes to, and what is reported. -/
structure Compilation where
  result : Except CommandLine.Failure MasterPlan
  events : List Event

/-- Reads a document with a store of credentials, registers its projects and compiles them, with the
compiler that is made for its master. -/
def compileText (compilerOf : MasterSettings → Compiler) (path : String) (store : CredentialStore)
    (text : String) : Compilation :=
  match parse store text with
  | .error e => ⟨.error (.document path e), []⟩
  | .ok c =>
    match Registry.ofConfigs c.projects with
    | .error e => ⟨.error (.registration e), []⟩
    | .ok r =>
      let o := (compilerOf c.master).compileAll r
      ⟨o.result.mapError (.compilation path), o.events⟩

/-- With the compiler of the configuration, this is how a file is loaded. -/
theorem load_eq_compileText (files : CommandLine.Files) (path : String) (httpauth : Option String) :
    CommandLine.load files path httpauth = (do
      let text ← (files path).mapError (.configFile path)
      let credentials ← CommandLine.readCredentials files httpauth
      (compileText (fun master => compiler { master, projects := [] }) path credentials.credentialsFor
        text).result) := by
  unfold CommandLine.load
  cases files path with
  | error e => rfl
  | ok text =>
    cases CommandLine.readCredentials files httpauth with
    | error e => rfl
    | ok credentials =>
      show ((parse credentials.credentialsFor text).mapError _ >>= CommandLine.compileConfiguration path) =
        (compileText _ path credentials.credentialsFor text).result
      unfold compileText
      cases parse credentials.credentialsFor text with
      | error e => rfl
      | ok c =>
        show CommandLine.compileConfiguration path c = _
        unfold CommandLine.compileConfiguration
        dsimp only
        cases Registry.ofConfigs c.projects <;> rfl

variable {compilerOf : MasterSettings → Compiler} {path : String} {m : MasterPlan}

/-- A document compiles in the same way with other credentials. -/
theorem compileText_withCredentials (compilerOf : MasterSettings → Compiler) (path : String)
    (store other : CredentialStore) (text : String) :
    compileText compilerOf path store text =
      { result := (compileText compilerOf path other text).result.map (MasterPlan.withCredentials store)
        events := (compileText compilerOf path other text).events } := by
  unfold compileText
  rw [← parse_withCredentials store other text]
  cases hc : parse other text with
  | error e => rfl
  | ok c =>
    have hnd := names_nodup_of_parse hc
    have hnd' : ((c.projects.map (ProjectConfig.withCredentials store)).map
        ProjectConfig.name).Nodup := by
      rw [List.map_map]
      exact hnd
    dsimp only [Except.map, withCredentials]
    rw [Registry.ofConfigs_of_nodup hnd, Registry.ofConfigs_of_nodup hnd',
      ← Registry.fresh_withCredentials]
    dsimp only
    rw [Compiler.compileAll_withCredentials]
    dsimp only [Outcome.withCredentials]
    cases ((compilerOf c.master).compileAll (.fresh c.projects)).result <;> rfl

theorem compileText_eq_ok_iff :
    (compileText compilerOf path store text).result = .ok m ↔
      ∃ c, parse store text = .ok c ∧
        ((compilerOf c.master).compileAll (.fresh c.projects)).result = .ok m := by
  unfold compileText
  cases hc : parse store text with
  | error e => simp
  | ok c =>
    dsimp only
    rw [Registry.ofConfigs_of_nodup (names_nodup_of_parse hc)]
    dsimp only
    cases ho : ((compilerOf c.master).compileAll (.fresh c.projects)).result with
    | error e => simp [Except.mapError, ho]
    | ok m => simp [Except.mapError, ho]

/-- The builders of a project in Subversion check it out with the credentials that the store has for its
repository. -/
theorem sources_of_builder {compiler : Compiler} (hc : parse store text = .ok c)
    {p : ProjectConfig} (hp : p ∈ c.projects) (hv : p.vcs = .svn) {b : Builder}
    (hb : (p.name, b) ∈
      owned ProjectPlan.builders (compiler.compileAll (.fresh c.projects)).registry.plans) :
    b.pipeline.sources = [.svn p.repository (store p.repository)] := by
  have hset : compiler.Settled (.fresh c.projects) := Compiler.settled_fresh (names_nodup_of_parse hc)
  obtain ⟨added, hres⟩ := compiler.exists_resolves_compileAll (.fresh c.projects)
  obtain ⟨plan, hplan, hname, hmem⟩ := mem_owned_iff.mp hb
  obtain ⟨q, parents, hq, -, hwith⟩ :=
    hset.compileAll.exists_planWith (hset.compileAll.plan?_of_mem_plans hplan)
  -- the plan is made of the project itself, since names are different
  have hpq : (Registry.fresh c.projects).config? plan.name = some p := by
    rw [Registry.config?_eq_some_iff_mem hset.consistent.keys_nodup, Registry.configs_fresh]
    exact ⟨hp, hname.symm⟩
  rw [hres.config_eq] at hq
  cases hpq.symm.trans hq
  obtain ⟨pipeline, hpipeline, rfl⟩ := Compiler.exists_pipeline_of_planWith hwith
  obtain ⟨worker, -, rfl⟩ := List.mem_map.mp hmem
  obtain ⟨s, hs, hsources⟩ := Toolchain.sources_of_pipeline hpipeline
  have hsvn : Toolchain.source p = .ok (.svn p.repository p.credentials) := by
    unfold Toolchain.source
    rw [hv]
  cases hsvn.symm.trans hs
  show pipeline.sources = _
  rw [hsources, credentials_of_parse hc hp]

/-- **Credentials are confined.**  A document is compiled with two stores: the same is reported, and either
both fail with the same failure, or both succeed and the master plans are the same when the credentials are
taken out of the checkouts.  If the compilation with a store succeeds, then the builders on the master are
those of the plans that the projects of the document have come to, and those of a project in Subversion
have one checkout, with just the credentials that the store has for the project's repository. -/
theorem compileText_confines_credentials (compilerOf : MasterSettings → Compiler) (path : String)
    (store other : CredentialStore) (text : String) :
    let one := compileText compilerOf path store text
    let two := compileText compilerOf path other text
    one.events = two.events ∧
    ((∃ e, one.result = .error e ∧ two.result = .error e) ∨
      ∃ m m', one.result = .ok m ∧ two.result = .ok m' ∧
        m.withCredentials .empty = m'.withCredentials .empty) ∧
    ∀ m, one.result = .ok m → ∃ c r, parse store text = .ok c ∧ Registry.ofConfigs c.projects = .ok r ∧
      let plans := ((compilerOf c.master).compileAll r).registry.plans
      (plans.map ProjectPlan.name).Perm (c.projects.map ProjectConfig.name) ∧
      m.builders = (owned ProjectPlan.builders plans).map Prod.snd ∧
      ∀ p ∈ c.projects, p.vcs = .svn → ∀ b, (p.name, b) ∈ owned ProjectPlan.builders plans →
        b.pipeline.sources = [.svn p.repository (store p.repository)] := by
  intro one two
  have hsame : one = { result := two.result.map (MasterPlan.withCredentials store), events := two.events } :=
    compileText_withCredentials compilerOf path store other text
  refine ⟨by rw [hsame], ?_, fun m hm => ?_⟩
  · -- compiled with the other store first, the first store only puts its credentials in
    cases htwo : two.result with
    | error e =>
      refine Or.inl ⟨e, ?_, rfl⟩
      rw [hsame, htwo]
      rfl
    | ok m =>
      refine Or.inr ⟨m.withCredentials store, m, ?_, rfl, m.withCredentials_withCredentials _ _⟩
      rw [hsame, htwo]
      rfl
  · obtain ⟨c, hc, hcompile⟩ := compileText_eq_ok_iff.mp hm
    have hset : (compilerOf c.master).Settled (.fresh c.projects) :=
      Compiler.settled_fresh (names_nodup_of_parse hc)
    have hperm := hset.plans_perm hcompile
    rw [Registry.names_fresh] at hperm
    obtain ⟨-, rfl⟩ := Compiler.compileAll_eq_ok_iff.mp hcompile
    refine ⟨c, .fresh c.projects, hc, Registry.ofConfigs_of_nodup (names_nodup_of_parse hc), hperm, ?_,
      fun p hp hv b hb => sources_of_builder hc hp hv hb⟩
    rw [map_snd_owned, MasterPlan.builders_ofPlans]

/-- A project in Subversion and a child of it in git, with the same repository, compiled with the store of a
file and without credentials: the master plans differ, and only in the checkout of the builder of the
first. -/
theorem compileText_confines_credentials_of_file :
    let text := "master \x7bworker w\x7d\n" ++ "project lib \x7brepository r; worker w\x7d\n" ++
      "project app \x7brepository r; worker w; vcs git; dependent-scheduler lib\x7d\n"
    let compilerOf (master : MasterSettings) : Compiler := compiler { master, projects := [] }
    let run := compileText compilerOf "ci.kdl"
    ∃ auth c m m', HttpAuth.parse "realm,r,ci,secret" = .ok auth ∧
      parse auth.credentialsFor text = .ok c ∧
      (run auth.credentialsFor text).result = .ok m ∧ (run .empty text).result = .ok m' ∧
      (run auth.credentialsFor text).events = (run .empty text).events ∧
      m.withCredentials .empty = m'.withCredentials .empty ∧
      (let o := (compilerOf c.master).compileAll (.fresh c.projects)
        let pieces := owned ProjectPlan.builders o.registry.plans
        pieces.map Prod.fst = ["lib", "app"] ∧
          ∀ b, ("lib", b) ∈ pieces → b.pipeline.sources = [.svn "r" (some ⟨"ci", "secret"⟩)]) ∧
      m.builders.map (fun b => (b.name.text, b.pipeline.sources)) =
        [("lib w", [.svn "r" (some ⟨"ci", "secret"⟩)]), ("app w", [.git "r" ""])] ∧
      m'.builders.map (fun b => b.pipeline.sources) = [[.svn "r" none], [.git "r" ""]] := by
  intro text compilerOf run
  let node (name value : String) (children : List Kdl.Node) : Kdl.Node :=
    ⟨name, [⟨none, .text value⟩], children⟩
  let common := [node "repository" "r" [], node "worker" "w" []]
  let nodes : List Kdl.Node := [⟨"master", [], [node "worker" "w" []]⟩, node "project" "lib" common,
    node "project" "app" (common ++ [node "vcs" "git" [], node "dependent-scheduler" "lib" []])]
  have ht : Kdl.Node.parse? text = some nodes := by decide +kernel
  let auth : HttpAuth := ⟨[⟨"r", ⟨"ci", "secret"⟩⟩]⟩
  have hauth : HttpAuth.parse "realm,r,ci,secret" = .ok auth := by decide +kernel
  have hread : ((parse auth.credentialsFor text).toOption.map fun c =>
      (c.projects.map fun p => (p.name, p.vcs, p.repository), (owned ProjectPlan.builders
        ((compilerOf c.master).compileAll (.fresh c.projects)).registry.plans).map Prod.fst)) =
        some ([("lib", .svn, "r"), ("app", .git, "r")], ["lib", "app"]) := by
    rw [parse_of_nodes ht]
    decide +kernel
  have hsources : ((run auth.credentialsFor text).result.toOption.map fun m =>
      m.builders.map fun b => (b.name.text, b.pipeline.sources)) =
        some [("lib w", [.svn "r" (some ⟨"ci", "secret"⟩)]), ("app w", [.git "r" ""])] := by
    simp only [run, compileText, parse_of_nodes ht]
    decide +kernel
  have hsources' : ((run .empty text).result.toOption.map fun m =>
      m.builders.map fun b => b.pipeline.sources) = some [[.svn "r" none], [.git "r" ""]] := by
    simp only [run, compileText, parse_of_nodes ht]
    decide +kernel
  obtain ⟨hevents, ⟨e, he, -⟩ | ⟨m, m', hm, hm', herased⟩, hconfined⟩ :=
    compileText_confines_credentials compilerOf "ci.kdl" auth.credentialsFor .empty text
  · rw [he] at hsources
    cases hsources
  · rw [hm] at hsources
    rw [hm'] at hsources'
    obtain ⟨c, r, hc, hr, -, -, hsvn⟩ := hconfined m hm
    rw [hc] at hread
    obtain ⟨hprojects, hpieces⟩ := Prod.mk.inj (Option.some.inj hread)
    obtain ⟨p, hp, hfields⟩ := List.mem_map.mp (hprojects ▸ List.mem_cons_self)
    simp only [Prod.mk.injEq] at hfields
    obtain ⟨hname, hvcs, hrepository⟩ := hfields
    cases hr.symm.trans (Registry.ofConfigs_of_nodup (names_nodup_of_parse hc))
    refine ⟨auth, c, m, m', hauth, hc, hm, hm', hevents, herased, ⟨hpieces, fun b hb => ?_⟩,
      Option.some.inj hsources, Option.some.inj hsources'⟩
    -- the store is asked for the repository of the project in Subversion
    have hchecked := hsvn p hp hvcs b (hname ▸ hb)
    rw [hrepository] at hchecked
    rw [hchecked]
    decide +kernel

end Configuration

end BuildPlan
