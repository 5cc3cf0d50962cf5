import BuildPlan.Configuration
import BuildPlan.Proofs.Configuration.Options
import BuildPlan.Proofs.Text.Words
import Mathlib.Data.List.Forall2
import Mathlib.Data.List.Nodup

/-!
# What is read from a document

A configuration that has been read has one project for each project node, the projects have different
names, and their workers are words.
-/

namespace BuildPlan

/-- What has been collected word by word are words. -/
theorem Kdl.Node.of_mem_words {nodes : List Node} {word : String} (h : word ∈ nodes.flatMap words) :
    word ≠ "" ∧ ∀ c ∈ word.toList, Chars.isBlank c = false := by
  obtain ⟨node, -, h⟩ := List.mem_flatMap.mp h
  obtain ⟨text, -, h⟩ := List.mem_flatMap.mp h
  exact Text.of_mem_words h

namespace Configuration

variable {master : MasterSettings} {credentials : CredentialStore} {c : Configuration}
  {taken : List String} {node : Kdl.Node} {nodes : List Kdl.Node} {p : ProjectConfig}
  {projects : List ProjectConfig}

/-- A first project can be read if its name is free, and then the others under the names that are left. -/
theorem readProjects_cons_eq_ok_iff :
    readProjects master credentials taken (node :: nodes) = .ok projects ↔
      ∃ p rest, projects = p :: rest ∧ ProjectConfig.ofNode master credentials node = .ok p ∧
        p.name ∉ taken ∧ readProjects master credentials (p.name :: taken) nodes = .ok rest := by
  rw [readProjects]
  cases hp : ProjectConfig.ofNode master credentials node with
  | error e => simp [bind, Except.bind]
  | ok p =>
    by_cases ht : p.name ∈ taken
    · simp [bind, Except.bind, ht, throw, throwThe, MonadExceptOf.throw]
    · cases hr : readProjects master credentials (p.name :: taken) nodes with
      | error e => simp [bind, Except.bind, ht, hr]
      | ok rest => simp [bind, Except.bind, ht, hr, pure, Except.pure, eq_comm]

/-- The projects of some nodes are read one from each, and have different names that were not taken
before. -/
theorem readProjects_eq_ok_iff :
    readProjects master credentials taken nodes = .ok projects ↔
      List.Forall₂ (fun node p => ProjectConfig.ofNode master credentials node = .ok p) nodes projects ∧
        (projects.map ProjectConfig.name).Nodup ∧ ∀ p ∈ projects, p.name ∉ taken := by
  induction nodes generalizing taken projects with
  | nil =>
    rw [List.forall₂_nil_left_iff]
    constructor
    · rintro ⟨⟩
      exact ⟨rfl, List.nodup_nil, by simp⟩
    · rintro ⟨rfl, -⟩
      rfl
  | cons node nodes ih =>
    rw [readProjects_cons_eq_ok_iff, List.forall₂_cons_left_iff]
    constructor
    · rintro ⟨p, rest, rfl, hp, ht, hrest⟩
      obtain ⟨hall, hnd, hout⟩ := ih.mp hrest
      refine ⟨⟨p, rest, hp, hall, rfl⟩, List.nodup_cons.mpr ⟨fun hm => ?_, hnd⟩, ?_⟩
      · -- the rest was read with this name taken, so no later project has it
        obtain ⟨q, hq, hname⟩ := List.mem_map.mp hm
        exact hout q hq (by simp [hname])
      · exact List.forall_mem_cons.mpr
          ⟨ht, fun q hq hm => hout q hq (List.mem_cons_of_mem _ hm)⟩
    · rintro ⟨⟨p, rest, hp, hall, rfl⟩, hnd, hout⟩
      obtain ⟨hnew, hnd'⟩ := List.nodup_cons.mp hnd
      obtain ⟨ht, hout'⟩ := List.forall_mem_cons.mp hout
      refine ⟨p, rest, rfl, hp, ht, ih.mpr ⟨hall, hnd', fun q hq hm => ?_⟩⟩
      rcases List.mem_cons.mp hm with hm | hm
      · exact hnew (List.mem_map.mpr ⟨q, hq, hm⟩)
      · exact hout' q hq hm

/-- Each project is read from one of the nodes. -/
theorem exists_node_of_mem (h : readProjects master credentials taken nodes = .ok projects)
    (hp : p ∈ projects) : ∃ node ∈ nodes, ProjectConfig.ofNode master credentials node = .ok p := by
  induction nodes generalizing taken projects with
  | nil =>
    cases h
    cases hp
  | cons node nodes ih =>
    obtain ⟨q, rest, rfl, hq, -, hrest⟩ := readProjects_cons_eq_ok_iff.mp h
    rcases List.mem_cons.mp hp with rfl | hp
    · exact ⟨node, List.mem_cons_self, hq⟩
    · obtain ⟨source, hmem, hread⟩ := ih hrest hp
      exact ⟨source, List.mem_cons_of_mem _ hmem, hread⟩

theorem ofNodes_eq_ok_iff :
    ofNodes credentials nodes = .ok c ↔
      readMaster nodes = .ok c.master ∧
        readProjects c.master credentials [] (nodes.filter fun node => node.name == "project") =
          .ok c.projects := by
  obtain ⟨master, projects⟩ := c
  unfold ofNodes
  cases hm : readMaster nodes with
  | error e => simp [bind, Except.bind]
  | ok m =>
    by_cases he : m = master
    · subst he
      cases hp : readProjects m credentials [] (nodes.filter fun node => node.name == "project") with
      | error e => simp [bind, Except.bind, hp]
      | ok ps => simp [bind, Except.bind, hp, pure, Except.pure]
    · cases hp : readProjects m credentials [] (nodes.filter fun node => node.name == "project") with
      | error e => simp [bind, Except.bind, hp, he]
      | ok ps => simp [bind, Except.bind, hp, pure, Except.pure, he]

theorem parse_of_nodes {text : String} (h : Kdl.Node.parse? text = some nodes) :
    parse credentials text = ofNodes credentials nodes := by
  simp only [parse, h]

theorem exists_nodes_of_parse {text : String} (h : parse credentials text = .ok c) :
    ∃ nodes, readProjects c.master credentials [] nodes = .ok c.projects := by
  cases hn : Kdl.Node.parse? text with
  | none =>
    simp only [parse, hn] at h
    cases h
  | some nodes =>
    rw [parse_of_nodes hn, ofNodes_eq_ok_iff] at h
    exact ⟨_, h.2⟩

/-- The projects of a document that has been read have different names. -/
theorem names_nodup_of_parse {text : String} (h : parse credentials text = .ok c) :
    (c.projects.map ProjectConfig.name).Nodup := by
  obtain ⟨nodes, hread⟩ := exists_nodes_of_parse h
  exact (readProjects_eq_ok_iff.mp hread).2.1

/-- The workers of a project are words. -/
theorem of_mem_workers {text worker : String} (h : parse credentials text = .ok c)
    (hp : p ∈ c.projects) (hw : worker ∈ p.workers) :
    worker ≠ "" ∧ ∀ x ∈ worker.toList, Chars.isBlank x = false := by
  obtain ⟨nodes, hread⟩ := exists_nodes_of_parse h
  obtain ⟨node, -, hnode⟩ := exists_node_of_mem hread hp
  rw [(ProjectConfig.readFrom_of_ofNode hnode).workers] at hw
  exact Kdl.Node.of_mem_words hw

end Configuration

end BuildPlan
