import BuildPlan.Configuration.Project

/-!
# What is read from a project's node

The children of a project's node are read one after the other into a draft.  Words and lines of all
children of an option are collected in order, and the lint commands are those of the last child that has
some (`ProjectConfig.ReadFrom`).
-/

namespace BuildPlan

/-- A run that succeeds is a first part and a second one that succeed. -/
theorem exists_of_bind_eq_ok {ε α β : Type} {x : Except ε α} {f : α → Except ε β} {b : β}
    (h : (x >>= f) = .ok b) : ∃ a, x = .ok a ∧ f a = .ok b := by
  cases x with
  | error e => cases h
  | ok a => exact ⟨a, rfl, h⟩

theorem bind_of_eq_ok {ε α β : Type} {x : Except ε α} {a : α} {f : α → Except ε β}
    (h : x = .ok a) : (x >>= f) = f a := by
  subst h
  rfl

theorem bind_eq_ok_iff {ε α β : Type} {x : Except ε α} {f : α → Except ε β} {b : β} :
    (x >>= f) = .ok b ↔ ∃ a, x = .ok a ∧ f a = .ok b := by
  refine ⟨exists_of_bind_eq_ok, ?_⟩
  rintro ⟨a, ha, hf⟩
  rw [bind_of_eq_ok ha, hf]

theorem bind_pure_eq_ok_iff {ε α β : Type} {x : Except ε α} {f : α → β} {b : β} :
    (x >>= fun a => pure (f a)) = .ok b ↔ ∃ a, x = .ok a ∧ b = f a := by
  rw [bind_eq_ok_iff]
  refine exists_congr fun a => and_congr_right fun _ => ?_
  exact ⟨fun h => (Except.ok.inj h).symm, fun h => congrArg _ h.symm⟩

theorem bind_eq_map_bind {ε α β γ : Type} {x y : Except ε α} {f : α → Except ε β}
    {g : α → Except ε γ} {k : γ → β} (hx : x = y) (h : ∀ a, f a = (g a).map k) :
    (x >>= f) = (y >>= g).map k := by
  subst hx
  cases x with
  | error e => rfl
  | ok a => exact h a

theorem mapError_eq_ok_iff {ε δ α : Type} {x : Except ε α} {f : ε → δ} {a : α} :
    x.mapError f = .ok a ↔ x = .ok a := by
  cases x with
  | error e => exact iff_of_false nofun nofun
  | ok b =>
    constructor
    · rintro ⟨⟩
      rfl
    · rintro ⟨⟩
      rfl

theorem map_eq_ok_iff {ε α β : Type} {x : Except ε α} {f : α → β} {b : β} :
    x.map f = .ok b ↔ ∃ a, x = .ok a ∧ f a = b := by
  cases x <;> simp [Except.map]

theorem map_eq_error_iff {ε α β : Type} {x : Except ε α} {f : α → β} {e : ε} :
    x.map f = .error e ↔ x = .error e := by
  cases x <;> simp [Except.map]

theorem eq_ok_of_toOption {ε α : Type} {x : Except ε α} {a : α} (h : x.toOption = some a) :
    x = .ok a := by
  cases x with
  | error e => cases h
  | ok b =>
    cases h
    rfl

/-! ### Keys -/

/-- The keys that an option goes by. -/
def ProjectOption.keys : ProjectOption → List String
  | .vcs => ["vcs"]
  | .vcsMode => ["vcs-mode"]
  | .repository => ["repository"]
  | .branch => ["branch"]
  | .workers => ["workers", "worker", "slave-names"]
  | .buildSequence => ["build-sequence"]
  | .testSequence => ["test-sequence"]
  | .dependencies => ["dependencies"]
  | .fixedWindow => ["default-scheduler"]
  | .periodic => ["periodic-scheduler"]
  | .cron => ["cron-scheduler"]
  | .dependent => ["dependent-scheduler"]
  | .lint => ["lint", "pyflakes"]
  | .emailSender => ["email-notification-sender"]
  | .emailRecipients => ["email-notification-recipients"]
  | .mailHost => ["mail-host"]
  | .timeout .global => ["timeout"]
  | .timeout .build => ["build-timeout"]
  | .timeout .test => ["test-timeout"]
  | .alwaysUseLatest => ["always-use-latest"]

namespace ProjectOption

variable {key : String} {option : ProjectOption}

theorem mem_keys_of_ofKey? (h : ofKey? key = some option) : key ∈ option.keys := by
  unfold ofKey? at h
  split at h <;> cases h <;> simp [keys]

theorem ofKey?_of_mem_keys (h : key ∈ option.keys) : ofKey? key = some option := by
  have hkeys : ∀ key ∈ option.keys, ofKey? key = some option := by
    cases option with
    | timeout which => cases which <;> decide
    | _ => decide
  exact hkeys key h

/-- A key names at most one option. -/
theorem ofKey?_eq_some_iff : ofKey? key = some option ↔ key ∈ option.keys :=
  ⟨mem_keys_of_ofKey?, ofKey?_of_mem_keys⟩

end ProjectOption

namespace Kdl.Node

/-- The nodes that go by one of the keys. -/
def keyed (keys : List String) (nodes : List Node) : List Node :=
  nodes.filter fun node => keys.contains node.key

theorem keyed_append (keys : List String) (nodes nodes' : List Node) :
    keyed keys (nodes ++ nodes') = keyed keys nodes ++ keyed keys nodes' :=
  List.filter_append ..

theorem keyed_singleton (option : ProjectOption) (node : Node) :
    keyed option.keys [node] = if ProjectOption.ofKey? node.key = some option then [node] else [] := by
  by_cases h : node.key ∈ option.keys
  · simp [keyed, ProjectOption.ofKey?_eq_some_iff, h]
  · simp [keyed, ProjectOption.ofKey?_eq_some_iff, h]

theorem ofKey?_of_mem_keyed {option : ProjectOption} {node : Node} {nodes : List Node}
    (h : node ∈ keyed option.keys nodes) : ProjectOption.ofKey? node.key = some option := by
  have hkey := (List.mem_filter.mp h).2
  exact ProjectOption.ofKey?_of_mem_keys (List.contains_iff_mem.mp hkey)

end Kdl.Node

/-! ### Collected texts -/

namespace ProjectOption

/-- The words or lines of a child that an option collects, if it is one that collects. -/
def texts : ProjectOption → Kdl.Node → List String
  | .workers, node | .emailRecipients, node => node.words
  | .buildSequence, node | .testSequence, node | .dependencies, node => node.lines
  | _, _ => []

end ProjectOption

namespace ProjectDraft

variable {d d' : ProjectDraft} {node : Kdl.Node} {nodes : List Kdl.Node} {option : ProjectOption}

theorem required_eq_ok_iff {text : String} :
    d.required node = .ok text ↔ node.firstScalar? = some text := by
  unfold required
  split
  · next he => rw [he, Except.ok.injEq, Option.some.injEq]
  · next he => simp [he]

theorem parsed_eq_ok_iff {α : Type} {parse : String → Except CompileError α} {a : α} :
    d.parsed node parse = .ok a ↔ ∃ text, node.firstScalar? = some text ∧ parse text = .ok a := by
  unfold parsed
  simp only [bind_eq_ok_iff, required_eq_ok_iff, mapError_eq_ok_iff]

/-- What a draft has collected for an option. -/
def collected (d : ProjectDraft) : ProjectOption → List String
  | .workers => d.workers
  | .buildSequence => d.buildSequence
  | .testSequence => d.testSequence
  | .dependencies => d.dependencies
  | .emailRecipients => d.emailRecipients
  | _ => []

/-- The lint commands of a child, one to a line. -/
def lintOf (node : Kdl.Node) : String :=
  String.intercalate "\n" node.lines

/-- A draft before and after some children of the project's node are read. -/
structure Gathers (d : ProjectDraft) (nodes : List Kdl.Node) (d' : ProjectDraft) : Prop where
  name : d'.name = d.name
  /-- Texts are added behind those that are there. -/
  collected : ∀ option : ProjectOption, d'.collected option =
    d.collected option ++ (Kdl.Node.keyed option.keys nodes).flatMap option.texts
  /-- The last child with lint commands counts. -/
  lint : d'.lint =
    ((Kdl.Node.keyed ProjectOption.lint.keys nodes).getLast?.map lintOf).or d.lint

namespace Gathers

theorem refl (d : ProjectDraft) : d.Gathers [] d :=
  ⟨rfl, fun option => by simp [Kdl.Node.keyed], rfl⟩

theorem trans {d'' : ProjectDraft} {nodes' : List Kdl.Node} (h : d.Gathers nodes d')
    (h' : d'.Gathers nodes' d'') : d.Gathers (nodes ++ nodes') d'' := by
  refine ⟨h'.name.trans h.name, fun option => ?_, ?_⟩
  · rw [h'.collected, h.collected, Kdl.Node.keyed_append, List.flatMap_append, List.append_assoc]
  · rw [h'.lint, h.lint, Kdl.Node.keyed_append, List.getLast?_append]
    cases (Kdl.Node.keyed ProjectOption.lint.keys nodes').getLast? <;> rfl

/-- A child that is no option that collects, nor a lint option, leaves all this alone. -/
theorem of_other (hname : d'.name = d.name) (hcollected : d'.collected = d.collected)
    (hlint : d'.lint = d.lint)
    (htexts : ∀ option, ProjectOption.ofKey? node.key = some option → option.texts node = [])
    (hother : ProjectOption.ofKey? node.key ≠ some .lint) : d.Gathers [node] d' := by
  refine ⟨hname, fun option => ?_, ?_⟩
  · rw [hcollected, Kdl.Node.keyed_singleton]
    split
    · next h => simp [htexts option h]
    · simp
  · rw [hlint, Kdl.Node.keyed_singleton, if_neg hother]
    rfl

end Gathers

/-- One option is read. -/
theorem gathers_of_readKnown (hkey : ProjectOption.ofKey? node.key = some option)
    (h : d.readKnown node option = .ok d') : d.Gathers [node] d' := by
  have htexts : option.texts node = [] →
      ∀ o, ProjectOption.ofKey? node.key = some o → o.texts node = [] := by
    intro hnil o ho
    rw [hkey] at ho
    cases ho
    exact hnil
  -- collecting options add their texts, lint writes its own field, the others touch neither
  cases option with
  | workers | buildSequence | testSequence | dependencies | emailRecipients =>
    cases h
    refine ⟨rfl, fun o => ?_, ?_⟩
    · rw [Kdl.Node.keyed_singleton, hkey]
      cases o <;> simp [collected, ProjectOption.texts]
    · simp [Kdl.Node.keyed_singleton, hkey]
  | lint =>
    cases h
    refine ⟨rfl, fun o => ?_, ?_⟩
    · rw [Kdl.Node.keyed_singleton, hkey]
      cases o <;> simp [collected, ProjectOption.texts]
    · simp [Kdl.Node.keyed_singleton, hkey, lintOf]
  | alwaysUseLatest =>
    cases h
    exact .of_other rfl (by unfold collected; rfl) rfl (htexts rfl) (by simp [hkey])
  | timeout which =>
    obtain ⟨secs, -, hd⟩ := exists_of_bind_eq_ok h
    cases hd
    cases which <;>
      exact .of_other rfl (by unfold collected; rfl) rfl (htexts rfl) (by simp [hkey])
  | emailSender =>
    obtain ⟨_, -, hd⟩ := exists_of_bind_eq_ok h
    cases hd
    unfold withEmailSender
    exact .of_other rfl (by unfold collected; rfl) rfl (htexts rfl) (by simp [hkey])
  | vcs | vcsMode | repository | branch | fixedWindow | periodic | cron | dependent | mailHost =>
    obtain ⟨_, -, hd⟩ := exists_of_bind_eq_ok h
    cases hd
    exact .of_other rfl (by unfold collected; rfl) rfl (htexts rfl) (by simp [hkey])

theorem gathers_of_readOption (h : d.readOption node = .ok d') : d.Gathers [node] d' := by
  unfold readOption at h
  split at h
  · next option hkey => exact gathers_of_readKnown hkey h
  · next hkey =>
    cases h
    exact .of_other rfl rfl rfl (by simp [hkey]) (by simp [hkey])

/-- The time limit that has been given for an option. -/
def timeoutOf (d : ProjectDraft) : TimeoutOption → Option Int
  | .global => d.timeout
  | .build => d.buildTimeout
  | .test => d.testTimeout

theorem name_start (name : String) (master : MasterSettings) : (start name master).name = name := by
  unfold start
  split <;> rfl

/-- Nothing has been collected at the start. -/
theorem collected_start (name : String) (master : MasterSettings) (option : ProjectOption) :
    (start name master).collected option = [] := by
  unfold start
  split <;> cases option <;> rfl

theorem lint_start (name : String) (master : MasterSettings) : (start name master).lint = none := by
  unfold start
  split <;> rfl

/-- All children are read. -/
theorem gathers_of_foldlM (h : nodes.foldlM readOption d = .ok d') : d.Gathers nodes d' := by
  induction nodes generalizing d with
  | nil =>
    cases h
    exact .refl _
  | cons node nodes ih =>
    rw [List.foldlM_cons] at h
    obtain ⟨mid, hmid, hrest⟩ := exists_of_bind_eq_ok h
    exact (gathers_of_readOption hmid).trans (ih hrest)

/-- The project that a draft comes to with the given time limits. -/
def completed (d : ProjectDraft) (timeouts : Timeouts) : ProjectConfig where
  name := d.name
  vcs := d.vcs
  vcsMode := d.vcsMode
  repository := d.repository
  branch := d.branch
  credentials := d.credentials
  alwaysUseLatest := d.alwaysUseLatest
  workers := d.workers
  buildSequence := d.buildSequence
  testSequence := if d.testSequence.isEmpty then [standardTest] else d.testSequence
  dependencies := d.dependencies
  schedule := d.schedule
  lint := d.lint
  emailSender := d.emailSender
  emailRecipients := d.emailRecipients
  mailHost := d.mailHost
  timeouts := timeouts

theorem finish_eq_ok_iff {p : ProjectConfig} :
    d.finish = .ok p ↔
      Text.isBlank d.name = false ∧ ∃ timeouts, d.timeouts = .ok timeouts ∧ p = d.completed timeouts := by
  cases hblank : Text.isBlank d.name with
  | true => simp [finish, hblank, bind, Except.bind, throw, throwThe, MonadExceptOf.throw]
  | false =>
    cases ht : d.timeouts with
    | error e => simp [finish, hblank, ht, bind, Except.bind]
    | ok timeouts =>
      have hfinish : d.finish = .ok (d.completed timeouts) := by
        simp only [finish, hblank, ht]
        rfl
      rw [hfinish]
      constructor
      · rintro ⟨⟩
        exact ⟨rfl, timeouts, rfl, rfl⟩
      · rintro ⟨-, _, ⟨⟩, rfl⟩
        rfl

end ProjectDraft

/-! ### Projects -/

namespace ProjectConfig

variable {master : MasterSettings} {credentials : CredentialStore} {node : Kdl.Node}
  {p : ProjectConfig}

/-- A project is a draft with the children of its node read and the credentials filled in. -/
theorem ofNode_eq_ok_iff :
    ofNode master credentials node = .ok p ↔
      ∃ name d, nameOf? node = some name ∧
        node.children.foldlM ProjectDraft.readOption (.start name master) = .ok d ∧
        d.repository ≠ "" ∧
        ProjectDraft.finish { d with credentials := credentials d.repository } = .ok p := by
  unfold ofNode
  cases hname : nameOf? node with
  | none => simp [throw, throwThe, MonadExceptOf.throw]
  | some name =>
    cases hfold : node.children.foldlM ProjectDraft.readOption (.start name master) with
    | error e => simp [hfold, bind, Except.bind]
    | ok d =>
      by_cases hr : d.repository = ""
      · simp [hfold, hr, bind, Except.bind, throw, throwThe, MonadExceptOf.throw]
      · have hempty : ¬ d.repository.isEmpty := by simpa using hr
        simp only [hfold, bind, Except.bind, if_neg hempty, mapError_eq_ok_iff]
        constructor
        · exact fun h => ⟨name, d, rfl, hfold, hr, h⟩
        · rintro ⟨_, _, ⟨⟩, hd, -, h⟩
          cases hfold.symm.trans hd
          exact h

/-- What a project has from its node. -/
structure ReadFrom (p : ProjectConfig) (node : Kdl.Node) : Prop where
  name : nameOf? node = some p.name
  workers : p.workers =
    (Kdl.Node.keyed ["workers", "worker", "slave-names"] node.children).flatMap Kdl.Node.words
  buildSequence : p.buildSequence =
    (Kdl.Node.keyed ["build-sequence"] node.children).flatMap Kdl.Node.lines
  /-- A project without a test command gets the standard one. -/
  testSequence : p.testSequence =
    let commands := (Kdl.Node.keyed ["test-sequence"] node.children).flatMap Kdl.Node.lines
    if commands.isEmpty then [ProjectDraft.standardTest] else commands
  dependencies : p.dependencies =
    (Kdl.Node.keyed ["dependencies"] node.children).flatMap Kdl.Node.lines
  emailRecipients : p.emailRecipients =
    (Kdl.Node.keyed ["email-notification-recipients"] node.children).flatMap Kdl.Node.words
  lint : p.lint =
    (Kdl.Node.keyed ["lint", "pyflakes"] node.children).getLast?.map ProjectDraft.lintOf

/-- **What is read from a project's node.**  All words and lines of an option that collects are in the
project in the order of the document, and of the children with lint commands the last one is. -/
theorem readFrom_of_ofNode (h : ofNode master credentials node = .ok p) : p.ReadFrom node := by
  obtain ⟨name, d, hname, hfold, -, hfinish⟩ := ofNode_eq_ok_iff.mp h
  obtain ⟨-, timeouts, -, rfl⟩ := ProjectDraft.finish_eq_ok_iff.mp hfinish
  have hg := ProjectDraft.gathers_of_foldlM hfold
  have hstart := ProjectDraft.collected_start name master
  have hcollected : ∀ option : ProjectOption, d.collected option =
      (Kdl.Node.keyed option.keys node.children).flatMap option.texts := by
    intro option
    rw [hg.collected, hstart, List.nil_append]
  refine ⟨?_, hcollected .workers, hcollected .buildSequence, ?_, hcollected .dependencies,
    hcollected .emailRecipients, ?_⟩
  · rw [hname, ← ProjectDraft.name_start name master, ← hg.name]
    rfl
  · show (if d.testSequence.isEmpty then _ else d.testSequence) = _
    rw [show d.testSequence = _ from hcollected .testSequence]
    rfl
  · rw [← Option.or_none (o := Option.map _ _), ← ProjectDraft.lint_start name master]
    exact hg.lint

end ProjectConfig

end BuildPlan
