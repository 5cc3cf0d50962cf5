import BuildPlan.Proofs.Compiler.Logs
import BuildPlan.Proofs.Configuration.Limits
import BuildPlan.Proofs.Configuration.Reading

/-!
# Errors and their stages

An error comes up when a document is read or when its projects are compiled, and its kind tells which
(`CompileError.stage`).  What has been read is well formed (`ProjectConfig.WellFormed`) and can be
registered, so nothing that reading checks is left for the compiler to find.
-/

namespace BuildPlan

/-- The work in which an error comes up. -/
inductive Stage where
  | reading
  | compilation
  deriving DecidableEq, Repr

/-- Where errors of this kind come up. -/
def CompileError.stage : CompileError → Stage
  | .unsupportedVcs _ | .malformedSchedule _ _ | .invalidConfig _ => .reading
  | .invalidWorkerSet _ | .unknownDependency _ | .dependencyCycle _ | .malformedLocator _ =>
    .compilation

/-- If an error is that of a project, then it is one of reading. -/
def ConfigError.OfReading (e : ConfigError) : Prop :=
  ∀ name source, e = .project name source → source.stage = .reading

/-! ### Errors of a run -/

/-- Whatever error the run comes to has the property. -/
def FailsWith {ε α : Type} (P : ε → Prop) (x : Except ε α) : Prop :=
  ∀ e, x = .error e → P e

namespace FailsWith

variable {ε δ α β : Type} {P : ε → Prop} {x : Except ε α} {f : α → Except ε β} {e : ε}

theorem ok (a : α) : FailsWith P (.ok a) := nofun

theorem error (h : P e) : FailsWith P (.error e : Except ε α) := by
  rintro _ ⟨⟩
  exact h

theorem bind (h : FailsWith P x) (hf : ∀ a, FailsWith P (f a)) : FailsWith P (x >>= f) := by
  cases x with
  | error e => exact error (h e rfl)
  | ok a => exact hf a

theorem mapError {Q : δ → Prop} {g : ε → δ} (h : FailsWith (fun e => Q (g e)) x) :
    FailsWith Q (x.mapError g) := by
  cases x with
  | error e => exact error (h e rfl)
  | ok a => exact ok a

theorem foldlM {σ : Type} {step : σ → α → Except ε σ} (h : ∀ s a, FailsWith P (step s a)) (as : List α)
    (s : σ) : FailsWith P (as.foldlM step s) := by
  induction as generalizing s with
  | nil => exact ok s
  | cons a as ih =>
    rw [List.foldlM_cons]
    exact (h s a).bind ih

end FailsWith

/-! ### Errors of reading -/

theorem ConfigError.ofReading_project {name : String} {e : CompileError} (h : e.stage = .reading) :
    (ConfigError.project name e).OfReading := by
  rintro _ _ ⟨⟩
  exact h

theorem Vcs.parse_failsWith (text : String) : FailsWith (·.stage = .reading) (Vcs.parse text) := by
  unfold Vcs.parse
  split
  · exact .ok _
  · exact .error rfl

theorem VcsMode.parse_failsWith (text : String) :
    FailsWith (·.stage = .reading) (VcsMode.parse text) := by
  unfold VcsMode.parse
  split
  · exact .ok _
  · exact .error rfl

theorem FixedWindow.parse_failsWith (text : String) :
    FailsWith (·.stage = .reading) (FixedWindow.parse text) := by
  unfold FixedWindow.parse
  split
  · exact .ok _
  · exact .error rfl

theorem Period.parse_failsWith (text : String) :
    FailsWith (·.stage = .reading) (Period.parse text) := by
  unfold Period.parse
  split
  · exact .ok _
  · exact .error rfl

theorem CronSpec.parse_failsWith (text : String) :
    FailsWith (·.stage = .reading) (CronSpec.parse text) := by
  unfold CronSpec.parse
  split
  · exact .ok _
  · exact .error rfl

namespace ProjectDraft

theorem required_failsWith (d : ProjectDraft) (node : Kdl.Node) :
    FailsWith ConfigError.OfReading (d.required node) := by
  unfold required
  split
  · exact .ok _
  · exact .error nofun

theorem parsed_failsWith {α : Type} (d : ProjectDraft) (node : Kdl.Node)
    {parse : String → Except CompileError α} (h : ∀ text, FailsWith (·.stage = .reading) (parse text)) :
    FailsWith ConfigError.OfReading (d.parsed node parse) :=
  (d.required_failsWith node).bind fun text =>
    .mapError fun e he => ConfigError.ofReading_project (h text e he)

theorem seconds_failsWith (d : ProjectDraft) (node : Kdl.Node) :
    FailsWith ConfigError.OfReading (d.seconds node) := by
  refine (d.required_failsWith node).bind fun text => ?_
  split
  · exact .ok _
  · exact .error nofun

theorem readKnown_failsWith (d : ProjectDraft) (node : Kdl.Node) (option : ProjectOption) :
    FailsWith ConfigError.OfReading (d.readKnown node option) := by
  cases option with
  | vcs => exact (d.parsed_failsWith node Vcs.parse_failsWith).bind fun _ => .ok _
  | vcsMode => exact (d.parsed_failsWith node VcsMode.parse_failsWith).bind fun _ => .ok _
  | fixedWindow => exact (d.parsed_failsWith node FixedWindow.parse_failsWith).bind fun _ => .ok _
  | periodic => exact (d.parsed_failsWith node Period.parse_failsWith).bind fun _ => .ok _
  | cron => exact (d.parsed_failsWith node CronSpec.parse_failsWith).bind fun _ => .ok _
  | repository | branch | dependent | emailSender | mailHost =>
    exact (d.required_failsWith node).bind fun _ => .ok _
  | timeout which => exact (d.seconds_failsWith node).bind fun _ => .ok _
  | workers | buildSequence | testSequence | dependencies | lint | emailRecipients | alwaysUseLatest =>
    exact .ok _

theorem readOption_failsWith (d : ProjectDraft) (node : Kdl.Node) :
    FailsWith ConfigError.OfReading (d.readOption node) := by
  unfold readOption
  split
  · exact d.readKnown_failsWith node _
  · exact .ok _

theorem checkTimeout_failsWith (option : TimeoutOption) (secs : Int) :
    FailsWith (·.stage = .reading) (checkTimeout option secs) := by
  unfold checkTimeout
  split
  · exact .error rfl
  · exact .ok _

theorem timeouts_failsWith (d : ProjectDraft) : FailsWith (·.stage = .reading) d.timeouts := by
  refine (checkTimeout_failsWith _ _).bind fun global => ?_
  have h : ∀ (given : Option Int) (option : TimeoutOption),
      FailsWith (·.stage = .reading) (given.elim (pure global) (checkTimeout option)) := by
    intro given option
    cases given with
    | none => exact .ok _
    | some secs => exact checkTimeout_failsWith option secs
  exact (h _ _).bind fun _ => (h _ _).bind fun _ => .ok _

theorem finish_failsWith (d : ProjectDraft) : FailsWith (·.stage = .reading) d.finish := by
  cases hblank : Text.isBlank d.name with
  | true =>
    simp only [finish, hblank]
    exact .error rfl
  | false =>
    simp only [finish, hblank]
    exact d.timeouts_failsWith.bind fun _ => .ok _

end ProjectDraft

theorem ProjectConfig.ofNode_failsWith (master : MasterSettings) (credentials : CredentialStore)
    (node : Kdl.Node) : FailsWith ConfigError.OfReading (ofNode master credentials node) := by
  unfold ofNode
  split
  · exact .error nofun
  · refine (FailsWith.foldlM ProjectDraft.readOption_failsWith _ _).bind fun d => ?_
    split
    · exact .error nofun
    · exact .mapError fun e he => ConfigError.ofReading_project (ProjectDraft.finish_failsWith _ e he)

namespace Configuration

theorem readProjects_failsWith (master : MasterSettings) (credentials : CredentialStore)
    (taken : List String) (nodes : List Kdl.Node) :
    FailsWith ConfigError.OfReading (readProjects master credentials taken nodes) := by
  induction nodes generalizing taken with
  | nil => exact .ok _
  | cons node nodes ih =>
    refine (ProjectConfig.ofNode_failsWith master credentials node).bind fun p => ?_
    split
    · exact .error nofun
    · exact (ih _).bind fun _ => .ok _

/-- A project is refused with an error of reading. -/
theorem parse_failsWith (credentials : CredentialStore) (text : String) :
    FailsWith ConfigError.OfReading (parse credentials text) := by
  unfold parse
  split
  · next nodes _ =>
    refine FailsWith.bind ?_ fun master => (readProjects_failsWith _ _ _ _).bind fun _ => .ok _
    unfold readMaster
    split
    · exact .error nofun
    · exact .ok _
    · exact .error nofun
  · exact .error nofun

end Configuration

/-! ### Errors of compiling -/

namespace Compiler

variable {c : Compiler} {r : Registry} {p : ProjectConfig} {name : String}

theorem planWith_failsWith {P : CompileError → Prop} (locator : ∀ text, P (.malformedLocator text))
    (c : Compiler) (p : ProjectConfig) {parents : Except CompileError (List Scheduler)}
    (h : FailsWith P parents) : FailsWith P (c.planWith p parents) := by
  cases parents with
  | error e => exact .error (h e rfl)
  | ok parents =>
    by_cases hm : p.LocatorMalformed
    · rw [planWith_of_malformed c hm]
      exact .error (locator _)
    · obtain ⟨plan, hp⟩ := c.exists_planWith hm parents
      rw [hp]
      exact .ok plan

/-- The errors that a resolution can come to: there are four kinds, and only names that are not registered
are unknown. -/
theorem resolve_failsWith {P : CompileError → Prop} (workers : ∀ names, P (.invalidWorkerSet names))
    (cycle : ∀ path, P (.dependencyCycle path)) (locator : ∀ text, P (.malformedLocator text))
    (c : Compiler) (r : Registry) (name : String)
    (unknown : ∀ n, n ∉ r.keys → P (.unknownDependency n)) :
    FailsWith P (c.resolve r name).result := by
  induction r, name using c.resolve_induction with
  | unknown r name he =>
    rw [resolve_of_none c he]
    exact .error (unknown name (Registry.get?_eq_none_iff.mp he))
  | resolved r name p plan he =>
    rw [resolve_of_resolved c he]
    exact .ok plan
  | underWay r name p he =>
    rw [resolve_of_inProgress c he]
    exact .error (cycle _)
  | noWorker r name p he hw =>
    rw [resolve_of_noWorker he hw]
    exact .error (workers _)
  | root r name p he hw hd =>
    rw [resolve_of_root he hw hd]
    exact planWith_failsWith locator c p (.ok [])
  | child r name p parent he hw hd ih =>
    rw [resolve_of_dependent he hw hd]
    refine planWith_failsWith locator c p ?_
    -- entering registers nothing, so what is unknown there was unknown before
    have hparent := ih fun n hn => unknown n (Registry.keys_enter r name ▸ hn)
    cases ha : (c.resolve (r.enter name) parent).result with
    | error e => exact .error (hparent e ha)
    | ok plan => exact .ok _

theorem stage_of_resolve (c : Compiler) (r : Registry) (name : String) :
    FailsWith (·.stage = .compilation) (c.resolve r name).result :=
  resolve_failsWith (fun _ => rfl) (fun _ => rfl) (fun _ => rfl) c r name fun _ _ => rfl

theorem stage_of_resolveEach (c : Compiler) (names : List String) (r : Registry) :
    FailsWith (·.stage = .compilation) (c.resolveEach names r).result := by
  induction names generalizing r with
  | nil => exact .ok ()
  | cons name rest ih =>
    cases hr : (c.resolve r name).result with
    | error e =>
      rw [resolveEach_cons_of_error hr]
      exact .error (c.stage_of_resolve r name e hr)
    | ok plan =>
      rw [resolveEach_cons_of_ok hr]
      exact ih _

/-- Whatever the registry, to compile it fails with an error of compilation. -/
theorem stage_of_compileAll (c : Compiler) (r : Registry) :
    FailsWith (·.stage = .compilation) (c.compileAll r).result :=
  fun e he => c.stage_of_resolveEach r.names r e (compileAll_of_error he).1

end Compiler

/-! ### Projects that have been read -/

/-- What is checked and filled in when a project is read. -/
structure ProjectConfig.WellFormed (p : ProjectConfig) : Prop where
  name : Text.isBlank p.name = false
  repository : p.repository ≠ ""
  timeouts : 0 < p.timeouts.global ∧ 0 < p.timeouts.build ∧ 0 < p.timeouts.test
  /-- Workers are words. -/
  workers : ∀ w ∈ p.workers, w ≠ "" ∧ ∀ c ∈ w.toList, Chars.isBlank c = false
  /-- Recipients are words. -/
  emailRecipients : ∀ w ∈ p.emailRecipients, w ≠ "" ∧ ∀ c ∈ w.toList, Chars.isBlank c = false
  /-- Dependencies are lines that are not blank. -/
  dependencies : ∀ line ∈ p.dependencies, Text.isBlank line = false ∧ '\n' ∉ line.toList
  testSequence : ∃ command ∈ p.testSequence, Text.isBlank command = false

/-- What has been collected line by line are lines that are not blank. -/
theorem Kdl.Node.of_mem_lines {nodes : List Node} {line : String} (h : line ∈ nodes.flatMap lines) :
    Text.isBlank line = false ∧ '\n' ∉ line.toList := by
  obtain ⟨node, -, h⟩ := List.mem_flatMap.mp h
  obtain ⟨text, -, h⟩ := List.mem_flatMap.mp h
  rw [Text.entries_eq] at h
  obtain ⟨raw, hraw, rfl⟩ := List.mem_map.mp h
  obtain ⟨hraw, hblank⟩ := List.mem_filter.mp hraw
  obtain ⟨chars, hchars, rfl⟩ := List.mem_map.mp hraw
  constructor
  · rw [Bool.eq_false_iff, Ne, ← Text.words_eq_nil_iff, Text.words_trim, Text.words_eq_nil_iff]
    simpa using hblank
  · rw [Text.toList_trim, String.toList_ofList]
    exact fun hn => Chars.newline_notMem_of_mem_lines hchars (Chars.mem_of_mem_trim hn)

theorem ProjectConfig.wellFormed_of_ofNode {master : MasterSettings} {credentials : CredentialStore}
    {node : Kdl.Node} {p : ProjectConfig} (h : ofNode master credentials node = .ok p) :
    p.WellFormed := by
  have hread := readFrom_of_ofNode h
  obtain ⟨name, d, -, -, hrepository, hfinish⟩ := ofNode_eq_ok_iff.mp h
  obtain ⟨hname, timeouts, -, rfl⟩ := ProjectDraft.finish_eq_ok_iff.mp hfinish
  refine ⟨hname, hrepository, (timeouts_of_ofNode h).2, fun w hw => ?_, fun w hw => ?_, fun line hl => ?_, ?_⟩
  · rw [hread.workers] at hw
    exact Kdl.Node.of_mem_words hw
  · rw [hread.emailRecipients] at hw
    exact Kdl.Node.of_mem_words hw
  · rw [hread.dependencies] at hl
    exact Kdl.Node.of_mem_lines hl
  · rw [hread.testSequence]
    dsimp only
    split
    · exact ⟨_, List.mem_singleton_self _, by decide⟩
    · next hne =>
      obtain ⟨command, hc⟩ := List.exists_mem_of_ne_nil _ (fun hnil => hne (List.isEmpty_iff.mpr hnil))
      exact ⟨command, hc, (Kdl.Node.of_mem_lines hc).1⟩

namespace Configuration

/-- **Errors are caught at their stage.**  A document is refused for a project with an error of reading
only.  One that is not refused has well-formed projects, which can be registered, and whatever compiler
they are compiled with, this fails with an error of compilation only. -/
theorem parse_stages (credentials : CredentialStore) (text : String) :
    (∀ name e, parse credentials text = .error (.project name e) → e.stage = .reading) ∧
    ∀ c, parse credentials text = .ok c →
      (∀ p ∈ c.projects, p.WellFormed) ∧
      ∃ r, Registry.ofConfigs c.projects = .ok r ∧
        ∀ (compiler : Compiler) e,
          (compiler.compileAll r).result = .error e → e.stage = .compilation := by
  refine ⟨fun name e he => parse_failsWith credentials text _ he name e rfl,
    fun c hc => ⟨fun p hp => ?_, ?_⟩⟩
  · obtain ⟨nodes, hread⟩ := exists_nodes_of_parse hc
    obtain ⟨node, -, hnode⟩ := exists_node_of_mem hread hp
    exact ProjectConfig.wellFormed_of_ofNode hnode
  · exact ⟨_, Registry.ofConfigs_of_nodup (names_nodup_of_parse hc),
      fun compiler => compiler.stage_of_compileAll _⟩

/-- A version control system that is not known is found on reading, a project that waits for itself on
compiling. -/
theorem parse_stages_refused_and_looping :
    let refused := "master\nproject \"a\" \x7b\n repository \"r\"\n vcs \"fossil\"\n\x7d\n"
    let looping := "master \x7b\n workers \"w\"\n\x7d\n" ++
      "project \"a\" \x7b\n repository \"r\"\n workers \"w\"\n test-timeout 7\n" ++
        " dependencies \" src \\n\\n lib\"\n dependent-scheduler \"a\"\n\x7d\n"
    parse (fun _ => none) refused = .error (.project "a" (.unsupportedVcs "fossil")) ∧
    CompileError.stage (.unsupportedVcs "fossil") = .reading ∧
    ∃ c, parse (fun _ => none) looping = .ok c ∧
      c.projects.map ProjectConfig.timeouts = [⟨3600, 3600, 7⟩] ∧
      c.projects.map ProjectConfig.dependencies = [["src", "lib"]] ∧
      (∀ p ∈ c.projects, p.WellFormed) ∧
      (c.compiler.compileAll (.fresh c.projects)).result = .error (.dependencyCycle ["a", "a"]) ∧
      CompileError.stage (.dependencyCycle ["a", "a"]) = .compilation := by
  intro refused looping
  have hrefused : parse (fun _ => none) refused = .error (.project "a" (.unsupportedVcs "fossil")) := by
    decide +kernel
  have hlooping : ((parse (fun _ => none) looping).toOption.map fun c =>
      (c.projects.map ProjectConfig.timeouts, c.projects.map ProjectConfig.dependencies,
        (c.compiler.compileAll (.fresh c.projects)).result)) =
      some ([⟨3600, 3600, 7⟩], [["src", "lib"]], .error (.dependencyCycle ["a", "a"])) := by
    decide +kernel
  obtain ⟨c, hc, hrun⟩ := Option.map_eq_some_iff.mp hlooping
  simp only [Prod.mk.injEq] at hrun
  obtain ⟨htimeouts, hdependencies, he⟩ := hrun
  have hc' := eq_ok_of_toOption hc
  obtain ⟨hwell, r, hr, hstage⟩ := (parse_stages (fun _ => none) looping).2 c hc'
  cases hr.symm.trans (Registry.ofConfigs_of_nodup (names_nodup_of_parse hc'))
  exact ⟨hrefused, (parse_stages _ refused).1 _ _ hrefused, c, hc', htimeouts, hdependencies, hwell, he,
    hstage c.compiler _ he⟩

end Configuration

end BuildPlan
