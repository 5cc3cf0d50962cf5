import BuildPlan.Proofs.Configuration.Options
import Mathlib.Data.List.Forall2
import Mathlib.Logic.Relation

/-!
# What reading a project does not depend on

A child of a project's node is read by its key and its arguments, so properties, unknown children and the
spelling of names with underscores or dashes do not count (`Kdl.Node.Immaterial`).  Each option is read
from its own children alone (`ProjectDraft.foldlM_only`), so the order of children of different options
does not count either, as long as all can be read (`ProjectConfig.ofNode_invariant`).
-/

namespace BuildPlan

/-! ### Changes that do not count -/

namespace Kdl.Node

variable {node node' : Node}

/-- The names are the same but for underscores in place of dashes and dashes in place of underscores. -/
def Respelled (name name' : String) : Prop :=
  List.Forall₂ (fun c c' => c = c' ∨ c ∈ ['_', '-'] ∧ c' ∈ ['_', '-']) name.toList name'.toList

/-- The other node has one property more, somewhere among its entries. -/
def AddsProperty (node node' : Node) : Prop :=
  ∃ front back key value, node.entries = front ++ back ∧
    node' = { node with entries := front ++ ⟨some key, value⟩ :: back }

/-- A change of the node of a project that does not count. -/
inductive Immaterial : Node → Node → Prop
  | property {node node' : Node} (h : AddsProperty node node') : Immaterial node node'
  /-- A child that is no option comes in. -/
  | unknown (name entries before after) (child : Node) (h : ProjectOption.ofKey? child.key = none) :
    Immaterial ⟨name, entries, before ++ after⟩ ⟨name, entries, before ++ child :: after⟩
  | childProperty (name entries before after) {child child' : Node} (h : AddsProperty child child') :
    Immaterial ⟨name, entries, before ++ child :: after⟩ ⟨name, entries, before ++ child' :: after⟩
  | childName (name entries before after) (child : Node) (name' : String)
    (h : Respelled child.name name') :
    Immaterial ⟨name, entries, before ++ child :: after⟩
      ⟨name, entries, before ++ { child with name := name' } :: after⟩

/-- The nodes have the same key and the same arguments. -/
structure Alike (node node' : Node) : Prop where
  key : node.key = node'.key
  arguments : node.arguments = node'.arguments

theorem AddsProperty.alike (h : AddsProperty node node') : Alike node node' := by
  obtain ⟨front, back, key, value, he, rfl⟩ := h
  refine ⟨rfl, ?_⟩
  simp [Node.arguments, he]

theorem dashed_eq {c c' : Char} (h : c = c' ∨ c ∈ ['_', '-'] ∧ c' ∈ ['_', '-']) :
    (if c = '_' then '-' else c) = if c' = '_' then '-' else c' := by
  rcases h with rfl | ⟨hc, hc'⟩
  · rfl
  · simp only [List.mem_cons, List.not_mem_nil, or_false] at hc hc'
    rcases hc with rfl | rfl <;> rcases hc' with rfl | rfl <;> rfl

/-- The key does not tell how a name is spelled. -/
theorem alike_of_respelled {name' : String} (h : Respelled node.name name') :
    Alike node { node with name := name' } := by
  refine ⟨?_, rfl⟩
  have hdashed : List.Forall₂ (· = ·)
      (node.name.toList.map fun c => if c = '_' then '-' else c)
      (name'.toList.map fun c => if c = '_' then '-' else c) :=
    List.forall₂_map_left_iff.mpr (List.forall₂_map_right_iff.mpr (h.imp fun _ _ => dashed_eq))
  rw [List.forall₂_eq_eq_eq] at hdashed
  exact congrArg String.ofList hdashed

namespace Alike

variable (h : Alike node node')
include h

theorem texts : node.texts = node'.texts := by
  rw [Node.texts, h.arguments]
  rfl

theorem words : node.words = node'.words := by
  rw [Node.words, h.texts]
  rfl

theorem lines : node.lines = node'.lines := by
  rw [Node.lines, h.texts]
  rfl

theorem flag : node.flag = node'.flag := by
  rw [Node.flag, h.arguments]
  rfl

end Alike

end Kdl.Node

/-! ### Children that are read alike -/

namespace ProjectDraft

variable {d d' e : ProjectDraft} {node node' : Kdl.Node} {nodes nodes' : List Kdl.Node}
  {option other : ProjectOption}

theorem required_congr (h : node.Alike node') (d : ProjectDraft) :
    d.required node = d.required node' := by
  unfold required Kdl.Node.firstScalar?
  rw [h.key, h.arguments]

theorem parsed_congr {α : Type} (h : node.Alike node') (d : ProjectDraft)
    (parse : String → Except CompileError α) : d.parsed node parse = d.parsed node' parse := by
  unfold parsed
  rw [required_congr h]

theorem seconds_congr (h : node.Alike node') (d : ProjectDraft) : d.seconds node = d.seconds node' := by
  unfold seconds
  rw [required_congr h, h.key]

/-- A child is read by its key and its arguments. -/
theorem readOption_congr (h : node.Alike node') (d : ProjectDraft) :
    d.readOption node = d.readOption node' := by
  unfold readOption
  rw [h.key]
  cases ProjectOption.ofKey? node'.key with
  | none => rfl
  | some option =>
    cases option <;>
      simp only [readKnown, required_congr h, parsed_congr h, seconds_congr h, h.words, h.lines, h.flag]

theorem readOption_of_unknown (h : ProjectOption.ofKey? node.key = none) (d : ProjectDraft) :
    d.readOption node = .ok d := by
  unfold readOption
  rw [h]

theorem foldlM_readOption_congr (h : node.Alike node') (before after : List Kdl.Node)
    (d : ProjectDraft) :
    (before ++ node :: after).foldlM readOption d = (before ++ node' :: after).foldlM readOption d := by
  simp only [List.foldlM_append, List.foldlM_cons, readOption_congr h]

theorem foldlM_readOption_unknown (h : ProjectOption.ofKey? node.key = none)
    (before after : List Kdl.Node) (d : ProjectDraft) :
    (before ++ node :: after).foldlM readOption d = (before ++ after).foldlM readOption d := by
  simp only [List.foldlM_append, List.foldlM_cons, readOption_of_unknown h]
  rfl

/-! ### Options by themselves -/

theorem required_of_name (h : d.name = e.name) (node : Kdl.Node) : d.required node = e.required node := by
  unfold required
  rw [h]

theorem parsed_of_name {α : Type} (h : d.name = e.name) (node : Kdl.Node)
    (parse : String → Except CompileError α) : d.parsed node parse = e.parsed node parse := by
  unfold parsed
  rw [required_of_name h, h]

theorem seconds_of_name (h : d.name = e.name) (node : Kdl.Node) : d.seconds node = e.seconds node := by
  unfold seconds
  rw [required_of_name h, h]

/-- What a draft has before any option is read. -/
def bare (d : ProjectDraft) : ProjectDraft :=
  { name := d.name, credentials := d.credentials }

/-- The draft with what it has of one option, and nothing of the others. -/
def only (d : ProjectDraft) : ProjectOption → ProjectDraft
  | .vcs => { d.bare with vcs := d.vcs }
  | .vcsMode => { d.bare with vcsMode := d.vcsMode }
  | .repository => { d.bare with repository := d.repository }
  | .branch => { d.bare with branch := d.branch }
  | .workers => { d.bare with workers := d.workers }
  | .buildSequence => { d.bare with buildSequence := d.buildSequence }
  | .testSequence => { d.bare with testSequence := d.testSequence }
  | .dependencies => { d.bare with dependencies := d.dependencies }
  | .fixedWindow => { d.bare with schedule := { fixedWindow := d.schedule.fixedWindow } }
  | .periodic => { d.bare with schedule := { periodic := d.schedule.periodic } }
  | .cron => { d.bare with schedule := { cron := d.schedule.cron } }
  | .dependent => { d.bare with schedule := { dependent := d.schedule.dependent } }
  | .lint => { d.bare with lint := d.lint }
  | .emailSender => { d.bare with emailSender := d.emailSender }
  | .emailRecipients => { d.bare with emailRecipients := d.emailRecipients }
  | .mailHost => { d.bare with mailHost := d.mailHost }
  | .timeout .global => { d.bare with timeout := d.timeout }
  | .timeout .build => { d.bare with buildTimeout := d.buildTimeout }
  | .timeout .test => { d.bare with testTimeout := d.testTimeout }
  | .alwaysUseLatest => { d.bare with alwaysUseLatest := d.alwaysUseLatest }

@[simp] theorem name_only (d : ProjectDraft) (option : ProjectOption) :
    (d.only option).name = d.name := by
  cases option with
  | timeout which => cases which <;> rfl
  | _ => rfl

/-- A draft is what it has of its options. -/
theorem eq_of_only_eq (h : ∀ option, d.only option = e.only option) : d = e := by
  -- every field belongs to an option, the name and the credentials to all of them
  have hname := congrArg ProjectDraft.name (h .vcs)
  have hcredentials := congrArg ProjectDraft.credentials (h .vcs)
  have hvcs := congrArg ProjectDraft.vcs (h .vcs)
  have hmode := congrArg ProjectDraft.vcsMode (h .vcsMode)
  have hrepository := congrArg ProjectDraft.repository (h .repository)
  have hbranch := congrArg ProjectDraft.branch (h .branch)
  have hlatest := congrArg ProjectDraft.alwaysUseLatest (h .alwaysUseLatest)
  have hworkers := congrArg ProjectDraft.workers (h .workers)
  have hbuild := congrArg ProjectDraft.buildSequence (h .buildSequence)
  have htest := congrArg ProjectDraft.testSequence (h .testSequence)
  have hdependencies := congrArg ProjectDraft.dependencies (h .dependencies)
  have hwindow := congrArg (fun d => d.schedule.fixedWindow) (h .fixedWindow)
  have hperiodic := congrArg (fun d => d.schedule.periodic) (h .periodic)
  have hcron := congrArg (fun d => d.schedule.cron) (h .cron)
  have hdependent := congrArg (fun d => d.schedule.dependent) (h .dependent)
  have hlint := congrArg ProjectDraft.lint (h .lint)
  have hsender := congrArg ProjectDraft.emailSender (h .emailSender)
  have hrecipients := congrArg ProjectDraft.emailRecipients (h .emailRecipients)
  have hhost := congrArg ProjectDraft.mailHost (h .mailHost)
  have hglobal := congrArg ProjectDraft.timeout (h (.timeout .global))
  have hbuildLimit := congrArg ProjectDraft.buildTimeout (h (.timeout .build))
  have htestLimit := congrArg ProjectDraft.testTimeout (h (.timeout .test))
  have hschedule : d.schedule = e.schedule :=
    (ScheduleOptions.mk.injEq ..).mpr ⟨hwindow, hperiodic, hcron, hdependent⟩
  exact (ProjectDraft.mk.injEq ..).mpr
    ⟨hname, hvcs, hmode, hrepository, hbranch, hcredentials, hlatest, hworkers, hbuild, htest,
      hdependencies, hschedule, hlint, hsender, hrecipients, hhost, hglobal, hbuildLimit, htestLimit⟩

/-- An option is read into its own part of the draft, and nothing else is needed for it. -/
theorem readKnown_only (d : ProjectDraft) (node : Kdl.Node) (option : ProjectOption) :
    (d.only option).readKnown node option = (d.readKnown node option).map fun d' => d'.only option := by
  -- what is read depends on the node and the name, the draft is only written to
  cases option with
  | workers | buildSequence | testSequence | dependencies | lint | emailRecipients
  | alwaysUseLatest => rfl
  | timeout which =>
    cases which <;> exact bind_eq_map_bind (seconds_of_name (name_only d _) node) fun _ => rfl
  | vcs | vcsMode | fixedWindow | periodic | cron =>
    exact bind_eq_map_bind (parsed_of_name (name_only d _) node _) fun _ => rfl
  | repository | branch | dependent | emailSender | mailHost =>
    exact bind_eq_map_bind (required_of_name (name_only d _) node) fun _ => rfl

/-- An option leaves the parts of the others alone. -/
theorem only_of_readKnown (h : d.readKnown node option = .ok d') (hne : other ≠ option) :
    d'.only other = d.only other := by
  -- unfolded first, the drafts are compared in the fields of one option and not as a whole
  unfold only bare
  cases option with
  | workers | buildSequence | testSequence | dependencies | lint | emailRecipients
  | alwaysUseLatest =>
    cases h
    cases other with
    | timeout which => cases which <;> rfl
    | _ => first | exact absurd rfl hne | rfl
  | timeout which =>
    obtain ⟨_, -, hd⟩ := exists_of_bind_eq_ok h
    cases hd
    cases which <;> cases other with
    | timeout which' => cases which' <;> first | exact absurd rfl hne | rfl
    | _ => rfl
  | emailSender =>
    obtain ⟨_, -, hd⟩ := exists_of_bind_eq_ok h
    cases hd
    unfold withEmailSender
    cases other with
    | emailSender => exact absurd rfl hne
    | timeout which => cases which <;> rfl
    | _ => rfl
  | vcs | vcsMode | repository | branch | fixedWindow | periodic | cron | dependent | mailHost =>
    obtain ⟨_, -, hd⟩ := exists_of_bind_eq_ok h
    cases hd
    cases other with
    | timeout which => cases which <;> rfl
    | _ => first | exact absurd rfl hne | rfl

theorem readOption_only (hkey : ProjectOption.ofKey? node.key = some option)
    (h : d.readOption node = .ok d') : (d.only option).readOption node = .ok (d'.only option) := by
  unfold readOption at h ⊢
  rw [hkey] at h ⊢
  exact (readKnown_only d node option).trans (map_eq_ok_iff.mpr ⟨d', h, rfl⟩)

theorem only_of_readOption (hkey : ProjectOption.ofKey? node.key ≠ some option)
    (h : d.readOption node = .ok d') : d'.only option = d.only option := by
  unfold readOption at h
  split at h
  · next known hknown =>
    refine only_of_readKnown h ?_
    rintro rfl
    exact hkey hknown
  · cases h
    rfl

/-- **Options are read by themselves.**  What a draft has of an option in the end comes from the children
of this option and from what the draft had of it. -/
theorem foldlM_only (h : nodes.foldlM readOption d = .ok d') (option : ProjectOption) :
    (Kdl.Node.keyed option.keys nodes).foldlM readOption (d.only option) = .ok (d'.only option) := by
  induction nodes generalizing d with
  | nil =>
    cases h
    rfl
  | cons node nodes ih =>
    rw [List.foldlM_cons] at h
    obtain ⟨mid, hmid, hrest⟩ := exists_of_bind_eq_ok h
    -- a node of the option is read on both sides, any other on the left only
    rw [← List.singleton_append, Kdl.Node.keyed_append, Kdl.Node.keyed_singleton, List.foldlM_append]
    split
    · next hkey =>
      rw [List.foldlM_cons, readOption_only hkey hmid]
      exact ih hrest
    · next hkey =>
      rw [← only_of_readOption hkey hmid]
      exact ih hrest

/-- What a draft has of an option in the end, it has from reading the last child of the option. -/
theorem exists_readKnown_last {child : Kdl.Node} (h : nodes.foldlM readOption d = .ok d')
    (hl : (Kdl.Node.keyed option.keys nodes).getLast? = some child) :
    ∃ e : ProjectDraft, e.readKnown child option = .ok (d'.only option) := by
  have hkey := Kdl.Node.ofKey?_of_mem_keyed (List.mem_of_getLast? hl)
  obtain ⟨front, hfront⟩ := List.getLast?_eq_some_iff.mp hl
  have honly := foldlM_only h option
  rw [hfront, List.foldlM_append] at honly
  obtain ⟨e, -, hread⟩ := exists_of_bind_eq_ok honly
  rw [List.foldlM_cons, readOption, hkey] at hread
  obtain ⟨_, hchild, hd'⟩ := exists_of_bind_eq_ok hread
  cases hd'
  exact ⟨e, hchild⟩

/-- An option that has no children stays as it is. -/
theorem only_of_keyed_eq_nil (h : nodes.foldlM readOption d = .ok d')
    (hnil : Kdl.Node.keyed option.keys nodes = []) : d'.only option = d.only option := by
  have honly := foldlM_only h option
  rw [hnil] at honly
  exact (Except.ok.inj honly).symm

/-- What reading a child of an option always comes to, the draft has of the option in the end, if it had it
at first. -/
theorem only_of_foldlM (option : ProjectOption) (P : ProjectDraft → Prop)
    (h : nodes.foldlM readOption d = .ok d') (hd : P (d.only option))
    (hread : ∀ {e e' : ProjectDraft} {child}, e.readKnown child option = .ok e' → P e') :
    P (d'.only option) := by
  cases hl : (Kdl.Node.keyed option.keys nodes).getLast? with
  | none =>
    rw [only_of_keyed_eq_nil h (List.getLast?_eq_none_iff.mp hl)]
    exact hd
  | some child =>
    obtain ⟨e, he⟩ := exists_readKnown_last h hl
    exact hread he

/-! ### Children that can be read -/

/-- Whether a child can be read depends on no more of the draft than the name. -/
theorem exists_readKnown_of_name (h : d.readKnown node option = .ok d') (hname : d.name = e.name) :
    ∃ e', e.readKnown node option = .ok e' := by
  cases option with
  | workers | buildSequence | testSequence | dependencies | lint | emailRecipients
  | alwaysUseLatest => exact ⟨_, rfl⟩
  | timeout which =>
    obtain ⟨secs, hsecs, -⟩ := exists_of_bind_eq_ok h
    rw [seconds_of_name hname] at hsecs
    exact ⟨_, bind_of_eq_ok hsecs⟩
  | vcs | vcsMode | fixedWindow | periodic | cron =>
    obtain ⟨value, hvalue, -⟩ := exists_of_bind_eq_ok h
    rw [parsed_of_name hname] at hvalue
    exact ⟨_, bind_of_eq_ok hvalue⟩
  | repository | branch | dependent | emailSender | mailHost =>
    obtain ⟨text, htext, -⟩ := exists_of_bind_eq_ok h
    rw [required_of_name hname] at htext
    exact ⟨_, bind_of_eq_ok htext⟩

theorem exists_readOption_of_name (h : d.readOption node = .ok d') (hname : d.name = e.name) :
    ∃ e', e.readOption node = .ok e' := by
  unfold readOption at h ⊢
  split at h
  · exact exists_readKnown_of_name h hname
  · exact ⟨e, rfl⟩

/-- Children can be read one after the other if each of them can be read. -/
theorem exists_foldlM_iff :
    (∃ d', nodes.foldlM readOption d = .ok d') ↔ ∀ node ∈ nodes, ∃ d', d.readOption node = .ok d' := by
  induction nodes generalizing d with
  | nil => exact iff_of_true ⟨d, rfl⟩ nofun
  | cons node nodes ih =>
    rw [List.forall_mem_cons]
    constructor
    · rintro ⟨d', h⟩
      rw [List.foldlM_cons] at h
      obtain ⟨mid, hmid, hrest⟩ := exists_of_bind_eq_ok h
      refine ⟨⟨mid, hmid⟩, fun other hother => ?_⟩
      -- whether a child can be read does not depend on those read before it
      obtain ⟨e, he⟩ := ih.mp ⟨d', hrest⟩ other hother
      exact exists_readOption_of_name he (gathers_of_readOption hmid).name
    · rintro ⟨⟨mid, hmid⟩, hrest⟩
      obtain ⟨d', hd'⟩ := ih.mpr fun other hother => by
        obtain ⟨e, he⟩ := hrest other hother
        exact exists_readOption_of_name he (gathers_of_readOption hmid).name.symm
      exact ⟨d', by rw [List.foldlM_cons, bind_of_eq_ok hmid, hd']⟩

/-- Children of different options may change places. -/
theorem foldlM_eq_of_keyed_eq (h : nodes.foldlM readOption d = .ok d')
    (hkeyed : ∀ option : ProjectOption,
      Kdl.Node.keyed option.keys nodes' = Kdl.Node.keyed option.keys nodes) :
    nodes'.foldlM readOption d = .ok d' := by
  have hreadable : ∀ node ∈ nodes', ∃ d', d.readOption node = .ok d' := by
    intro node hnode
    cases hkey : ProjectOption.ofKey? node.key with
    | none => exact ⟨d, readOption_of_unknown hkey d⟩
    | some option =>
      have hmem : node ∈ Kdl.Node.keyed option.keys nodes' := by
        simp [Kdl.Node.keyed, hnode, ProjectOption.mem_keys_of_ofKey? hkey]
      rw [hkeyed option] at hmem
      exact exists_foldlM_iff.mp ⟨d', h⟩ node (List.mem_of_mem_filter hmem)
  obtain ⟨e, he⟩ := exists_foldlM_iff.mpr hreadable
  -- what each option comes to depends on its own children only
  have honly : ∀ option, e.only option = d'.only option := by
    intro option
    have hd' := foldlM_only h option
    rw [← hkeyed option] at hd'
    exact Except.ok.inj ((foldlM_only he option).symm.trans hd')
  rw [he, eq_of_only_eq honly]

/-- The only child of an option may as well be read last. -/
theorem foldlM_sole {child : Kdl.Node} {before after : List Kdl.Node}
    (hkey : ProjectOption.ofKey? child.key = some option)
    (hsole : Kdl.Node.keyed option.keys (before ++ after) = []) :
    (before ++ child :: after).foldlM readOption d = .ok d' ↔
      ∃ e : ProjectDraft, (before ++ after).foldlM readOption d = .ok e ∧
        e.readKnown child option = .ok d' := by
  -- the option has this child only, and for any other option the child does not count
  have hkeyed : ∀ o : ProjectOption, Kdl.Node.keyed o.keys (before ++ child :: after) =
      Kdl.Node.keyed o.keys (before ++ after ++ [child]) := by
    intro o
    rw [← List.singleton_append, Kdl.Node.keyed_append, Kdl.Node.keyed_append,
      Kdl.Node.keyed_append, Kdl.Node.keyed_append, Kdl.Node.keyed_singleton, hkey]
    split
    · next ho =>
      cases ho
      rw [Kdl.Node.keyed_append, List.append_eq_nil_iff] at hsole
      rw [hsole.1, hsole.2]
      rfl
    · rw [List.nil_append, List.append_nil]
  have hlast : (before ++ child :: after).foldlM readOption d = .ok d' ↔
      (before ++ after ++ [child]).foldlM readOption d = .ok d' :=
    ⟨fun h => foldlM_eq_of_keyed_eq h fun o => (hkeyed o).symm,
      fun h => foldlM_eq_of_keyed_eq h hkeyed⟩
  have hchild : ∀ e : ProjectDraft,
      [child].foldlM readOption e = .ok d' ↔ e.readKnown child option = .ok d' := by
    intro e
    rw [List.foldlM_cons, readOption, hkey]
    exact iff_of_eq (congrArg (· = _) (bind_pure _))
  rw [hlast, List.foldlM_append, bind_eq_ok_iff]
  simp only [hchild]

end ProjectDraft

/-! ### Projects -/

namespace ProjectConfig

open Kdl (Node)

variable {master : MasterSettings} {credentials : CredentialStore} {node node' : Node}
  {children' : List Node} {p : ProjectConfig}

theorem ofNode_congr (hname : nameOf? node = nameOf? node')
    (hread : ∀ d, node.children.foldlM ProjectDraft.readOption d =
      node'.children.foldlM ProjectDraft.readOption d) :
    ofNode master credentials node = ofNode master credentials node' := by
  unfold ofNode
  simp only [hname, hread]

theorem ofNode_eq_of_immaterial (h : Node.Immaterial node node') :
    ofNode master credentials node = ofNode master credentials node' := by
  cases h with
  | property h =>
    refine ofNode_congr ?_ ?_
    · unfold nameOf? Node.firstText?
      rw [h.alike.arguments]
    · obtain ⟨_, _, _, _, -, rfl⟩ := h
      exact fun d => rfl
  | unknown name entries before after child h =>
    exact ofNode_congr rfl fun d => (ProjectDraft.foldlM_readOption_unknown h before after d).symm
  | childProperty name entries before after h =>
    exact ofNode_congr rfl (ProjectDraft.foldlM_readOption_congr h.alike before after)
  | childName name entries before after child name' h =>
    exact ofNode_congr rfl
      (ProjectDraft.foldlM_readOption_congr (Node.alike_of_respelled h) before after)

theorem ofNode_eq_ok_of_keyed_eq (h : ofNode master credentials node = .ok p)
    (hkeyed : ∀ option : ProjectOption,
      Node.keyed option.keys children' = Node.keyed option.keys node.children) :
    ofNode master credentials { node with children := children' } = .ok p := by
  obtain ⟨name, d, hname, hread, hrepository, hfinish⟩ := ofNode_eq_ok_iff.mp h
  exact ofNode_eq_ok_iff.mpr
    ⟨name, d, hname, ProjectDraft.foldlM_eq_of_keyed_eq hread hkeyed, hrepository, hfinish⟩

/-- **What reading a project does not depend on.**  However many changes that do not count are made to the
node of a project or taken back, it is read to the same configuration or to the same error.  A node that
can be read is read to the same configuration with its children in any other order in which the children
of each option follow each other as before. -/
theorem ofNode_invariant (master : MasterSettings) (credentials : CredentialStore) (node : Node) :
    (∀ node', Relation.EqvGen Node.Immaterial node node' →
      ofNode master credentials node' = ofNode master credentials node) ∧
    ∀ p children', ofNode master credentials node = .ok p →
      (∀ option : ProjectOption,
        Node.keyed option.keys children' = Node.keyed option.keys node.children) →
      ofNode master credentials { node with children := children' } = .ok p := by
  refine ⟨fun node' h => ?_, fun p children' h hkeyed => ofNode_eq_ok_of_keyed_eq h hkeyed⟩
  induction h with
  | rel _ _ h => exact (ofNode_eq_of_immaterial h).symm
  | refl _ => rfl
  | symm _ _ _ ih => exact ih.symm
  | trans _ _ _ _ _ ih ih' => exact ih'.trans ih

/-- A node with a property, a child that is no option, and a name spelled in another way; and a node with
its options in another order, but for the two with workers. -/
theorem ofNode_invariant_of_two_workers :
    let arg (value : String) : Kdl.Entry := ⟨none, .text value⟩
    let repository : Node := ⟨"repository", [arg "r"], []⟩
    let first : Node := ⟨"worker", [arg "a"], []⟩
    let second : Node := ⟨"slave-names", [arg "b"], []⟩
    let limit : Node := ⟨"build_timeout", [arg "60"], []⟩
    let node : Node := ⟨"project", [arg "app"], [repository, first, second, limit]⟩
    let node' : Node := ⟨"project", [⟨some "since", .text "may"⟩, arg "app"],
      [⟨"color", [arg "red"], []⟩, repository, first, ⟨"slave_names", [arg "b"], []⟩,
        ⟨"build_timeout", [arg "60", ⟨some "unit", .text "s"⟩], []⟩]⟩
    let read := ofNode {} fun _ => none
    ∃ p, read node = .ok p ∧ read node' = .ok p ∧
      read { node with children := [limit, first, repository, second] } = .ok p ∧
      p.workers = ["a", "b"] ∧ p.timeouts.build = 60 := by
  intro arg repository first second limit node node' read
  let spelled : Node := ⟨"slave_names", [arg "b"], []⟩
  have hproperty : Node.Immaterial node { node with entries := node'.entries } :=
    .property ⟨[], [arg "app"], "since", .text "may", rfl, rfl⟩
  have hunknown : Node.Immaterial { node with entries := node'.entries }
      ⟨"project", node'.entries, [⟨"color", [arg "red"], []⟩, repository, first, second, limit]⟩ :=
    .unknown _ _ [] _ _ (by decide)
  have hspelled : Node.Immaterial
      ⟨"project", node'.entries, [⟨"color", [arg "red"], []⟩, repository, first, second, limit]⟩
      ⟨"project", node'.entries, [⟨"color", [arg "red"], []⟩, repository, first, spelled, limit]⟩ :=
    .childName _ _ [⟨"color", [arg "red"], []⟩, repository, first] [limit] second "slave_names"
      (by unfold Node.Respelled; decide)
  have hunit : Node.Immaterial
      ⟨"project", node'.entries, [⟨"color", [arg "red"], []⟩, repository, first, spelled, limit]⟩ node' :=
    .childProperty _ _ [⟨"color", [arg "red"], []⟩, repository, first, spelled] []
      ⟨[arg "60"], [], "unit", .text "s", rfl, rfl⟩
  have hchanged : Relation.EqvGen Node.Immaterial node node' :=
    .trans _ _ _ (.rel _ _ hproperty) <| .trans _ _ _ (.rel _ _ hunknown) <|
      .trans _ _ _ (.rel _ _ hspelled) (.rel _ _ hunit)
  obtain ⟨hsame, horder⟩ := ofNode_invariant {} (fun _ => none) node
  have hsome : (read node).toOption.map (fun p => (p.workers, p.timeouts.build)) =
      some (["a", "b"], 60) := by decide +kernel
  obtain ⟨p, hp, hfields⟩ := Option.map_eq_some_iff.mp hsome
  have hread : read node = .ok p := eq_ok_of_toOption hp
  have hkeyed : ∀ option : ProjectOption, Node.keyed option.keys [limit, first, repository, second] =
      Node.keyed option.keys node.children := by
    intro option
    cases option with
    | timeout which => cases which <;> decide
    | _ => decide
  exact ⟨p, hread, (hsame node' hchanged).trans hread, horder p _ hread hkeyed,
    congrArg Prod.fst hfields, congrArg Prod.snd hfields⟩

end ProjectConfig

end BuildPlan
