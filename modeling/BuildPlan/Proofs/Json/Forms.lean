import BuildPlan.Configuration.Json
import BuildPlan.Plan.Json
import BuildPlan.Proofs.Json.Variation

/-!
# JSON forms are read back

What is written of a value is read as that value, in whatever order the members of its objects stand and
whatever further members stand among them, also where a record is read from among the parts of a tagged
one.  Records are read member by member, so each of them follows from its parts.
-/

namespace BuildPlan

open Json (Has Reads ReadsBack)

variable {all : List (String × Json)} {place : Json.Place}

/-! ### Names and numbers -/

theorem BuilderName.reads (n : BuilderName) : Reads ofJson? n.toJson n := by
  intro j h
  simp [ofJson?, Json.reads_str n.text j h]

theorem NotifyMode.reads (m : NotifyMode) : Reads ofJson? m.toJson m :=
  Json.reads_name .direct (by cases m <;> rfl)

theorem VcsMode.reads (place : Json.Place) (m : VcsMode) : Reads (ofJson? place) m.toJson m :=
  Json.reads_name place (by cases m <;> rfl)

/-- A cron field is a name or a closed object. -/
theorem CronField.reads (place : Json.Place) (f : CronField) : Reads (ofJson? place) f.toJson f := by
  intro j h
  cases f with
  | any =>
    cases h
    rfl
  | value n =>
    -- the number is written as a closed object, which has no other form
    rw [Json.Varies.eq_of_closed h]
    have hn := Json.reads_uint32 n _ (.refl _)
    simp [ofJson?, hn]

/-! ### Records -/

theorem Credentials.reads (c : Credentials) : Reads ofJson? c.toJson c := by
  intro j h
  obtain ⟨all, rfl, hall⟩ := h.exists_obj (by simp)
  have husername := hall.field "username" rfl (Json.reads_str c.username)
  have hpassword := hall.field "password" rfl (Json.reads_str c.password)
  simp [ofJson?, Json.members?, husername, hpassword]

theorem RetryPolicy.reads (r : RetryPolicy) : Reads ofJson? r.toJson r := by
  intro j h
  obtain ⟨all, rfl, hall⟩ := h.exists_obj (by simp)
  have hattempts := hall.field "attempts" rfl (Json.reads_uint32 r.attempts)
  have hspacing := hall.field "spacing_secs" rfl (Json.reads_uint64 r.spacingSecs)
  simp [ofJson?, Json.members?, hattempts, hspacing]

theorem ChangeFilter.reads (f : ChangeFilter) : Reads ofJson? f.toJson f := by
  intro j h
  obtain ⟨all, rfl, hall⟩ := h.exists_obj (by simp)
  have hfragments := hall.field "fragments" rfl (Json.reads_strings f.fragments)
  simp [ofJson?, Json.members?, hfragments]

theorem MailNotifier.reads (n : MailNotifier) : Reads ofJson? n.toJson n := by
  intro j h
  obtain ⟨all, rfl, hall⟩ := h.exists_obj (by simp)
  have hbuilders := hall.field "builder_names" rfl (Json.reads_list BuilderName.reads n.builderNames)
  have hsender := hall.field "from" rfl (Json.reads_str n.sender)
  have hrecipients := hall.field "extra_recipients" rfl (Json.reads_strings n.extraRecipients)
  have hrelay := hall.field "relay_host" rfl (Json.reads_str n.relayHost)
  have hmode := hall.field "mode" rfl (NotifyMode.reads n.mode)
  have hlogs := hall.field "add_logs" rfl (Json.reads_bool n.addLogs)
  have hinterested := hall.field "send_to_interested_users" rfl (Json.reads_bool n.sendToInterestedUsers)
  simp [ofJson?, Json.members?, hbuilders, hsender, hrecipients, hrelay, hmode, hlogs, hinterested]

theorem MasterSettings.reads (m : MasterSettings) : Reads ofJson? m.toJson m := by
  intro j h
  obtain ⟨all, rfl, hall⟩ := h.exists_obj (by simp)
  have hoption := Json.reads_option Json.str (fun _ => nofun) Json.reads_str
  have hworkers := hall.field "workers" rfl (Json.reads_strings m.workers)
  have hmail := hall.optionalField "mail_host" rfl (hoption m.mailHost)
  have hinterpreter := hall.optionalField "interpreter" rfl (hoption m.interpreter)
  simp [ofJson?, Json.members?, hworkers, hmail, hinterpreter]

/-- A schedule is read from an object that has its members, tagged or not. -/
theorem CronSpec.ofJson?_of_has {c : CronSpec} (h : Has all c.members) :
    ofJson? place (.obj all) = some c := by
  have hminute := h.field "minute" rfl (CronField.reads place c.minute)
  have hhour := h.field "hour" rfl (CronField.reads place c.hour)
  have hday := h.field "day_of_month" rfl (CronField.reads place c.dayOfMonth)
  have hmonth := h.field "month" rfl (CronField.reads place c.month)
  have hweekday := h.field "day_of_week" rfl (CronField.reads place c.dayOfWeek)
  simp [ofJson?, Json.members?, hminute, hhour, hday, hmonth, hweekday]

theorem CronSpec.reads (place : Json.Place) (c : CronSpec) : Reads (ofJson? place) c.toJson c := by
  intro j h
  obtain ⟨all, rfl, hall⟩ := h.exists_obj (by simp [members, fieldNames, fields])
  exact ofJson?_of_has hall

/-! ### Pipelines -/

/-- The source of a checkout has its kind for a tag. -/
theorem CheckoutSource.reads (place : Json.Place) (s : CheckoutSource) :
    Reads (ofJson? place) s.toJson s := by
  intro j h
  cases s with
  | svn url auth =>
    obtain ⟨rest, htag, hrest⟩ := h.exists_tagged place Vcs.names rfl (by simp)
    have hauth := Json.reads_option Credentials.toJson (fun _ => nofun) Credentials.reads
    have hurl := hrest.field "url" rfl (Json.reads_str url)
    have hauth := hrest.optionalField "auth" rfl (hauth auth)
    simp [ofJson?, htag, ofFields?, Json.members?, hurl, hauth]
  | git url branch =>
    obtain ⟨rest, htag, hrest⟩ := h.exists_tagged place Vcs.names rfl (by simp)
    have hurl := hrest.field "url" rfl (Json.reads_str url)
    have hbranch := hrest.field "branch" rfl (Json.reads_str branch)
    simp [ofJson?, htag, ofFields?, Json.members?, hurl, hbranch]
  | hg url =>
    obtain ⟨rest, htag, hrest⟩ := h.exists_tagged place Vcs.names rfl (by simp)
    have hurl := hrest.field "url" rfl (Json.reads_str url)
    simp [ofJson?, htag, ofFields?, Json.members?, hurl]
  | bzr url =>
    obtain ⟨rest, htag, hrest⟩ := h.exists_tagged place Vcs.names rfl (by simp)
    have hurl := hrest.field "url" rfl (Json.reads_str url)
    simp [ofJson?, htag, ofFields?, Json.members?, hurl]
  | cvs root module branch =>
    obtain ⟨rest, htag, hrest⟩ := h.exists_tagged place Vcs.names rfl (by simp)
    have hroot := hrest.field "root" rfl (Json.reads_str root)
    have hmodule := hrest.field "module" rfl (Json.reads_str module)
    have hbranch := hrest.field "branch" rfl (Json.reads_str branch)
    simp [ofJson?, htag, ofFields?, Json.members?, hroot, hmodule, hbranch]

/-- A checkout is read from an object that has its members, tagged or not. -/
theorem Checkout.ofJson?_of_has {c : Checkout} (h : Has all c.members) :
    ofJson? place (.obj all) = some c := by
  have hsource := h.field "source" rfl (CheckoutSource.reads place c.source)
  have hmode := h.field "mode" rfl (VcsMode.reads place c.mode)
  have hretry := h.field "retry" rfl (RetryPolicy.reads c.retry)
  have hlatest := h.field "always_use_latest" rfl (Json.reads_bool c.alwaysUseLatest)
  simp [ofJson?, Json.members?, hsource, hmode, hretry, hlatest]

theorem Checkout.reads (place : Json.Place) (c : Checkout) : Reads (ofJson? place) c.toJson c := by
  intro j h
  obtain ⟨all, rfl, hall⟩ := h.exists_obj (by simp [members])
  exact ofJson?_of_has hall

theorem StepKind.commandOf?_of_has {command : List String}
    (h : Has all [("command", .strings command)]) : commandOf? (.obj all) = some command := by
  have hcommand := h.field "command" rfl (Json.reads_strings command)
  simp [commandOf?, Json.members?, hcommand]

/-- The kind of a step has a tag, and a checkout has its members next to it. -/
theorem StepKind.reads (k : StepKind) : Reads ofJson? k.toJson k := by
  intro j h
  cases k with
  | checkout c =>
    obtain ⟨rest, htag, hrest⟩ :=
      h.exists_tagged .direct Tag.names rfl (by simp [Checkout.members])
    simp [ofJson?, htag, Checkout.ofJson?_of_has hrest]
  | shell command | test command | lint command =>
    obtain ⟨rest, htag, hrest⟩ := h.exists_tagged .direct Tag.names rfl (by simp)
    simp [ofJson?, htag, commandOf?_of_has hrest]

theorem Step.reads (s : Step) : Reads ofJson? s.toJson s := by
  intro j h
  obtain ⟨all, rfl, hall⟩ := h.exists_obj (by simp)
  have hkind := hall.field "kind" rfl (StepKind.reads s.kind)
  have htimeout := hall.field "timeout" rfl (Json.reads_uint64 s.timeout)
  have hhalt := hall.field "halt_on_failure" rfl (Json.reads_bool s.haltOnFailure)
  simp [ofJson?, Json.members?, hkind, htimeout, hhalt]

theorem Pipeline.reads (p : Pipeline) : Reads ofJson? p.toJson p := by
  intro j h
  obtain ⟨all, rfl, hall⟩ := h.exists_obj (by simp)
  have hsteps := hall.field "steps" rfl (Json.reads_list Step.reads p.steps)
  simp [ofJson?, Json.members?, hsteps]

theorem Builder.reads (b : Builder) : Reads ofJson? b.toJson b := by
  intro j h
  obtain ⟨all, rfl, hall⟩ := h.exists_obj (by simp)
  have hname := hall.field "name" rfl (BuilderName.reads b.name)
  have hworker := hall.field "worker" rfl (Json.reads_str b.worker)
  have hdir := hall.field "build_dir" rfl (Json.reads_str b.buildDir)
  have hpipeline := hall.field "pipeline" rfl (Pipeline.reads b.pipeline)
  simp [ofJson?, Json.members?, hname, hworker, hdir, hpipeline]

/-! ### Schedulers -/

/-- A trigger has its kind for a tag, and the fields of a schedule stand next to it. -/
theorem Trigger.reads (t : Trigger) : Reads ofJson? t.toJson t := by
  intro j h
  cases t with
  | svnPoll repository | repositoryChange repository =>
    obtain ⟨rest, htag, hrest⟩ := h.exists_tagged .direct Tag.names rfl (by simp)
    have hrepository := hrest.field "repository" rfl (Json.reads_str repository)
    simp [ofJson?, htag, ofFields?, Json.members?, hrepository]
  | fixedWindow timer =>
    obtain ⟨rest, htag, hrest⟩ := h.exists_tagged .direct Tag.names rfl (by simp)
    have htimer := hrest.field "tree_stable_timer" rfl (Json.reads_uint64 timer)
    simp [ofJson?, htag, ofFields?, Json.members?, htimer]
  | periodic secs =>
    obtain ⟨rest, htag, hrest⟩ := h.exists_tagged .direct Tag.names rfl (by simp)
    have hsecs := hrest.field "period_secs" rfl (Json.reads_uint64 secs)
    simp [ofJson?, htag, ofFields?, Json.members?, hsecs]
  | cron spec =>
    obtain ⟨rest, htag, hrest⟩ := h.exists_tagged .direct Tag.names rfl
      (by simp [CronSpec.members, CronSpec.fieldNames, CronSpec.fields])
    simp [ofJson?, htag, ofFields?, CronSpec.ofJson?_of_has hrest]
  | dependent parent =>
    obtain ⟨rest, htag, hrest⟩ := h.exists_tagged .direct Tag.names rfl (by simp)
    have hparent := hrest.field "upstream" rfl (Json.reads_str parent)
    simp [ofJson?, htag, ofFields?, Json.members?, hparent]
  | dependencyWatch filter timer =>
    obtain ⟨rest, htag, hrest⟩ := h.exists_tagged .direct Tag.names rfl (by simp)
    have hfilter := hrest.field "filter" rfl (ChangeFilter.reads filter)
    have htimer := hrest.field "tree_stable_timer" rfl (Json.reads_uint64 timer)
    simp [ofJson?, htag, ofFields?, Json.members?, hfilter, htimer]

theorem Scheduler.reads (s : Scheduler) : Reads ofJson? s.toJson s := by
  intro j h
  obtain ⟨all, rfl, hall⟩ := h.exists_obj (by simp)
  have hname := hall.field "name" rfl (Json.reads_str s.name)
  have hbuilders := hall.field "builder_names" rfl (Json.reads_list BuilderName.reads s.builderNames)
  have htrigger := hall.field "kind" rfl (Trigger.reads s.trigger)
  simp [ofJson?, Json.members?, hname, hbuilders, htrigger]

/-! ### All forms -/

/-- **JSON forms are read back.**  Every value that is both written and read is read from what is written
of it, and from every variation of that. -/
theorem forms_read_back :
    ReadsBack Pipeline.toJson Pipeline.ofJson? ∧
    ReadsBack Step.toJson Step.ofJson? ∧
    ReadsBack StepKind.toJson StepKind.ofJson? ∧
    (∀ place, ReadsBack Checkout.toJson (Checkout.ofJson? place)) ∧
    (∀ place, ReadsBack CheckoutSource.toJson (CheckoutSource.ofJson? place)) ∧
    ReadsBack RetryPolicy.toJson RetryPolicy.ofJson? ∧
    ReadsBack Builder.toJson Builder.ofJson? ∧
    ReadsBack Scheduler.toJson Scheduler.ofJson? ∧
    ReadsBack Trigger.toJson Trigger.ofJson? ∧
    ReadsBack ChangeFilter.toJson ChangeFilter.ofJson? ∧
    (∀ place, ReadsBack CronSpec.toJson (CronSpec.ofJson? place)) ∧
    ReadsBack MailNotifier.toJson MailNotifier.ofJson? ∧
    ReadsBack MasterSettings.toJson MasterSettings.ofJson? ∧
    ReadsBack Credentials.toJson Credentials.ofJson? :=
  ⟨.of_reads Pipeline.reads, .of_reads Step.reads, .of_reads StepKind.reads,
    fun place => .of_reads (Checkout.reads place), fun place => .of_reads (CheckoutSource.reads place),
    .of_reads RetryPolicy.reads, .of_reads Builder.reads, .of_reads Scheduler.reads,
    .of_reads Trigger.reads, .of_reads ChangeFilter.reads, fun place => .of_reads (CronSpec.reads place),
    .of_reads MailNotifier.reads, .of_reads MasterSettings.reads, .of_reads Credentials.reads⟩

end BuildPlan
