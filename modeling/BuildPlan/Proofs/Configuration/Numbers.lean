import BuildPlan.Proofs.Configuration.Limits

/-!
# Numbers in a project's node

A number is given as an integer or as a text, and what it is given as does not count
(`Kdl.Value.Writes`).  A window or a period out of range is refused where it stands, a time limit that is
not positive when all children have been read.  Either way the node is read just if it is read without the
number and the option takes the number (`ProjectConfig.ofNode_reads_numbers`).
-/

namespace BuildPlan

open NumberOption (amount)

/-! ### Numbers and their children -/

/-- The value is the integer, or its decimal text with any blanks around it. -/
inductive Kdl.Value.Writes : Value → Int → Prop
  | integer (n : Int) : Writes (.integer n) n
  | text {front rest : String} (hfront : Text.isBlank front) (hrest : Text.isBlank rest) (n : Int) :
    Writes (.text (front ++ toString n ++ rest)) n

theorem Kdl.Value.Writes.denotes {v : Value} {n : Int} (h : v.Writes n) : Text.Denotes v.scalar n := by
  cases h with
  | integer =>
    have hplain := @Text.denotes_toString "" "" rfl rfl n
    rwa [String.empty_append, String.append_empty] at hplain
  | text hfront hrest => exact Text.denotes_toString hfront hrest n

/-- The option of a project's node. -/
def NumberOption.option : NumberOption → ProjectOption
  | .window => .fixedWindow
  | .period => .periodic
  | .timeout which => .timeout which

/-- The node has one child for the option, the value is the first argument of this child, and the others
are the other children of the node. -/
def Kdl.Node.HasSole (node : Node) (option : ProjectOption) (v : Value) (others : List Node) : Prop :=
  ∃ before child after, node.children = before ++ child :: after ∧ others = before ++ after ∧
    ProjectOption.ofKey? child.key = some option ∧ keyed option.keys others = [] ∧
    child.arguments.head? = some v

/-- Some of the children are for the time limit. -/
def Kdl.Node.haveLimit (nodes : List Node) (which : TimeoutOption) : Bool :=
  !(keyed (ProjectOption.timeout which).keys nodes).isEmpty

/-- The time limits with another one.  The global limit also counts for the limits that the other children
do not give. -/
def Timeouts.withLimit (timeouts : Timeouts) (x : UInt64) (others : List Kdl.Node) :
    TimeoutOption → Timeouts
  | .global =>
    { global := x
      build := if Kdl.Node.haveLimit others .build then timeouts.build else x
      test := if Kdl.Node.haveLimit others .test then timeouts.test else x }
  | .build => { timeouts with build := x }
  | .test => { timeouts with test := x }

/-- The project with an amount for an option, besides what the other children of its node say. -/
def ProjectConfig.withNumber (p : ProjectConfig) (x : UInt64) (others : List Kdl.Node) :
    NumberOption → ProjectConfig
  | .window => { p with schedule := { p.schedule with fixedWindow := some ⟨x⟩ } }
  | .period => { p with schedule := { p.schedule with periodic := some ⟨x⟩ } }
  | .timeout which => { p with timeouts := p.timeouts.withLimit x others which }

/-! ### From the draft to the project -/

namespace ProjectDraft

variable {credentials : CredentialStore} {d d' : ProjectDraft} {p p' : ProjectConfig} {child : Kdl.Node}
  {others : List Kdl.Node} {option : NumberOption} {which : TimeoutOption} {text : String} {n : Int}

/-- A draft with all options becomes the project. -/
def Becomes (credentials : CredentialStore) (d : ProjectDraft) (p : ProjectConfig) : Prop :=
  d.repository ≠ "" ∧ finish { d with credentials := credentials d.repository } = .ok p

/-- The project of a draft with positive limits. -/
def project (credentials : CredentialStore) (d : ProjectDraft) : ProjectConfig :=
  { d with credentials := credentials d.repository }.completed d.limits

theorem becomes_iff :
    d.Becomes credentials p ↔
      d.repository ≠ "" ∧ Text.isBlank d.name = false ∧ d.LimitsPositive ∧ p = d.project credentials := by
  unfold Becomes
  rw [finish_eq_ok_iff]
  refine and_congr_right fun _ => and_congr_right fun _ => ?_
  constructor
  · rintro ⟨timeouts, ht, rfl⟩
    obtain ⟨hpos, rfl⟩ : d.LimitsPositive ∧ timeouts = d.limits := timeouts_eq_ok_iff.mp ht
    exact ⟨hpos, rfl⟩
  · rintro ⟨hpos, rfl⟩
    exact ⟨d.limits, timeouts_eq_ok_iff.mpr ⟨hpos, rfl⟩, rfl⟩

/-- The draft with a number for an option. -/
def withNumber (d : ProjectDraft) (n : Int) : NumberOption → ProjectDraft
  | .window => { d with schedule := { d.schedule with fixedWindow := some ⟨amount .window n⟩ } }
  | .period => { d with schedule := { d.schedule with periodic := some ⟨amount .period n⟩ } }
  | .timeout which => d.withTimeout n which

/-- The least number that can be read for an option: time limits are checked later. -/
def leastRead : NumberOption → Int
  | .window => 0
  | .period => 1
  | .timeout _ => -9223372036854775808

/-- A text is read by the number that it denotes. -/
theorem parsed_number_iff {α : Type} {parse : String → Except CompileError α} {a : α}
    (make : UInt64 → α)
    (hparse : ∀ {text a}, parse text = .ok a ↔
      ∃ n, Text.Denotes text n ∧ option.Takes n ∧ a = make (amount option n))
    (ht : child.firstScalar? = some text) (hn : Text.Denotes text n) :
    d.parsed child parse = .ok a ↔ option.Takes n ∧ a = make (amount option n) := by
  rw [parsed_eq_ok_iff]
  constructor
  · rintro ⟨text', ht', hread⟩
    cases ht.symm.trans ht'
    obtain ⟨m, hm, htakes, rfl⟩ := hparse.mp hread
    cases hm.unique hn
    exact ⟨htakes, rfl⟩
  · rintro ⟨htakes, rfl⟩
    exact ⟨text, ht, hparse.mpr ⟨n, hn, htakes, rfl⟩⟩

theorem seconds_number_iff {secs : Int} (ht : child.firstScalar? = some text)
    (hn : Text.Denotes text n) :
    d.seconds child = .ok secs ↔
      (-9223372036854775808 ≤ n ∧ n ≤ 9223372036854775807) ∧ secs = n := by
  rw [seconds_eq_ok_iff]
  constructor
  · rintro ⟨text', ht', hsecs, hrange⟩
    cases ht.symm.trans ht'
    cases hsecs.unique hn
    exact ⟨hrange, rfl⟩
  · rintro ⟨hrange, rfl⟩
    exact ⟨text, ht, hn, hrange⟩

/-- A child is read for an option by the number that its first argument denotes. -/
theorem readKnown_number_iff (ht : child.firstScalar? = some text) (hn : Text.Denotes text n) :
    d.readKnown child option.option = .ok d' ↔
      (leastRead option ≤ n ∧ n ≤ 9223372036854775807) ∧ d' = d.withNumber n option := by
  cases option with
  | window =>
    refine bind_pure_eq_ok_iff.trans ?_
    simp only [parsed_number_iff FixedWindow.mk FixedWindow.parse_eq_ok_iff ht hn, and_assoc,
      exists_and_left, exists_eq_left, NumberOption.takes_iff]
    rfl
  | period =>
    refine bind_pure_eq_ok_iff.trans ?_
    simp only [parsed_number_iff Period.mk Period.parse_eq_ok_iff ht hn, and_assoc,
      exists_and_left, exists_eq_left, NumberOption.takes_iff]
    rfl
  | timeout which =>
    refine readKnown_timeout_eq_ok_iff.trans ?_
    simp only [seconds_number_iff ht hn, and_assoc, exists_and_left, exists_eq_left]
    rfl

/-- One more limit has to be positive, and it takes its place among the others. -/
theorem limitsPositive_withTimeout (hnone : d.timeoutOf which = none) :
    (d.withTimeout n which).LimitsPositive ↔ 1 ≤ n ∧ d.LimitsPositive := by
  unfold LimitsPositive
  simp only [timeoutOf_withTimeout]
  constructor
  · intro h
    refine ⟨h which n (if_pos rfl), fun other secs hsecs => h other secs ?_⟩
    have hne : other ≠ which := by
      rintro rfl
      rw [hnone] at hsecs
      cases hsecs
    rwa [if_neg hne]
  · rintro ⟨hn, hpos⟩ other secs hsecs
    split at hsecs
    · cases hsecs
      exact hn
    · exact hpos other secs hsecs

theorem limits_withTimeout
    (hgiven : ∀ which, (d.timeoutOf which).isSome = Kdl.Node.haveLimit others which) :
    (d.withTimeout n which).limits = d.limits.withLimit (amount (.timeout which) n) others which := by
  have hlimit : amount (.timeout which) n = UInt64.ofNat n.toNat := rfl
  rw [hlimit]
  cases which with
  | global =>
    -- the limits that are not given fall back on the global one
    have hb : d.buildTimeout.isSome = _ := hgiven .build
    have ht : d.testTimeout.isSome = _ := hgiven .test
    unfold Timeouts.withLimit
    rw [← hb, ← ht]
    unfold limits withTimeout
    cases d.buildTimeout <;> cases d.testTimeout <;> simp [limitOr]
  | build => rfl
  | test => rfl

theorem limitsPositive_withNumber
    (hnone : ∀ which, option = .timeout which → d.timeoutOf which = none) :
    (d.withNumber n option).LimitsPositive ↔
      (∀ which, option = .timeout which → 1 ≤ n) ∧ d.LimitsPositive := by
  cases option with
  | window => exact (and_iff_right nofun).symm
  | period => exact (and_iff_right nofun).symm
  | timeout which =>
    refine (limitsPositive_withTimeout (hnone which rfl)).trans (and_congr_left fun _ => ?_)
    exact ⟨fun hn _ _ => hn, fun h => h which rfl⟩

theorem project_withNumber
    (hgiven : ∀ which, (d.timeoutOf which).isSome = Kdl.Node.haveLimit others which) :
    (d.withNumber n option).project credentials =
      (d.project credentials).withNumber (amount option n) others option := by
  unfold project
  cases option with
  | window => rfl
  | period => rfl
  | timeout which =>
    rw [show d.withNumber n (.timeout which) = d.withTimeout n which from rfl, limits_withTimeout hgiven]
    cases which <;> rfl

theorem takes_iff_leastRead :
    option.Takes n ↔ (leastRead option ≤ n ∧ n ≤ 9223372036854775807) ∧
      ∀ which, option = .timeout which → 1 ≤ n := by
  rw [NumberOption.takes_iff]
  cases option with
  | window => exact (and_iff_left nofun).symm
  | period => exact (and_iff_left nofun).symm
  | timeout which =>
    -- a timeout below 1 is read as a number and refused afterwards
    simp only [NumberOption.least_timeout, leastRead, NumberOption.timeout.injEq, forall_eq']
    omega

/-- A draft with one more number becomes a project just if the option takes the number and the draft
without it becomes one. -/
theorem becomes_withNumber_iff (hnone : ∀ which, option = .timeout which → d.timeoutOf which = none)
    (hgiven : ∀ which, (d.timeoutOf which).isSome = Kdl.Node.haveLimit others which) :
    ((leastRead option ≤ n ∧ n ≤ 9223372036854775807) ∧
        (d.withNumber n option).Becomes credentials p') ↔
      option.Takes n ∧ ∃ p, d.Becomes credentials p ∧ p' = p.withNumber (amount option n) others option := by
  have hname : (d.withNumber n option).name = d.name := by
    cases option with
    | timeout which => cases which <;> rfl
    | _ => rfl
  have hrepository : (d.withNumber n option).repository = d.repository := by
    cases option with
    | timeout which => cases which <;> rfl
    | _ => rfl
  -- a number changes nothing that is asked of a draft but its limits
  simp only [becomes_iff, hname, hrepository, limitsPositive_withNumber hnone,
    project_withNumber hgiven, takes_iff_leastRead]
  constructor
  · rintro ⟨hrange, hr, hblank, ⟨hpos, hlimits⟩, rfl⟩
    exact ⟨⟨hrange, hpos⟩, _, ⟨hr, hblank, hlimits, rfl⟩, rfl⟩
  · rintro ⟨⟨hrange, hpos⟩, _, ⟨hr, hblank, hlimits, rfl⟩, rfl⟩
    exact ⟨hrange, hr, hblank, ⟨hpos, hlimits⟩, rfl⟩

/-- A time limit has been given just if one of the children is for it. -/
theorem isSome_timeoutOf {name : String} {master : MasterSettings}
    (h : others.foldlM readOption (start name master) = .ok d) (which : TimeoutOption) :
    (d.timeoutOf which).isSome = Kdl.Node.haveLimit others which := by
  unfold Kdl.Node.haveLimit
  cases hl : (Kdl.Node.keyed (ProjectOption.timeout which).keys others).getLast? with
  | none =>
    have hnil := List.getLast?_eq_none_iff.mp hl
    rw [timeoutOf_of_keyed_eq_nil h hnil, timeoutOf_start, hnil]
    rfl
  | some child =>
    obtain ⟨_, _, -, -, -, hsecs⟩ := exists_timeoutOf_last h hl
    have hne : Kdl.Node.keyed (ProjectOption.timeout which).keys others ≠ [] := by
      intro hnil
      rw [hnil] at hl
      cases hl
    rw [hsecs]
    simp [hne]

theorem schedule_start (name : String) (master : MasterSettings) : (start name master).schedule = {} := by
  unfold start
  split <;> rfl

/-- A window that has been read is not 0, and neither is a period. -/
theorem schedule_pos_of_foldlM {name : String} {master : MasterSettings} {nodes : List Kdl.Node}
    (h : nodes.foldlM readOption (start name master) = .ok d) :
    (∀ w, d.schedule.fixedWindow = some w → 0 < w.secs) ∧
      ∀ q, d.schedule.periodic = some q → 0 < q.minutes := by
  constructor
  · refine only_of_foldlM .fixedWindow (fun d => ∀ w, d.schedule.fixedWindow = some w → 0 < w.secs) h
      (fun w hw => ?_) fun he w hw => ?_
    · have hnone : (start name master).schedule.fixedWindow = some w := hw
      rw [schedule_start] at hnone
      cases hnone
    · obtain ⟨_, hparsed, rfl⟩ := bind_pure_eq_ok_iff.mp he
      cases hw
      obtain ⟨_, -, hparse⟩ := parsed_eq_ok_iff.mp hparsed
      exact FixedWindow.pos_of_parse hparse
  · refine only_of_foldlM .periodic (fun d => ∀ q, d.schedule.periodic = some q → 0 < q.minutes) h
      (fun q hq => ?_) fun he q hq => ?_
    · have hnone : (start name master).schedule.periodic = some q := hq
      rw [schedule_start] at hnone
      cases hnone
    · obtain ⟨_, hparsed, rfl⟩ := bind_pure_eq_ok_iff.mp he
      cases hq
      obtain ⟨_, -, hparse⟩ := parsed_eq_ok_iff.mp hparsed
      exact Period.pos_of_parse hparse

end ProjectDraft

namespace ProjectConfig

/-- No time of the project is 0. -/
structure PositiveTimes (p : ProjectConfig) : Prop where
  window : ∀ w, p.schedule.fixedWindow = some w → 0 < w.secs
  period : ∀ q, p.schedule.periodic = some q → 0 < q.minutes
  timeouts : 0 < p.timeouts.global ∧ 0 < p.timeouts.build ∧ 0 < p.timeouts.test

variable {master : MasterSettings} {credentials : CredentialStore} {node : Kdl.Node}
  {others : List Kdl.Node} {option : NumberOption} {v : Kdl.Value} {n : Int} {p' : ProjectConfig}

theorem ofNode_number_iff (hsole : node.HasSole option.option v others) (hv : v.Writes n) :
    ofNode master credentials node = .ok p' ↔
      option.Takes n ∧ ∃ p x, ofNode master credentials { node with children := others } = .ok p ∧
        (UInt64.toNat x : Int) = option.meaning n ∧ p' = p.withNumber x others option := by
  obtain ⟨before, child, after, hchildren, rfl, hkey, hnil, harg⟩ := hsole
  have ht : child.firstScalar? = some v.scalar := by
    rw [Kdl.Node.firstScalar?, harg]
    rfl
  -- the option is given by its sole child, so the others leave its limit missing
  have hnone : ∀ name d, (before ++ after).foldlM ProjectDraft.readOption (.start name master) = .ok d →
      ∀ which, option = .timeout which → d.timeoutOf which = none := by
    rintro name d hfold which rfl
    rw [ProjectDraft.timeoutOf_of_keyed_eq_nil hfold hnil, ProjectDraft.timeoutOf_start]
  rw [ofNode_eq_ok_iff, hchildren]
  simp only [ProjectDraft.foldlM_sole hkey hnil, ProjectDraft.readKnown_number_iff ht hv.denotes]
  constructor
  · rintro ⟨name, _, hname, ⟨d, hfold, hrange, rfl⟩, hbecomes⟩
    -- the sole child may be read last, and reading it writes the number into the draft of the others
    obtain ⟨htakes, p, hp, rfl⟩ := (ProjectDraft.becomes_withNumber_iff (hnone name d hfold)
      (ProjectDraft.isSome_timeoutOf hfold)).mp ⟨hrange, hbecomes⟩
    exact ⟨htakes, p, amount option n, ofNode_eq_ok_iff.mpr ⟨name, d, hname, hfold, hp⟩,
      NumberOption.toNat_amount htakes, rfl⟩
  · rintro ⟨htakes, p, x, hp, hx, rfl⟩
    obtain rfl := (NumberOption.eq_amount_iff htakes).mpr hx
    obtain ⟨name, d, hname, hfold, hbecomes⟩ := ofNode_eq_ok_iff.mp hp
    obtain ⟨hrange, hbecomes'⟩ := (ProjectDraft.becomes_withNumber_iff (hnone name d hfold)
      (ProjectDraft.isSome_timeoutOf hfold)).mpr ⟨htakes, p, hbecomes, rfl⟩
    exact ⟨name, _, hname, ⟨d, hfold, hrange, rfl⟩, hbecomes'⟩

theorem positiveTimes_of_ofNode {p : ProjectConfig} (h : ofNode master credentials node = .ok p) :
    p.PositiveTimes := by
  have htimeouts := (timeouts_of_ofNode h).2
  obtain ⟨name, d, -, hfold, -, hfinish⟩ := ofNode_eq_ok_iff.mp h
  obtain ⟨-, timeouts, -, rfl⟩ := ProjectDraft.finish_eq_ok_iff.mp hfinish
  obtain ⟨hwindow, hperiod⟩ := ProjectDraft.schedule_pos_of_foldlM hfold
  exact ⟨hwindow, hperiod, htimeouts⟩

/-- **Numbers in a project's node.**  If one child of a node gives a number for an option, as an integer or
as a text, then the node is read just if the option takes the number and the node is read without this
child; and the project has what is meant by the number, and is the same in all else.  In whatever project
has been read, each time limit is what the last child for it gives, or else the global one, and no window,
no period and no time limit is 0. -/
theorem ofNode_reads_numbers (master : MasterSettings) (credentials : CredentialStore)
    (node : Kdl.Node) :
    (∀ (option : NumberOption) (v : Kdl.Value) (others : List Kdl.Node) (n : Int),
      node.HasSole option.option v others → v.Writes n → ∀ p',
        ofNode master credentials node = .ok p' ↔
          option.Takes n ∧ ∃ (p : ProjectConfig) (x : UInt64),
            ofNode master credentials { node with children := others } = .ok p ∧
            (x.toNat : Int) = option.meaning n ∧ p' = p.withNumber x others option) ∧
    ∀ p, ofNode master credentials node = .ok p →
      p.timeouts.GivenBy node.children ∧ p.PositiveTimes :=
  ⟨fun _ _ _ _ hsole hv _ => ofNode_number_iff hsole hv,
    fun _ h => ⟨(timeouts_of_ofNode h).1, positiveTimes_of_ofNode h⟩⟩

/-- The greatest number as the global limit, as an integer and as a text with wide blanks around it; the
next number, and 0.  The limit for builds follows the global one, and the limit for tests, which stands in
front, does not. -/
theorem ofNode_reads_numbers_at_limit :
    let child (name : String) (v : Kdl.Value) : Kdl.Node := ⟨name, [⟨none, v⟩], []⟩
    let node (v : Kdl.Value) : Kdl.Node := ⟨"project", [⟨none, .text "app"⟩],
      [child "repository" (.text "r"), child "test_timeout" (.text "+07"), child "timeout" v,
        child "default-scheduler" (.integer 0)]⟩
    let read := ofNode {} fun _ => none
    ∃ p, read (node (.integer 9223372036854775807)) = .ok p ∧
      read (node (.text "\u20039223372036854775807\n")) = .ok p ∧
      (∀ p', read (node (.integer 9223372036854775808)) ≠ .ok p') ∧
      (∀ p', read (node (.text "0")) ≠ .ok p') ∧
      p.timeouts = ⟨9223372036854775807, 9223372036854775807, 7⟩ ∧
      p.schedule.fixedWindow = some ⟨600⟩ ∧ p.PositiveTimes ∧
      p.timeouts.GivenBy (node (.integer 9223372036854775807)).children := by
  intro child node read
  let front := [child "repository" (.text "r"), child "test_timeout" (.text "+07")]
  let rest := [child "default-scheduler" (.integer 0)]
  have hkey : ProjectOption.ofKey? (child "timeout" .null).key = some (.timeout .global) := by decide
  have hsole : ∀ v, (node v).HasSole (NumberOption.timeout .global).option v (front ++ rest) :=
    fun v => ⟨front, child "timeout" v, rest, rfl, rfl, hkey, by decide, rfl⟩
  have hiff := fun v n => (ofNode_reads_numbers {} (fun _ => none) (node v)).1 (.timeout .global) v
    (front ++ rest) n (hsole v)
  have hothers : ((read ⟨"project", [⟨none, .text "app"⟩], front ++ rest⟩).toOption.map fun p =>
      (p.timeouts, p.schedule.fixedWindow)) = some (⟨3600, 3600, 7⟩, some ⟨600⟩) := by decide +kernel
  obtain ⟨p, hp, hfields⟩ := Option.map_eq_some_iff.mp hothers
  obtain ⟨htimeouts, hwindow⟩ := Prod.mk.inj hfields
  -- both ways to write the greatest number come to the same project
  have hread : ∀ v : Kdl.Value, v.Writes 9223372036854775807 →
      read (node v) = .ok (p.withNumber 9223372036854775807 (front ++ rest) (.timeout .global)) :=
    fun v hv => (hiff v _ hv _).mpr
      ⟨⟨by decide, by decide⟩, p, 9223372036854775807, eq_ok_of_toOption hp, by decide, rfl⟩
  have htext : Kdl.Value.Writes (.text "\u20039223372036854775807\n") 9223372036854775807 := by
    rw [show "\u20039223372036854775807\n" = "\u2003" ++ toString (9223372036854775807 : Int) ++ "\n" by
      decide +kernel]
    exact .text (by decide) (by decide) _
  have hzero : Kdl.Value.Writes (.text "0") 0 := by
    rw [show "0" = "" ++ toString (0 : Int) ++ "" by decide +kernel]
    exact .text (by decide) (by decide) _
  have hlimit := hread _ (.integer _)
  obtain ⟨hgiven, hpositive⟩ := (ofNode_reads_numbers {} (fun _ => none) _).2 _ hlimit
  refine ⟨_, hlimit, hread _ htext, fun p' h => ?_, fun p' h => ?_, ?_, hwindow, hpositive, hgiven⟩
  · exact absurd ((hiff _ _ (.integer _) p').mp h).1.le_greatest (by decide)
  · exact absurd ((hiff _ _ hzero p').mp h).1.least_le (by decide)
  · show p.timeouts.withLimit 9223372036854775807 (front ++ rest) .global = _
    rw [htimeouts]
    decide +kernel

end ProjectConfig

end BuildPlan
