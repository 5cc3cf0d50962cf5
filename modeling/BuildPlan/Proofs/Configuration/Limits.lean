import BuildPlan.Proofs.Configuration.Invariance
import BuildPlan.Proofs.Schedule.Numbers

/-!
# Time limits

Limits that are given have to be positive (`ProjectDraft.timeouts_eq_ok_iff`).  In a project that has been
read each limit is the number that the last child for it gives; where there is none, the global limit
stands in for the others, and the standard one for the global one (`Timeouts.GivenBy`), wherever the
children stand.
-/

namespace BuildPlan

open NumberOption (amount)

namespace ProjectDraft

variable {d d' : ProjectDraft} {node child : Kdl.Node} {nodes : List Kdl.Node} {which : TimeoutOption}
  {given : Option Int} {secs : Int} {limit other : UInt64} {text : String} {timeouts : Timeouts}

/-- A number of seconds may be any integer of 64 bits until the draft is finished. -/
theorem seconds_eq_ok_iff :
    d.seconds node = .ok secs ↔ ∃ text, node.firstScalar? = some text ∧ Text.Denotes text secs ∧
      -9223372036854775808 ≤ secs ∧ secs ≤ 9223372036854775807 := by
  unfold seconds
  simp only [bind_eq_ok_iff, required_eq_ok_iff, ← Text.int64?_trim_eq_some_iff]
  refine exists_congr fun text => and_congr_right fun _ => ?_
  split
  · next n he =>
    rw [he, Option.some.injEq]
    exact ⟨fun h => Except.ok.inj h, congrArg _⟩
  · next he => simp [he, throw, throwThe, MonadExceptOf.throw]

/-! ### Limits of a draft -/

/-- The limit that is given, or else another one. -/
def limitOr (other : UInt64) (given : Option Int) : UInt64 :=
  given.elim other fun secs => UInt64.ofNat secs.toNat

theorem checkTimeout_eq_ok_iff :
    checkTimeout which secs = .ok limit ↔ 1 ≤ secs ∧ limit = UInt64.ofNat secs.toNat := by
  unfold checkTimeout
  by_cases hlow : secs < 1
  · have hnot : ¬ 1 ≤ secs := Int.not_le.mpr hlow
    simp [hlow, hnot]
  · have hle : 1 ≤ secs := Int.not_lt.mp hlow
    simp [hlow, hle, eq_comm]

theorem elim_checkTimeout_eq_ok_iff :
    given.elim (pure other) (checkTimeout which) = .ok limit ↔
      (∀ secs, given = some secs → 1 ≤ secs) ∧ limit = limitOr other given := by
  cases given with
  | none => simp [limitOr, pure, Except.pure, eq_comm]
  | some secs => simp [limitOr, checkTimeout_eq_ok_iff]

/-- The limits of a draft, if all that have been given are positive. -/
def limits (d : ProjectDraft) : Timeouts where
  global := limitOr 3600 d.timeout
  build := limitOr (limitOr 3600 d.timeout) d.buildTimeout
  test := limitOr (limitOr 3600 d.timeout) d.testTimeout

/-- The limits that have been given are positive. -/
def LimitsPositive (d : ProjectDraft) : Prop :=
  ∀ which secs, d.timeoutOf which = some secs → 1 ≤ secs

theorem limitsPositive_iff :
    d.LimitsPositive ↔ (∀ secs, d.timeout = some secs → 1 ≤ secs) ∧
      (∀ secs, d.buildTimeout = some secs → 1 ≤ secs) ∧ ∀ secs, d.testTimeout = some secs → 1 ≤ secs := by
  refine ⟨fun h => ⟨h .global, h .build, h .test⟩, ?_⟩
  rintro ⟨hglobal, hbuild, htest⟩ (_ | _ | _)
  · exact hglobal
  · exact hbuild
  · exact htest

/-- A draft whose limits are positive gets them, and no other one does. -/
theorem timeouts_eq_ok_iff : d.timeouts = .ok timeouts ↔ d.LimitsPositive ∧ timeouts = d.limits := by
  have hglobal : ∀ limit, checkTimeout .global (d.timeout.getD standardTimeout) = .ok limit ↔
      (∀ secs, d.timeout = some secs → 1 ≤ secs) ∧ limit = limitOr 3600 d.timeout := by
    intro limit
    rw [checkTimeout_eq_ok_iff]
    cases d.timeout with
    | none => simp [limitOr, standardTimeout]
    | some secs => simp [limitOr]
  rw [limitsPositive_iff]
  unfold ProjectDraft.timeouts
  simp only [bind_eq_ok_iff, hglobal, elim_checkTimeout_eq_ok_iff]
  constructor
  · rintro ⟨_, ⟨hg, rfl⟩, _, ⟨hb, rfl⟩, _, ⟨ht, rfl⟩, ⟨⟩⟩
    exact ⟨⟨hg, hb, ht⟩, rfl⟩
  · rintro ⟨⟨hg, hb, ht⟩, rfl⟩
    exact ⟨_, ⟨hg, rfl⟩, _, ⟨hb, rfl⟩, _, ⟨ht, rfl⟩, rfl⟩

/-! ### Limits that children give -/

theorem readKnown_timeout_eq_ok_iff :
    d.readKnown node (.timeout which) = .ok d' ↔
      ∃ secs, d.seconds node = .ok secs ∧ d' = d.withTimeout secs which :=
  bind_pure_eq_ok_iff

theorem timeoutOf_withTimeout (d : ProjectDraft) (secs : Int) (which option : TimeoutOption) :
    (d.withTimeout secs which).timeoutOf option =
      if option = which then some secs else d.timeoutOf option := by
  cases which <;> cases option <;> rfl

@[simp] theorem timeoutOf_only (d : ProjectDraft) (which : TimeoutOption) :
    (d.only (.timeout which)).timeoutOf which = d.timeoutOf which := by
  cases which <;> rfl

theorem timeoutOf_start (name : String) (master : MasterSettings) (which : TimeoutOption) :
    (start name master).timeoutOf which = none := by
  unfold start
  split <;> cases which <;> rfl

theorem timeoutOf_of_keyed_eq_nil (h : nodes.foldlM readOption d = .ok d')
    (hnil : Kdl.Node.keyed (ProjectOption.timeout which).keys nodes = []) :
    d'.timeoutOf which = d.timeoutOf which := by
  rw [← timeoutOf_only, only_of_keyed_eq_nil h hnil, timeoutOf_only]

/-- Of all children for a time limit, the last one counts. -/
theorem exists_timeoutOf_last (h : nodes.foldlM readOption d = .ok d')
    (hl : (Kdl.Node.keyed (ProjectOption.timeout which).keys nodes).getLast? = some child) :
    ∃ text secs, child.firstScalar? = some text ∧ Text.Denotes text secs ∧
      secs ≤ 9223372036854775807 ∧ d'.timeoutOf which = some secs := by
  obtain ⟨e, he⟩ := exists_readKnown_last h hl
  obtain ⟨secs, hsecs, honly⟩ := readKnown_timeout_eq_ok_iff.mp he
  obtain ⟨text, htext, hdenotes, -, hle⟩ := seconds_eq_ok_iff.mp hsecs
  refine ⟨text, secs, htext, hdenotes, hle, ?_⟩
  rw [← timeoutOf_only, honly, timeoutOf_withTimeout, if_pos rfl]

end ProjectDraft

/-- The children give the limit: it is the number of the last child for it, or else another limit. -/
def Kdl.Node.GiveLimit (nodes : List Node) (which : TimeoutOption) (other limit : UInt64) : Prop :=
  match (keyed (ProjectOption.timeout which).keys nodes).getLast? with
  | some child => ∃ text, child.firstScalar? = some text ∧ Text.Denotes text limit.toNat
  | none => limit = other

/-- The time limits are those that the children give, the global one in place of the others. -/
structure Timeouts.GivenBy (timeouts : Timeouts) (nodes : List Kdl.Node) : Prop where
  global : Kdl.Node.GiveLimit nodes .global 3600 timeouts.global
  build : Kdl.Node.GiveLimit nodes .build timeouts.global timeouts.build
  test : Kdl.Node.GiveLimit nodes .test timeouts.global timeouts.test

namespace ProjectDraft

variable {d : ProjectDraft} {nodes : List Kdl.Node} {which : TimeoutOption} {other : UInt64}
  {name : String} {master : MasterSettings} {timeouts : Timeouts}

/-- A limit of a draft that passes the check is what the children give, and it is not 0. -/
theorem giveLimit_of_foldlM (h : nodes.foldlM readOption (start name master) = .ok d)
    (hpos : ∀ secs, d.timeoutOf which = some secs → 1 ≤ secs) (hother : 0 < other) :
    Kdl.Node.GiveLimit nodes which other (limitOr other (d.timeoutOf which)) ∧
      0 < limitOr other (d.timeoutOf which) := by
  unfold Kdl.Node.GiveLimit
  split
  · next child hl =>
    obtain ⟨text, secs, htext, hdenotes, hle, hsecs⟩ := exists_timeoutOf_last h hl
    have htakes : (NumberOption.timeout which).Takes secs := ⟨hpos secs hsecs, hle⟩
    have hlimit : limitOr other (d.timeoutOf which) = amount (.timeout which) secs := by
      rw [hsecs]
      rfl
    rw [hlimit]
    refine ⟨⟨text, htext, ?_⟩, NumberOption.amount_pos htakes⟩
    rwa [NumberOption.toNat_amount htakes]
  · next hl =>
    rw [timeoutOf_of_keyed_eq_nil h (List.getLast?_eq_none_iff.mp hl), timeoutOf_start]
    exact ⟨rfl, hother⟩

theorem limits_of_foldlM (h : nodes.foldlM readOption (start name master) = .ok d)
    (hpos : d.LimitsPositive) :
    d.limits.GivenBy nodes ∧ 0 < d.limits.global ∧ 0 < d.limits.build ∧ 0 < d.limits.test := by
  have hstandard : (0 : UInt64) < 3600 := by decide
  obtain ⟨hglobal, hglobalPos⟩ := giveLimit_of_foldlM h (hpos .global) hstandard
  obtain ⟨hbuild, hbuildPos⟩ := giveLimit_of_foldlM h (hpos .build) hglobalPos
  obtain ⟨htest, htestPos⟩ := giveLimit_of_foldlM h (hpos .test) hglobalPos
  exact ⟨⟨hglobal, hbuild, htest⟩, hglobalPos, hbuildPos, htestPos⟩

end ProjectDraft

/-- The time limits of a project are those that the children of its node give, and none of them is 0. -/
theorem ProjectConfig.timeouts_of_ofNode {master : MasterSettings} {credentials : CredentialStore}
    {node : Kdl.Node} {p : ProjectConfig} (h : ofNode master credentials node = .ok p) :
    p.timeouts.GivenBy node.children ∧
      0 < p.timeouts.global ∧ 0 < p.timeouts.build ∧ 0 < p.timeouts.test := by
  obtain ⟨name, d, -, hfold, -, hfinish⟩ := ofNode_eq_ok_iff.mp h
  obtain ⟨-, timeouts, ht, rfl⟩ := ProjectDraft.finish_eq_ok_iff.mp hfinish
  -- the credentials are no part of the limits
  obtain ⟨hpos, rfl⟩ : d.LimitsPositive ∧ timeouts = d.limits := ProjectDraft.timeouts_eq_ok_iff.mp ht
  exact ProjectDraft.limits_of_foldlM hfold hpos

end BuildPlan
