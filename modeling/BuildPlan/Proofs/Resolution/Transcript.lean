import BuildPlan.Proofs.Registry.Session
import BuildPlan.Proofs.Resolution.Equation

/-!
# Transcripts

A recorded assembler does the same as the assembler, and notes every call of every assembly together with
the registry that the assembly sees then.  The notes of a run are the course of a session: so what holds
throughout every session holds of every registry that is seen in any resolution, at any depth
(`registry_agrees_throughout`).
-/

namespace BuildPlan

/-- What was done, and the registry that was seen just before. -/
structure Note where
  seen : Registry
  action : Action

/-! ### Recording -/

namespace Script

variable {ε : Type}

/-- Notes an action before it is taken. -/
def note (action : Action) (next : Script (Option Note)) : Script (Option Note) :=
  .inspect fun r => .emit (some ⟨r, action⟩) next

/-- The script that notes its calls and its end in place of its events. -/
def recorded : Script ε → Script (Option Note)
  | .finish result => note (.finish result) (.finish result)
  | .emit _ next => next.recorded
  | .inspect next => .inspect fun r => (next r).recorded
  | .register config next =>
    note (.register config) (.register config fun answer => (next answer).recorded)
  | .resolve name next => note (.resolve name) (.resolve name fun answer => (next answer).recorded)

end Script

/-- The assembler that notes the calls of every assembly. -/
def Assembler.recorded {ε : Type} (a : Assembler ε) : Assembler (Option Note) :=
  { assemble := fun config => (a.assemble config).recorded, report := fun _ => none }

/-- The notes of a recorded run. -/
def Outcome.notes {α : Type} (o : Outcome (Option Note) α) : List Note :=
  o.events.filterMap id

namespace Session

variable {s t : Session}

/-- The notes describe the session from `s` to `t`. -/
def Replays (s : Session) : List Note → Session → Prop
  | [], t => s = t
  | n :: rest, t => n.seen = s.registry ∧ (s.act n.action).Replays rest t

theorem Replays.append {u : Session} {first rest : List Note} (h : s.Replays first t)
    (h' : t.Replays rest u) : s.Replays (first ++ rest) u := by
  induction first generalizing s with
  | nil =>
    have hst : s = t := h
    rw [List.nil_append, hst]
    exact h'
  | cons n first ih => exact ⟨h.1, ih h.2⟩

/-- The notes determine how the session goes. -/
theorem Replays.run_eq {notes : List Note} (h : s.Replays notes t) :
    s.run (notes.map Note.action) = t := by
  induction notes generalizing s with
  | nil => exact h
  | cons n rest ih => exact ih h.2

/-- Every registry in the notes is the registry of the session at some time. -/
theorem Replays.exists_run {notes : List Note} (h : s.Replays notes t) :
    ∀ n ∈ notes, ∃ actions, n.seen = (s.run actions).registry := by
  induction notes generalizing s with
  | nil => simp
  | cons n rest ih =>
    intro m hm
    rcases List.mem_cons.mp hm with rfl | hm
    · exact ⟨[], h.1⟩
    · obtain ⟨actions, ha⟩ := ih h.2 m hm
      exact ⟨n.action :: actions, ha⟩

end Session

@[simp] theorem Outcome.notes_after {α : Type} (earlier : List (Option Note))
    (o : Outcome (Option Note) α) : (o.after earlier).notes = earlier.filterMap id ++ o.notes := by
  simp [notes, after]

/-! ### Recorded runs are sessions -/

section Recording

variable {ε : Type}

/-- A recorded resolution, if it comes to an end: it comes to the same as `o`, and its notes lead the
session from the call to the registry of `o`. -/
def RecordsResolution (recorded : Option (Outcome (Option Note) ProjectPlan)) (s : Session)
    (name : String) (o : Outcome ε ProjectPlan) : Prop :=
  ∃ o', recorded = some o' ∧ o'.result = o.result ∧ o'.registry = o.registry ∧
    (s.act (.resolve name)).Replays o'.notes ⟨o.registry, s.frames⟩

variable {nested : Registry → String → Option (Outcome ε ProjectPlan)}
  {nested' : Registry → String → Option (Outcome (Option Note) ProjectPlan)}

theorem Script.run_note (action : Action) (next : Script (Option Note)) (r : Registry) :
    (Script.note action next).run nested' r =
      (next.run nested' r).map (Outcome.after [some ⟨r, action⟩]) := rfl

/-- A registration is an action of the session, whatever its answer is. -/
theorem Script.exists_run_register (config : ProjectConfig) (r : Registry) (frames : List String) :
    ∃ answer r', Session.act ⟨r, frames⟩ (.register config) = ⟨r', frames⟩ ∧
      ∀ {ε : Type} (nested : Registry → String → Option (Outcome ε ProjectPlan))
        (next : Except CompileError Unit → Script ε),
        (Script.register config next).run nested r = (next answer).run nested r' := by
  cases hr : r.register config with
  | ok r' => exact ⟨.ok (), r', by simp only [Session.act, hr], fun _ _ => by simp only [run, hr]⟩
  | error e => exact ⟨.error e, r, by simp only [Session.act, hr], fun _ _ => by simp only [run, hr]⟩

/-- A recorded script comes to the same result, and its notes lead the session from inside of the
assembly to where the assembly has been left. -/
theorem Script.run_recorded
    (hn : ∀ r name o, nested r name = some o →
      ∀ frames, RecordsResolution (nested' r name) ⟨r, frames⟩ name o)
    (script : Script ε) (r : Registry) (name : String) (frames : List String)
    (o : Outcome ε ProjectPlan) (h : script.run nested r = some o) :
    ∃ o', script.recorded.run nested' r = some o' ∧ o'.result = o.result ∧
      o'.registry = o.registry ∧
      Session.Replays ⟨r, name :: frames⟩ o'.notes ⟨o.registry.leave name o.result, frames⟩ := by
  induction script generalizing r o with
  | finish result =>
    cases h
    exact ⟨_, rfl, rfl, rfl, rfl, rfl⟩
  | emit event next ih =>
    obtain ⟨o₁, h₁, rfl⟩ := Option.map_eq_some_iff.mp h
    exact ih r o₁ h₁
  | inspect next ih => exact ih r r o h
  | register config next ih =>
    obtain ⟨answer, r', hact, hrun⟩ := exists_run_register config r (name :: frames)
    rw [hrun] at h
    obtain ⟨o', h', hres, hreg, hrep⟩ := ih answer r' o h
    refine ⟨o'.after [some ⟨r, .register config⟩], ?_, hres, hreg, ?_⟩
    · rw [recorded, run_note, hrun, h', Option.map_some]
    · rw [Outcome.notes_after]
      refine ⟨rfl, ?_⟩
      show (Session.act ⟨r, name :: frames⟩ (.register config)).Replays o'.notes _
      rw [hact]
      exact hrep
  | resolve asked next ih =>
    obtain ⟨o₁, o₂, h₁, h₂, rfl⟩ := run_resolve_eq_some_iff.mp h
    -- the notes of the resolution lead the session from the call to its answer
    obtain ⟨o₁', h₁', hres₁, hreg₁, hrep₁⟩ := hn r asked o₁ h₁ (name :: frames)
    -- the notes of what comes behind it lead the session on from there
    obtain ⟨o₂', h₂', hres₂, hreg₂, hrep₂⟩ := ih o₁.result o₁.registry o₂ h₂
    rw [← hres₁, ← hreg₁] at h₂'
    refine ⟨(o₂'.after o₁'.events).after [some ⟨r, .resolve asked⟩], ?_, hres₂, hreg₂, ?_⟩
    · rw [recorded, run_note, run_resolve_eq_some_iff.mpr ⟨o₁', o₂', h₁', h₂', rfl⟩, Option.map_some]
    · rw [Outcome.notes_after, Outcome.notes_after]
      exact ⟨rfl, hrep₁.append hrep₂⟩

/-- An answer that is there at once is noted by nobody and leaves the session where it is. -/
theorem recordsResolution_of_answer {r : Registry} {frames : List String} {name : String}
    {result : Except CompileError ProjectPlan} {events : List ε} {events' : List (Option Note)}
    (hs : r.state? name ≠ some .unresolved) (he : events'.filterMap id = []) :
    RecordsResolution (some ⟨result, r, events'⟩) ⟨r, frames⟩ name
      (⟨result, r, events⟩ : Outcome ε ProjectPlan) := by
  have hact : Session.act ⟨r, frames⟩ (.resolve name) = ⟨r, frames⟩ :=
    Session.act_resolve_of_state?_ne hs
  refine ⟨_, rfl, rfl, rfl, ?_⟩
  rw [hact, Outcome.notes, he]
  rfl

/-- A recorded resolution comes to the same result, and its notes lead the session from the call to
the answer. -/
theorem Assembler.resolveWithin_recorded (a : Assembler ε) (depth : ℕ) (r : Registry) (name : String)
    (o : Outcome ε ProjectPlan) (h : a.resolveWithin depth r name = some o) :
    ∀ frames, RecordsResolution (a.recorded.resolveWithin depth r name) ⟨r, frames⟩ name o := by
  refine a.resolveWithin_induction
    (motive := fun depth r name o => ∀ frames,
      RecordsResolution (a.recorded.resolveWithin depth r name) ⟨r, frames⟩ name o)
    (fun depth r name he frames => ?_) (fun depth r name config plan he frames => ?_)
    (fun depth r name config he frames => ?_) (fun depth r name config o he ih hrun frames => ?_)
    depth r name o h
  · -- an answer that is there at once leaves no notes, here and in the next two cases
    rw [resolveWithin_of_none _ _ he]
    exact recordsResolution_of_answer (by simp [Registry.state?, he]) rfl
  · rw [resolveWithin_of_resolved _ _ he]
    exact recordsResolution_of_answer (by simp [Registry.state?, he]) rfl
  · rw [resolveWithin_of_inProgress _ _ he]
    exact recordsResolution_of_answer (by simp [Registry.state?, he]) rfl
  · -- the call leads into the assembly, and the notes are those of its script
    obtain ⟨o', h', hres, hreg, hrep⟩ :=
      Script.run_recorded ih (a.assemble config) (r.enter name) name frames o hrun
    refine ⟨⟨o'.result, o'.registry.leave name o'.result, none :: o'.events⟩, ?_, hres, ?_, ?_⟩
    · rw [resolveWithin_succ_of_unresolved _ _ he]
      show Option.map _ ((a.assemble config).recorded.run _ _) = _
      rw [h', Option.map_some]
      rfl
    · rw [hres, hreg]
    · rw [Session.act_resolve he]
      exact hrep

/-- **The registry of a session agrees with itself at all times.**  Whatever callers and assemblies have
done so far, the registry is consistent, every registered name is declared once, the stack holds the
assemblies under way and comes back when they have ended, and a resolved project is kept and not
assembled again.  Every resolution by every assembler goes through such sessions: its notes show
nothing but consistent registries, and it gives the stack back. -/
theorem registry_agrees_throughout (actions : List Action) :
    let s := Session.run {} actions
    s.registry.Consistent ∧
    (∀ name, name ∈ s.registry.names ↔ s.registry.contains name) ∧
    s.registry.stack = s.frames.reverse ∧
    (s.frames = [] → s.registry.stack = [] ∧ ∀ name, s.registry.state? name ≠ some .inProgress) ∧
    (∀ later, (s.run later).frames = s.frames → (s.run later).registry.stack = s.registry.stack) ∧
    (∀ name plan, s.registry.state? name = some (.resolved plan) → ∀ later,
      (s.run later).registry.state? name = some (.resolved plan) ∧
      name ∉ (s.run later).frames ∧ (s.run later).act (.resolve name) = s.run later) ∧
    (∀ (ε : Type) (a : Assembler ε) (depth : ℕ) (name : String) (o : Outcome ε ProjectPlan),
      a.resolveWithin depth s.registry name = some o →
      o.registry.stack = s.registry.stack ∧
      (∀ plan, s.registry.state? name = some (.resolved plan) → o = ⟨.ok plan, s.registry, []⟩) ∧
      ∃ o', a.recorded.resolveWithin depth s.registry name = some o' ∧
        o'.result = o.result ∧ o'.registry = o.registry ∧
        (s.act (.resolve name)).Replays o'.notes ⟨o.registry, s.frames⟩ ∧
        ∀ n ∈ o'.notes, n.seen.Consistent) := by
  intro s
  have hv : s.Valid := Session.valid_start.run actions
  refine ⟨hv.consistent, hv.consistent.mem_names_iff, hv.stack_eq,
    hv.idle_of_frames_eq_nil, fun later hf => ?_, fun name plan hp later => ?_,
    fun ε a depth name o h => ?_⟩
  · rw [(hv.run later).stack_eq, hf, hv.stack_eq]
  · have hl := hv.resolved_run hp later
    exact ⟨hl, (hv.run later).not_assembled_of_resolved hl⟩
  · obtain ⟨o', h', hres, hreg, hrep⟩ := a.resolveWithin_recorded depth s.registry name o h s.frames
    have hva : (s.act (.resolve name)).Valid := hv.act _
    refine ⟨?_, fun plan hp => ?_, o', h', hres, hreg, hrep, fun n hn => ?_⟩
    · -- the notes end where the call has been answered, with the frames from before
      have hend : Session.Valid ⟨o.registry, s.frames⟩ := hrep.run_eq ▸ hva.run _
      exact hend.stack_eq.trans hv.stack_eq.symm
    · obtain ⟨config, he⟩ := Registry.state?_eq_some_iff.mp hp
      rw [Assembler.resolveWithin_of_resolved a depth he] at h
      exact (Option.some.inj h).symm
    · -- what is seen in a note is the registry of the session at some time
      obtain ⟨later, hl⟩ := hrep.exists_run n hn
      rw [hl]
      exact (hva.run later).consistent

end Recording

end BuildPlan
