import BuildPlan.Event
import Mathlib.Data.List.Perm.Basic

/-!
# Nested assemblies in a log

An assembly begins with the event that its project is being resolved, and ends with the event that the
project has been added or that this has failed.  `Event.openAfter` follows a log and keeps the assemblies
that are open; it goes wrong where another assembly ends than the innermost.  A log that an error cuts
short breaks off: nothing begins any more, and what is open fails from the inside out
(`Event.BreaksOff`).
-/

namespace BuildPlan

namespace Event

/-! ### Beginnings and ends -/

/-- The project whose assembly begins. -/
def begun? : Event → Option String
  | .registry (.resolving project) => some project
  | _ => none

/-- The project that has been added. -/
def added? : Event → Option String
  | .assembled project => some project
  | _ => none

/-- The project that could not be added, and why. -/
def failed? : Event → Option (String × CompileError)
  | .assemblyFailed project error => some (project, error)
  | _ => none

/-- The project whose assembly ends, well or not. -/
def ended? (e : Event) : Option String :=
  e.added?.or (e.failed?.map Prod.fst)

/-- No assembly begins or ends with the event. -/
structure IsNote (e : Event) : Prop where
  begun : e.begun? = none
  added : e.added? = none
  failed : e.failed? = none

/-- The assemblies that are open after an event, innermost first; only the innermost can end. -/
def track (opened : List String) (e : Event) : Option (List String) :=
  match e.begun?, e.ended? with
  | some project, _ => some (project :: opened)
  | none, some project => if opened.head? = some project then some opened.tail else none
  | none, none => some opened

/-- The assemblies that are open after a log, innermost first. -/
def openAfter (opened : List String) (log : List Event) : Option (List String) :=
  log.foldlM track opened

variable {e : Event} {opened left mid : List String} {log before after notes : List Event}
  {project : String} {error : CompileError}

theorem IsNote.ended (h : e.IsNote) : e.ended? = none := by
  rw [ended?, h.added, h.failed]
  rfl

theorem ended?_eq_none_of_begun (h : e.begun? = some project) : e.ended? = none := by
  cases e with
  | registry e => rfl
  | _ => cases h

theorem begun?_eq_none_of_ended (h : e.ended? = some project) : e.begun? = none := by
  cases hb : e.begun? with
  | none => rfl
  | some p => cases (ended?_eq_none_of_begun hb).symm.trans h

theorem track_of_begun (h : e.begun? = some project) (opened : List String) :
    track opened e = some (project :: opened) := by
  unfold track
  rw [h]

theorem track_of_ended (h : e.ended? = some project) (opened : List String) :
    track (project :: opened) e = some opened := by
  unfold track
  rw [begun?_eq_none_of_ended h, h]
  exact if_pos rfl

theorem track_of_note (hb : e.begun? = none) (he : e.ended? = none) (opened : List String) :
    track opened e = some opened := by
  unfold track
  rw [hb, he]

/-- An event begins an assembly, or ends the innermost one, or leaves all of them open. -/
theorem track_cases (h : track opened e = some left) :
    (∃ p, e.begun? = some p ∧ left = p :: opened) ∨
    (∃ p, e.ended? = some p ∧ opened = p :: left) ∨
    (e.begun? = none ∧ e.ended? = none ∧ left = opened) := by
  unfold track at h
  cases hb : e.begun? with
  | some p =>
    rw [hb] at h
    exact Or.inl ⟨p, rfl, (Option.some.inj h).symm⟩
  | none =>
    rw [hb] at h
    cases he : e.ended? with
    | none =>
      rw [he] at h
      exact Or.inr (Or.inr ⟨rfl, rfl, (Option.some.inj h).symm⟩)
    | some p =>
      rw [he] at h
      obtain ⟨hp, hl⟩ := Option.ite_none_right_eq_some.mp h
      -- only the innermost project under way may end
      cases opened with
      | nil => cases hp
      | cons q rest =>
        cases hp
        cases hl
        exact Or.inr (Or.inl ⟨p, rfl, rfl⟩)

/-! ### Logs of notes -/

theorem isNote_of_mem_nil : ∀ e ∈ ([] : List Event), e.IsNote := nofun

theorem begun?_notes (h : ∀ e ∈ notes, e.IsNote) : notes.filterMap begun? = [] :=
  List.filterMap_eq_nil_iff.mpr fun e he => (h e he).begun

theorem added?_notes (h : ∀ e ∈ notes, e.IsNote) : notes.filterMap added? = [] :=
  List.filterMap_eq_nil_iff.mpr fun e he => (h e he).added

theorem failed?_notes (h : ∀ e ∈ notes, e.IsNote) : notes.filterMap failed? = [] :=
  List.filterMap_eq_nil_iff.mpr fun e he => (h e he).failed

/-! ### The open assemblies of a log -/

theorem openAfter_cons (opened : List String) (e : Event) (log : List Event) :
    openAfter opened (e :: log) = (track opened e).bind fun o => openAfter o log := rfl

theorem openAfter_append_of (h : openAfter opened before = some mid) (after : List Event) :
    openAfter opened (before ++ after) = openAfter mid after := by
  rw [openAfter, List.foldlM_append]
  show (openAfter opened before).bind _ = _
  rw [h, Option.bind_some]
  rfl

theorem openAfter_notes (h : ∀ e ∈ notes, e.IsNote) (opened : List String) :
    openAfter opened notes = some opened := by
  induction notes with
  | nil => rfl
  | cons e rest ih =>
    rw [List.forall_mem_cons] at h
    rw [openAfter_cons, track_of_note h.1.begun h.1.ended, Option.bind_some, ih h.2]

/-- Assemblies that have been open before stay open. -/
theorem openAfter_append_below (h : openAfter opened log = some left) (below : List String) :
    openAfter (opened ++ below) log = some (left ++ below) := by
  induction log generalizing opened with
  | nil =>
    cases h
    rfl
  | cons e log ih =>
    rw [openAfter_cons, Option.bind_eq_some_iff] at h
    obtain ⟨mid, hm, h⟩ := h
    have hstep : track (opened ++ below) e = some (mid ++ below) := by
      rcases track_cases hm with ⟨p, hb, rfl⟩ | ⟨p, he, rfl⟩ | ⟨hb, he, rfl⟩
      · exact track_of_begun hb _
      · exact track_of_ended he _
      · exact track_of_note hb he _
    rw [openAfter_cons, hstep, Option.bind_some, ih h]

/-- What was open or has begun is what has ended or is open still. -/
theorem perm_of_openAfter (h : openAfter opened log = some left) :
    (log.filterMap begun? ++ opened).Perm (log.filterMap ended? ++ left) := by
  induction log generalizing opened with
  | nil =>
    cases h
    rfl
  | cons e log ih =>
    rw [openAfter_cons, Option.bind_eq_some_iff] at h
    obtain ⟨mid, hm, h⟩ := h
    have hrest := ih h
    -- an event opens, closes or is a note, and both sides gain the project or neither does
    rcases track_cases hm with ⟨p, hb, rfl⟩ | ⟨p, he, rfl⟩ | ⟨hb, he, rfl⟩
    · rw [List.filterMap_cons_some hb, List.filterMap_cons_none (ended?_eq_none_of_begun hb)]
      exact List.perm_middle.symm.trans hrest
    · rw [List.filterMap_cons_none (begun?_eq_none_of_ended he), List.filterMap_cons_some he]
      exact List.perm_middle.trans (hrest.cons p)
    · rw [List.filterMap_cons_none hb, List.filterMap_cons_none he]
      exact hrest

/-- Where nothing has failed, what has ended has been added. -/
theorem filterMap_ended?_of_no_failed (h : log.filterMap failed? = []) :
    log.filterMap ended? = log.filterMap added? := by
  refine List.filterMap_congr fun e he => ?_
  rw [ended?, List.filterMap_eq_nil_iff.mp h e he, Option.map_none, Option.or_none]

/-! ### Announcements -/

/-- Every project that is resolved is announced with the next event. -/
def Announced (log : List Event) : Prop :=
  ∀ i p, log[i]? = some (.registry (.resolving p)) → log[i + 1]? = some (.assembling p)

theorem announced_of_notes (h : ∀ e ∈ notes, e.begun? = none) : Announced notes := by
  intro i p hi
  cases h _ (List.mem_of_getElem? hi)

theorem announced_opening (p : String) : Announced [.registry (.resolving p), .assembling p] := by
  intro i q hi
  match i with
  | 0 =>
    cases hi
    rfl
  | 1 => cases hi
  | i + 2 => cases hi

theorem Announced.append (h : Announced before) (h' : Announced after) :
    Announced (before ++ after) := by
  intro i p hi
  by_cases hlt : i < before.length
  · rw [List.getElem?_append_left hlt] at hi
    have hnext := h i p hi
    obtain ⟨hlt', -⟩ := List.getElem?_eq_some_iff.mp hnext
    rw [List.getElem?_append_left hlt', hnext]
  · have hle : before.length ≤ i := Nat.le_of_not_lt hlt
    have hsub : i + 1 - before.length = i - before.length + 1 := Nat.sub_add_comm hle
    rw [List.getElem?_append_right hle] at hi
    rw [List.getElem?_append_right (Nat.le_succ_of_le hle), hsub]
    exact h' _ p hi

/-! ### Logs that break off -/

/-- From some point of the log on nothing begins and nothing is added, and the assemblies that are open
there fail with the error, innermost first; before it nothing fails. -/
def BreaksOff (log : List Event) (error : CompileError) : Prop :=
  ∃ before opened after, log = before ++ after ∧
    before.filterMap failed? = [] ∧ openAfter [] before = some opened ∧
    after.filterMap begun? = [] ∧ after.filterMap added? = [] ∧
    after.filterMap failed? = opened.map fun p => (p, error)

/-- Where nothing is open, nothing has to fail. -/
theorem breaksOff_of_closed (h : openAfter [] log = some []) (hf : log.filterMap failed? = [])
    (error : CompileError) : BreaksOff log error :=
  ⟨log, [], [], (List.append_nil _).symm, hf, h, rfl, rfl, rfl⟩

theorem BreaksOff.append_left (h : BreaksOff after error) (hb : openAfter [] before = some [])
    (hf : before.filterMap failed? = []) : BreaksOff (before ++ after) error := by
  obtain ⟨first, opened, last, rfl, hff, ho, hlast⟩ := h
  refine ⟨before ++ first, opened, last, (List.append_assoc ..).symm, ?_, ?_, hlast⟩
  · rw [List.filterMap_append, hf, hff, List.append_nil]
  · rw [openAfter_append_of hb, ho]

/-- Where something has failed, a log breaks off with the first failure. -/
theorem BreaksOff.exists_first (h : BreaksOff log error) (hp : .assemblyFailed project error ∈ log) :
    ∃ before p opened after, log = before ++ .assemblyFailed p error :: after ∧
      before.filterMap failed? = [] ∧ openAfter [] before = some (p :: opened) ∧
      after.filterMap begun? = [] ∧ after.filterMap added? = [] ∧
      after.filterMap failed? = opened.map fun p => (p, error) := by
  obtain ⟨before, opened, after, rfl, hf, ho, hb, ha, hfail⟩ := h
  cases opened with
  | nil =>
    -- an empty stack would leave no failure in the log
    have hmem : (project, error) ∈ (before ++ after).filterMap failed? :=
      List.mem_filterMap.mpr ⟨_, hp, rfl⟩
    rw [List.filterMap_append, hf, hfail] at hmem
    cases hmem
  | cons p opened =>
    -- notes may stand between the break and the first failure, and they keep the stack
    obtain ⟨notes, e, rest, rfl, hnotes, he, hrest⟩ := List.filterMap_eq_cons_iff.mp hfail
    have hfirst : e = .assemblyFailed p error := by
      cases e with
      | assemblyFailed q err =>
        cases he
        rfl
      | _ => cases he
    subst hfirst
    rw [List.filterMap_append, List.append_eq_nil_iff] at hb ha
    have hn : ∀ e ∈ notes, IsNote e := fun e he =>
      ⟨List.filterMap_eq_nil_iff.mp hb.1 e he, List.filterMap_eq_nil_iff.mp ha.1 e he, hnotes e he⟩
    refine ⟨before ++ notes, p, opened, rest, (List.append_assoc ..).symm, ?_, ?_, hb.2, ha.2, hrest⟩
    · rw [List.filterMap_append, hf, failed?_notes hn, List.append_nil]
    · rw [openAfter_append_of ho, openAfter_notes hn]

/-- In a log that breaks off, every failure has the same text. -/
theorem BreaksOff.fields_of_message (h : BreaksOff log error) {e : Event} (he : e ∈ log)
    (hm : e.message = "Error while adding project") :
    ∃ p, e.fields = [("project", .text p), ("error", .text error.message)] := by
  obtain ⟨before, opened, after, rfl, hf, -, -, -, hfail⟩ := h
  have hmem : ∀ p err, e = .assemblyFailed p err → err = error := by
    rintro p err rfl
    have hpe : (p, err) ∈ (before ++ after).filterMap failed? := List.mem_filterMap.mpr ⟨_, he, rfl⟩
    rw [List.filterMap_append, hf, List.nil_append, hfail, List.mem_map] at hpe
    obtain ⟨_, -, hq⟩ := hpe
    exact (Prod.mk.inj hq).2.symm
  cases e with
  | assemblyFailed p err =>
    rw [hmem p err rfl]
    exact ⟨p, rfl⟩
  | registry e => cases e <;> exact absurd hm (by simp [message, RegistryEvent.message])
  | _ => exact absurd hm (by simp [message])

/-! ### The log of an assembly -/

/-- The log of an assembly around the log of what has been resolved inside of it. -/
def assemblyLog (project : String) (notes inner notes' : List Event) (closing : Event) : List Event :=
  .registry (.resolving project) :: .assembling project :: (notes ++ (inner ++ (notes' ++ [closing])))

section Assembly

variable {inner notes' : List Event} {closing : Event}

theorem filterMap_assemblyLog {β : Type} {f : Event → Option β} (h : notes.filterMap f = [])
    (h' : notes'.filterMap f = []) :
    (assemblyLog project notes inner notes' closing).filterMap f =
      [.registry (.resolving project), .assembling project].filterMap f ++
        (inner.filterMap f ++ (f closing).toList) := by
  show ([_, _] ++ (notes ++ (inner ++ (notes' ++ [closing])))).filterMap f = _
  rw [List.filterMap_append, List.filterMap_append, List.filterMap_append, List.filterMap_append, h,
    h', List.nil_append, List.nil_append]
  cases hc : f closing with
  | none => rw [List.filterMap_cons_none hc]; rfl
  | some b => rw [List.filterMap_cons_some hc]; rfl

variable (hn : ∀ e ∈ notes, e.IsNote) (hn' : ∀ e ∈ notes', e.IsNote)

include hn in
/-- In an assembly, the project is open below everything else. -/
theorem openAfter_opening (h : openAfter [] inner = some opened) (project : String) :
    openAfter [] (.registry (.resolving project) :: .assembling project :: (notes ++ inner)) =
      some (opened ++ [project]) := by
  show openAfter [project] (notes ++ inner) = _
  rw [openAfter_append_of (openAfter_notes hn _)]
  exact openAfter_append_below h [project]

include hn hn'

theorem begun?_assemblyLog (hc : closing.ended? = some project) :
    (assemblyLog project notes inner notes' closing).filterMap begun? =
      project :: inner.filterMap begun? := by
  rw [filterMap_assemblyLog (begun?_notes hn) (begun?_notes hn'), begun?_eq_none_of_ended hc]
  show project :: (inner.filterMap begun? ++ []) = _
  rw [List.append_nil]

theorem added?_assemblyLog :
    (assemblyLog project notes inner notes' closing).filterMap added? =
      inner.filterMap added? ++ closing.added?.toList :=
  filterMap_assemblyLog (added?_notes hn) (added?_notes hn')

theorem failed?_assemblyLog :
    (assemblyLog project notes inner notes' closing).filterMap failed? =
      inner.filterMap failed? ++ closing.failed?.toList :=
  filterMap_assemblyLog (failed?_notes hn) (failed?_notes hn')

theorem announced_assemblyLog (hi : Announced inner) (hc : closing.begun? = none) :
    Announced (assemblyLog project notes inner notes' closing) := by
  have hnotes : Announced notes := announced_of_notes fun e he => (hn e he).begun
  have hlast : Announced (notes' ++ [closing]) := announced_of_notes fun e he => by
    rcases List.mem_append.mp he with he | he
    · exact (hn' e he).begun
    · rwa [List.mem_singleton.mp he]
  exact (announced_opening project).append (hnotes.append (hi.append hlast))

theorem openAfter_assemblyLog (hi : openAfter [] inner = some []) (hc : closing.ended? = some project) :
    openAfter [] (assemblyLog project notes inner notes' closing) = some [] := by
  have hsplit : assemblyLog project notes inner notes' closing =
      (.registry (.resolving project) :: .assembling project :: (notes ++ inner)) ++
        (notes' ++ [closing]) := by
    simp [assemblyLog]
  rw [hsplit, openAfter_append_of (openAfter_opening hn hi project),
    openAfter_append_of (openAfter_notes hn' _), openAfter_cons, List.nil_append, track_of_ended hc]
  rfl

/-- An assembly fails with the error that the log inside of it breaks off with. -/
theorem BreaksOff.assemblyLog (h : BreaksOff inner error) :
    BreaksOff (assemblyLog project notes inner notes' (.assemblyFailed project error)) error := by
  obtain ⟨before, opened, after, rfl, hf, ho, hb, ha, hfail⟩ := h
  refine ⟨.registry (.resolving project) :: .assembling project :: (notes ++ before),
    opened ++ [project], after ++ (notes' ++ [.assemblyFailed project error]), ?_, ?_,
    openAfter_opening hn ho project, ?_, ?_, ?_⟩
  · simp [Event.assemblyLog]
  · -- the failure added last is that of the project itself, now the outermost one under way
    show (notes ++ before).filterMap failed? = []
    rw [List.filterMap_append, failed?_notes hn, hf]
    rfl
  · rw [List.filterMap_append, List.filterMap_append, hb, begun?_notes hn']
    rfl
  · rw [List.filterMap_append, List.filterMap_append, ha, added?_notes hn']
    rfl
  · rw [List.filterMap_append, List.filterMap_append, hfail, failed?_notes hn', List.map_append]
    rfl

end Assembly

end Event

end BuildPlan
