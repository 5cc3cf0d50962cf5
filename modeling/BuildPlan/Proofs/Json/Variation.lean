import BuildPlan.Json.Shape
import Mathlib.Data.List.Forall2
import Mathlib.Data.List.Nodup

/-!
# Variations of JSON values

A variation of a value has the members of its objects, at any depth, in another order and among further
members.  A reader that looks its members up by name does not tell a value from its variations: if it
`Reads` the parts of an object, it reads the object.
-/

namespace BuildPlan.Json

/-- An object that takes no further members: its one member is named `value`, and the name stands for the
kind of what is held. -/
def Closed (members : List (String × Json)) : Prop :=
  members.map Prod.fst = ["value"]

/-- Objects may have their members in another order, and further ones with names of their own if they are
not closed.  What the further members hold is left open. -/
inductive Varies : Json → Json → Prop where
  | refl (j : Json) : Varies j j
  | arr {items items' : List Json} (h : List.Forall₂ Varies items items') :
    Varies (.arr items) (.arr items')
  | obj {members members' further all : List (String × Json)}
    (hnames : members'.map Prod.fst = members.map Prod.fst)
    (hvalues : List.Forall₂ Varies (members.map Prod.snd) (members'.map Prod.snd))
    (hnew : ∀ m ∈ further, m.1 ∉ members.map Prod.fst)
    (hclosed : Closed members → further = [])
    (hperm : all.Perm (members' ++ further)) :
    Varies (.obj members) (.obj all)

/-- What is written can be read back, and every variation of it is read as it is. -/
def ReadsBack {α : Type} (form : α → Json) (form? : Json → Option α) : Prop :=
  ∀ a, form? (form a) = some a ∧ ∀ j, Varies (form a) j → form? j = form? (form a)

/-- The reader gets the same from all variations of a value. -/
def Reads {α : Type} (form? : Json → Option α) (j : Json) (a : α) : Prop :=
  ∀ j', Varies j j' → form? j' = some a

theorem ReadsBack.of_reads {α : Type} {form : α → Json} {form? : Json → Option α}
    (h : ∀ a, Reads form? (form a) a) : ReadsBack form form? := by
  intro a
  have hself := h a (form a) (.refl _)
  exact ⟨hself, fun j hj => (h a j hj).trans hself.symm⟩

section Leaves

variable {α : Type}

/-! ### Values without members -/

theorem Varies.eq_of_null {j : Json} (h : Varies j .null) : j = .null := by
  cases h
  rfl

theorem reads_str (s : String) : Reads str? (.str s) s := by
  intro j h
  cases h
  rfl

theorem reads_bool (b : Bool) : Reads bool? (.bool b) b := by
  intro j h
  cases h
  rfl

theorem reads_uint32 (n : UInt32) : Reads uint32? (.int n.toNat) n := by
  intro j h
  cases h
  have hn : (0 : Int) ≤ n.toNat ∧ (n.toNat : Int) < UInt32.size :=
    ⟨Int.natCast_nonneg _, by exact_mod_cast n.toNat_lt⟩
  rw [uint32?, if_pos hn, Int.toNat_natCast, UInt32.ofNat_toNat]

theorem reads_uint64 (n : UInt64) : Reads uint64? (.int n.toNat) n := by
  intro j h
  cases h
  have hn : (0 : Int) ≤ n.toNat ∧ (n.toNat : Int) < UInt64.size :=
    ⟨Int.natCast_nonneg _, by exact_mod_cast n.toNat_lt⟩
  rw [uint64?, if_pos hn, Int.toNat_natCast, UInt64.ofNat_toNat]

theorem reads_name (place : Place) {names : List (String × α)} {name : String} {a : α}
    (h : names.lookup name = some a) : Reads (name? place names) (.str name) a := by
  intro j hj
  cases hj
  exact h

theorem reads_option (form : α → Json) {form? : Json → Option α} (hform : ∀ a, form a ≠ .null)
    (h : ∀ a, Reads form? (form a) a) (a? : Option α) :
    Reads (option? form?) (ofOption form a?) a? := by
  intro j hj
  cases a? with
  | none =>
    cases hj
    rfl
  | some a =>
    -- a value stays a value, so it is not taken for a missing one
    have hne : j ≠ .null := by
      rintro rfl
      exact hform a (Varies.eq_of_null hj)
    have hread := h a j hj
    cases j with
    | null => exact absurd rfl hne
    | _ => simp [option?, hread]

/-! ### Lists -/

theorem reads_list {form : α → Json} {item? : Json → Option α} (h : ∀ a, Reads item? (form a) a)
    (as : List α) : Reads (list? item?) (.arr (as.map form)) as := by
  have hitems : ∀ items, List.Forall₂ Varies (as.map form) items →
      items.mapM item? = some as := by
    induction as with
    | nil =>
      intro items hitems
      cases hitems
      rfl
    | cons a as ih =>
      intro items hitems
      cases hitems with
      | cons hfirst hrest => simp [List.mapM_cons, h a _ hfirst, ih _ hrest]
  intro j hj
  cases hj with
  | refl => exact hitems _ (List.forall₂_same.mpr fun j _ => .refl j)
  | arr hall => exact hitems _ hall

theorem reads_strings (ss : List String) : Reads strings? (strings ss) ss :=
  reads_list reads_str ss

end Leaves

/-! ### Members -/

/-- The members of the second list hold, under their names, variations of what those of the first hold. -/
def Has (all members : List (String × Json)) : Prop :=
  ∀ name j, members.lookup name = some j → ∃ j', all.lookup name = some j' ∧ Varies j j'

/-- A name that is there once is found. -/
theorem lookup_eq_some_of_unique {all : List (String × Json)} {name : String} {j : Json}
    (hm : (name, j) ∈ all) (hu : ∀ j', (name, j') ∈ all → j' = j) : all.lookup name = some j := by
  induction all with
  | nil => cases hm
  | cons m rest ih =>
    obtain ⟨key, k⟩ := m
    by_cases hk : name = key
    · subst hk
      rw [List.lookup_cons_self, hu k List.mem_cons_self]
    · have hrest : (name, j) ∈ rest := by simpa [hk] using hm
      rw [List.lookup_cons, beq_false_of_ne hk]
      exact ih hrest fun j' hj' => hu j' (List.mem_cons_of_mem _ hj')

/-- Taking out the members of one name does not change what the others hold. -/
theorem lookup_filter_of_ne {name tag : String} (h : name ≠ tag) (all : List (String × Json)) :
    (all.filter (·.1 != tag)).lookup name = all.lookup name := by
  induction all with
  | nil => rfl
  | cons m rest ih =>
    obtain ⟨key, k⟩ := m
    by_cases hk : key = tag
    · rw [List.filter_cons_of_neg (by simpa using hk), ih, List.lookup_cons,
        beq_false_of_ne (hk ▸ h)]
    · rw [List.filter_cons_of_pos (by simpa using hk), List.lookup_cons, List.lookup_cons, ih]

theorem exists_varied_of_lookup {members members' : List (String × Json)} {name : String} {j : Json}
    (hnames : members'.map Prod.fst = members.map Prod.fst)
    (hvalues : List.Forall₂ Varies (members.map Prod.snd) (members'.map Prod.snd))
    (hl : members.lookup name = some j) : ∃ j', (name, j') ∈ members' ∧ Varies j j' := by
  induction members generalizing members' with
  | nil => cases hl
  | cons m rest ih =>
    cases members' with
    | nil => simp at hnames
    | cons m' rest' =>
      obtain ⟨key, k⟩ := m
      obtain ⟨key', k'⟩ := m'
      obtain ⟨rfl, hrest⟩ : key' = key ∧ rest'.map Prod.fst = rest.map Prod.fst := by
        simpa using hnames
      cases hvalues with
      | cons hk hvalues =>
        -- members and their variants have the same keys, so they are looked up in step
        rw [List.lookup_cons] at hl
        by_cases hname : name = key'
        · subst hname
          rw [beq_self_eq_true] at hl
          cases hl
          exact ⟨k', List.mem_cons_self, hk⟩
        · rw [beq_false_of_ne hname] at hl
          obtain ⟨j', hmem, hv⟩ := ih hrest hvalues hl
          exact ⟨j', List.mem_cons_of_mem _ hmem, hv⟩

/-- A variation of an object is an object that has its members. -/
theorem Varies.exists_obj {members : List (String × Json)} {j : Json} (h : Varies (.obj members) j)
    (hnd : (members.map Prod.fst).Nodup) : ∃ all, j = .obj all ∧ Has all members := by
  cases h with
  | refl => exact ⟨members, rfl, fun name j hl => ⟨j, hl, .refl j⟩⟩
  | @obj _ members' further all hnames hvalues hnew _ hperm =>
    refine ⟨all, rfl, fun name j hl => ?_⟩
    obtain ⟨j', hmem, hv⟩ := exists_varied_of_lookup hnames hvalues hl
    have hname : name ∈ members.map Prod.fst := hnames ▸ List.mem_map.mpr ⟨_, hmem, rfl⟩
    refine ⟨j', lookup_eq_some_of_unique (hperm.mem_iff.mpr (List.mem_append_left _ hmem)) ?_, hv⟩
    -- the name stands once among the varied members and not among the further ones
    intro k hk
    rcases List.mem_append.mp (hperm.mem_iff.mp hk) with hk | hk
    · have hpair := List.inj_on_of_nodup_map (hnames ▸ hnd) hk hmem rfl
      exact (Prod.mk.inj hpair).2
    · exact absurd hname (hnew _ hk)

/-- A closed object with a number has no other variation. -/
theorem Varies.eq_of_closed {n : Int} {j : Json} (h : Varies (.obj [("value", .int n)]) j) :
    j = .obj [("value", .int n)] := by
  cases h with
  | refl => rfl
  | @obj _ members' further all hnames hvalues _ hclosed hperm =>
    -- a closed object has no further members, and one member leaves nothing to reorder
    obtain rfl := hclosed rfl
    rw [List.append_nil] at hperm
    match members', hnames, hvalues with
    | [(_, _)], hnames, .cons hv .nil =>
      cases hv
      obtain rfl : _ = "value" := by simpa using hnames
      rw [List.perm_singleton.mp hperm]

namespace Has

variable {α : Type} {all members : List (String × Json)} {j : Json} {a : α}

/-- A member that has to be there is read. -/
theorem field {form? : Json → Option α} (h : Has all members) (name : String)
    (hl : members.lookup name = some j) (hr : Reads form? j a) : field? all name form? = some a := by
  obtain ⟨j', hl', hv⟩ := h name j hl
  rw [field?, hl', Option.bind_some]
  exact hr j' hv

/-- A member that may be missing is read. -/
theorem optionalField {form? : Json → Option α} {a? : Option α} (h : Has all members)
    (name : String) (hl : members.lookup name = some j) (hr : Reads (option? form?) j a?) :
    optionalField? all name form? = some a? := by
  obtain ⟨j', hl', hv⟩ := h name j hl
  rw [optionalField?, hl']
  exact hr j' hv

end Has

/-- In a variation of a tagged record the tag is found, and when it has been taken out the other members
are there. -/
theorem Varies.exists_tagged {κ : Type} {members : List (String × Json)} {tag name : String} {j : Json}
    (h : Varies (.obj ((tag, .str name) :: members)) j) (place : Place) (kinds : List (String × κ))
    {kind : κ} (hk : kinds.lookup name = some kind) (hnd : (tag :: members.map Prod.fst).Nodup) :
    ∃ rest, tagged? place tag kinds j = some (kind, .obj rest) ∧ Has rest members := by
  obtain ⟨all, rfl, hall⟩ := h.exists_obj hnd
  refine ⟨all.filter (·.1 != tag), ?_, fun n j hl => ?_⟩
  · have hkind : field? all tag (kind? place kinds) = some kind := by
      refine hall.field tag List.lookup_cons_self fun j hj => ?_
      cases hj
      exact hk
    simp [tagged?, hkind]
  · have hne : n ≠ tag := by
      rintro rfl
      obtain ⟨front, back, rfl, -⟩ := List.lookup_eq_some_iff.mp hl
      simp at hnd
    obtain ⟨j', hl', hv⟩ := hall n j (by rwa [List.lookup_cons, beq_false_of_ne hne])
    exact ⟨j', (lookup_filter_of_ne hne all).trans hl', hv⟩

end BuildPlan.Json
