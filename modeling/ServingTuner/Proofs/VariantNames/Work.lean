import Mathlib
import ServingTuner.Naming
import ServingTuner.Proofs.VariantNames.History

/-!
# Work that names variants

What is known of naming work has three parts (`Naming.Yields`).  Whatever comes of it, it has done
nothing to the registry but name payloads (`VariantNames.Assigned`); if it gave an answer, then
something holds of that in the registry it left; and if no entity has run out of names by then, it
gave one.  Names are kept while others are assigned, so what was learnt of a step still holds at the
end of the work, and `Yields.bind` puts two steps together.
-/

namespace ServingTuner

namespace VariantNames

variable {names after later : VariantNames} {onlyDefaults isDefault : Bool}

/-! ### Registries that only named payloads -/

/-- Every entity has fewer names than there are numbers. -/
def HasRoom (names : VariantNames) : Prop := ∀ entity, (names.entity entity).size < UInt64.size

/-- There is room if there is in every entity that has names. -/
lemma hasRoom_of_entities (h : ∀ own ∈ Fields.values names.entities, own.size < UInt64.size) :
    names.HasRoom := by
  intro entity
  rw [VariantNames.entity]
  cases hown : Fields.get? names.entities entity with
  | none => decide
  | some own => exact h own (Fields.mem_values_of_get? hown)

/-- The second registry comes from the first one by naming payloads, all of them as defaults if
`onlyDefaults` is set. -/
def Assigned (onlyDefaults : Bool) (names after : VariantNames) : Prop :=
  ∃ calls : List NameCall,
    (∀ c ∈ calls, ∃ entity payload isDefault, c = .assign entity payload isDefault ∧
      (onlyDefaults = true → isDefault = true)) ∧
    names.run calls = after

/-- Nothing need be named. -/
lemma Assigned.refl (onlyDefaults : Bool) (names : VariantNames) :
    names.Assigned onlyDefaults names :=
  ⟨[], by simp, rfl⟩

/-- Payloads can be named in two goes. -/
lemma Assigned.trans (h : names.Assigned onlyDefaults after)
    (h' : after.Assigned onlyDefaults later) : names.Assigned onlyDefaults later := by
  obtain ⟨calls, hcalls, rfl⟩ := h
  obtain ⟨others, hothers, rfl⟩ := h'
  refine ⟨calls ++ others, ?_, run_append names calls others⟩
  intro c hc
  rcases List.mem_append.mp hc with hc | hc
  · exact hcalls c hc
  · exact hothers c hc

/-- Naming only defaults is naming payloads. -/
lemma Assigned.weaken (h : names.Assigned onlyDefaults after) : names.Assigned false after := by
  obtain ⟨calls, hcalls, rfl⟩ := h
  refine ⟨calls, ?_, rfl⟩
  intro c hc
  obtain ⟨entity, payload, isDefault, hassign, -⟩ := hcalls c hc
  exact ⟨entity, payload, isDefault, hassign, by simp⟩

/-- Naming a payload is what it says. -/
lemma assigned_assign (names : VariantNames) (entity : String) (payload : Json)
    (isDefault : Bool) :
    names.Assigned isDefault (names.assign entity payload isDefault).2 := by
  refine ⟨[.assign entity payload isDefault], ?_, rfl⟩
  intro c hc
  exact ⟨entity, payload, isDefault, List.mem_singleton.mp hc, id⟩

/-- A property of registries that naming a payload keeps is kept by naming any number of them. -/
lemma Assigned.induction {P : VariantNames → Prop} (h : names.Assigned onlyDefaults after)
    (hstart : P names)
    (hstep : ∀ names entity payload isDefault, (onlyDefaults = true → isDefault = true) →
      P names → P (names.assign entity payload isDefault).2) :
    P after := by
  obtain ⟨calls, hcalls, rfl⟩ := h
  induction calls generalizing names with
  | nil => exact hstart
  | cons c calls ih =>
    obtain ⟨entity, payload, isDefault, rfl, hdefault⟩ := hcalls _ List.mem_cons_self
    exact ih (hstep names entity payload isDefault hdefault hstart)
      fun c hc => hcalls c (List.mem_cons_of_mem _ hc)

/-- Naming payloads keeps the names that others have. -/
lemma Assigned.nameOf? (h : names.Assigned onlyDefaults after) {entity payload name : String}
    (hname : (names.entity entity).nameOf? payload = some name) :
    (after.entity entity).nameOf? payload = some name := by
  refine h.induction (P := fun names => (names.entity entity).nameOf? payload = some name) hname ?_
  intro names e p isDefault _ hkept
  exact (assign_grows names e p isDefault entity).nameOf? hkept

/-- If there is room for more names after payloads were named, then there was before. -/
lemma Assigned.hasRoom (h : names.Assigned onlyDefaults after) (hroom : after.HasRoom) :
    names.HasRoom := by
  intro entity
  have hsize : (names.entity entity).size ≤ (after.entity entity).size := by
    refine h.induction (P := fun later => (names.entity entity).size ≤ (later.entity entity).size)
      le_rfl ?_
    intro later e p isDefault _ hle
    exact hle.trans (assign_grows later e p isDefault entity).le_size
  exact lt_of_le_of_lt hsize (hroom entity)

/-- Naming defaults leaves a registry as it is. -/
lemma Assigned.eq_of_default (h : names.Assigned true after) : after = names := by
  refine h.induction (P := fun later => later = names) rfl ?_
  intro later entity payload isDefault hdefault heq
  rw [hdefault rfl]
  exact heq

/-- Naming payloads keeps the tables inverse. -/
lemma Assigned.paired (h : names.Assigned onlyDefaults after) (hpaired : names.Paired) :
    after.Paired := by
  refine h.induction (P := Paired) hpaired ?_
  intro names entity payload isDefault _ hpaired other
  exact (assign_grows names entity payload isDefault other).paired (hpaired other)

/-- Every name is a numbered one. -/
def Numbered (names : VariantNames) : Prop :=
  ∀ entity payload name, (names.entity entity).nameOf? payload = some name →
    ∃ index, name = VariantName.numbered entity index

/-- A registry without names has no others than numbered ones. -/
lemma numbered_empty : Numbered empty := by
  intro entity payload name hname
  cases hname

/-- Naming a payload adds a numbered name at most. -/
lemma Numbered.assign (h : names.Numbered) (entity : String) (payload : Json) (isDefault : Bool) :
    (names.assign entity payload isDefault).2.Numbered := by
  intro e p name hname
  cases isDefault with
  | true => exact h e p name hname
  | false =>
    cases hknown : (names.entity entity).nameOf? (key payload) with
    | some known =>
      rw [assign_of_nameOf? hknown] at hname
      exact h e p name hname
    | none =>
      rw [assign_of_new hknown, entity_withEntity] at hname
      split_ifs at hname with hentity
      · rw [hentity]
        rcases EntityNames.eq_numbered_or_of_number hname with hnew | hold
        · exact hnew
        · exact h entity p name hold
      · exact h e p name hname

/-- Naming payloads adds numbered names only. -/
lemma Assigned.numbered (h : names.Assigned onlyDefaults after) (hnumbered : names.Numbered) :
    after.Numbered :=
  h.induction (P := Numbered) hnumbered fun _ entity payload isDefault _ hnames =>
    hnames.assign entity payload isDefault

/-! ### The names of variants -/

/-- The name that a payload has as a variant of an entity. -/
def IsNamed (names : VariantNames) (isDefault : Bool) (entity : String) (payload : Json)
    (name : String) : Prop :=
  if isDefault then name = VariantName.standard entity
  else (names.entity entity).nameOf? (key payload) = some name

/-- A payload keeps its name while others are named. -/
lemma IsNamed.mono {entity name : String} {payload : Json}
    (hname : names.IsNamed isDefault entity payload name) (h : names.Assigned onlyDefaults after) :
    after.IsNamed isDefault entity payload name := by
  cases isDefault with
  | true => exact hname
  | false => exact h.nameOf? hname

/-- A name that is assigned is the payload's name from then on. -/
lemma isNamed_assign {entity name : String} {payload : Json}
    (h : (names.assign entity payload isDefault).1 = .ok name) :
    (names.assign entity payload isDefault).2.IsNamed isDefault entity payload name := by
  cases isDefault with
  | true => exact (Except.ok.inj h).symm
  | false => exact nameOf?_assign h

end VariantNames

namespace Naming

open VariantNames

variable {α β : Type} {isDefault : Bool} {work : Naming α}

/-! ### What work yields -/

/-- The work only names payloads, and for every answer that it gives `Q` holds in the registry then.
Unless an entity has run out of names after it, it gives an answer.  Naming defaults needs no
room. -/
structure Yields (isDefault : Bool) (work : Naming α) (Q : VariantNames → α → Prop) : Prop where
  assigned : ∀ names, Assigned isDefault names (work.outcome names).2
  holds : ∀ names a, (work.outcome names).1 = .ok a → Q (work.outcome names).2 a
  succeeds : ∀ names, (isDefault = false → (work.outcome names).2.HasRoom) →
    ∃ a, (work.outcome names).1 = .ok a

/-- Unless an entity has run out of names, work gives an answer with the property that it yields. -/
lemma Yields.answers {Q : VariantNames → α → Prop} (h : work.Yields isDefault Q)
    (names : VariantNames) (hroom : isDefault = false → (work.outcome names).2.HasRoom) :
    ∃ a, (work.outcome names).1 = .ok a ∧ Q (work.outcome names).2 a := by
  obtain ⟨a, hanswer⟩ := h.succeeds names hroom
  exact ⟨a, hanswer, h.holds names a hanswer⟩

/-- Work that yields an answer with one property yields one with any weaker property. -/
lemma Yields.imp {P Q : VariantNames → α → Prop} (h : work.Yields isDefault P)
    (himp : ∀ names a, P names a → Q names a) : work.Yields isDefault Q := by
  refine ⟨h.assigned, ?_, h.succeeds⟩
  intro names a hanswer
  exact himp _ a (h.holds names a hanswer)

/-- Work without a step yields its value. -/
lemma yields_pure (isDefault : Bool) (a : α) :
    (pure a : Naming α).Yields isDefault fun _ b => b = a := by
  constructor
  · intro names
    exact Assigned.refl isDefault names
  · intro names b hanswer
    exact (Except.ok.inj hanswer).symm
  · intro names _
    exact ⟨a, rfl⟩

/-- Naming a payload yields its name. -/
lemma yields_assign (entity : String) (payload : Json) (isDefault : Bool) :
    (Naming.assign entity payload isDefault).Yields isDefault fun names name =>
      names.IsNamed isDefault entity payload name := by
  constructor
  · intro names
    exact assigned_assign names entity payload isDefault
  · intro names name hname
    exact isNamed_assign hname
  · intro names hroom
    cases isDefault with
    | true => exact ⟨_, rfl⟩
    | false =>
      have hbefore := (assigned_assign names entity payload false).hasRoom (hroom rfl)
      exact assign_ok (hbefore entity) payload false

/-- Work in two steps yields what the second step does, and what the first one yielded still holds
then. -/
lemma Yields.bind {next : α → Naming β} {P : VariantNames → α → Prop}
    {R : α → VariantNames → β → Prop} (hwork : work.Yields isDefault P)
    (hlasts : ∀ {names after : VariantNames} {a : α},
      names.Assigned isDefault after → P names a → P after a)
    (hnext : ∀ a, (next a).Yields isDefault (R a)) :
    (work >>= next).Yields isDefault fun names b => ∃ a, P names a ∧ R a names b := by
  constructor
  · intro names
    have hfirst := hwork.assigned names
    rw [outcome_bind]
    rcases hout : work.outcome names with ⟨_ | a, middle⟩
    · rwa [hout] at hfirst
    · rw [hout] at hfirst
      exact hfirst.trans ((hnext a).assigned middle)
  · intro names b hanswer
    have hholds := hwork.holds names
    rw [outcome_bind] at hanswer ⊢
    rcases hout : work.outcome names with ⟨_ | a, middle⟩
    · rw [hout] at hanswer
      cases hanswer
    · rw [hout] at hanswer hholds
      have hP := hlasts ((hnext a).assigned middle) (hholds a rfl)
      exact ⟨a, hP, (hnext a).holds middle b hanswer⟩
  · intro names hroom
    have hsucceeds := hwork.succeeds names
    rw [outcome_bind] at hroom ⊢
    rcases hout : work.outcome names with ⟨_ | a, middle⟩
    · -- A failure of the first step would leave room, and with room there is none.
      rw [hout] at hroom hsucceeds
      obtain ⟨a, ha⟩ := hsucceeds hroom
      cases ha
    · rw [hout] at hroom
      exact (hnext a).succeeds middle hroom

end Naming

end ServingTuner
