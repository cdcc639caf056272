import Mathlib
import ServingTuner.Proofs.VariantNames.Entity

/-!
# Histories of a registry

A history is a list of calls on one registry.  What numbering a payload and adopting a name keep of
one entity's names holds along a whole history (`invariant_run`): so the tables stay inverse.  Each
call but `clear` makes the tables of every entity grow (`call_grows`), and so a payload keeps the
name it has until the registry is cleared.  `run_names` is the guarantee that a user of the registry
relies on.
-/

namespace ServingTuner

/-- A call on a registry. -/
inductive NameCall where
  | assign (entity : String) (payload : Json) (isDefault : Bool)
  | adopt (entity name : String) (payload : Json)
  | clear

namespace VariantNames

variable {names : VariantNames}

/-- What a call answers, and the registry after it.  Only naming a payload answers a name. -/
def call (names : VariantNames) : NameCall → Except Failure (Option String) × VariantNames
  | .assign entity payload isDefault =>
    ((names.assign entity payload isDefault).1.map some,
      (names.assign entity payload isDefault).2)
  | .adopt entity name payload =>
    match names.adopt entity name payload with
    | .ok adopted => (.ok none, adopted)
    | .error failure => (.error failure, names)
  | .clear => (.ok none, empty)

/-- The registry after a history. -/
def run (names : VariantNames) (calls : List NameCall) : VariantNames :=
  calls.foldl (fun names c => (names.call c).2) names

/-- A history and then another one. -/
lemma run_append (names : VariantNames) (before after : List NameCall) :
    names.run (before ++ after) = (names.run before).run after := by
  rw [run, List.foldl_append]
  rfl

/-- A history that starts with a call. -/
lemma run_cons (names : VariantNames) (c : NameCall) (calls : List NameCall) :
    names.run (c :: calls) = (names.call c).2.run calls := rfl

/-! ### One call -/

/-- The names of an entity after those of one entity changed. -/
lemma entity_withEntity (names : VariantNames) (changed : String) (own : EntityNames)
    (entity : String) :
    (names.withEntity changed own).entity entity =
      if entity = changed then own else names.entity entity := by
  rw [VariantNames.entity, withEntity, Fields.get?_set]
  split_ifs <;> rfl

/-- A payload that has a name gets that name, and the registry stays as it is. -/
lemma assign_of_nameOf? {entity name : String} {payload : Json}
    (h : (names.entity entity).nameOf? (key payload) = some name) :
    names.assign entity payload false = (.ok name, names) := by
  simp [assign, h]

/-- A payload without a name is numbered. -/
lemma assign_of_new {entity : String} {payload : Json}
    (h : (names.entity entity).nameOf? (key payload) = none) :
    names.assign entity payload false =
      (((names.entity entity).number entity (key payload)).1,
        names.withEntity entity ((names.entity entity).number entity (key payload)).2) := by
  simp [assign, h]

/-- Naming a payload makes the tables of every entity grow. -/
lemma assign_grows (names : VariantNames) (entity : String) (payload : Json) (isDefault : Bool)
    (other : String) :
    (names.entity other).Grows ((names.assign entity payload isDefault).2.entity other) := by
  cases isDefault with
  | true => exact EntityNames.Grows.refl _
  | false =>
    cases h : (names.entity entity).nameOf? (key payload) with
    | some name =>
      rw [assign_of_nameOf? h]
      exact EntityNames.Grows.refl _
    | none =>
      rw [assign_of_new h]
      show (names.entity other).Grows ((names.withEntity entity _).entity other)
      rw [entity_withEntity]
      split_ifs with hother
      · rw [hother]
        exact EntityNames.number_grows _ _ _
      · exact EntityNames.Grows.refl _

/-- An adoption that succeeds changes the names of its entity only. -/
lemma adopt_eq_ok {entity name : String} {payload : Json} {adopted : VariantNames}
    (h : names.adopt entity name payload = .ok adopted) :
    ∃ own, (names.entity entity).adopt entity name (key payload) = .ok own ∧
      adopted = names.withEntity entity own := by
  rw [adopt] at h
  obtain ⟨own, hown, h⟩ := bind_eq_ok.mp h
  cases h
  exact ⟨own, hown, rfl⟩

/-- Everything that a call can do: it clears the registry, leaves it as it is, numbers a payload
that has no name yet, or adopts a name. -/
lemma call_cases (names : VariantNames) (c : NameCall) :
    c = .clear ∨ (names.call c).2 = names ∨
    (∃ entity payload, c = .assign entity payload false ∧
      (names.entity entity).nameOf? (key payload) = none ∧
      names.call c = (((names.entity entity).number entity (key payload)).1.map some,
        names.withEntity entity ((names.entity entity).number entity (key payload)).2)) ∨
    ∃ entity name payload own, c = .adopt entity name payload ∧
      (names.entity entity).adopt entity name (key payload) = .ok own ∧
      names.call c = (.ok none, names.withEntity entity own) := by
  cases c with
  | clear => exact Or.inl rfl
  | assign e p isDefault =>
    cases isDefault with
    | true => exact Or.inr (Or.inl rfl)
    | false =>
      rw [call]
      cases h : (names.entity e).nameOf? (key p) with
      | some name =>
        rw [assign_of_nameOf? h]
        exact Or.inr (Or.inl rfl)
      | none =>
        rw [assign_of_new h]
        exact Or.inr (Or.inr (Or.inl ⟨e, p, rfl, h, rfl⟩))
  | adopt e name p =>
    rw [call]
    cases h : names.adopt e name p with
    | error failure => exact Or.inr (Or.inl rfl)
    | ok adopted =>
      obtain ⟨own, hown, rfl⟩ := adopt_eq_ok h
      exact Or.inr (Or.inr (Or.inr ⟨e, name, p, own, rfl, hown, rfl⟩))

/-- A call keeps an invariant of all entities' names. -/
lemma invariant_call {P : String → EntityNames → Prop} (hP : EntityNames.IsInvariant P)
    (h : ∀ entity, P entity (names.entity entity)) (c : NameCall) (entity : String) :
    P entity ((names.call c).2.entity entity) := by
  obtain rfl | hsame | ⟨e, p, rfl, hnew, hcall⟩ | ⟨e, name, p, own, rfl, hown, hcall⟩ :=
    call_cases names c
  · exact hP.empty entity
  · rw [hsame]
    exact h entity
  · rw [hcall, entity_withEntity]
    split_ifs with hentity
    · rw [hentity]
      exact hP.number (h e) hnew
    · exact h entity
  · rw [hcall, entity_withEntity]
    split_ifs with hentity
    · rw [hentity]
      exact hP.adopt (h e) hown
    · exact h entity

/-- Every call but `clear` makes the tables of every entity grow. -/
lemma call_grows (names : VariantNames) {c : NameCall} (hc : c ≠ .clear) (entity : String) :
    (names.entity entity).Grows ((names.call c).2.entity entity) := by
  cases c with
  | assign e payload isDefault => exact assign_grows names e payload isDefault entity
  | adopt e name payload =>
    rw [call]
    cases h : names.adopt e name payload with
    | error failure => exact EntityNames.Grows.refl _
    | ok adopted =>
      obtain ⟨own, hown, rfl⟩ := adopt_eq_ok h
      obtain ⟨hfree, hsame⟩ := EntityNames.adopt_eq_ok hown
      show (names.entity entity).Grows ((names.withEntity e own).entity entity)
      rw [entity_withEntity]
      split_ifs with hentity
      · rw [hentity]
        exact Or.inr ⟨_, _, hfree, hsame⟩
      · exact EntityNames.Grows.refl _
  | clear => exact absurd rfl hc

/-- With room for one more name, naming a payload succeeds. -/
lemma assign_ok {entity : String} (hroom : (names.entity entity).size < UInt64.size)
    (payload : Json) (isDefault : Bool) :
    ∃ name, (names.assign entity payload isDefault).1 = .ok name := by
  cases isDefault with
  | true => exact ⟨_, rfl⟩
  | false =>
    cases h : (names.entity entity).nameOf? (key payload) with
    | some name => exact ⟨name, by rw [assign_of_nameOf? h]⟩
    | none =>
      obtain ⟨index, hindex, -⟩ := EntityNames.number_ok hroom h entity
      exact ⟨_, by rw [assign_of_new h, hindex]⟩

/-- The name that a payload is given stands for it from then on. -/
lemma nameOf?_assign {entity name : String} {payload : Json}
    (h : (names.assign entity payload false).1 = .ok name) :
    ((names.assign entity payload false).2.entity entity).nameOf? (key payload) = some name := by
  cases hname : (names.entity entity).nameOf? (key payload) with
  | some known =>
    rw [assign_of_nameOf? hname] at h ⊢
    obtain rfl : known = name := by simpa using h
    exact hname
  | none =>
    rw [assign_of_new hname] at h ⊢
    rw [entity_withEntity, if_pos rfl]
    exact EntityNames.nameOf?_number h

/-! ### Whole histories -/

/-- A history keeps an invariant of all entities' names. -/
lemma invariant_run {P : String → EntityNames → Prop} (hP : EntityNames.IsInvariant P)
    (h : ∀ entity, P entity (names.entity entity)) (calls : List NameCall) (entity : String) :
    P entity ((names.run calls).entity entity) := by
  induction calls generalizing names with
  | nil => exact h entity
  | cons c calls ih => exact ih (invariant_call hP h c)

/-- The tables of every entity are inverse to each other. -/
def Paired (names : VariantNames) : Prop := ∀ entity, (names.entity entity).Paired

/-- A registry without names has inverse tables. -/
lemma paired_empty : Paired empty := fun _ => EntityNames.paired_empty

/-- That the tables are inverse is an invariant. -/
lemma isInvariant_paired : EntityNames.IsInvariant fun _ names => names.Paired where
  empty _ := EntityNames.paired_empty
  number h _ := (EntityNames.number_grows _ _ _).paired h
  adopt h hadopt := EntityNames.Grows.paired (Or.inr ⟨_, _, EntityNames.adopt_eq_ok hadopt⟩) h

/-- A call keeps the tables inverse. -/
lemma Paired.call (h : names.Paired) (c : NameCall) : (names.call c).2.Paired :=
  invariant_call isInvariant_paired h c

/-- A history keeps the tables inverse. -/
lemma Paired.run (h : names.Paired) (calls : List NameCall) : (names.run calls).Paired :=
  invariant_run isInvariant_paired h calls

/-- A history without `clear` keeps the name of every payload that has one. -/
lemma nameOf?_run {calls : List NameCall} (hclear : .clear ∉ calls) {entity payload name : String}
    (h : (names.entity entity).nameOf? payload = some name) :
    ((names.run calls).entity entity).nameOf? payload = some name := by
  induction calls generalizing names with
  | nil => exact h
  | cons c calls ih =>
    rw [List.mem_cons, not_or] at hclear
    exact ih hclear.2 ((call_grows names (Ne.symm hclear.1) entity).nameOf? h)

/-- A call gives a name to a payload: the payload was named so, or the name was adopted for it. -/
def Gives (names : VariantNames) (c : NameCall) (entity : String) (payload : Json)
    (name : String) : Prop :=
  (c = .assign entity payload false ∧ (names.call c).1 = .ok (some name)) ∨
    (c = .adopt entity name payload ∧ (names.call c).1 = .ok none)

/-- A call for a name answers what naming the payload answers. -/
lemma call_assign_eq_ok_iff {entity name : String} {payload : Json} {isDefault : Bool} :
    (names.call (.assign entity payload isDefault)).1 = .ok (some name) ↔
      (names.assign entity payload isDefault).1 = .ok name := by
  rw [call]
  cases (names.assign entity payload isDefault).1 <;> simp [Except.map]

/-- A name that is given stands for its payload after the call. -/
lemma Gives.nameOf? {c : NameCall} {entity name : String} {payload : Json}
    (h : names.Gives c entity payload name) :
    ((names.call c).2.entity entity).nameOf? (key payload) = some name := by
  rcases h with ⟨rfl, hanswer⟩ | ⟨rfl, hanswer⟩
  · exact nameOf?_assign (call_assign_eq_ok_iff.mp hanswer)
  · rw [call] at hanswer ⊢
    cases hadopt : names.adopt entity name payload with
    | error failure => simp [hadopt] at hanswer
    | ok adopted =>
      obtain ⟨own, hown, rfl⟩ := adopt_eq_ok hadopt
      obtain ⟨-, hsame⟩ := EntityNames.adopt_eq_ok hown
      show ((names.withEntity entity own).entity entity).nameOf? (key payload) = some name
      rw [entity_withEntity, if_pos rfl, hsame.nameOf?, EntityNames.nameOf?_tie, if_pos rfl]

/-- A name that stands for a payload after a call did so before, or the call gave it to one of that
text. -/
lemma nameOf?_of_call {c : NameCall} {entity payload name : String}
    (h : ((names.call c).2.entity entity).nameOf? payload = some name) :
    c ≠ .clear ∧ ((names.entity entity).nameOf? payload = some name ∨
      ∃ other, names.Gives c entity other name ∧ key other = payload) := by
  obtain rfl | hsame | ⟨e, p, rfl, -, hcall⟩ | ⟨e, n, p, own, rfl, hown, hcall⟩ :=
    call_cases names c
  · cases h
  · rw [hsame] at h
    refine ⟨?_, Or.inl h⟩
    rintro rfl
    rw [← hsame] at h
    cases h
  · refine ⟨by simp, ?_⟩
    rw [hcall, entity_withEntity] at h
    split_ifs at h with hentity
    · subst hentity
      refine (EntityNames.nameOf?_of_number h).imp_right ?_
      rintro ⟨rfl, hname⟩
      exact ⟨p, Or.inl ⟨rfl, by rw [hcall, hname]; rfl⟩, rfl⟩
    · exact Or.inl h
  · refine ⟨by simp, ?_⟩
    rw [hcall, entity_withEntity] at h
    split_ifs at h with hentity
    · subst hentity
      rw [(EntityNames.adopt_eq_ok hown).2.nameOf?, EntityNames.nameOf?_tie] at h
      split_ifs at h with hpayload
      · obtain rfl := Option.some.inj h
        exact Or.inr ⟨p, Or.inr ⟨rfl, congrArg Prod.fst hcall⟩, hpayload.symm⟩
      · exact Or.inl h
    · exact Or.inl h

/-- A name that stands for a payload after a history was given to one of that text.  The first call
that gave it, after the last `clear`, did so when it did not stand for the payload yet. -/
lemma exists_gives {calls : List NameCall} {entity payload name : String}
    (h : ((empty.run calls).entity entity).nameOf? payload = some name) :
    ∃ before c after other, calls = before ++ c :: after ∧ .clear ∉ after ∧
      ((empty.run before).entity entity).nameOf? payload ≠ some name ∧
      (empty.run before).Gives c entity other name ∧ key other = payload := by
  induction calls using List.reverseRecOn with
  | nil => cases h
  | append_singleton calls c ih =>
    rw [run_append, run_cons] at h
    obtain ⟨hclear, hcases⟩ := nameOf?_of_call h
    by_cases hbefore : ((empty.run calls).entity entity).nameOf? payload = some name
    · obtain ⟨before, first, after, other, rfl, hafter, hnew, hgives, hkey⟩ := ih hbefore
      refine ⟨before, first, after ++ [c], other, by simp, ?_, hnew, hgives, hkey⟩
      simpa [hafter] using Ne.symm hclear
    · obtain ⟨other, hgives, hkey⟩ := hcases.resolve_left hbefore
      exact ⟨calls, c, [], other, rfl, by simp, hbefore, hgives, hkey⟩

/-- A call adds at most one name to an entity, and `clear` leaves none. -/
lemma size_call_le (names : VariantNames) (c : NameCall) (entity : String) :
    ((names.call c).2.entity entity).size ≤ (names.entity entity).size + 1 := by
  by_cases hc : c = .clear
  · rw [hc]
    exact Nat.zero_le _
  · exact (call_grows names hc entity).size_le

/-- A history adds at most one name for each of its calls. -/
lemma size_run_le (names : VariantNames) (calls : List NameCall) (entity : String) :
    ((names.run calls).entity entity).size ≤ (names.entity entity).size + calls.length := by
  induction calls generalizing names with
  | nil => exact le_rfl
  | cons c calls ih =>
    have hstep := size_call_le names c entity
    have hrest := ih (names.call c).2
    rw [run_cons, List.length_cons]
    omega

/-- After every history of a registry the two tables of each entity are inverse to each other.
While an entity has fewer than `2 ^ 64` names, naming a payload succeeds; and a name that some call
gave to a payload, with no `clear` since then, is the name of exactly the payloads of its canonical
text. -/
theorem run_names (calls : List NameCall)
    (hroom : ∀ entity, ((empty.run calls).entity entity).size < UInt64.size) :
    (∀ entity name payload,
      ((empty.run calls).entity entity).payloadOf? name = some payload ↔
        ((empty.run calls).entity entity).nameOf? payload = some name) ∧
    (∀ entity payload isDefault, ∃ name,
      ((empty.run calls).assign entity payload isDefault).1 = .ok name) ∧
    ∀ before c after, calls = before ++ c :: after → .clear ∉ after →
      ∀ entity payload name, (empty.run before).Gives c entity payload name →
        ∀ other, ∃ given, ((empty.run calls).assign entity other false).1 = .ok given ∧
          (given = name ↔ key other = key payload) := by
  have hpaired : (empty.run calls).Paired := paired_empty.run calls
  refine ⟨hpaired, fun entity => assign_ok (hroom entity), ?_⟩
  intro before c after hcalls hclear entity payload name hgives other
  have hnamed : ((empty.run calls).entity entity).nameOf? (key payload) = some name := by
    rw [hcalls, run_append, run_cons]
    exact nameOf?_run hclear hgives.nameOf?
  obtain ⟨given, hgiven⟩ := assign_ok (hroom entity) other false
  refine ⟨given, hgiven, ?_, ?_⟩
  · -- Two payloads of one name would contradict the inverse tables, now that both are named.
    rintro rfl
    have hbefore : ((empty.run calls).assign entity other false).2.Paired :=
      hpaired.call (.assign entity other false)
    have hkept := (assign_grows (empty.run calls) entity other false entity).nameOf? hnamed
    have hother := nameOf?_assign hgiven
    rw [← hbefore entity] at hkept hother
    rw [hkept] at hother
    exact (Option.some.inj hother).symm
  · intro hkey
    rw [← hkey] at hnamed
    rw [assign_of_nameOf? hnamed] at hgiven
    exact (Except.ok.inj hgiven).symm

/-- A number stays with its payload when a later number is adopted for another one, and a third
payload gets a name of its own. -/
theorem run_names_after_adoption :
    let calls : List NameCall :=
      [.assign "bert" (.obj [("max_batch_size", .int 4)]) false,
        .adopt "bert" "bert_config_7" (.obj [("max_batch_size", .int 8)])]
    (∀ entity, ((empty.run calls).entity entity).size < UInt64.size) ∧
      ∃ given, ((empty.run calls).assign "bert" (.obj [("max_batch_size", .int 2)]) false).1 =
          .ok given ∧
        (given = VariantName.numbered "bert" 0 ↔
          key (.obj [("max_batch_size", .int 2)]) = key (.obj [("max_batch_size", .int 4)])) ∧
        key (.obj [("max_batch_size", .int 2)]) ≠ key (.obj [("max_batch_size", .int 4)]) ∧
        given ≠ VariantName.numbered "bert" 0 := by
  intro calls
  have hroom : ∀ entity, ((empty.run calls).entity entity).size < UInt64.size := by
    intro entity
    refine lt_of_le_of_lt (size_run_le empty calls entity) ?_
    show 0 + 2 < UInt64.size
    decide
  have hgives : (empty.run []).Gives
      (.assign "bert" (.obj [("max_batch_size", .int 4)]) false) "bert"
      (.obj [("max_batch_size", .int 4)]) (VariantName.numbered "bert" 0) :=
    Or.inl ⟨rfl, rfl⟩
  have hkeys : key (.obj [("max_batch_size", .int 2)]) ≠
      key (.obj [("max_batch_size", .int 4)]) := by decide
  obtain ⟨-, -, hnames⟩ := run_names calls hroom
  obtain ⟨given, hgiven, hiff⟩ := hnames [] _ _ rfl (by simp) _ _ _ hgives _
  exact ⟨hroom, given, hgiven, hiff, hkeys, fun hname => hkeys (hiff.mp hname)⟩

end VariantNames

end ServingTuner
