import Mathlib
import ServingTuner.Proofs.VariantNames.History

/-!
# Adopted names

To adopt a name for a payload fails exactly if one of them belongs to another one, and then the
registry stays as it was; to adopt a binding that exists changes nothing.  Both rest on the tables
being sorted, for only then does writing what is there already give the same table
(`Fields.set_of_get?`).  The names of an entity that carry a number of 64 bits are counted
(`Sound.numbered`), whether they were made up or adopted.
-/

namespace ServingTuner

/-- To put the value there that is there already gives the same fields. -/
lemma Fields.set_of_get? {β : Type} {fields : Fields β} (h : Sorted fields) {key : String}
    {value : β} (hget : get? fields key = some value) : set key value fields = fields := by
  induction fields with
  | nil => cases hget
  | cons pair fields ih =>
    obtain ⟨k, v⟩ := pair
    obtain ⟨hfirst, hrest⟩ := List.pairwise_cons.mp h
    rw [get?] at hget
    rw [set]
    split_ifs at hget ⊢ with hkey hlt
    · rw [hkey, Option.some.inj hget]
    · exact absurd (hfirst key (mem_keys_of_get? hget)) (String.lt_asymm hlt)
    · rw [ih hrest hget]

namespace EntityNames

variable {names adopted : EntityNames} {entity name payload : String}

/-! ### Names that are counted -/

/-- The names that stand for payloads and carry a number of 64 bits. -/
def numberedNames (names : EntityNames) (entity : String) : Set String :=
  { name | names.isBound name = true ∧ ∃ n < UInt64.size, VariantName.Carries entity name n }

/-- There are finitely many of them. -/
lemma finite_numberedNames (names : EntityNames) (entity : String) :
    (names.numberedNames entity).Finite := by
  refine (List.finite_toSet (Fields.keys names.payloadByName)).subset ?_
  rintro name ⟨hbound, -⟩
  exact mem_keys_of_isBound hbound

/-- A name that is tied to a payload is one of them if it carries a number. -/
lemma numberedNames_tie_of_carries (names : EntityNames) {name : String} (payload : String)
    (h : ∃ n < UInt64.size, VariantName.Carries entity name n) :
    (names.tie name payload).numberedNames entity = insert name (names.numberedNames entity) := by
  ext other
  by_cases hother : other = name
  · simp [numberedNames, isBound, hother, h]
  · simp [numberedNames, isBound, hother]

/-- A name that carries no number adds nothing to them. -/
lemma numberedNames_tie_of_not_carries (names : EntityNames) {name : String} (payload : String)
    (h : ¬ ∃ n < UInt64.size, VariantName.Carries entity name n) :
    (names.tie name payload).numberedNames entity = names.numberedNames entity := by
  ext other
  by_cases hother : other = name
  · simp only [numberedNames, Set.mem_ofPred_eq, hother, h, and_false]
  · simp [numberedNames, isBound, hother]

/-- A free name that carries a number adds one to their number. -/
lemma ncard_numberedNames_tie (hfree : names.payloadOf? name = none)
    (h : ∃ n < UInt64.size, VariantName.Carries entity name n) :
    ((names.tie name payload).numberedNames entity).ncard =
      (names.numberedNames entity).ncard + 1 := by
  rw [numberedNames_tie_of_carries names payload h]
  refine Set.ncard_insert_of_notMem ?_ (finite_numberedNames names entity)
  rintro ⟨hbound, -⟩
  simp [isBound, hfree] at hbound

/-! ### Sound names -/

/-- The tables of an entity are inverse and sorted, and the names that carry a number are counted.
-/
structure Sound (entity : String) (names : EntityNames) : Prop where
  paired : names.Paired
  nameByPayload : Fields.Sorted names.nameByPayload
  payloadByName : Fields.Sorted names.payloadByName
  numbered : names.numbered = (names.numberedNames entity).ncard

/-- An entity without names has counted none. -/
lemma sound_empty (entity : String) : Sound entity {} := by
  refine ⟨paired_empty, Fields.sorted_nil, Fields.sorted_nil, ?_⟩
  have hnone : numberedNames {} entity = ∅ := by
    ext name
    simp [numberedNames, isBound, payloadOf?, Fields.get?]
  rw [hnone, Set.ncard_empty]

/-- To tie a name to the payload that it stands for already changes nothing. -/
lemma Sound.tie_eq (h : names.Sound entity) (hbound : names.payloadOf? name = some payload) :
    names.tie name payload = names := by
  rw [tie, Fields.set_of_get? h.payloadByName hbound,
    Fields.set_of_get? h.nameByPayload ((h.paired name payload).mp hbound)]

/-- Numbering a payload that has no name keeps an entity's names sound. -/
lemma Sound.number (h : names.Sound entity) (hnew : names.nameOf? payload = none) :
    (names.number entity payload).2.Sound entity := by
  have hpaired := (number_grows names entity payload).paired h.paired
  obtain ⟨index, -, ⟨hfree, heq⟩ | ⟨-, failure, heq⟩⟩ := number_cases names entity payload
  · have hcarries : ∃ n < UInt64.size,
        VariantName.Carries entity (VariantName.numbered entity index) n :=
      ⟨index.toNat, index.toNat_lt, VariantName.carries_numbered entity index⟩
    have hunbound := hfree.payloadOf?_eq_none h.paired hnew
    rw [heq] at hpaired ⊢
    refine ⟨hpaired, h.nameByPayload.set _ _, h.payloadByName.set _ _, ?_⟩
    show names.numbered + 1 =
      ((names.tie (VariantName.numbered entity index) payload).numberedNames entity).ncard
    rw [ncard_numberedNames_tie hunbound hcarries, h.numbered]
  · rw [heq] at hpaired ⊢
    exact ⟨hpaired, h.nameByPayload, h.payloadByName, h.numbered⟩

/-- Adopting a name keeps an entity's names sound. -/
lemma Sound.adopt (h : names.Sound entity)
    (hadopt : names.adopt entity name payload = .ok adopted) : adopted.Sound entity := by
  obtain ⟨-, failure, herror, -⟩ | ⟨hbound, -, hok⟩ | ⟨hunbound, hfree, hok⟩ :=
    adopt_cases names entity name payload
  · rw [herror] at hadopt
    cases hadopt
  · rw [hok, h.tie_eq hbound] at hadopt
    cases hadopt
    exact h
  · rw [hok] at hadopt
    cases hadopt
    have hpaired := h.paired.tie hfree
    cases hindex : VariantName.indexOf? entity name with
    | none =>
      refine ⟨hpaired, h.nameByPayload.set _ _, h.payloadByName.set _ _, ?_⟩
      show names.numbered = ((names.tie name payload).numberedNames entity).ncard
      rw [numberedNames_tie_of_not_carries names payload
        (VariantName.indexOf?_eq_none_iff.mp hindex), h.numbered]
    | some index =>
      have hcarries : ∃ n < UInt64.size, VariantName.Carries entity name n :=
        ⟨index.toNat, index.toNat_lt, VariantName.indexOf?_eq_some_iff.mp hindex⟩
      refine ⟨hpaired, h.nameByPayload.set _ _, h.payloadByName.set _ _, ?_⟩
      show names.numbered + 1 = ((names.tie name payload).numberedNames entity).ncard
      rw [ncard_numberedNames_tie hunbound hcarries, h.numbered]

/-- Soundness is an invariant. -/
lemma isInvariant_sound : IsInvariant Sound := ⟨sound_empty, Sound.number, Sound.adopt⟩

end EntityNames

namespace VariantNames

variable {names : VariantNames} {entity name : String} {payload : Json}

/-! ### Sound registries -/

/-- The entities of a registry are sorted, and the names of each are sound. -/
structure Sound (names : VariantNames) : Prop where
  entities : Fields.Sorted names.entities
  entity : ∀ entity, (names.entity entity).Sound entity

/-- A registry without names is sound. -/
lemma sound_empty : Sound empty := ⟨Fields.sorted_nil, EntityNames.sound_empty⟩

/-- A call keeps a registry sound. -/
lemma Sound.call (h : names.Sound) (c : NameCall) : (names.call c).2.Sound := by
  refine ⟨?_, invariant_call EntityNames.isInvariant_sound h.entity c⟩
  obtain rfl | hsame | ⟨e, p, rfl, -, hcall⟩ | ⟨e, n, p, own, rfl, -, hcall⟩ := call_cases names c
  · exact Fields.sorted_nil
  · rw [hsame]
    exact h.entities
  · rw [hcall]
    exact h.entities.set _ _
  · rw [hcall]
    exact h.entities.set _ _

/-- A history keeps a registry sound. -/
lemma Sound.run (h : names.Sound) (calls : List NameCall) : (names.run calls).Sound := by
  induction calls generalizing names with
  | nil => exact h
  | cons c calls ih => exact ih (h.call c)

/-- To look up the names of an entity that has some adds nothing to the registry. -/
lemma Sound.withEntity_self (h : names.Sound) (hentity : names.entity entity ≠ {}) :
    names.withEntity entity (names.entity entity) = names := by
  rw [VariantNames.entity] at hentity ⊢
  cases hown : Fields.get? names.entities entity with
  | none =>
    rw [hown] at hentity
    exact absurd rfl hentity
  | some own => rw [VariantNames.withEntity, Option.getD_some, Fields.set_of_get? h.entities hown]

/-! ### Adopting in a registry -/

/-- One of a name and a payload belongs to another one within an entity. -/
def Conflicts (names : VariantNames) (entity name : String) (payload : Json) : Prop :=
  (∃ other, (names.entity entity).payloadOf? name = some other ∧ other ≠ key payload) ∨
    ∃ holder, (names.entity entity).nameOf? (key payload) = some holder ∧ holder ≠ name

/-- A name cannot be bound to a payload exactly if there is a conflict. -/
lemma not_bindable_iff :
    ¬ (names.entity entity).Bindable name (key payload) ↔ names.Conflicts entity name payload := by
  constructor
  · intro hblocked
    by_contra hnone
    rw [Conflicts, not_or] at hnone
    refine hblocked ⟨?_, ?_⟩
    · intro other hother
      by_contra hne
      exact hnone.1 ⟨other, hother, hne⟩
    · intro holder hholder
      by_contra hne
      exact hnone.2 ⟨holder, hholder, hne⟩
  · rintro (⟨other, hother, hne⟩ | ⟨holder, hholder, hne⟩) hfree
    · exact hne (hfree.free_name other hother)
    · exact hne (hfree.free_payload holder hholder)

/-- A conflict is between names that the entity has. -/
lemma Conflicts.entity_ne (h : names.Conflicts entity name payload) : names.entity entity ≠ {} := by
  intro hempty
  rw [Conflicts, hempty] at h
  rcases h with ⟨other, hother, -⟩ | ⟨holder, hholder, -⟩
  · cases hother
  · cases hholder

/-- An adoption fails in a conflict, and only then. -/
lemma call_adopt_cases (names : VariantNames) (entity name : String) (payload : Json) :
    (names.Conflicts entity name payload ∧ ∃ failure,
      names.call (.adopt entity name payload) = (.error failure, names) ∧
        failure.code = .namingCollision) ∨
    (¬ names.Conflicts entity name payload ∧
      (names.call (.adopt entity name payload)).1 = .ok none) := by
  rw [← not_bindable_iff, not_not, call, adopt]
  obtain ⟨hblocked, failure, herror, hcode⟩ | ⟨-, hfree, hok⟩ | ⟨-, hfree, hok⟩ :=
    EntityNames.adopt_cases (names.entity entity) entity name (key payload)
  · rw [herror]
    exact Or.inl ⟨hblocked, failure, rfl, hcode⟩
  · rw [hok]
    exact Or.inr ⟨hfree, rfl⟩
  · rw [hok]
    exact Or.inr ⟨hfree, rfl⟩

/-- To adopt a binding that exists changes nothing. -/
lemma Sound.call_adopt_of_bound (h : names.Sound)
    (hbound : (names.entity entity).payloadOf? name = some (key payload)) :
    names.call (.adopt entity name payload) = (.ok none, names) := by
  have hentity : names.entity entity ≠ {} := by
    intro hempty
    rw [hempty] at hbound
    cases hbound
  have hown : (names.entity entity).adopt entity name (key payload) =
      .ok (names.entity entity) := by
    obtain ⟨hblocked, -⟩ | ⟨-, -, hok⟩ | ⟨hunbound, -⟩ :=
      EntityNames.adopt_cases (names.entity entity) entity name (key payload)
    · refine absurd ⟨?_, ?_⟩ hblocked
      · intro other hother
        exact Option.some.inj (hother.symm.trans hbound)
      · intro holder hholder
        rw [((h.entity entity).paired _ _).mp hbound] at hholder
        exact (Option.some.inj hholder).symm
    · rw [hok, (h.entity entity).tie_eq hbound]
    · rw [hbound] at hunbound
      cases hunbound
  rw [VariantNames.call, VariantNames.adopt, hown]
  show ((.ok none, names.withEntity entity (names.entity entity)) :
    Except Failure (Option String) × VariantNames) = _
  rw [h.withEntity_self hentity]

/-- After every history of a registry, to adopt a name for a payload fails exactly if one of them
belongs to another one within the entity.  The failure is a collision of names, and it leaves the
registry as it was; it does not even add the entity, which is there already.  To adopt a binding
that exists changes nothing, and neither does it to repeat an adoption at any time before the
registry is cleared.  The variants of an entity that are counted are the names that carry a number
of 64 bits. -/
theorem run_adopt (calls : List NameCall) (entity name : String) (payload : Json) :
    let names := empty.run calls
    let adoption := NameCall.adopt entity name payload
    ((∃ failure, (names.call adoption).1 = .error failure) ↔ names.Conflicts entity name payload) ∧
    (∀ failure, (names.call adoption).1 = .error failure →
      failure.code = .namingCollision ∧ (names.call adoption).2 = names ∧
        names.withEntity entity (names.entity entity) = names) ∧
    ((names.entity entity).payloadOf? name = some (key payload) →
      names.call adoption = (.ok none, names)) ∧
    (∀ later, (names.call adoption).1 = .ok none → .clear ∉ later →
      ((names.call adoption).2.run later).call adoption =
        (.ok none, (names.call adoption).2.run later)) ∧
    names.count entity = ((names.entity entity).numberedNames entity).ncard := by
  intro names adoption
  have hsound : names.Sound := sound_empty.run calls
  refine ⟨?_, ?_, hsound.call_adopt_of_bound, ?_, (hsound.entity entity).numbered⟩
  · obtain ⟨hconflicts, failure, hcall, -⟩ | ⟨hfree, hok⟩ :=
      call_adopt_cases names entity name payload
    · exact iff_of_true ⟨failure, congrArg Prod.fst hcall⟩ hconflicts
    · refine iff_of_false ?_ hfree
      rintro ⟨failure, hfailure⟩
      rw [hok] at hfailure
      cases hfailure
  · intro failure hfailure
    obtain ⟨hconflicts, cause, hcall, hcode⟩ | ⟨-, hok⟩ :=
      call_adopt_cases names entity name payload
    · rw [hcall] at hfailure ⊢
      obtain rfl := Except.error.inj hfailure
      exact ⟨hcode, rfl, hsound.withEntity_self hconflicts.entity_ne⟩
    · rw [hok] at hfailure
      cases hfailure
  · intro later hok hclear
    have hgives : names.Gives adoption entity payload name := Or.inr ⟨rfl, hok⟩
    have hafter : ((names.call adoption).2.run later).Sound := (hsound.call adoption).run later
    have hnamed := nameOf?_run hclear hgives.nameOf?
    exact hafter.call_adopt_of_bound (((hafter.entity entity).paired _ _).mpr hnamed)

/-- A name with a zero in front of its number is adopted once.  To adopt it again changes nothing,
even after another payload was numbered, and to adopt it for another payload fails. -/
theorem run_adopt_of_padded :
    let small : Json := .obj [("max_batch_size", .int 4)]
    let large : Json := .obj [("max_batch_size", .int 8)]
    let names := empty.run [.adopt "bert" "bert_config_07" small]
    let later : List NameCall := [.assign "bert" large false]
    ((names.call (.adopt "bert" "bert_config_07" large)).1 =
        .error (.nameTaken "bert_config_07") ∧
      (names.call (.adopt "bert" "bert_config_07" large)).2 = names) ∧
    ((names.entity "bert").payloadOf? "bert_config_07" = some (key small) ∧
      names.call (.adopt "bert" "bert_config_07" small) = (.ok none, names)) ∧
    ((names.call (.adopt "bert" "bert_config_07" small)).1 = .ok none ∧ .clear ∉ later ∧
      (((names.call (.adopt "bert" "bert_config_07" small)).2.run later).call
        (.adopt "bert" "bert_config_07" small)).1 = .ok none) ∧
    names.count "bert" = 1 ∧ ((names.entity "bert").numberedNames "bert").ncard = 1 := by
  intro small large names later
  have hfailure : (names.call (.adopt "bert" "bert_config_07" large)).1 =
      .error (.nameTaken "bert_config_07") := rfl
  have hbound : (names.entity "bert").payloadOf? "bert_config_07" = some (key small) := rfl
  have hok : (names.call (.adopt "bert" "bert_config_07" small)).1 = .ok none := rfl
  have hclear : .clear ∉ later := by simp [later]
  obtain ⟨-, hfails, -⟩ :=
    run_adopt [.adopt "bert" "bert_config_07" small] "bert" "bert_config_07" large
  obtain ⟨-, -, hexisting, hrepeated, hcount⟩ :=
    run_adopt [.adopt "bert" "bert_config_07" small] "bert" "bert_config_07" small
  exact ⟨⟨hfailure, (hfails _ hfailure).2.1⟩, ⟨hbound, hexisting hbound⟩,
    ⟨hok, hclear, congrArg Prod.fst (hrepeated later hok hclear)⟩, rfl, hcount.symm⟩

end VariantNames

end ServingTuner
