import Mathlib
import ServingTuner.Proofs.VariantNames.Spelling

/-!
# The names of one entity

The two tables of an entity stay inverse to each other (`Paired`) whatever is bound, numbered or
adopted, because `bind` refuses a name or a payload that belongs to another one.  That numbering a
payload succeeds rests on `freeIndex`: with fewer names than there are numbers, one of the numbers
tried is free (`freeIndex_free`), even where the counter wraps around.
-/

namespace ServingTuner

namespace EntityNames

variable {names bound : EntityNames} {entity name payload : String}

/-! ### Binding -/

/-- The tables of an entity are inverse to each other. -/
def Paired (names : EntityNames) : Prop :=
  ∀ name payload, names.payloadOf? name = some payload ↔ names.nameOf? payload = some name

/-- An entity without names has inverse tables. -/
lemma paired_empty : Paired {} := by
  intro name payload
  simp [payloadOf?, nameOf?, Fields.get?]

/-- The tables with a name and a payload put in for each other. -/
def tie (names : EntityNames) (name payload : String) : EntityNames :=
  { names with
    nameByPayload := Fields.set payload name names.nameByPayload
    payloadByName := Fields.set name payload names.payloadByName }

/-- The payload of a name after one name was tied to a payload. -/
@[simp] lemma payloadOf?_tie (names : EntityNames) (name payload n : String) :
    (names.tie name payload).payloadOf? n = if n = name then some payload else names.payloadOf? n :=
  Fields.get?_set name payload names.payloadByName n

/-- The name of a payload after one name was tied to a payload. -/
@[simp] lemma nameOf?_tie (names : EntityNames) (name payload p : String) :
    (names.tie name payload).nameOf? p = if p = payload then some name else names.nameOf? p :=
  Fields.get?_set payload name names.nameByPayload p

/-- A name can be bound to a payload when neither of them belongs to another one. -/
structure Bindable (names : EntityNames) (name payload : String) : Prop where
  free_name : ∀ other, names.payloadOf? name = some other → other = payload
  free_payload : ∀ holder, names.nameOf? payload = some holder → holder = name

/-- Binding succeeds exactly where it is possible, and then ties the two. -/
lemma bind_eq_ok_iff :
    names.bind name payload = .ok bound ↔
      names.Bindable name payload ∧ bound = names.tie name payload := by
  have hname : (names.payloadOf? name).any (· != payload) = true ↔
      ¬ ∀ other, names.payloadOf? name = some other → other = payload := by
    cases names.payloadOf? name <;> simp
  have hpayload : ((names.nameOf? payload).filter (· != name)) = none ↔
      ∀ holder, names.nameOf? payload = some holder → holder = name := by
    cases names.nameOf? payload <;> simp
  unfold bind
  split_ifs with htaken
  · constructor
    · intro h
      cases h
    · rintro ⟨hfree, -⟩
      exact absurd hfree.free_name (hname.mp htaken)
  · cases hholder : (names.nameOf? payload).filter (· != name) with
    | some holder =>
      constructor
      · intro h
        cases h
      · rintro ⟨hfree, -⟩
        rw [hpayload.mpr hfree.free_payload] at hholder
        cases hholder
    | none =>
      rw [hname, not_not] at htaken
      constructor
      · intro h
        cases h
        exact ⟨⟨htaken, hpayload.mp hholder⟩, rfl⟩
      · rintro ⟨-, rfl⟩
        rfl

/-- Binding fails exactly where it is not possible, and always as a collision of names. -/
lemma bind_eq_error (h : ¬ names.Bindable name payload) :
    ∃ failure, names.bind name payload = .error failure ∧ failure.code = .namingCollision := by
  cases hbind : names.bind name payload with
  | ok bound => exact absurd (bind_eq_ok_iff.mp hbind).1 h
  | error failure =>
    refine ⟨failure, rfl, ?_⟩
    unfold bind at hbind
    split at hbind
    · cases hbind
      rfl
    · split at hbind <;> cases hbind
      rfl

/-- A name that can be bound to a payload without a name is free. -/
lemma Bindable.payloadOf?_eq_none (hfree : names.Bindable name payload) (hpaired : names.Paired)
    (hnew : names.nameOf? payload = none) : names.payloadOf? name = none := by
  by_contra hbound
  obtain ⟨other, hother⟩ := Option.ne_none_iff_exists'.mp hbound
  rw [hfree.free_name other hother, hpaired, hnew] at hother
  cases hother

/-- Tying a name and a payload that can be bound keeps the tables inverse. -/
lemma Paired.tie (h : names.Paired) (hfree : names.Bindable name payload) :
    (names.tie name payload).Paired := by
  intro n p
  rw [payloadOf?_tie, nameOf?_tie]
  by_cases hn : n = name <;> by_cases hp : p = payload
  · simp [hn, hp]
  · -- The name is tied to `payload` now, and `p` never had it.
    have hother : names.nameOf? p ≠ some name := by
      intro hname
      exact hp (hfree.free_name p ((h name p).mpr hname))
    simp [hn, hp, Ne.symm hp, hother]
  · have hother : names.payloadOf? n ≠ some payload := by
      intro hpayload
      exact hn (hfree.free_payload n ((h n payload).mp hpayload))
    simp [hn, hp, Ne.symm hn, hother]
  · simpa [hn, hp] using h n p

/-! ### Free numbers -/

/-- A bound name is one of the names in the table. -/
lemma mem_keys_of_isBound (h : names.isBound name = true) :
    name ∈ Fields.keys names.payloadByName := by
  obtain ⟨payload, hpayload⟩ := Option.isSome_iff_exists.mp h
  exact Fields.mem_keys_of_get? hpayload

/-- The search for a free number ends at once where that is free. -/
lemma freeIndex_of_free {index : UInt64}
    (h : names.payloadOf? (VariantName.numbered entity index) = none) (tries : ℕ) :
    names.freeIndex entity tries index = index := by
  cases tries with
  | zero => rfl
  | succ tries =>
    rw [freeIndex, isBound, h]
    rfl

/-- If the search ends at a number whose name is bound, then so are all names that it tried. -/
lemma isBound_of_freeIndex {tries : ℕ} {index : UInt64}
    (h : names.isBound (VariantName.numbered entity (names.freeIndex entity tries index)) = true) :
    ∀ i ≤ tries, names.isBound (VariantName.numbered entity (index + UInt64.ofNat i)) = true := by
  induction tries generalizing index with
  | zero =>
    intro i hi
    obtain rfl : i = 0 := by omega
    simpa [freeIndex] using h
  | succ tries ih =>
    rw [freeIndex] at h
    split_ifs at h with hbound
    · intro i hi
      cases i with
      | zero => simpa using hbound
      | succ i =>
        have hstep := ih h i (by omega)
        have hindex : index + UInt64.ofNat (i + 1) = index + 1 + UInt64.ofNat i := by
          rw [UInt64.ofNat_add, UInt64.add_comm (UInt64.ofNat i), UInt64.add_assoc]
          rfl
        rwa [hindex]
    · exact absurd h hbound

/-- With fewer names than there are numbers, the search ends at a number whose name is free. -/
lemma freeIndex_free (hroom : names.size < UInt64.size) (entity : String) (index : UInt64) :
    names.isBound (VariantName.numbered entity (names.freeIndex entity names.size index)) =
      false := by
  by_contra hend
  rw [Bool.not_eq_false] at hend
  -- All names tried would be bound, and they are one more than the table holds.
  let tried := (List.range (names.size + 1)).map
    fun i => VariantName.numbered entity (index + UInt64.ofNat i)
  have hnodup : tried.Nodup := by
    refine List.Nodup.map_on ?_ List.nodup_range
    intro i hi j hj hij
    rw [List.mem_range] at hi hj
    have hword := UInt64.add_right_inj index |>.mp (VariantName.numbered_injective hij)
    have hnat := congrArg UInt64.toNat hword
    rwa [UInt64.toNat_ofNat_of_lt' (by omega), UInt64.toNat_ofNat_of_lt' (by omega)] at hnat
  have hbound : tried ⊆ Fields.keys names.payloadByName := by
    intro name hname
    obtain ⟨i, hi, rfl⟩ := List.mem_map.mp hname
    rw [List.mem_range] at hi
    exact mem_keys_of_isBound (isBound_of_freeIndex hend i (by omega))
  have hlength := (hnodup.subperm hbound).length_le
  simp only [tried, List.length_map, List.length_range, Fields.keys] at hlength
  rw [size] at hlength
  omega

/-! ### What a call can do to the tables -/

/-- The tables are those of other names. -/
structure SameTables (names others : EntityNames) : Prop where
  nameByPayload : names.nameByPayload = others.nameByPayload
  payloadByName : names.payloadByName = others.payloadByName

/-- Names of payloads are read off the tables. -/
lemma SameTables.nameOf? {others : EntityNames} (h : names.SameTables others) (payload : String) :
    names.nameOf? payload = others.nameOf? payload := by
  rw [EntityNames.nameOf?, h.nameByPayload, EntityNames.nameOf?]

/-- Payloads of names are read off the tables. -/
lemma SameTables.payloadOf? {others : EntityNames} (h : names.SameTables others) (name : String) :
    names.payloadOf? name = others.payloadOf? name := by
  rw [EntityNames.payloadOf?, h.payloadByName, EntityNames.payloadOf?]

/-- The tables stay as they are, or one name is tied to a payload where that is possible. -/
def Grows (names after : EntityNames) : Prop :=
  after.SameTables names ∨
    ∃ name payload, names.Bindable name payload ∧ after.SameTables (names.tie name payload)

/-- Growing can be to stay. -/
lemma Grows.refl (names : EntityNames) : names.Grows names := Or.inl ⟨rfl, rfl⟩

/-- Growing keeps the tables inverse. -/
lemma Grows.paired {after : EntityNames} (h : names.Grows after) (hpaired : names.Paired) :
    after.Paired := by
  intro n p
  rcases h with hsame | ⟨name, payload, hfree, hsame⟩
  · rw [hsame.payloadOf?, hsame.nameOf?]
    exact hpaired n p
  · rw [hsame.payloadOf?, hsame.nameOf?]
    exact hpaired.tie hfree n p

/-- Growing keeps the name of every payload that has one. -/
lemma Grows.nameOf? {after : EntityNames} (h : names.Grows after)
    (hnamed : names.nameOf? payload = some name) : after.nameOf? payload = some name := by
  rcases h with hsame | ⟨n, p, hfree, hsame⟩
  · rw [hsame.nameOf?, hnamed]
  · rw [hsame.nameOf?, nameOf?_tie]
    split_ifs with hp
    · rw [← hfree.free_payload name (hp ▸ hnamed)]
    · exact hnamed

/-- Growing adds at most one name. -/
lemma Grows.size_le {after : EntityNames} (h : names.Grows after) :
    after.size ≤ names.size + 1 := by
  rcases h with hsame | ⟨name, payload, -, hsame⟩
  · rw [size, hsame.payloadByName, ← size]
    omega
  · rw [size, hsame.payloadByName]
    exact Fields.length_set_le name payload names.payloadByName

/-- Growing loses no name. -/
lemma Grows.le_size {after : EntityNames} (h : names.Grows after) : names.size ≤ after.size := by
  rcases h with hsame | ⟨name, payload, -, hsame⟩
  · rw [size, size, hsame.payloadByName]
  · rw [size, size, hsame.payloadByName]
    exact Fields.length_le_set name payload names.payloadByName

/-! ### Numbering and adopting -/

/-- Everything that numbering a payload can do: the first free number is tied to it, or binding
fails and just the counter moves. -/
lemma number_cases (names : EntityNames) (entity payload : String) :
    ∃ index, index = names.freeIndex entity names.size names.nextIndex ∧
      ((names.Bindable (VariantName.numbered entity index) payload ∧
        names.number entity payload =
          (.ok (VariantName.numbered entity index),
            { names.tie (VariantName.numbered entity index) payload with
              nextIndex := index + 1
              numbered := names.numbered + 1 })) ∨
      (¬ names.Bindable (VariantName.numbered entity index) payload ∧
        ∃ failure, names.number entity payload =
          (.error failure, { names with nextIndex := index + 1 }))) := by
  refine ⟨_, rfl, ?_⟩
  rw [number]
  set index := names.freeIndex entity names.size names.nextIndex
  cases hbind : ({ names with nextIndex := index + 1 } : EntityNames).bind
      (VariantName.numbered entity index) payload with
  | ok bound =>
    obtain ⟨hfree, rfl⟩ := bind_eq_ok_iff.mp hbind
    exact Or.inl ⟨⟨hfree.free_name, hfree.free_payload⟩, rfl⟩
  | error failure =>
    refine Or.inr ⟨?_, failure, rfl⟩
    intro hfree
    have hok : ({ names with nextIndex := index + 1 } : EntityNames).bind
        (VariantName.numbered entity index) payload = .ok _ :=
      bind_eq_ok_iff.mpr ⟨⟨hfree.free_name, hfree.free_payload⟩, rfl⟩
    rw [hok] at hbind
    cases hbind

/-- Numbering a payload makes the tables grow. -/
lemma number_grows (names : EntityNames) (entity payload : String) :
    names.Grows (names.number entity payload).2 := by
  obtain ⟨index, -, ⟨hfree, heq⟩ | ⟨-, failure, heq⟩⟩ := number_cases names entity payload
  · rw [heq]
    exact Or.inr ⟨_, _, hfree, rfl, rfl⟩
  · rw [heq]
    exact Or.inl ⟨rfl, rfl⟩

/-- The number that a payload gets has its name bound to it. -/
lemma nameOf?_number (h : (names.number entity payload).1 = .ok name) :
    (names.number entity payload).2.nameOf? payload = some name := by
  obtain ⟨index, -, ⟨-, heq⟩ | ⟨-, failure, heq⟩⟩ := number_cases names entity payload
  · rw [heq] at h ⊢
    obtain rfl : VariantName.numbered entity index = name := by simpa using h
    exact (nameOf?_tie names _ payload payload).trans (if_pos rfl)
  · rw [heq] at h
    cases h

/-- The name that a payload gets by numbering carries a number. -/
lemma exists_index_of_number (h : (names.number entity payload).1 = .ok name) :
    ∃ index, name = VariantName.numbered entity index := by
  obtain ⟨index, -, ⟨-, heq⟩ | ⟨-, failure, heq⟩⟩ := number_cases names entity payload
  · rw [heq] at h
    exact ⟨index, (Except.ok.inj h).symm⟩
  · rw [heq] at h
    cases h

/-- A name after a payload was numbered is the one that this payload got or was there before. -/
lemma nameOf?_of_number {other : String}
    (h : (names.number entity payload).2.nameOf? other = some name) :
    names.nameOf? other = some name ∨
      other = payload ∧ (names.number entity payload).1 = .ok name := by
  obtain ⟨index, -, ⟨-, heq⟩ | ⟨-, failure, heq⟩⟩ := number_cases names entity payload
  · rw [heq] at h ⊢
    have htie : (names.tie (VariantName.numbered entity index) payload).nameOf? other = some name :=
      h
    rw [nameOf?_tie] at htie
    split_ifs at htie with hother
    · exact Or.inr ⟨hother, congrArg Except.ok (Option.some.inj htie)⟩
    · exact Or.inl htie
  · rw [heq] at h
    exact Or.inl h

/-- A name after a payload was numbered is a numbered one or was there before. -/
lemma eq_numbered_or_of_number {other : String}
    (h : (names.number entity payload).2.nameOf? other = some name) :
    (∃ index, name = VariantName.numbered entity index) ∨ names.nameOf? other = some name :=
  (nameOf?_of_number h).symm.imp_left fun hnew => exists_index_of_number hnew.2

/-- A free name can be bound to a payload without a name. -/
lemma bindable_of_free (hfree : names.payloadOf? name = none)
    (hnew : names.nameOf? payload = none) : names.Bindable name payload :=
  ⟨fun other hother => by simp [hfree] at hother, fun holder hholder => by simp [hnew] at hholder⟩

/-- Where the name of the next number is free, a payload without a name gets this number. -/
lemma number_of_free (hfree : names.payloadOf? (VariantName.numbered entity names.nextIndex) = none)
    (hnew : names.nameOf? payload = none) :
    names.number entity payload =
      (.ok (VariantName.numbered entity names.nextIndex),
        { names.tie (VariantName.numbered entity names.nextIndex) payload with
          nextIndex := names.nextIndex + 1
          numbered := names.numbered + 1 }) := by
  obtain ⟨index, hindex, hcases⟩ := number_cases names entity payload
  obtain rfl : index = names.nextIndex := hindex.trans (freeIndex_of_free hfree _)
  obtain ⟨-, hnumber⟩ | ⟨hblocked, -⟩ := hcases
  · exact hnumber
  · exact absurd (bindable_of_free hfree hnew) hblocked

/-- With room for one more name, numbering a payload without a name succeeds, and the name that it
gets was free. -/
lemma number_ok (hroom : names.size < UInt64.size) (hnew : names.nameOf? payload = none)
    (entity : String) :
    ∃ index, (names.number entity payload).1 = .ok (VariantName.numbered entity index) ∧
      names.payloadOf? (VariantName.numbered entity index) = none := by
  obtain ⟨index, hindex, hcases⟩ := number_cases names entity payload
  have hfree : names.payloadOf? (VariantName.numbered entity index) = none := by
    have h := freeIndex_free hroom entity names.nextIndex
    rwa [← hindex, isBound, Option.isSome_eq_false_iff, Option.isNone_iff_eq_none] at h
  refine ⟨index, ?_, hfree⟩
  rcases hcases with ⟨-, heq⟩ | ⟨hblocked, -⟩
  · rw [heq]
  · exact absurd (bindable_of_free hfree hnew) hblocked

/-- The counters after a name came in that carries a number, or none. -/
def note (names : EntityNames) : Option UInt64 → EntityNames
  | none => names
  | some index =>
    { names with
      numbered := names.numbered + 1
      nextIndex := if names.nextIndex ≤ index then index + 1 else names.nextIndex }

/-- Noting a number leaves the tables as they are. -/
lemma note_sameTables (names : EntityNames) (index : Option UInt64) :
    (names.note index).SameTables names := by
  cases index <;> exact ⟨rfl, rfl⟩

/-- Everything that adopting a name can do: it fails, the name stands for the payload already, or
the two are tied and a number in the name is noted. -/
lemma adopt_cases (names : EntityNames) (entity name payload : String) :
    (¬ names.Bindable name payload ∧ ∃ failure, names.adopt entity name payload = .error failure ∧
      failure.code = .namingCollision) ∨
    (names.payloadOf? name = some payload ∧ names.Bindable name payload ∧
      names.adopt entity name payload = .ok (names.tie name payload)) ∨
    (names.payloadOf? name = none ∧ names.Bindable name payload ∧
      names.adopt entity name payload =
        .ok ((names.tie name payload).note (VariantName.indexOf? entity name))) := by
  by_cases hfree : names.Bindable name payload
  · have hbind : names.bind name payload = .ok (names.tie name payload) :=
      bind_eq_ok_iff.mpr ⟨hfree, rfl⟩
    right
    rw [adopt, hbind]
    cases hbound : names.payloadOf? name with
    | some other =>
      rw [hfree.free_name other hbound]
      refine Or.inl ⟨rfl, hfree, ?_⟩
      show (if names.isBound name then _ else _ : Except Failure EntityNames) = _
      rw [isBound, hbound]
      rfl
    | none =>
      refine Or.inr ⟨rfl, hfree, ?_⟩
      show (if names.isBound name then _ else _ : Except Failure EntityNames) = _
      rw [isBound, hbound]
      cases VariantName.indexOf? entity name <;> rfl
  · obtain ⟨failure, hbind, hcode⟩ := bind_eq_error hfree
    refine Or.inl ⟨hfree, failure, ?_, hcode⟩
    rw [adopt, hbind]
    rfl

/-- An adoption that succeeds ties the name to the payload. -/
lemma adopt_eq_ok (h : names.adopt entity name payload = .ok bound) :
    names.Bindable name payload ∧ bound.SameTables (names.tie name payload) := by
  obtain ⟨-, failure, herror, -⟩ | ⟨-, hfree, hok⟩ | ⟨-, hfree, hok⟩ :=
    adopt_cases names entity name payload
  · rw [herror] at h
    cases h
  · rw [hok] at h
    cases h
    exact ⟨hfree, rfl, rfl⟩
  · rw [hok] at h
    cases h
    exact ⟨hfree, note_sameTables _ _⟩

/-! ### Invariants -/

/-- A property of an entity's names that holds where there are none, and that is kept when a payload
without a name is numbered and when a name is adopted. -/
structure IsInvariant (P : String → EntityNames → Prop) : Prop where
  empty : ∀ entity, P entity {}
  number : ∀ {entity names payload}, P entity names → names.nameOf? payload = none →
    P entity (names.number entity payload).2
  adopt : ∀ {entity names adopted name payload}, P entity names →
    names.adopt entity name payload = .ok adopted → P entity adopted

end EntityNames

end ServingTuner
