import Mathlib
import ServingTuner.Proofs.VariantNames.History

/-!
# The next number

The counter of an entity moves past every number that it hands out and past every number that an
adopted name carries.  It has 64 bits, so nothing lies past the greatest number, and the counter
starts over behind it.  As long as that number is not used, the counter is ahead of all that are
(`EntityNames.Ahead`), the name of the next number is free, and the search for a free one ends at
once.  So a new number is greater than all before exactly if none of those is the greatest one
(`assign_past_used_iff`).
-/

namespace ServingTuner

namespace EntityNames

variable {names adopted : EntityNames} {entity name payload : String} {n : ℕ}

/-! ### Numbers in use -/

/-- A name that stands for a payload carries the number. -/
def Uses (names : EntityNames) (entity : String) (n : ℕ) : Prop :=
  ∃ name, names.isBound name = true ∧ VariantName.Carries entity name n

/-- The numbers in use are read off the tables. -/
lemma SameTables.uses_iff {others : EntityNames} (h : names.SameTables others) :
    names.Uses entity n ↔ others.Uses entity n := by
  simp only [Uses, isBound, h.payloadOf?]

/-- A name that is tied to a payload adds the number that it carries. -/
lemma uses_tie_iff :
    (names.tie name payload).Uses entity n ↔
      VariantName.Carries entity name n ∨ names.Uses entity n := by
  constructor
  · rintro ⟨other, hbound, hcarries⟩
    rw [isBound, payloadOf?_tie] at hbound
    split_ifs at hbound with hother
    · exact Or.inl (hother ▸ hcarries)
    · exact Or.inr ⟨other, hbound, hcarries⟩
  · rintro (hcarries | ⟨other, hbound, hcarries⟩)
    · exact ⟨name, by simp [isBound], hcarries⟩
    · refine ⟨other, ?_, hcarries⟩
      rw [isBound, payloadOf?_tie]
      split_ifs
      · rfl
      · exact hbound

/-- Growing keeps the numbers in use. -/
lemma Grows.uses {after : EntityNames} (h : names.Grows after) (huses : names.Uses entity n) :
    after.Uses entity n := by
  rcases h with hsame | ⟨name, payload, -, hsame⟩
  · exact hsame.uses_iff.mpr huses
  · exact hsame.uses_iff.mpr (uses_tie_iff.mpr (Or.inr huses))

/-! ### The counter -/

/-- The greatest number of 64 bits is not in use. -/
def Fits (names : EntityNames) (entity : String) : Prop := ¬ names.Uses entity (UInt64.size - 1)

/-- The counter is greater than all numbers in use that fit 64 bits, unless the greatest of them is
in use. -/
def Ahead (names : EntityNames) (entity : String) : Prop :=
  names.Fits entity → ∀ n < UInt64.size, names.Uses entity n → n < names.nextIndex.toNat

/-- If the tables fit after they grew, they did before. -/
lemma Fits.of_grows {after : EntityNames} (hafter : after.Fits entity) (h : names.Grows after) :
    names.Fits entity := fun huses => hafter (h.uses huses)

/-- A number in use has a successor in 64 bits, unless the greatest one is in use. -/
lemma Fits.toNat_add_one {index : UInt64} (h : names.Fits entity)
    (huses : names.Uses entity index.toNat) : (index + 1).toNat = index.toNat + 1 := by
  have hlt := index.toNat_lt
  have hne : index.toNat ≠ UInt64.size - 1 := fun hmax => h (hmax ▸ huses)
  rw [UInt64.size] at hne
  rw [UInt64.toNat_add]
  refine Nat.mod_eq_of_lt ?_
  show index.toNat + 1 < 2 ^ 64
  omega

/-- Where no name stands for a payload the counter is ahead. -/
lemma ahead_empty (entity : String) : Ahead {} entity := by
  rintro - n - ⟨name, hbound, -⟩
  cases hbound

/-- A counter that is ahead stands at a number whose name is free, and a payload without a name gets
this number. -/
lemma Ahead.number_eq (h : names.Ahead entity) (hfits : names.Fits entity)
    (hnew : names.nameOf? payload = none) :
    names.number entity payload =
      (.ok (VariantName.numbered entity names.nextIndex),
        { names.tie (VariantName.numbered entity names.nextIndex) payload with
          nextIndex := names.nextIndex + 1
          numbered := names.numbered + 1 }) := by
  have hfree : names.payloadOf? (VariantName.numbered entity names.nextIndex) = none := by
    by_contra hbound
    have huses : names.Uses entity names.nextIndex.toNat :=
      ⟨_, Option.isSome_iff_ne_none.mpr hbound, VariantName.carries_numbered entity _⟩
    exact lt_irrefl _ (h hfits _ names.nextIndex.toNat_lt huses)
  exact number_of_free hfree hnew

/-- Numbering a payload keeps the counter ahead. -/
lemma Ahead.number (h : names.Ahead entity) (hnew : names.nameOf? payload = none) :
    (names.number entity payload).2.Ahead entity := by
  intro hafter
  have hfits : names.Fits entity := hafter.of_grows (number_grows names entity payload)
  rw [h.number_eq hfits hnew] at hafter ⊢
  have hown : (names.tie (VariantName.numbered entity names.nextIndex) payload).Uses entity
      names.nextIndex.toNat :=
    uses_tie_iff.mpr (Or.inl (VariantName.carries_numbered entity _))
  intro n hn huses
  show n < (names.nextIndex + 1).toNat
  rw [hafter.toNat_add_one hown]
  rcases uses_tie_iff.mp huses with hcarries | hbefore
  · rw [hcarries.unique (VariantName.carries_numbered entity _)]
    exact Nat.lt_succ_self _
  · exact Nat.lt_succ_of_lt (h hfits n hn hbefore)

/-- After a number with a successor was noted, the counter is past it and no lower than before. -/
lemma lt_nextIndex_note (names : EntityNames) {index : UInt64}
    (h : (index + 1).toNat = index.toNat + 1) :
    index.toNat < (names.note (some index)).nextIndex.toNat ∧
      names.nextIndex.toNat ≤ (names.note (some index)).nextIndex.toNat := by
  rw [note]
  dsimp only
  split_ifs with hnext <;> rw [UInt64.le_iff_toNat_le] at hnext <;> omega

/-- A name that stands for a payload already adds no number, so the counter stays ahead. -/
lemma Ahead.tie (h : names.Ahead entity) (hbound : names.isBound name = true) :
    (names.tie name payload).Ahead entity := by
  have hsame : ∀ n, (names.tie name payload).Uses entity n ↔ names.Uses entity n := by
    intro n
    rw [uses_tie_iff, or_iff_right_of_imp]
    exact fun hcarries => ⟨name, hbound, hcarries⟩
  intro hafter n hn huses
  exact h (fun hmax => hafter ((hsame _).mpr hmax)) n hn ((hsame n).mp huses)

/-- The number that a new name carries is noted, so the counter stays ahead. -/
lemma Ahead.note (h : names.Ahead entity) (hfree : names.Bindable name payload) :
    ((names.tie name payload).note (VariantName.indexOf? entity name)).Ahead entity := by
  intro hafter n hn huses
  have hfits : names.Fits entity := hafter.of_grows (Or.inr ⟨_, _, hfree, note_sameTables _ _⟩)
  have hiff : ∀ m,
      ((names.tie name payload).note (VariantName.indexOf? entity name)).Uses entity m ↔
        VariantName.Carries entity name m ∨ names.Uses entity m := by
    intro m
    rw [(note_sameTables _ _).uses_iff, uses_tie_iff]
  rw [hiff] at huses
  cases hindex : VariantName.indexOf? entity name with
  | none =>
    rcases huses with hcarries | hbefore
    · exact absurd ⟨n, hn, hcarries⟩ (VariantName.indexOf?_eq_none_iff.mp hindex)
    · exact h hfits n hn hbefore
  | some index =>
    have hcarries := VariantName.indexOf?_eq_some_iff.mp hindex
    have hsucc := hafter.toNat_add_one ((hiff _).mpr (Or.inl hcarries))
    obtain ⟨hpast, hle⟩ := lt_nextIndex_note (names.tie name payload) hsucc
    rcases huses with hown | hbefore
    · rw [hown.unique hcarries]
      exact hpast
    · exact (h hfits n hn hbefore).trans_le hle

/-- Adopting a name keeps the counter ahead. -/
lemma Ahead.adopt (h : names.Ahead entity)
    (hadopt : names.adopt entity name payload = .ok adopted) : adopted.Ahead entity := by
  obtain ⟨-, failure, herror, -⟩ | ⟨hbound, -, hok⟩ | ⟨-, hfree, hok⟩ :=
    adopt_cases names entity name payload
  · rw [herror] at hadopt
    cases hadopt
  · rw [hok] at hadopt
    cases hadopt
    exact h.tie (by rw [isBound, hbound]; rfl)
  · rw [hok] at hadopt
    cases hadopt
    exact h.note hfree

/-- A counter that is ahead is an invariant. -/
lemma isInvariant_ahead : IsInvariant fun entity names => names.Ahead entity :=
  ⟨ahead_empty, Ahead.number, Ahead.adopt⟩

end EntityNames

namespace VariantNames

variable {names : VariantNames} {entity : String} {n : ℕ}

/-! ### Histories -/

/-- A name that carries the number was given to a payload of the entity in the course of the
history: the payload was named so, or the name was adopted for it. -/
def Used (calls : List NameCall) (entity : String) (n : ℕ) : Prop :=
  ∃ before c after payload name, calls = before ++ c :: after ∧
    (empty.run before).Gives c entity payload name ∧ VariantName.Carries entity name n

/-- The counters of all entities are ahead. -/
lemma ahead_run (calls : List NameCall) (entity : String) :
    ((empty.run calls).entity entity).Ahead entity :=
  have hempty : ∀ entity, (empty.entity entity).Ahead entity := EntityNames.ahead_empty
  invariant_run EntityNames.isInvariant_ahead hempty calls entity

/-- Without `clear`, the numbers used in a history are those in use after it. -/
lemma used_iff_uses {calls : List NameCall} (hclear : .clear ∉ calls) :
    Used calls entity n ↔ ((empty.run calls).entity entity).Uses entity n := by
  have hpaired : (empty.run calls).Paired := paired_empty.run calls
  constructor
  · rintro ⟨before, c, after, payload, name, rfl, hgives, hcarries⟩
    have hafter : .clear ∉ after := by
      intro hmem
      exact hclear (List.mem_append_right _ (List.mem_cons_of_mem _ hmem))
    have hnamed := nameOf?_run hafter hgives.nameOf?
    rw [← run_cons, ← run_append] at hnamed
    exact ⟨name, Option.isSome_iff_exists.mpr ⟨_, (hpaired entity _ _).mpr hnamed⟩, hcarries⟩
  · rintro ⟨name, hbound, hcarries⟩
    obtain ⟨payload, hpayload⟩ := Option.isSome_iff_exists.mp hbound
    obtain ⟨before, c, after, other, hcalls, -, -, hgives, -⟩ :=
      exists_gives ((hpaired entity _ _).mp hpayload)
    exact ⟨before, c, after, other, name, hcalls, hgives, hcarries⟩

/-- Take a history without `clear` and a payload without a name.  The payload is numbered past all
numbers of 64 bits that its entity used, those that were handed out and those that came in with
adopted names, exactly if the greatest of these numbers was not used.  If it was, nothing lies past
it, and the counter has started over. -/
theorem assign_past_used_iff (calls : List NameCall) (hclear : .clear ∉ calls) (entity : String)
    (payload : Json) (hnew : ((empty.run calls).entity entity).nameOf? (key payload) = none) :
    (∃ index : UInt64, ((empty.run calls).assign entity payload false).1 =
        .ok (VariantName.numbered entity index) ∧
      ∀ n < 2 ^ 64, Used calls entity n → n < index.toNat) ↔
      ¬ Used calls entity (2 ^ 64 - 1) := by
  constructor
  · rintro ⟨index, -, hpast⟩ hused
    have hlt := hpast _ (by norm_num) hused
    have hindex := index.toNat_lt
    omega
  · intro hunused
    have hfits : ((empty.run calls).entity entity).Fits entity := fun huses =>
      hunused ((used_iff_uses hclear).mpr huses)
    refine ⟨((empty.run calls).entity entity).nextIndex, ?_, ?_⟩
    · rw [assign_of_new hnew, (ahead_run calls entity).number_eq hfits hnew]
    · intro n hn hused
      exact ahead_run calls entity hfits n hn ((used_iff_uses hclear).mp hused)

/-- After a name with the number 4 was adopted, the next payload is numbered past it. -/
theorem assign_past_used_iff_of_adopted :
    let calls : List NameCall :=
      [.adopt "bert" "bert_config_4" (.obj [("max_batch_size", .int 4)])]
    let payload : Json := .obj [("max_batch_size", .int 8)]
    .clear ∉ calls ∧ ((empty.run calls).entity "bert").nameOf? (key payload) = none ∧
      ¬ Used calls "bert" (2 ^ 64 - 1) ∧
      ∃ index : UInt64, ((empty.run calls).assign "bert" payload false).1 =
          .ok (VariantName.numbered "bert" index) ∧
        ∀ n < 2 ^ 64, Used calls "bert" n → n < index.toNat := by
  intro calls payload
  have hclear : .clear ∉ calls := by simp [calls]
  have hnew : ((empty.run calls).entity "bert").nameOf? (key payload) = none := rfl
  have hunused : ¬ Used calls "bert" (2 ^ 64 - 1) := by
    intro hused
    obtain ⟨name, hbound, hcarries⟩ := (used_iff_uses hclear).mp hused
    obtain rfl : name = VariantName.numbered "bert" 4 :=
      List.mem_singleton.mp (EntityNames.mem_keys_of_isBound hbound)
    exact absurd (hcarries.unique (VariantName.carries_numbered "bert" 4)) (by decide)
  exact ⟨hclear, hnew, hunused, (assign_past_used_iff calls hclear "bert" payload hnew).mpr hunused⟩

/-- After a name with the greatest number was adopted, the next payload has the number 0. -/
theorem assign_not_past_used_of_greatest :
    let calls : List NameCall :=
      [.adopt "bert" "bert_config_18446744073709551615" (.obj [("max_batch_size", .int 4)])]
    let payload : Json := .obj [("max_batch_size", .int 8)]
    .clear ∉ calls ∧ ((empty.run calls).entity "bert").nameOf? (key payload) = none ∧
      Used calls "bert" (2 ^ 64 - 1) ∧
      ((empty.run calls).assign "bert" payload false).1 = .ok (VariantName.numbered "bert" 0) ∧
      ¬ 2 ^ 64 - 1 < (0 : UInt64).toNat := by
  intro calls payload
  have hname : VariantName.Carries "bert" "bert_config_18446744073709551615" (2 ^ 64 - 1) :=
    VariantName.carries_numbered "bert" 18446744073709551615
  have hused : Used calls "bert" (2 ^ 64 - 1) :=
    ⟨[], _, [], _, _, rfl, Or.inr ⟨rfl, rfl⟩, hname⟩
  have hnew : ((empty.run calls).entity "bert").nameOf? (key payload) = none := rfl
  have hanswer : ((empty.run calls).assign "bert" payload false).1 =
      .ok (VariantName.numbered "bert" 0) := by
    have hfree : ((empty.run calls).entity "bert").payloadOf? (VariantName.numbered "bert" 0) =
        none := by decide +kernel
    rw [assign_of_new hnew, EntityNames.number_of_free hfree hnew]
    rfl
  exact ⟨by simp [calls], hnew, hused, hanswer, by decide⟩

end VariantNames

end ServingTuner
