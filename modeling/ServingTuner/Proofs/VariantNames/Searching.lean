import Mathlib
import ServingTuner.Proofs.VariantNames.Adoption

/-!
# The search for a free number

A payload without a name is numbered by trying one number after the other, from the counter on,
until the name of one is free.  `freeIndex` is told how many tries it has.  The search of a registry
is told nothing: it goes on while names are taken (`Finds`), and since numbers have 64 bits it may
start over and meet numbers that it went past long ago.

It ends nevertheless, and at the number of `freeIndex` (`finds_freeIndex`).  Each name that it tries
in vain stands for a payload, no two of them are the same, and so there is one try at most for each
name that the entity has, and one more.
-/

namespace ServingTuner

namespace EntityNames

/-! ### Going on until a name is free -/

/-- The search from a number on, and how many names it tries until it finds a free one. -/
inductive Finds (names : EntityNames) (entity : String) : UInt64 → ℕ → UInt64 → Prop where
  | free {index} (h : names.isBound (VariantName.numbered entity index) = false) :
    Finds names entity index 1 index
  | taken {index tries found} (h : names.isBound (VariantName.numbered entity index) = true)
    (hrest : Finds names entity (index + 1) tries found) :
    Finds names entity index (tries + 1) found

variable {names : EntityNames} {entity payload : String} {start index found : UInt64}
  {tries tried : ℕ}

/-- What the search finds is free. -/
lemma Finds.isBound_eq_false (h : names.Finds entity start tries index) :
    names.isBound (VariantName.numbered entity index) = false := by
  induction h with
  | free hfree => exact hfree
  | taken _ _ ih => exact ih

/-- The search ends at one number, and after one number of tries. -/
lemma Finds.unique (h : names.Finds entity start tries index)
    (h' : names.Finds entity start tried found) : tried = tries ∧ found = index := by
  induction h generalizing tried with
  | free hfree =>
    cases h' with
    | free => exact ⟨rfl, rfl⟩
    | taken hbound =>
      rw [hfree] at hbound
      cases hbound
  | taken hbound _ ih =>
    cases h' with
    | free hfree =>
      rw [hbound] at hfree
      cases hfree
    | taken _ hrest =>
      obtain ⟨htries, hfound⟩ := ih hrest
      exact ⟨congrArg (· + 1) htries, hfound⟩

/-- A number of `freeIndex` that is free is what the search finds, in as many tries at most. -/
lemma exists_finds_freeIndex
    (h : names.isBound (VariantName.numbered entity (names.freeIndex entity tries start)) = false) :
    ∃ tried ≤ tries + 1, names.Finds entity start tried (names.freeIndex entity tries start) := by
  induction tries generalizing start with
  | zero => exact ⟨1, le_rfl, .free h⟩
  | succ tries ih =>
    unfold freeIndex at h ⊢
    split_ifs at h ⊢ with hbound
    · obtain ⟨tried, hle, hfinds⟩ := ih h
      exact ⟨tried + 1, Nat.succ_le_succ hle, .taken hbound hfinds⟩
    · exact ⟨1, by omega, .free h⟩

/-! ### Names that are taken -/

/-- The names of an entity that stand for a payload. -/
def boundNames (names : EntityNames) : Set String := { name | names.isBound name = true }

/-- They are as many as the table holds. -/
lemma Sound.ncard_boundNames (h : names.Sound entity) : names.boundNames.ncard = names.size := by
  have hnames : names.boundNames = (Fields.keys names.payloadByName).toFinset := by
    ext name
    rw [List.coe_toFinset]
    exact Fields.get?_isSome_iff
  rw [hnames, Set.ncard_coe_finset, List.toFinset_card_of_nodup h.payloadByName.nodup_keys,
    Fields.keys, List.length_map, size]

/-- With fewer names than there are numbers the search ends, wherever it starts: after one try for
each name and one more at most, and at the number of `freeIndex`. -/
lemma Sound.finds_freeIndex (h : names.Sound entity) (hroom : names.boundNames.ncard < 2 ^ 64)
    (start : UInt64) :
    ∃ tries ≤ names.boundNames.ncard + 1,
      names.Finds entity start tries (names.freeIndex entity names.size start) := by
  rw [h.ncard_boundNames] at hroom ⊢
  exact exists_finds_freeIndex (freeIndex_free hroom entity start)

/-- The name that the search finds can be bound to a payload without a name. -/
lemma Finds.bindable (h : names.Finds entity start tries index)
    (hnew : names.nameOf? payload = none) :
    names.Bindable (VariantName.numbered entity index) payload := by
  have hfree := h.isBound_eq_false
  rw [isBound, Option.isSome_eq_false_iff, Option.isNone_iff_eq_none] at hfree
  exact bindable_of_free hfree hnew

end EntityNames

namespace VariantNames

/-- Take an entity in a registry after any history, with fewer than `2 ^ 64` names that stand for
payloads.  The search for a free number ends, wherever it starts, and so also where the counter has
wrapped around and stands in front of numbers that are taken.  It tries one name at most for each of
those that stand for payloads, and one more.  What it finds from the counter on is free.  So binding
this name to a payload without a name succeeds after the counter moved past the number, and this is
the name that the payload is answered. -/
theorem run_search_ends (calls : List NameCall) (entity : String)
    (hroom : ((empty.run calls).entity entity).boundNames.ncard < 2 ^ 64) :
    let names := empty.run calls
    let own := names.entity entity
    (∀ start, ∃ tries index, tries ≤ own.boundNames.ncard + 1 ∧
      own.Finds entity start tries index ∧
      ∀ tried found, own.Finds entity start tried found → tried = tries ∧ found = index) ∧
    ∀ tries index, own.Finds entity own.nextIndex tries index →
      VariantName.numbered entity index ∉ own.boundNames ∧
      ∀ payload, own.nameOf? (key payload) = none →
        let moved : EntityNames := { own with nextIndex := index + 1 }
        let bound := moved.tie (VariantName.numbered entity index) (key payload)
        moved.bind (VariantName.numbered entity index) (key payload) = .ok bound ∧
        names.assign entity payload false = (.ok (VariantName.numbered entity index),
          names.withEntity entity { bound with numbered := own.numbered + 1 }) := by
  intro names own
  have hsound : own.Sound entity := (sound_empty.run calls).entity entity
  refine ⟨?_, ?_⟩
  · intro start
    obtain ⟨tries, hle, hfinds⟩ := hsound.finds_freeIndex hroom start
    exact ⟨tries, _, hle, hfinds, fun _ _ => hfinds.unique⟩
  · intro tries index hfinds
    refine ⟨?_, ?_⟩
    · intro hbound
      have hfree := hfinds.isBound_eq_false
      rw [show own.isBound _ = true from hbound] at hfree
      cases hfree
    · intro payload hnew moved bound
      have hfree := hfinds.bindable hnew
      refine ⟨EntityNames.bind_eq_ok_iff.mpr ⟨⟨hfree.free_name, hfree.free_payload⟩, rfl⟩, ?_⟩
      -- numbering makes the same search, and ends at the same number
      obtain ⟨tried, -, hfound⟩ := hsound.finds_freeIndex hroom own.nextIndex
      obtain ⟨number, hnumber, hcases⟩ := EntityNames.number_cases own entity (key payload)
      obtain rfl : number = index := hnumber.trans (hfinds.unique hfound).2
      obtain ⟨-, heq⟩ | ⟨hblocked, -⟩ := hcases
      · rw [assign_of_new hnew, show names.entity entity = own from rfl, heq]
        rfl
      · exact absurd hfree hblocked

/-- After the number 0 was taken and the greatest number was adopted, the counter has wrapped around
to 0.  The search tries the numbers 0 and 1, and the payload gets the latter. -/
theorem run_search_ends_of_wrapped :
    let calls : List NameCall :=
      [.assign "bert" (.obj [("max_batch_size", .int 4)]) false,
        .adopt "bert" "bert_config_18446744073709551615" (.obj [("max_batch_size", .int 8)])]
    let names := empty.run calls
    let own := names.entity "bert"
    let payload : Json := .obj [("max_batch_size", .int 2)]
    own.boundNames.ncard = 2 ∧ own.boundNames.ncard < 2 ^ 64 ∧ own.nextIndex = 0 ∧
      own.Finds "bert" own.nextIndex 2 1 ∧ own.nameOf? (key payload) = none ∧
      (names.assign "bert" payload false).1 = .ok "bert_config_1" := by
  intro calls names own payload
  have hcount : own.boundNames.ncard = 2 :=
    ((sound_empty.run calls).entity "bert").ncard_boundNames
  have hroom : own.boundNames.ncard < 2 ^ 64 := by
    rw [hcount]
    norm_num
  have hfinds : own.Finds "bert" own.nextIndex 2 1 :=
    .taken (by decide +kernel) (.free (by decide +kernel))
  have hnew : own.nameOf? (key payload) = none := rfl
  obtain ⟨-, hassign⟩ := (run_search_ends calls "bert" hroom).2 2 1 hfinds |>.2 payload hnew
  exact ⟨hcount, hroom, rfl, hfinds, hnew, congrArg Prod.fst hassign⟩

end VariantNames

end ServingTuner
