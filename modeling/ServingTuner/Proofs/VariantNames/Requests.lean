import Mathlib
import ServingTuner.Proofs.VariantNames.History

/-!
# Requests for names

A registry that is only asked for names numbers the payloads of an entity in the order in which they
are requested for the first time (`EntityNames.Ranked`): the number that comes next is the number of
payloads so far, and its name is always free.  The names of an entity depend on the requests for
that entity alone (`entity_serve`).  The order of the requests decides which payload is given which
name, but not which names are given (`mem_given_iff`).
-/

namespace ServingTuner

/-! ### Names by rank -/

namespace VariantName

/-- The name of the payload of an entity that so many others came before. -/
def ranked (entity : String) (rank : ℕ) : String := entity ++ "_config_" ++ toString rank

/-- Different ranks give different names. -/
lemma ranked_injective {entity : String} {m n : ℕ} (h : ranked entity m = ranked entity n) :
    m = n := by
  have hlist := congrArg String.toList h
  simp only [ranked, String.toList_append] at hlist
  exact Text.toString_nat_injective (List.append_cancel_left hlist)

/-- A rank that fits 64 bits is the number in its name. -/
lemma numbered_ofNat (entity : String) {rank : ℕ} (h : rank < UInt64.size) :
    numbered entity (UInt64.ofNat rank) = ranked entity rank := by
  rw [numbered, UInt64.toNat_ofNat_of_lt' h]
  rfl

end VariantName

namespace EntityNames

variable {names : EntityNames} {entity text : String} {texts : List String}

/-- The names of an entity are given by rank: each of the texts is named by its place among them, no
other text has a name, and the next number is the number of texts. -/
structure Ranked (entity : String) (texts : List String) (names : EntityNames) : Prop where
  paired : names.Paired
  nameOf? : ∀ text, names.nameOf? text =
    if text ∈ texts then some (VariantName.ranked entity (texts.idxOf text)) else none
  nextIndex : names.nextIndex = UInt64.ofNat texts.length
  numbered : names.numbered = texts.length

/-- An entity without names has named no texts. -/
lemma ranked_empty (entity : String) : Ranked entity [] {} :=
  ⟨paired_empty, fun _ => rfl, rfl, rfl⟩

/-- The name of the next rank is free. -/
lemma Ranked.payloadOf?_next (h : names.Ranked entity texts) :
    names.payloadOf? (VariantName.ranked entity texts.length) = none := by
  by_contra hbound
  obtain ⟨text, htext⟩ := Option.ne_none_iff_exists'.mp hbound
  have hname := (h.paired _ _).mp htext
  rw [h.nameOf?] at hname
  split_ifs at hname with hmem
  have hrank := VariantName.ranked_injective (Option.some.inj hname)
  exact absurd (List.idxOf_lt_length_iff.mpr hmem) hrank.not_lt

/-- A text without a name is given the next rank, as long as that fits 64 bits. -/
lemma Ranked.number (h : names.Ranked entity texts) (hroom : texts.length < UInt64.size)
    (hnew : text ∉ texts) :
    (names.number entity text).1 = .ok (VariantName.ranked entity texts.length) ∧
      (names.number entity text).2.Ranked entity (texts ++ [text]) := by
  have hname : VariantName.numbered entity names.nextIndex =
      VariantName.ranked entity texts.length := by
    rw [h.nextIndex, VariantName.numbered_ofNat entity hroom]
  have hunnamed : names.nameOf? text = none := by rw [h.nameOf?, if_neg hnew]
  have hpaired := (number_grows names entity text).paired h.paired
  rw [number_of_free (hname ▸ h.payloadOf?_next) hunnamed, hname] at hpaired ⊢
  refine ⟨rfl, hpaired, ?_, ?_, ?_⟩
  · intro other
    show (names.tie (VariantName.ranked entity texts.length) text).nameOf? other = _
    rw [nameOf?_tie, h.nameOf?]
    by_cases hother : other = text
    · rw [if_pos hother, if_pos (by simp [hother]), hother, List.idxOf_append_of_notMem hnew,
        List.idxOf_cons_self, Nat.add_zero]
    · by_cases hmem : other ∈ texts
      · rw [if_neg hother, if_pos hmem, if_pos (List.mem_append_left _ hmem),
          List.idxOf_append_of_mem hmem]
      · rw [if_neg hother, if_neg hmem, if_neg (by simp [hother, hmem])]
  · show names.nextIndex + 1 = UInt64.ofNat (texts ++ [text]).length
    rw [h.nextIndex, List.length_append, UInt64.ofNat_add]
    rfl
  · show names.numbered + 1 = (texts ++ [text]).length
    rw [h.numbered, List.length_append]
    rfl

end EntityNames

/-! ### Requests -/

/-- A request for the name of a payload, as the default variant of an entity or as another one. -/
structure NameRequest where
  entity : String
  payload : Json
  isDefault : Bool

namespace NameRequest

/-- The call on the registry that makes the request. -/
def call (r : NameRequest) : NameCall := .assign r.entity r.payload r.isDefault

/-- Whether a request asks an entity for the name of a variant that is not the default one. -/
def numbers (r : NameRequest) (entity : String) : Bool := r.entity == entity && !r.isDefault

/-- A request asks its own entity for the name of a variant, unless for the default one. -/
lemma numbers_iff {r : NameRequest} {entity : String} :
    r.numbers entity = true ↔ r.entity = entity ∧ r.isDefault = false := by
  rw [numbers, Bool.and_eq_true, beq_iff_eq, Bool.not_eq_true']

/-- A request for another entity, or for a default variant, numbers nothing. -/
lemma not_numbers_iff {r : NameRequest} {entity : String} :
    r.numbers entity = false ↔ r.entity ≠ entity ∨ r.isDefault = true := by
  rw [numbers, Bool.and_eq_false_iff, beq_eq_false_iff_ne, Bool.not_eq_false']

end NameRequest

namespace VariantNames

variable {names others : VariantNames} {requests : List NameRequest} {r : NameRequest}
  {entity : String}

/-- The texts of the payloads that an entity was asked to number, each once, in the order in which
they were first requested. -/
def requested (entity : String) (requests : List NameRequest) : List String :=
  ((requests.filter (·.numbers entity)).map fun r => key r.payload).eraseDups

/-- The name that a request is due: the entity's default name for the default variant, and else the
name by the rank of its payload among all that were requested. -/
def due (requests : List NameRequest) (r : NameRequest) : String :=
  if r.isDefault then VariantName.standard r.entity
  else VariantName.ranked r.entity ((requested r.entity requests).idxOf (key r.payload))

/-- The registry after requests. -/
def serve (names : VariantNames) (requests : List NameRequest) : VariantNames :=
  names.run (requests.map (·.call))

/-- Requests with what they are answered, one after another. -/
def replies (names : VariantNames) :
    List NameRequest → List (NameRequest × Except Failure String)
  | [] => []
  | r :: rest =>
    (r, (names.assign r.entity r.payload r.isDefault).1) ::
      replies (names.assign r.entity r.payload r.isDefault).2 rest

/-- The names of an entity that requests are answered, by a registry without names. -/
def given (entity : String) (requests : List NameRequest) : Set String :=
  { name | ∃ r, (r, .ok name) ∈ empty.replies requests ∧ r.entity = entity }

/-- Requests and then one more. -/
lemma serve_concat (names : VariantNames) (requests : List NameRequest) (r : NameRequest) :
    names.serve (requests ++ [r]) =
      ((names.serve requests).assign r.entity r.payload r.isDefault).2 := by
  rw [serve, List.map_append, run_append]
  rfl

/-- The answers to requests and to one more. -/
lemma replies_concat (names : VariantNames) (requests : List NameRequest) (r : NameRequest) :
    names.replies (requests ++ [r]) = names.replies requests ++
      [(r, ((names.serve requests).assign r.entity r.payload r.isDefault).1)] := by
  induction requests generalizing names with
  | nil => rfl
  | cons first requests ih =>
    rw [List.cons_append, replies, replies, ih, List.cons_append]
    rfl

/-! ### Distinct payloads -/

/-- A further request adds its payload if that was not requested before. -/
lemma requested_concat (entity : String) (requests : List NameRequest) (r : NameRequest) :
    requested entity (requests ++ [r]) = requested entity requests ++
      if r.numbers entity = true ∧ key r.payload ∉ requested entity requests then [key r.payload]
      else [] := by
  rw [requested, List.filter_append, List.map_append, List.eraseDups_append]
  congr 1
  cases hnumbers : r.numbers entity with
  | false => simp [hnumbers]
  | true =>
    by_cases hmem : key r.payload ∈ requested entity requests
    · have hmem' := List.mem_eraseDups.mp hmem
      simp [hnumbers, hmem, List.removeAll, hmem']
    · have hmem' := mt List.mem_eraseDups.mpr hmem
      simp [hnumbers, hmem, List.removeAll, hmem', List.eraseDups_cons]

/-- Payloads that were requested keep their places. -/
lemma requested_prefix_concat (entity : String) (requests : List NameRequest) (r : NameRequest) :
    requested entity requests <+: requested entity (requests ++ [r]) := by
  rw [requested_concat]
  exact List.prefix_append _ _

/-- No payload is counted twice. -/
lemma nodup_requested (entity : String) (requests : List NameRequest) :
    (requested entity requests).Nodup := by
  induction requests using List.reverseRecOn with
  | nil => exact List.nodup_nil
  | append_singleton requests r ih =>
    rw [requested_concat]
    split_ifs with hnew
    · rw [← List.concat_eq_append]
      exact List.Nodup.concat hnew.2 ih
    · rwa [List.append_nil]

/-- The payloads that were requested. -/
lemma mem_requested {text : String} :
    text ∈ requested entity requests ↔
      ∃ r ∈ requests, r.numbers entity = true ∧ key r.payload = text := by
  rw [requested, List.mem_eraseDups, List.mem_map]
  simp only [List.mem_filter, and_assoc]

/-- There are no more payloads than requests. -/
lemma length_requested_le (entity : String) (requests : List NameRequest) :
    (requested entity requests).length ≤ requests.length := by
  induction requests using List.reverseRecOn with
  | nil => exact le_rfl
  | append_singleton requests r ih =>
    rw [requested_concat, List.length_append, List.length_append]
    refine Nat.add_le_add ih ?_
    split_ifs <;> simp

/-- Requests in another order ask for as many payloads. -/
lemma length_requested_of_perm {others : List NameRequest} (h : requests.Perm others)
    (entity : String) :
    (requested entity requests).length = (requested entity others).length := by
  refine List.Perm.length_eq ?_
  rw [List.perm_ext_iff_of_nodup (nodup_requested _ _) (nodup_requested _ _)]
  intro text
  simp only [mem_requested, h.mem_iff]

/-! ### Serving requests -/

/-- A request that numbers nothing of an entity leaves the names of that entity as they are. -/
lemma entity_assign_of_not_numbers (names : VariantNames) (h : r.numbers entity = false) :
    (names.assign r.entity r.payload r.isDefault).2.entity entity = names.entity entity := by
  rcases NameRequest.not_numbers_iff.mp h with hentity | hdefault
  · cases r.isDefault with
    | true => rfl
    | false =>
      cases hknown : (names.entity r.entity).nameOf? (key r.payload) with
      | some name => rw [assign_of_nameOf? hknown]
      | none => rw [assign_of_new hknown, entity_withEntity, if_neg (Ne.symm hentity)]
  · rw [hdefault]
    rfl

/-- What a request makes of an entity depends on the names of that entity alone. -/
lemma entity_assign_congr (h : names.entity entity = others.entity entity) (r : NameRequest) :
    (names.assign r.entity r.payload r.isDefault).2.entity entity =
      (others.assign r.entity r.payload r.isDefault).2.entity entity := by
  cases hnumbers : r.numbers entity with
  | false =>
    rw [entity_assign_of_not_numbers names hnumbers, entity_assign_of_not_numbers others hnumbers, h]
  | true =>
    obtain ⟨rfl, hstepping⟩ := NameRequest.numbers_iff.mp hnumbers
    rw [hstepping]
    cases hknown : (names.entity r.entity).nameOf? (key r.payload) with
    | some name => rw [assign_of_nameOf? hknown, assign_of_nameOf? (h ▸ hknown), h]
    | none =>
      rw [assign_of_new hknown, assign_of_new (h ▸ hknown), entity_withEntity, entity_withEntity, h]

/-- The names of an entity are those that it would have without the requests for other entities and
for default variants. -/
lemma entity_serve (names : VariantNames) (requests : List NameRequest) (entity : String) :
    (names.serve requests).entity entity =
      (names.serve (requests.filter (·.numbers entity))).entity entity := by
  induction requests using List.reverseRecOn with
  | nil => rfl
  | append_singleton requests r ih =>
    rw [serve_concat, List.filter_append]
    cases hnumbers : r.numbers entity with
    | false =>
      rw [List.filter_singleton, hnumbers, entity_assign_of_not_numbers _ hnumbers, ih]
      simp
    | true =>
      rw [List.filter_singleton, hnumbers, cond_true, serve_concat]
      exact entity_assign_congr ih r

/-- A request that numbers nothing of an entity leaves ranks its names. -/
lemma ranked_assign_of_not_numbers
    (h : (names.entity entity).Ranked entity (requested entity requests))
    (hnumbers : r.numbers entity = false) :
    ((names.assign r.entity r.payload r.isDefault).2.entity entity).Ranked entity
      (requested entity (requests ++ [r])) := by
  rw [entity_assign_of_not_numbers names hnumbers, requested_concat, if_neg (by simp [hnumbers]),
    List.append_nil]
  exact h

/-- A request for a variant that is not the default one is answered the rank of its payload, be that
requested for the first time or again, and ranks stay the names of its entity. -/
lemma assign_of_ranked_own (h : (names.entity r.entity).Ranked r.entity (requested r.entity requests))
    (hroom : (requested r.entity (requests ++ [r])).length ≤ UInt64.size)
    (hdefault : r.isDefault = false) :
    (names.assign r.entity r.payload r.isDefault).1 = .ok (VariantName.ranked r.entity
        ((requested r.entity (requests ++ [r])).idxOf (key r.payload))) ∧
      ((names.assign r.entity r.payload r.isDefault).2.entity r.entity).Ranked r.entity
        (requested r.entity (requests ++ [r])) := by
  have hnumbers : r.numbers r.entity = true := NameRequest.numbers_iff.mpr ⟨rfl, hdefault⟩
  have hname := h.nameOf? (key r.payload)
  rw [requested_concat] at hroom ⊢
  rw [hdefault]
  by_cases hmem : key r.payload ∈ requested r.entity requests
  · rw [if_pos hmem] at hname
    rw [assign_of_nameOf? hname, if_neg (by simp [hmem]), List.append_nil]
    exact ⟨rfl, h⟩
  · rw [if_neg hmem] at hname
    rw [if_pos ⟨hnumbers, hmem⟩, List.length_append, List.length_singleton] at hroom
    obtain ⟨hanswer, hranked⟩ := h.number (by omega) hmem
    rw [assign_of_new hname, if_pos ⟨hnumbers, hmem⟩, List.idxOf_append_of_notMem hmem,
      List.idxOf_cons_self, Nat.add_zero, entity_withEntity, if_pos rfl]
    exact ⟨hanswer, hranked⟩

/-- A request that comes after others is answered its due name, and ranks stay the names. -/
lemma assign_of_ranked (h : ∀ entity, (names.entity entity).Ranked entity (requested entity requests))
    (hroom : (requested r.entity (requests ++ [r])).length ≤ UInt64.size) :
    (names.assign r.entity r.payload r.isDefault).1 = .ok (due (requests ++ [r]) r) ∧
      ∀ entity, ((names.assign r.entity r.payload r.isDefault).2.entity entity).Ranked entity
        (requested entity (requests ++ [r])) := by
  refine ⟨?_, fun entity => ?_⟩
  · rw [due]
    split_ifs with hdefault
    · rw [hdefault]
      rfl
    · exact (assign_of_ranked_own (h r.entity) hroom (Bool.eq_false_iff.mpr hdefault)).1
  · cases hnumbers : r.numbers entity with
    | false => exact ranked_assign_of_not_numbers (h entity) hnumbers
    | true =>
      obtain ⟨rfl, hdefault⟩ := NameRequest.numbers_iff.mp hnumbers
      exact (assign_of_ranked_own (h r.entity) hroom hdefault).2

/-- A due name stays the same when more is requested. -/
lemma due_concat (hr : r ∈ requests) (last : NameRequest) :
    due (requests ++ [last]) r = due requests r := by
  rw [due, due]
  split_ifs with hdefault
  · rfl
  · have hnumbers := NameRequest.numbers_iff.mpr ⟨rfl, Bool.eq_false_iff.mpr hdefault⟩
    have hmem : key r.payload ∈ requested r.entity requests :=
      mem_requested.mpr ⟨r, hr, hnumbers, rfl⟩
    rw [(requested_prefix_concat r.entity requests last).idxOf_eq_of_mem hmem]

/-- Requests to a registry without names are answered their due names, and the names of every entity
are given by rank. -/
lemma serve_ranked (hroom : ∀ entity, (requested entity requests).length ≤ UInt64.size) :
    empty.replies requests = requests.map (fun r => (r, .ok (due requests r))) ∧
      ∀ entity, ((empty.serve requests).entity entity).Ranked entity
        (requested entity requests) := by
  induction requests using List.reverseRecOn with
  | nil => exact ⟨rfl, EntityNames.ranked_empty⟩
  | append_singleton requests r ih =>
    have hbefore : ∀ entity, (requested entity requests).length ≤ UInt64.size := fun entity =>
      (requested_prefix_concat entity requests r).length_le.trans (hroom entity)
    obtain ⟨hreplies, hranked⟩ := ih hbefore
    obtain ⟨hlast, hafter⟩ := assign_of_ranked hranked (hroom r.entity)
    refine ⟨?_, ?_⟩
    · rw [replies_concat, hreplies, hlast, List.map_append]
      congr 1
      refine List.map_congr_left fun earlier hearlier => ?_
      rw [due_concat hearlier]
    · rw [serve_concat]
      exact hafter

/-- The names that an entity gives are its default name, if a default variant was requested, and the
names of all ranks below the number of payloads. -/
lemma mem_given_iff (hroom : ∀ entity, (requested entity requests).length ≤ UInt64.size)
    {name : String} :
    name ∈ given entity requests ↔
      (name = VariantName.standard entity ∧ ∃ r ∈ requests, r.entity = entity ∧ r.isDefault = true) ∨
      ∃ rank < (requested entity requests).length, name = VariantName.ranked entity rank := by
  rw [given, Set.mem_ofPred_eq, (serve_ranked hroom).1]
  constructor
  · rintro ⟨r, hreply, rfl⟩
    obtain ⟨own, hr, heq⟩ := List.mem_map.mp hreply
    obtain ⟨rfl, hname⟩ := Prod.mk.inj heq
    obtain rfl := Except.ok.inj hname
    rw [due]
    split_ifs with hdefault
    · exact Or.inl ⟨rfl, own, hr, rfl, hdefault⟩
    · have hnumbers := NameRequest.numbers_iff.mpr ⟨rfl, Bool.eq_false_iff.mpr hdefault⟩
      refine Or.inr ⟨_, List.idxOf_lt_length_iff.mpr ?_, rfl⟩
      exact mem_requested.mpr ⟨own, hr, hnumbers, rfl⟩
  · rintro (⟨rfl, r, hr, rfl, hdefault⟩ | ⟨rank, hrank, rfl⟩)
    · refine ⟨r, List.mem_map.mpr ⟨r, hr, ?_⟩, rfl⟩
      rw [due, if_pos hdefault]
    · obtain ⟨r, hr, hnumbers, hkey⟩ := mem_requested.mp (List.getElem_mem hrank)
      obtain ⟨rfl, hstepping⟩ := NameRequest.numbers_iff.mp hnumbers
      refine ⟨r, List.mem_map.mpr ⟨r, hr, ?_⟩, rfl⟩
      rw [due, if_neg (by simp [hstepping]), hkey, (nodup_requested _ _).idxOf_getElem]

/-- Take any requests for names to a registry without names, from however many clients, in which no
entity is asked to number more than `2 ^ 64` payloads.  Every request is answered: the default
variant by its entity's default name, and any other payload by its rank among the distinct ones of
its entity in the order of their first requests.  An entity counts its distinct payloads, and its
names are those that it would have without the requests for other entities and for default variants.
In whatever order the same requests come, the same names are given. -/
theorem serve_by_rank (requests : List NameRequest)
    (hroom : ∀ entity, (requested entity requests).length ≤ UInt64.size) :
    empty.replies requests = requests.map (fun r => (r, .ok (due requests r))) ∧
    (∀ entity, (empty.serve requests).count entity = (requested entity requests).length) ∧
    (∀ entity, (empty.serve requests).entity entity =
      (empty.serve (requests.filter (·.numbers entity))).entity entity) ∧
    ∀ others, requests.Perm others → ∀ entity, given entity others = given entity requests := by
  obtain ⟨hreplies, hranked⟩ := serve_ranked hroom
  refine ⟨hreplies, fun entity => (hranked entity).numbered, entity_serve empty requests, ?_⟩
  intro others hperm entity
  have hlength := length_requested_of_perm hperm
  have hroom' : ∀ entity, (requested entity others).length ≤ UInt64.size := fun entity =>
    hlength entity ▸ hroom entity
  ext name
  rw [mem_given_iff hroom', mem_given_iff hroom, hlength]
  simp only [hperm.mem_iff]

/-- Two payloads that are requested in the other order swap their names. -/
theorem serve_by_rank_swapped :
    let small : NameRequest := ⟨"bert", .obj [("max_batch_size", .int 4)], false⟩
    let large : NameRequest := ⟨"bert", .obj [("max_batch_size", .int 8)], false⟩
    (∀ entity, (requested entity [small, large]).length ≤ UInt64.size) ∧
    empty.replies [small, large] = [(small, .ok "bert_config_0"), (large, .ok "bert_config_1")] ∧
    empty.replies [large, small] = [(large, .ok "bert_config_0"), (small, .ok "bert_config_1")] ∧
    given "bert" [large, small] = given "bert" [small, large] := by
  intro small large
  have hroom : ∀ requests : List NameRequest, requests.length ≤ 2 → ∀ entity,
      (requested entity requests).length ≤ UInt64.size := by
    intro requests hlength entity
    refine (length_requested_le entity requests).trans (hlength.trans ?_)
    decide
  obtain ⟨hreplies, -, -, hgiven⟩ := serve_by_rank [small, large] (hroom _ le_rfl)
  obtain ⟨hreplies', -⟩ := serve_by_rank [large, small] (hroom _ le_rfl)
  refine ⟨hroom _ le_rfl, hreplies.trans (by cbv), hreplies'.trans (by cbv), ?_⟩
  exact hgiven _ (.swap large small []) "bert"

end VariantNames

end ServingTuner
