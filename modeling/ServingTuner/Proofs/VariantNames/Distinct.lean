import Mathlib
import ServingTuner.Proofs.VariantNames.Requests
import ServingTuner.Proofs.VariantNames.Work

/-!
# Names of different entities

Entities share a registry, and nothing is said of what they are called: one may have the name of
another one's variant.  Still no name is given twice.  A name tells its entity and whether it is
that of the default variant by how it is spelled, and within an entity it tells the payload because
the tables are inverse (`IsNamed.eq_iff`).  A name that a request is answered is still the name of
its payload after all other requests (`isNamed_of_mem_replies`), so what holds of the names in one
registry holds of all answers.
-/

namespace ServingTuner.VariantNames

variable {names : VariantNames} {requests : List NameRequest}

/-- Two numbered names are the same exactly if they stand for the same text of one entity. -/
lemma nameOf?_eq_iff (hpaired : names.Paired) (hnumbered : names.Numbered)
    {entity entity' text text' name name' : String}
    (h : (names.entity entity).nameOf? text = some name)
    (h' : (names.entity entity').nameOf? text' = some name') :
    name = name' ↔ entity = entity' ∧ text = text' := by
  constructor
  · rintro rfl
    obtain ⟨index, rfl⟩ := hnumbered entity text name h
    obtain ⟨other, hother⟩ := hnumbered entity' text' _ h'
    obtain ⟨rfl, -⟩ := VariantName.numbered_eq_iff.mp hother
    have htext := (hpaired entity _ _).mpr h
    rw [(hpaired entity _ _).mpr h'] at htext
    exact ⟨rfl, (Option.some.inj htext).symm⟩
  · rintro ⟨rfl, rfl⟩
    rw [h'] at h
    exact (Option.some.inj h).symm

/-- Two variants have the same name exactly if they are of one entity, and are both the default one
or have payloads of the same text. -/
lemma IsNamed.eq_iff (hpaired : names.Paired) (hnumbered : names.Numbered)
    {isDefault isDefault' : Bool} {entity entity' name name' : String} {payload payload' : Json}
    (h : names.IsNamed isDefault entity payload name)
    (h' : names.IsNamed isDefault' entity' payload' name') :
    name = name' ↔ entity = entity' ∧ isDefault = isDefault' ∧
      (isDefault = false → key payload = key payload') := by
  cases isDefault with
  | true =>
    obtain rfl : name = VariantName.standard entity := h
    cases isDefault' with
    | true =>
      obtain rfl : name' = VariantName.standard entity' := h'
      simp [VariantName.standard_eq_iff]
    | false =>
      obtain ⟨index, rfl⟩ := hnumbered entity' (key payload') name' h'
      simp [(VariantName.numbered_ne_standard entity' entity index).symm]
  | false =>
    cases isDefault' with
    | true =>
      obtain ⟨index, rfl⟩ := hnumbered entity (key payload) name h
      obtain rfl : name' = VariantName.standard entity' := h'
      simp [VariantName.numbered_ne_standard entity entity' index]
    | false =>
      rw [nameOf?_eq_iff hpaired hnumbered h h']
      simp

/-- To serve requests is to name payloads. -/
lemma assigned_serve (names : VariantNames) (requests : List NameRequest) :
    names.Assigned false (names.serve requests) := by
  refine ⟨requests.map (·.call), ?_, rfl⟩
  intro c hc
  obtain ⟨r, -, rfl⟩ := List.mem_map.mp hc
  exact ⟨r.entity, r.payload, r.isDefault, rfl, by simp⟩

/-- A name that a request was answered is the name of its payload once all requests are served. -/
lemma isNamed_of_mem_replies {r : NameRequest} {name : String}
    (h : (r, .ok name) ∈ names.replies requests) :
    (names.serve requests).IsNamed r.isDefault r.entity r.payload name := by
  induction requests generalizing names with
  | nil => cases h
  | cons first requests ih =>
    rcases List.mem_cons.mp h with hfirst | hrest
    · obtain ⟨rfl, hname⟩ := Prod.mk.inj hfirst
      exact (isNamed_assign hname.symm).mono (assigned_serve _ requests)
    · exact ih hrest

/-- Names tell entities apart, whatever these are called: a numbered name determines its entity and
its number, a default name its entity, and no numbered name is a default name.  So whatever is
requested from a registry without names, two requests are answered the same name exactly if they are
for the same entity, and are both for the default variant or for payloads of the same text. -/
theorem replies_name_eq_iff (requests : List NameRequest) :
    (∀ entity other i j, VariantName.numbered entity i = VariantName.numbered other j ↔
      entity = other ∧ i = j) ∧
    (∀ entity other, VariantName.standard entity = VariantName.standard other ↔ entity = other) ∧
    (∀ entity other index, VariantName.numbered entity index ≠ VariantName.standard other) ∧
    ∀ r name r' name', (r, .ok name) ∈ empty.replies requests →
      (r', .ok name') ∈ empty.replies requests →
        (name = name' ↔ r.entity = r'.entity ∧ r.isDefault = r'.isDefault ∧
          (r.isDefault = false → key r.payload = key r'.payload)) := by
  refine ⟨fun _ _ _ _ => VariantName.numbered_eq_iff, fun _ _ => VariantName.standard_eq_iff,
    VariantName.numbered_ne_standard, ?_⟩
  intro r name r' name' h h'
  have hassigned := assigned_serve empty requests
  exact IsNamed.eq_iff (hassigned.paired paired_empty) (hassigned.numbered numbered_empty)
    (isNamed_of_mem_replies h) (isNamed_of_mem_replies h')

/-- An entity that is called like a variant of another one does not get into its way. -/
theorem replies_name_eq_iff_of_nested :
    let small : Json := .obj [("max_batch_size", .int 4)]
    let outer : NameRequest := ⟨"bert", small, false⟩
    let inner : NameRequest := ⟨"bert_config_0", small, false⟩
    ((outer, .ok "bert_config_0") ∈ empty.replies [outer, inner] ∧
      (inner, .ok "bert_config_0_config_0") ∈ empty.replies [outer, inner]) ∧
      ("bert_config_0" = "bert_config_0_config_0" ↔ outer.entity = inner.entity ∧
        outer.isDefault = inner.isDefault ∧
        (outer.isDefault = false → key outer.payload = key inner.payload)) := by
  intro small outer inner
  have hreplies : empty.replies [outer, inner] =
      [(outer, .ok "bert_config_0"), (inner, .ok "bert_config_0_config_0")] := by cbv
  have houter : (outer, .ok "bert_config_0") ∈ empty.replies [outer, inner] := by simp [hreplies]
  have hinner : (inner, .ok "bert_config_0_config_0") ∈ empty.replies [outer, inner] := by
    simp [hreplies]
  exact ⟨⟨houter, hinner⟩,
    (replies_name_eq_iff [outer, inner]).2.2.2 _ _ _ _ houter hinner⟩

end ServingTuner.VariantNames
