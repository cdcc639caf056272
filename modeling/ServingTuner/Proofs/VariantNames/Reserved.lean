import Mathlib
import ServingTuner.Proofs.VariantNames.History

/-!
# Reserved names

A registry makes up numbered names only, and an entity's default name carries no number.  So a name
without a number can stand for a payload only because it was adopted for it
(`nameOf?_run_iff_of_unnumbered`), and this is the one way in which an entity's default name comes to
stand for a payload that is not a default (`assign_eq_standard_iff`).
-/

namespace ServingTuner

/-- The default name of an entity carries no number. -/
lemma VariantName.standard_ne_numbered (entity : String) (index : UInt64) :
    standard entity ≠ numbered entity index :=
  (numbered_ne_standard entity entity index).symm

namespace VariantNames

variable {names : VariantNames} {entity payload name : String}

/-- Naming a payload answers a name without a number exactly when the payload has that name
already. -/
lemma assign_eq_ok_iff_of_unnumbered {p : Json}
    (hname : ∀ index, name ≠ VariantName.numbered entity index) :
    (names.assign entity p false).1 = .ok name ↔
      (names.entity entity).nameOf? (key p) = some name := by
  cases hknown : (names.entity entity).nameOf? (key p) with
  | some known =>
    rw [assign_of_nameOf? hknown, Except.ok.injEq, Option.some.injEq]
  | none =>
    rw [assign_of_new hknown]
    refine iff_of_false ?_ (by simp)
    intro hok
    obtain ⟨index, hindex⟩ := EntityNames.exists_index_of_number hok
    exact hname index hindex

/-- A name without a number stands for a payload exactly when it was adopted for one of that text,
and the registry was not cleared since. -/
theorem nameOf?_run_iff_of_unnumbered (calls : List NameCall)
    (hname : ∀ index, name ≠ VariantName.numbered entity index) :
    ((empty.run calls).entity entity).nameOf? payload = some name ↔
      ∃ before other after, calls = before ++ .adopt entity name other :: after ∧
        ((empty.run before).call (.adopt entity name other)).1 = .ok none ∧
        .clear ∉ after ∧ key other = payload := by
  constructor
  · intro h
    obtain ⟨before, c, after, other, rfl, hafter, hnew, hgives, rfl⟩ := exists_gives h
    obtain ⟨rfl, hanswer⟩ | ⟨rfl, hok⟩ := hgives
    · have hknown := (assign_eq_ok_iff_of_unnumbered hname).mp (call_assign_eq_ok_iff.mp hanswer)
      exact absurd hknown hnew
    · exact ⟨before, other, after, rfl, hok, hafter, rfl⟩
  · rintro ⟨before, other, after, rfl, hok, hafter, rfl⟩
    have hgives : (empty.run before).Gives (.adopt entity name other) entity other name :=
      Or.inr ⟨rfl, hok⟩
    rw [run_append, run_cons]
    exact nameOf?_run hafter hgives.nameOf?

/-- Whatever was named, adopted and cleared before, a payload that is not the default is given its
entity's default name exactly when that name was adopted for a payload of the same text, and the
registry was not cleared since. -/
theorem assign_eq_standard_iff (calls : List NameCall) (entity : String) (payload : Json) :
    ((empty.run calls).assign entity payload false).1 = .ok (VariantName.standard entity) ↔
      ∃ before other after,
        calls = before ++ .adopt entity (VariantName.standard entity) other :: after ∧
        ((empty.run before).call (.adopt entity (VariantName.standard entity) other)).1 = .ok none ∧
        .clear ∉ after ∧ key other = key payload := by
  have hname := VariantName.standard_ne_numbered entity
  rw [assign_eq_ok_iff_of_unnumbered hname, nameOf?_run_iff_of_unnumbered calls hname]

/-- An adopted default name is given to a payload that is not the default, and then the default
variant goes by the same name. -/
theorem assign_eq_standard_of_adopted :
    let payload : Json := .obj [("max_batch_size", .int 4)]
    let names := empty.run [.adopt "bert" (VariantName.standard "bert") payload]
    (names.assign "bert" payload false).1 = .ok (VariantName.standard "bert") ∧
      (names.assign "bert" payload true).1 = .ok (VariantName.standard "bert") :=
  ⟨rfl, rfl⟩

end VariantNames

end ServingTuner
