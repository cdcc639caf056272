import Mathlib
import ServingTuner.Proofs.VariantNames.Work

/-!
# Work that is repeated

A registry keeps the names that it has, whoever else uses it, until it is cleared
(`VariantNames.Keeps`).  So naming work that gave an answer gives the same one when it is repeated
in a registry that kept its names, and it adds nothing to the registry then (`Naming.Repeats`).  The
rule for two steps is that the second one keeps the names which the first one used.
-/

namespace ServingTuner

namespace VariantNames

variable {names after later : VariantNames}

/-- Every payload that has a name in the first registry has the same name in the second one. -/
def Keeps (names later : VariantNames) : Prop :=
  ∀ entity payload name, (names.entity entity).nameOf? payload = some name →
    (later.entity entity).nameOf? payload = some name

/-- A registry keeps its own names. -/
lemma Keeps.refl (names : VariantNames) : names.Keeps names := fun _ _ _ h => h

/-- Names that are kept twice are kept. -/
lemma Keeps.trans (h : names.Keeps after) (h' : after.Keeps later) : names.Keeps later :=
  fun entity payload name hname => h' entity payload name (h entity payload name hname)

/-- Names are kept while others are assigned. -/
lemma Assigned.keeps {onlyDefaults : Bool} (h : names.Assigned onlyDefaults later) :
    names.Keeps later := fun _ _ _ hname => h.nameOf? hname

/-- Every call but `clear` keeps the names. -/
lemma call_keeps (names : VariantNames) {c : NameCall} (hc : c ≠ .clear) :
    names.Keeps (names.call c).2 :=
  fun entity _ _ hname => (call_grows names hc entity).nameOf? hname

end VariantNames

namespace Naming

open VariantNames

variable {α β : Type} {work : Naming α}

/-- The work keeps all names, and once it has given an answer it gives that again wherever the names
were kept since then, and leaves the registry there as it is. -/
structure Repeats (work : Naming α) : Prop where
  keeps : ∀ names : VariantNames, names.Keeps (work.outcome names).2
  again : ∀ (names later : VariantNames) (a : α), (work.outcome names).1 = .ok a →
    (work.outcome names).2.Keeps later → work.outcome later = (.ok a, later)

/-- Work without a step can be repeated. -/
lemma repeats_pure (a : α) : (pure a : Naming α).Repeats := by
  constructor
  · intro names
    exact Keeps.refl names
  · intro names later b hanswer _
    obtain rfl := Except.ok.inj hanswer
    rfl

/-- To look at a result can be repeated. -/
lemma repeats_lift (result : Except Failure α) : (liftM result : Naming α).Repeats := by
  constructor
  · intro names
    exact Keeps.refl names
  · intro names later a hanswer _
    rw [outcome_lift] at hanswer ⊢
    exact congrArg (·, later) hanswer

/-- To name a payload can be repeated. -/
lemma repeats_assign (entity : String) (payload : Json) (isDefault : Bool) :
    (Naming.assign entity payload isDefault).Repeats := by
  constructor
  · intro names
    exact call_keeps names (c := .assign entity payload isDefault) (by simp)
  · intro names later name hanswer hkept
    cases isDefault with
    | true =>
      obtain rfl := Except.ok.inj hanswer
      rfl
    | false =>
      -- The payload has the name from the first time on, so it is not numbered again.
      have hnamed := nameOf?_assign hanswer
      exact assign_of_nameOf? (hkept entity (key payload) name hnamed)

/-- Work in two steps can be repeated if the steps can. -/
lemma Repeats.bind {next : α → Naming β} (h : work.Repeats) (hnext : ∀ a, (next a).Repeats) :
    (work >>= next).Repeats := by
  constructor
  · intro names
    have hfirst := h.keeps names
    rw [outcome_bind]
    rcases hout : work.outcome names with ⟨_ | a, middle⟩
    · rwa [hout] at hfirst
    · rw [hout] at hfirst
      exact hfirst.trans ((hnext a).keeps middle)
  · intro names later b hanswer hkept
    have hfirst := h.again names later
    rw [outcome_bind] at hanswer hkept
    rcases hout : work.outcome names with ⟨_ | a, middle⟩
    · rw [hout] at hanswer
      cases hanswer
    · rw [hout] at hanswer hkept hfirst
      have hmiddle : middle.Keeps later := ((hnext a).keeps middle).trans hkept
      rw [outcome_bind_of_ok (hfirst a rfl hmiddle)]
      exact (hnext a).again middle later b hanswer hkept

end Naming

end ServingTuner
