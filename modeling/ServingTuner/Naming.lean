import ServingTuner.VariantNames

/-!
# Naming on the way

Work that gives names to variants while it goes on, and that may fail. The registry of names is
handed from step to step, and what was named before a failure stays named.
-/

namespace ServingTuner

/-- Work that names variants and gives an `α` or fails. -/
abbrev Naming := ExceptT Failure (StateM VariantNames)

namespace Naming

variable {α β : Type}

/-- What comes of the work when it starts from the given names, and the names after it. -/
def outcome (work : Naming α) (names : VariantNames) : Except Failure α × VariantNames :=
  work.run.run names

/-- Has the registry name a payload. -/
def assign (entity : String) (payload : Json) (isDefault : Bool) : Naming String :=
  ExceptT.mk fun names => names.assign entity payload isDefault

/-! ### Outcomes of steps -/

theorem outcome_pure (a : α) (names : VariantNames) :
    (pure a : Naming α).outcome names = (.ok a, names) := rfl

theorem outcome_lift (result : Except Failure α) (names : VariantNames) :
    (liftM result : Naming α).outcome names = (result, names) := rfl

theorem outcome_bind (work : Naming α) (next : α → Naming β) (names : VariantNames) :
    (work >>= next).outcome names =
      match work.outcome names with
      | (.ok a, after) => (next a).outcome after
      | (.error failure, after) => (.error failure, after) := by
  show ((work >>= next).run.run names : Except Failure β × VariantNames) = _
  rw [ExceptT.run_bind, StateT.run_bind]
  unfold outcome
  rcases work.run.run names with ⟨_ | _, _⟩ <;> rfl

theorem outcome_bind_of_ok {work : Naming α} {next : α → Naming β} {names after : VariantNames}
    {a : α} (h : work.outcome names = (.ok a, after)) :
    (work >>= next).outcome names = (next a).outcome after := by
  rw [outcome_bind, h]

end Naming

end ServingTuner
