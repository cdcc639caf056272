import Mathlib
import ServingTuner.Proofs.Ranking.Gain

/-!
# Rankings that are preorders

Gains need not go in opposite directions, nor be transitive, so the ranking of runs is no preorder
in general.  What a search achieves is stated for results on which it is one
(`RunConstraints.IsPreorder`).  Failed runs never stand in the way
(`RunConstraints.IsPreorder.of_filter`).
-/

namespace ServingTuner

namespace RunConstraints

variable {α : Type} [Quantity α] {constraints : RunConstraints α}
  {results others : List (Option (RunMeasurement α))} {a b c : Option (RunMeasurement α)}

/-- Among these results the ranking is a total preorder: it says the same in both directions, and
what ranks at least as high as a result ranks at least as high as all that this does. -/
structure IsPreorder (constraints : RunConstraints α) (results : List (Option (RunMeasurement α))) :
    Prop where
  swap : ∀ a ∈ results, ∀ b ∈ results, constraints.rank b a = (constraints.rank a b).swap
  trans : ∀ a ∈ results, ∀ b ∈ results, ∀ c ∈ results, constraints.rank a b ≠ .lt →
    constraints.rank b c ≠ .lt → constraints.rank a c ≠ .lt

/-- Whether a ranking is a preorder can be found out. -/
instance : Decidable (constraints.IsPreorder results) :=
  decidable_of_iff
    ((∀ a ∈ results, ∀ b ∈ results, constraints.rank b a = (constraints.rank a b).swap) ∧
      ∀ a ∈ results, ∀ b ∈ results, ∀ c ∈ results, constraints.rank a b ≠ .lt →
        constraints.rank b c ≠ .lt → constraints.rank a c ≠ .lt)
    ⟨fun h => ⟨h.1, h.2⟩, fun h => ⟨h.swap, h.trans⟩⟩

/-- A preorder on some results is one on fewer of them. -/
lemma IsPreorder.mono (h : constraints.IsPreorder results) (hsub : others ⊆ results) :
    constraints.IsPreorder others :=
  ⟨fun a ha b hb => h.swap a (hsub ha) b (hsub hb),
    fun a ha b hb c hc => h.trans a (hsub ha) b (hsub hb) c (hsub hc)⟩

/-- Failed runs rank equal to each other and below all others, so a preorder on the other results is
one on all. -/
lemma IsPreorder.of_filter (h : constraints.IsPreorder (results.filter (·.isSome))) :
    constraints.IsPreorder results := by
  have hmem : ∀ {run : RunMeasurement α}, some run ∈ results →
      some run ∈ results.filter (·.isSome) :=
    fun hrun => List.mem_filter.mpr ⟨hrun, rfl⟩
  constructor
  · intro a ha b hb
    rcases a with _ | a <;> rcases b with _ | b
    · rfl
    · rfl
    · rfl
    · exact h.swap _ (hmem ha) _ (hmem hb)
  · intro a ha b hb c hc hab hbc
    rcases c with _ | c
    · -- Nothing ranks below a failed run.
      rcases a with _ | a
      · exact (show Ordering.eq ≠ .lt by decide)
      · exact (show Ordering.gt ≠ .lt by decide)
    · rcases b with _ | b
      · exact absurd rfl hbc
      · rcases a with _ | a
        · exact absurd rfl hab
        · exact h.trans _ (hmem ha) _ (hmem hb) _ (hmem hc) hab hbc

/-- Failed runs rank equal to each other. -/
lemma isPreorder_of_failed (h : ∀ result ∈ results, result = none) :
    constraints.IsPreorder results := by
  apply IsPreorder.of_filter
  have hnone : results.filter (·.isSome) = [] := by
    apply List.filter_eq_nil_iff.mpr
    intro result hresult
    rw [h result hresult]
    exact Bool.false_ne_true
  rw [hnone]
  exact ⟨by simp, by simp⟩

/-- Every result ranks equal to itself. -/
lemma IsPreorder.rank_self (h : constraints.IsPreorder results) (ha : a ∈ results) :
    constraints.rank a a = .eq := by
  have hswap := h.swap a ha a ha
  cases hrank : constraints.rank a a <;> rw [hrank] at hswap <;> cases hswap

/-- What does not rank above a result has that one rank at least as high. -/
lemma IsPreorder.not_lt (h : constraints.IsPreorder results) (ha : a ∈ results) (hb : b ∈ results)
    (hrank : constraints.rank a b ≠ .gt) : constraints.rank b a ≠ .lt := by
  rw [h.swap a ha b hb]
  cases hab : constraints.rank a b with
  | lt => decide
  | eq => decide
  | gt => exact absurd hab hrank

/-- What ranks above a result ranks above all that this ranks at least as high as. -/
lemma IsPreorder.gt_of_gt_of_ge (h : constraints.IsPreorder results) (ha : a ∈ results)
    (hb : b ∈ results) (hc : c ∈ results) (hab : constraints.rank a b = .gt)
    (hbc : constraints.rank b c ≠ .lt) : constraints.rank a c = .gt := by
  by_contra hac
  have hba := h.trans b hb c hc a ha hbc (h.not_lt ha hc hac)
  rw [h.swap a ha b hb, hab] at hba
  exact hba rfl

/-- What ranks at least as high as a result ranks above all that this ranks above. -/
lemma IsPreorder.gt_of_ge_of_gt (h : constraints.IsPreorder results) (ha : a ∈ results)
    (hb : b ∈ results) (hc : c ∈ results) (hab : constraints.rank a b ≠ .lt)
    (hbc : constraints.rank b c = .gt) : constraints.rank a c = .gt := by
  by_contra hac
  have hcb := h.trans c hc a ha b hb (h.not_lt ha hc hac) hab
  rw [h.swap b hb c hc, hbc] at hcb
  exact hcb rfl

end RunConstraints

end ServingTuner
