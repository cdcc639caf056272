import Mathlib
import ServingTuner.Proofs.Coordinate.Walk

/-!
# Slots that wrap

A walk moves every slot by up to the radius, and a slot that would leave the 32-bit range at its upper
end comes in again at the lower one.  What was moved that way is still a neighbor in the sense of the
distance only if it comes back to within the radius (`distance_shifted_le_iff`).  So a walk meets none
but coordinates within the radius exactly if every slot that can wrap is itself no greater than the
radius (`forall_neighbors_iff`).
-/

namespace ServingTuner

namespace Ball

variable {ball : Ball}

/-- Every slot that the radius takes beyond the 32-bit range is no greater than the radius, so that it
comes back within the radius all the way. -/
def WrapsInside (ball : Ball) : Prop :=
  ∀ slot ∈ ball.center.slots,
    slot.toNat + ball.radius.toNat ≤ 2 ^ 32 - 1 ∨ slot.toNat ≤ ball.radius.toNat

/-- Whether slots wrap inside a ball can be found out. -/
instance : Decidable ball.WrapsInside := List.decidableBAll _ _

/-! ### One slot -/

/-- A slot stays within the radius if it does not wrap, or comes back to within the radius. -/
lemma abs_sub_ofInt_le_iff {radius slot : UInt32} {d : ℤ}
    (hd : leastOffset radius slot ≤ d ∧ d ≤ radius.toNat) :
    |(slot.toNat : ℤ) - (UInt32.ofInt (slot.toNat + d)).toNat| ≤ radius.toNat ↔
      slot.toNat + d < 2 ^ 32 ∨ 2 ^ 32 ≤ d + radius.toNat := by
  have hslot := slot.toNat_lt
  have hradius := radius.toNat_lt
  rw [leastOffset_eq] at hd
  rw [toNat_ofInt, abs_le]
  omega

/-! ### All slots -/

/-- A slot can be moved by any offset of its wheel while the other slots stay. -/
lemma exists_mem_readings {radius slot : UInt32} {slots : List UInt32} (hslot : slot ∈ slots) {d : ℤ}
    (hd : leastOffset radius slot ≤ d ∧ d ≤ radius.toNat) :
    ∃ ds ∈ readings radius slots, (slot, d) ∈ slots.zip ds := by
  obtain ⟨before, after, rfl⟩ := List.append_of_mem hslot
  have hzero := fun slots => mem_readings.mp (zero_mem_readings radius slots)
  refine ⟨List.replicate before.length 0 ++ d :: List.replicate after.length 0, ?_, ?_⟩
  · exact mem_readings.mpr (List.rel_append (hzero before) (List.Forall₂.cons hd (hzero after)))
  · rw [List.zip_append (by simp), List.zip_cons_cons]
    exact List.mem_append_right _ List.mem_cons_self

/-- What offsets lead to is within the radius exactly if every slot that wraps comes back to within
the radius. -/
lemma distance_shifted_le_iff {ds : List ℤ} (hds : ds ∈ readings ball.radius ball.center.slots) :
    ball.center.distance (ball.shifted ds) ≤ ball.radius ↔
      ∀ move ∈ ball.center.slots.zip ds,
        move.1.toNat + move.2 < 2 ^ 32 ∨ 2 ^ 32 ≤ move.2 + ball.radius.toNat := by
  have hbounds := mem_readings.mp hds
  rw [Coordinate.distance_le_iff (size_shifted hds).symm, shifted]
  clear hds
  generalize ball.center.slots = slots at hbounds ⊢
  induction hbounds with
  | nil => simp
  | cons hd _ ih =>
    rw [List.zipWith_cons_cons, List.forall₂_cons, abs_sub_ofInt_le_iff hd, List.zip_cons_cons,
      List.forall_mem_cons]
    exact and_congr_right' ih

/-- A walk meets none but coordinates within the radius exactly if every slot that wraps does so
inside the ball. -/
theorem forall_neighbors_iff (ball : Ball) :
    (∀ c ∈ ball.neighbors, ball.center.distance c ≤ ball.radius) ↔ ball.WrapsInside := by
  rw [neighbors_eq, List.forall_mem_map]
  constructor
  · intro h slot hslot
    by_contra houtside
    rw [not_or] at houtside
    obtain ⟨hwraps, hfar⟩ := houtside
    have hlimit := slot.toNat_lt
    -- The slot is moved just so far that it wraps to zero.
    have hd : leastOffset ball.radius slot ≤ 2 ^ 32 - (slot.toNat : ℤ) ∧
        2 ^ 32 - (slot.toNat : ℤ) ≤ ball.radius.toNat := by
      rw [leastOffset_eq]
      omega
    obtain ⟨ds, hds, hmove⟩ := exists_mem_readings hslot hd
    have hmoves : ¬ds.all (· == 0) = true := by
      rw [List.all_eq_true]
      intro hzero
      have hstays := beq_iff_eq.mp (hzero _ (List.of_mem_zip hmove).2)
      omega
    have hoffset : ds ∈ ball.offsets := List.mem_filter.mpr ⟨hds, by simpa using hmoves⟩
    have hback := (distance_shifted_le_iff hds).mp (h ds hoffset) _ hmove
    dsimp only at hback
    omega
  · intro hinside ds hoffset
    have hds := List.mem_of_mem_filter hoffset
    refine (distance_shifted_le_iff hds).mpr fun move hmove => ?_
    obtain ⟨-, hhigh⟩ := (List.forall₂_iff_zip.mp (mem_readings.mp hds)).2 hmove
    rcases hinside move.1 (List.of_mem_zip hmove).1 with hfits | hnear
    · left
      omega
    · by_cases hwraps : move.1.toNat + move.2 < 2 ^ 32
      · exact Or.inl hwraps
      · right
        omega

example : Ball.WrapsInside ⟨⟨[5, 0]⟩, 4294967295⟩ ∧ ¬Ball.WrapsInside ⟨⟨[4294967295]⟩, 1⟩ := by
  decide

end Ball

end ServingTuner
