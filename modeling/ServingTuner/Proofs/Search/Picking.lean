import Mathlib
import ServingTuner.Proofs.Coordinate.Wrapping
import ServingTuner.Proofs.Search.Measured

/-!
# Which coordinate is next

A neighborhood asks for its home first and then for the first neighbor of a walk that is not measured
yet.  Where no slot wraps the walk goes through the ball in lexicographic order, so the next coordinate
is the smallest one that is lacking (`Neighborhood.next?_eq_some_iff`), and there is none exactly if
nothing is lacking (`Neighborhood.next?_eq_none_iff`).

Where slots wrap a walk can leave the ball.  What is next then need not lie in the neighborhood and is
measured without being counted, and it is clear from the center and the radius alone whether this can
happen (`Neighborhood.contains_next?_iff`).
-/

namespace ServingTuner

/-! ### The first neighbor -/

namespace Ball

variable {ball : Ball} {c : Coordinate} {p : Coordinate → Bool}

/-- Where no slot wraps the first neighbor that satisfies `p` is the smallest one. -/
lemma Fits.find?_neighbors_eq_some_iff (hfits : ball.Fits) :
    ball.neighbors.find? p = some c ↔
      (c ∈ ball.neighbors ∧ p c = true) ∧
        ∀ other ∈ ball.neighbors, p other = true → c = other ∨ c < other := by
  have hfirst : ∀ {d : Coordinate}, ball.neighbors.find? p = some d →
      ∀ other ∈ ball.neighbors, p other = true → d = other ∨ d < other := by
    intro d hd other hother hp
    obtain ⟨-, before, after, hsplit, hbefore⟩ := List.find?_eq_some_iff_append.mp hd
    have hsorted := hfits.pairwise_neighbors
    rw [hsplit, List.pairwise_append, List.pairwise_cons] at hsorted
    rw [hsplit, List.mem_append, List.mem_cons] at hother
    rcases hother with hearlier | rfl | hlater
    · exact absurd hp (by simpa using hbefore other hearlier)
    · exact Or.inl rfl
    · exact Or.inr (hsorted.2.1.1 other hlater)
  constructor
  · intro h
    exact ⟨⟨List.mem_of_find?_eq_some h, List.find?_some h⟩, hfirst h⟩
  · rintro ⟨⟨hmem, hp⟩, hleast⟩
    obtain ⟨d, hd⟩ := Option.isSome_iff_exists.mp (List.find?_isSome.mpr ⟨c, hmem, hp⟩)
    rcases hfirst hd c hmem hp with rfl | hless
    · exact hd
    · rcases hleast d (List.mem_of_find?_eq_some hd) (List.find?_some hd) with rfl | hless'
      · exact hd
      · exact absurd hless' (List.lt_asymm hless)

end Ball

/-! ### What is lacking -/

namespace Neighborhood

variable {α : Type} {n : Neighborhood α} {c : Coordinate}

/-- A coordinate that belongs to the neighborhood and is not measured yet. -/
structure Lacks (n : Neighborhood α) (c : Coordinate) : Prop where
  size : c.size = n.home.size
  near : n.home.distance c ≤ n.ball.radius
  new : n.measured.has c = false

/-- A home that is not measured is next. -/
lemma next?_of_new (hhome : n.measured.has n.home = false) : n.next? = some n.home := by
  unfold next?
  rw [if_neg (by simp [hhome])]

/-- After home the first neighbor of a walk is next that is not measured. -/
lemma next?_of_measured (hhome : n.measured.has n.home = true) :
    n.next? = n.ball.neighbors.find? fun c => !n.measured.has c := by
  unfold next?
  rw [if_pos hhome, Ball.find?_eq]

/-- Where home is measured and no slot wraps, the neighbors that are not measured are what is
lacking. -/
lemma lacks_iff (hfits : n.ball.Fits) (hhome : n.measured.has n.home = true) :
    n.Lacks c ↔ c ∈ n.ball.neighbors ∧ (!n.measured.has c) = true := by
  rw [hfits.mem_neighbors, Bool.not_eq_true']
  constructor
  · rintro ⟨hsize, hnear, hnew⟩
    refine ⟨⟨hsize, (Ball.one_le_distance_iff hsize).mpr ?_, hnear⟩, hnew⟩
    rintro rfl
    exact absurd (hhome.symm.trans hnew) (by decide)
  · rintro ⟨⟨hsize, -, hnear⟩, hnew⟩
    exact ⟨hsize, hnear, hnew⟩

/-- After home the smallest coordinate that is lacking is next. -/
theorem next?_eq_some_iff (hfits : n.ball.Fits) (hhome : n.measured.has n.home = true) :
    n.next? = some c ↔ n.Lacks c ∧ ∀ other, n.Lacks other → c = other ∨ c < other := by
  rw [next?_of_measured hhome, hfits.find?_neighbors_eq_some_iff, lacks_iff hfits hhome]
  apply and_congr_right'
  constructor
  · intro h other hother
    obtain ⟨hmem, hnew⟩ := (lacks_iff hfits hhome).mp hother
    exact h other hmem hnew
  · intro h other hmem hnew
    exact h other ((lacks_iff hfits hhome).mpr ⟨hmem, hnew⟩)

/-- No coordinate is next exactly if the whole neighborhood is measured. -/
theorem next?_eq_none_iff (hfits : n.ball.Fits) : n.next? = none ↔ ∀ c, ¬n.Lacks c := by
  constructor
  · intro h c hlacks
    obtain ⟨hhome, hneighbors⟩ := next?_eq_none h
    obtain ⟨hmem, hnew⟩ := (lacks_iff hfits hhome).mp hlacks
    rw [hneighbors c hmem] at hnew
    cases hnew
  · intro h
    by_contra hsome
    obtain ⟨c, hc⟩ := Option.ne_none_iff_exists'.mp hsome
    obtain ⟨hnew, rfl | ⟨hhome, hneighbor⟩⟩ := next?_eq_some hc
    · exact h n.home ⟨rfl, (Ball.contains_iff.mp n.ball.contains_center).2, hnew⟩
    · exact h c ((lacks_iff hfits hhome).mpr ⟨hneighbor, by simpa using hnew⟩)

/-! ### What is next but does not belong -/

/-- Every neighbor of a walk is next for some record. -/
lemma exists_next?_eq_some {ball : Ball} (minMeasured : UInt32) (hc : c ∈ ball.neighbors) :
    ∃ measured : Measured α, (Neighborhood.mk measured ball minMeasured).next? = some c := by
  -- The neighbor is the only one that the record leaves out.
  let others := ball.neighbors.filter (· ≠ c)
  let measured : Measured α := (ball.center :: others).map (·, none)
  have hcoordinates : measured.coordinates = ball.center :: others := by
    simp [measured, Measured.coordinates, Function.comp_def]
  have hhas : ∀ d, measured.has d = true ↔ d = ball.center ∨ d ∈ ball.neighbors ∧ d ≠ c := by
    intro d
    rw [Measured.has_iff, hcoordinates, List.mem_cons, List.mem_filter, decide_eq_true_eq]
  have hnew : measured.has c = false := by
    have hne := (Ball.one_le_distance_iff (Ball.size_of_mem_neighbors hc)).mp
      (Ball.one_le_distance_of_mem_neighbors hc)
    rw [← Bool.not_eq_true, hhas]
    simp [hne]
  have hfound := next?_of_measured (n := ⟨measured, ball, minMeasured⟩)
    ((hhas ball.center).mpr (Or.inl rfl))
  obtain ⟨d, hd⟩ := Option.isSome_iff_exists.mp
    (List.find?_isSome (p := fun d => !measured.has d).mpr ⟨c, hc, by rw [hnew]; rfl⟩)
  have hleft : measured.has d = false := by simpa using List.find?_some hd
  rw [← Bool.not_eq_true, hhas, not_or, not_and_not_right] at hleft
  refine ⟨measured, ?_⟩
  rw [hfound, hd, hleft.2 (List.mem_of_find?_eq_some hd)]

/-- Whatever is measured, what is next lies in the neighborhood, exactly if all that a walk around home
meets lies at a distance from 1 up to the radius, and that is the case exactly if every slot that wraps
does so inside the ball.  What is next always has the size of home; to record it makes the number of
measured coordinates of the neighborhood greater by one if it lies in there, and leaves that number
as it is if not. -/
theorem contains_next?_iff (ball : Ball) (minMeasured : UInt32) :
    ((∀ (measured : Measured α) (c : Coordinate),
        (Neighborhood.mk measured ball minMeasured).next? = some c → ball.contains c = true) ↔
      ball.WrapsInside) ∧
    ((∀ c ∈ ball.neighbors, 1 ≤ ball.center.distance c ∧ ball.center.distance c ≤ ball.radius) ↔
      ball.WrapsInside) ∧
    ∀ (measured : Measured α) (c : Coordinate) (result : Option (RunMeasurement α)),
      (Neighborhood.mk measured ball minMeasured).next? = some c →
        c.size = ball.center.size ∧
        (Neighborhood.mk (measured.set c result) ball minMeasured).measuredCount =
          (Neighborhood.mk measured ball minMeasured).measuredCount +
            if ball.contains c then 1 else 0 := by
  refine ⟨?_, ?_, ?_⟩
  · rw [← Ball.forall_neighbors_iff]
    constructor
    · intro h c hc
      obtain ⟨measured, hnext⟩ := exists_next?_eq_some (α := α) minMeasured hc
      exact (Ball.contains_iff.mp (h measured c hnext)).2
    · intro h measured c hnext
      obtain ⟨-, rfl | ⟨-, hneighbor⟩⟩ := next?_eq_some hnext
      · exact ball.contains_center
      · exact Ball.contains_iff.mpr ⟨Ball.size_of_mem_neighbors hneighbor, h c hneighbor⟩
  · rw [← Ball.forall_neighbors_iff]
    constructor
    · intro h c hc
      exact (h c hc).2
    · intro h c hc
      exact ⟨Ball.one_le_distance_of_mem_neighbors hc, h c hc⟩
  · intro measured c result hnext
    obtain ⟨hnew, hfrom⟩ := next?_eq_some hnext
    refine ⟨?_, measuredCount_set (n := ⟨measured, ball, minMeasured⟩) hnew result⟩
    rcases hfrom with rfl | ⟨-, hneighbor⟩
    · rfl
    · exact Ball.size_of_mem_neighbors hneighbor

/-- A record of two failed runs around a home at the upper end of the range. -/
def edge : Neighborhood ℚ where
  measured := [(⟨[4294967295]⟩, none), (⟨[4294967294]⟩, none)]
  ball := ⟨⟨[4294967295]⟩, 1⟩
  minMeasured := 3

/-- Around a home at the upper end of the range the coordinate zero is next.  It is as far off as can
be, and does not count when it is recorded. -/
theorem not_contains_next?_of_edge :
    edge.next? = some ⟨[0]⟩ ∧ edge.ball.contains ⟨[0]⟩ = false ∧
      edge.home.distance ⟨[0]⟩ = 4294967295 ∧ (⟨[0]⟩ : Coordinate) ∈ edge.ball.neighbors ∧
      edge.measuredCount = 2 ∧
      { edge with measured := edge.measured.set ⟨[0]⟩ none }.measuredCount = 2 := by
  decide

end Neighborhood

end ServingTuner
