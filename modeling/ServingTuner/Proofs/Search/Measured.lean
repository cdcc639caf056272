import Mathlib
import ServingTuner.Neighborhood
import ServingTuner.Proofs.Coordinate.Walk

/-!
# Measured surroundings

What a search sees around its home.  The ball around home always holds home itself, while its
neighbors are sure to lie in it only where no slot wraps.  A coordinate that is recorded for the
first time is put at the end, so whatever was measured before stays as it is.  The best coordinate
is always a measured one of the ball.
-/

namespace ServingTuner

/-! ### Balls -/

namespace Ball

variable {ball : Ball} {c : Coordinate}

/-- What it means to lie in a ball. -/
lemma contains_iff :
    ball.contains c = true ↔
      c.size = ball.center.size ∧ ball.center.distance c ≤ ball.radius := by
  simp [contains]

/-- The center lies in the ball. -/
lemma contains_center (ball : Ball) : ball.contains ball.center = true := by
  have hdistance : ball.center.distance ball.center = 0 :=
    (Coordinate.distance_eq_zero_iff rfl).mpr rfl
  rw [contains_iff, hdistance]
  exact ⟨rfl, UInt32.zero_le⟩

/-- The number of neighbors, counted as often as a walk meets them. -/
lemma length_neighbors (ball : Ball) : ball.neighbors.length = ball.count := by
  rw [neighbors_eq, List.length_map, length_offsets]

/-- Where no slot wraps all neighbors lie in the ball. -/
lemma Fits.contains_of_mem_neighbors (hfits : ball.Fits) (h : c ∈ ball.neighbors) :
    ball.contains c = true := by
  obtain ⟨hsize, -, hdistance⟩ := hfits.mem_neighbors.mp h
  exact contains_iff.mpr ⟨hsize, hdistance⟩

/-- No slot of a coordinate in the ball is further than the radius above one of the center. -/
lemma exists_le_of_contains (h : ball.contains c = true) {slot : UInt32} (hslot : slot ∈ c.slots) :
    ∃ own ∈ ball.center.slots, slot.toNat ≤ own.toNat + ball.radius.toNat := by
  obtain ⟨hsize, hdistance⟩ := contains_iff.mp h
  have hclose := (Coordinate.distance_le_iff hsize.symm ball.radius).mp hdistance
  obtain ⟨i, hi, rfl⟩ := List.mem_iff_getElem.mp hslot
  have hi' : i < ball.center.slots.length := hclose.length_eq ▸ hi
  have hgap := abs_le.mp (hclose.get hi' hi)
  refine ⟨ball.center.slots[i], List.getElem_mem hi', ?_⟩
  simp only [List.get_eq_getElem] at hgap
  omega

end Ball

/-! ### Records of results -/

namespace Measured

variable {α : Type} {measured : Measured α} {c : Coordinate}
  {entry other : Coordinate × Option (RunMeasurement α)}

/-- The coordinates that were measured. -/
def coordinates (measured : Measured α) : List Coordinate := measured.map (·.1)

/-- A coordinate was measured if it is among the measured ones. -/
lemma has_iff : measured.has c = true ↔ c ∈ measured.coordinates := by
  simp [has, coordinates]

/-- A result that is recorded for the first time is put at the end. -/
lemma set_of_new (h : measured.has c = false) (result : Option (RunMeasurement α)) :
    measured.set c result = measured ++ [(c, result)] := by
  rw [set, if_neg (by simp [h])]

/-- What is found under a coordinate is an entry of it. -/
lemma mem_of_entry? (h : measured.entry? c = some entry) : entry ∈ measured ∧ entry.1 = c :=
  ⟨List.mem_of_find?_eq_some h, by simpa using List.find?_some h⟩

/-- There is an entry of every measured coordinate. -/
lemma exists_entry? (h : measured.has c = true) : ∃ entry, measured.entry? c = some entry := by
  obtain ⟨entry, hentry, hc⟩ := List.any_eq_true.mp h
  exact Option.isSome_iff_exists.mp (List.find?_isSome.mpr ⟨entry, hentry, hc⟩)

/-- There is no entry of a coordinate that was not measured. -/
lemma entry?_eq_none (h : measured.has c = false) : measured.entry? c = none := by
  rw [has, List.any_eq_false] at h
  exact List.find?_eq_none.mpr h

/-- Where no coordinate occurs twice a coordinate has one entry. -/
lemma eq_of_mem (hunique : measured.coordinates.Nodup) (hentry : entry ∈ measured)
    (hother : other ∈ measured) (h : entry.1 = other.1) : entry = other :=
  List.inj_on_of_nodup_map hunique hentry hother h

/-- No coordinate occurs twice in another order either. -/
lemma nodup_of_perm {order : Measured α} (horder : order.Perm measured)
    (hunique : measured.coordinates.Nodup) : order.coordinates.Nodup :=
  (horder.map _).nodup_iff.mpr hunique

/-- The same coordinates are measured in another order. -/
lemma has_of_perm {order : Measured α} (horder : order.Perm measured) (c : Coordinate) :
    order.has c = measured.has c := by
  rw [Bool.eq_iff_iff, has_iff, has_iff]
  exact (horder.map _).mem_iff

/-- Where no coordinate occurs twice a coordinate has one result. -/
lemma result_eq_of_mem {own other : Option (RunMeasurement α)}
    (hunique : measured.coordinates.Nodup) (hown : (c, own) ∈ measured)
    (hother : (c, other) ∈ measured) : own = other :=
  (Prod.mk.inj (eq_of_mem hunique hown hother rfl)).2

end Measured

/-! ### Neighborhoods -/

namespace Neighborhood

variable {α : Type} {n : Neighborhood α} {c : Coordinate}
  {entry : Coordinate × Option (RunMeasurement α)}

/-- The entries of a neighborhood are those in the ball. -/
lemma mem_entries : entry ∈ n.entries ↔ entry ∈ n.measured ∧ n.ball.contains entry.1 = true :=
  List.mem_filter

/-- The same record in another order has the same entries in the ball. -/
lemma entries_perm {order : Measured α} (horder : order.Perm n.measured) :
    ({ n with measured := order } : Neighborhood α).entries.Perm n.entries :=
  horder.filter _

/-- A measured home has an entry in its own neighborhood. -/
lemma exists_homeEntry (h : n.measured.has n.home = true) :
    ∃ start ∈ n.entries, start.1 = n.home ∧ n.measured.entry? n.home = some start := by
  obtain ⟨start, hstart⟩ := Measured.exists_entry? h
  obtain ⟨hmem, hhome⟩ := Measured.mem_of_entry? hstart
  refine ⟨start, ?_, hhome, hstart⟩
  rw [mem_entries, hhome]
  exact ⟨hmem, n.ball.contains_center⟩

/-- A coordinate that is recorded for the first time counts if it lies in the ball. -/
lemma measuredCount_set (hnew : n.measured.has c = false) (result : Option (RunMeasurement α)) :
    { n with measured := n.measured.set c result }.measuredCount =
      n.measuredCount + if n.ball.contains c then 1 else 0 := by
  unfold measuredCount entries
  rw [Measured.set_of_new hnew, List.filter_append, List.length_append, List.filter_singleton]
  cases n.ball.contains c <;> rfl

/-- The next coordinate is a new one, and it is home if home is new. -/
lemma next?_eq_some (h : n.next? = some c) :
    n.measured.has c = false ∧
      (c = n.home ∨ n.measured.has n.home = true ∧ c ∈ n.ball.neighbors) := by
  rw [next?] at h
  split_ifs at h with hhome
  · rw [Ball.find?_eq] at h
    have hnew := List.find?_some h
    exact ⟨by simpa using hnew, Or.inr ⟨hhome, List.mem_of_find?_eq_some h⟩⟩
  · obtain rfl := Option.some.inj h
    exact ⟨by simpa using hhome, Or.inl rfl⟩

/-- Where no coordinate is next, home and all neighbors are measured. -/
lemma next?_eq_none (h : n.next? = none) :
    n.measured.has n.home = true ∧ ∀ c ∈ n.ball.neighbors, n.measured.has c = true := by
  rw [next?] at h
  split_ifs at h with hhome
  rw [Ball.find?_eq, List.find?_eq_none] at h
  exact ⟨hhome, fun c hc => by simpa using h c hc⟩

variable [Quantity α]

/-- The best entry is the one to start from or one of those that were looked at. -/
lemma exists_foldl_keepBest (n : Neighborhood α) (constraints : RunConstraints α)
    (entries : Measured α) (best : Coordinate × Option (RunMeasurement α)) :
    ∃ found, entries.foldl (n.keepBest constraints) (some best) = some found ∧
      (found = best ∨ found ∈ entries) := by
  induction entries generalizing best with
  | nil => exact ⟨best, rfl, Or.inl rfl⟩
  | cons entry entries ih =>
    rw [List.foldl_cons, keepBest]
    split_ifs
    · obtain ⟨found, hfound, hmem⟩ := ih entry
      refine ⟨found, hfound, Or.inr ?_⟩
      rcases hmem with rfl | hmem
      · exact List.mem_cons_self
      · exact List.mem_cons_of_mem _ hmem
    · obtain ⟨found, hfound, hmem⟩ := ih best
      exact ⟨found, hfound, hmem.imp_right (List.mem_cons_of_mem _)⟩

/-- Where home is measured there is a best coordinate, and it is a measured one of the ball. -/
lemma exists_best? (constraints : RunConstraints α) (h : n.measured.has n.home = true) :
    ∃ found ∈ n.entries, n.best? constraints = some found.1 := by
  obtain ⟨start, hentry, -, hstart⟩ := exists_homeEntry h
  obtain ⟨found, hfound, hfrom⟩ := n.exists_foldl_keepBest constraints n.entries start
  refine ⟨found, ?_, by rw [best?, hstart, hfound, Option.map_some]⟩
  rcases hfrom with rfl | hfrom
  · exact hentry
  · exact hfrom

end Neighborhood

end ServingTuner
