import Mathlib
import ServingTuner.Proofs.Search.Ending
import ServingTuner.Proofs.Search.Picking

/-!
# Exploring around a home

A search explores the neighborhood of its home in rounds.  Every round measures the coordinate that is
next and puts it at the end of the record, so what was recorded before stays as it is.  Where no slot
wraps that coordinate belongs to the neighborhood and is the smallest one that is lacking, home before
all others (`HillClimb.Adds`), so every round counts.  Rounds are made until the neighborhood is
explored or nothing is lacking any more (`HillClimb.explore_in_order`).
-/

namespace ServingTuner

namespace HillClimb

variable {α : Type} {measure : Measure α} {s t u : HillClimb α} {c home : Coordinate}
  {added : Measured α} {k tries : ℕ}

/-! ### What there is to do -/

/-- Whether the next round around a home is to measure a coordinate: the neighborhood is not explored,
and the coordinate is the next one and lacking. -/
structure Adds (s : HillClimb α) (home c : Coordinate) : Prop where
  unexplored : (s.neighborhood home).isExplored = false
  next : (s.neighborhood home).next? = some c
  lacks : (s.neighborhood home).Lacks c

/-- Whether there is nothing to do around a home: its neighborhood is explored, or nothing is
lacking. -/
def Finished (s : HillClimb α) (home : Coordinate) : Prop :=
  (s.neighborhood home).isExplored = true ∨ ∀ c, ¬(s.neighborhood home).Lacks c

/-- What the next round is to measure is what home wants. -/
lemma Adds.wanted? (h : s.Adds home c) : s.wanted? home = some c := by
  unfold HillClimb.wanted?
  rw [h.unexplored, if_neg Bool.false_ne_true, h.next]

/-- What the next round is to measure lies in the ball around home. -/
lemma Adds.contains (h : s.Adds home c) : (s.neighborhood home).ball.contains c = true :=
  Ball.contains_iff.mpr ⟨h.lacks.size, h.lacks.near⟩

/-- Where no slot wraps there is nothing to do around a home, or the next round is to measure some
coordinate. -/
lemma finished_or_adds (hfits : (s.neighborhood home).ball.Fits) :
    s.Finished home ∨ ∃ c, s.Adds home c := by
  by_cases hexplored : (s.neighborhood home).isExplored = true
  · exact Or.inl (Or.inl hexplored)
  · cases hnext : (s.neighborhood home).next? with
    | none => exact Or.inl (Or.inr ((Neighborhood.next?_eq_none_iff hfits).mp hnext))
    | some c =>
      have hwanted : s.wanted? home = some c := by
        unfold HillClimb.wanted?
        rw [if_neg hexplored, hnext]
      obtain ⟨hsize, hnear⟩ := Ball.contains_iff.mp (contains_of_wanted? hfits hwanted)
      exact Or.inr ⟨c, by simpa using hexplored, hnext, hsize, hnear, (wanted?_eq_some hwanted).1⟩

/-- The number of coordinates that are still to be measured around a home. -/
def due (s : HillClimb α) (home : Coordinate) : ℕ :=
  (s.neighborhood home).minMeasured.toNat - (s.neighborhood home).measuredCount

/-- As long as there is a round to make, something is due. -/
lemma Adds.due_pos (h : s.Adds home c) : 0 < s.due home := by
  have hcount : (s.neighborhood home).measuredCount < (s.neighborhood home).minMeasured.toNat := by
    simpa [Neighborhood.isExplored] using h.unexplored
  exact Nat.sub_pos_of_lt hcount

/-- All entities have names left for the runs that are due around a home. -/
def HasNamesFor (s : HillClimb α) (home : Coordinate) : Prop :=
  ∀ entity, (s.names.entity entity).size + s.due home * s.generator.namesPerRun < UInt64.size

variable [Quantity α]

/-! ### One round -/

/-- Where there is nothing to do, nothing is done. -/
lemma explore_of_finished (hfits : (s.neighborhood home).ball.Fits) (h : s.Finished home) :
    s.explore measure home tries = .ok s := by
  cases tries with
  | zero => rfl
  | succ tries =>
    unfold explore
    rcases h with hexplored | hnone
    · rw [if_pos hexplored]
    · rw [(Neighborhood.next?_eq_none_iff hfits).mpr hnone]
      split_ifs <;> rfl

/-- A round that measures a coordinate is followed by the other rounds. -/
lemma Adds.explore_succ (h : s.Adds home c) (hmeasured : s.measureAt measure c = .ok t) :
    s.explore measure home (tries + 1) = t.explore measure home tries := by
  rw [explore, h.unexplored, if_neg Bool.false_ne_true, h.next]
  show (s.measureAt measure c >>= fun s => s.explore measure home tries) = _
  rw [hmeasured]
  rfl

/-- A round makes the number of measured coordinates of the neighborhood greater by one. -/
lemma Adds.measuredCount (h : s.Adds home c) (hmeasured : s.measureAt measure c = .ok t) :
    (t.neighborhood home).measuredCount = (s.neighborhood home).measuredCount + 1 := by
  rw [measuredCount_of_measureAt h.wanted? hmeasured, if_pos h.contains]

/-- A round can be made if there are names for it. -/
lemma Adds.exists_measureAt (h : s.Adds home c)
    (hsize : home.size = s.generator.space.dimensions.slots.length) (hnames : s.HasNamesFor home)
    (measure : Measure α) : ∃ t, s.measureAt measure c = .ok t := by
  apply HillClimb.exists_measureAt
  · exact h.lacks.size.trans hsize
  · intro entity
    have hrun : ((s.session.run [.moveTo c, .next]).names.entity entity).size ≤
        (s.names.entity entity).size + s.generator.namesPerRun :=
      s.session.size_run_next_le c entity
    have hdue := Nat.le_mul_of_pos_left s.generator.namesPerRun h.due_pos
    have hleft := hnames entity
    omega

/-- A round leaves names for those that are due after it. -/
lemma Adds.hasNamesFor (h : s.Adds home c) (hnames : s.HasNamesFor home)
    (hmeasured : s.measureAt measure c = .ok t) : t.HasNamesFor home := by
  intro entity
  obtain ⟨result, ht⟩ := measures_of_measureAt hmeasured
  have hsession : t.names = (s.session.run [.moveTo c, .next]).names :=
    congrArg Session.names ht.session
  have hrun : ((s.session.run [.moveTo c, .next]).names.entity entity).size ≤
      (s.names.entity entity).size + s.generator.namesPerRun :=
    s.session.size_run_next_le c entity
  have hperRun : t.generator.namesPerRun = s.generator.namesPerRun := by
    rw [generator_of_measureAt hmeasured]
    rfl
  have hdue : s.due home = t.due home + 1 := by
    have hpos := h.due_pos
    unfold due at hpos ⊢
    rw [h.measuredCount hmeasured, minMeasured_of_measureAt hmeasured]
    omega
  have hleft := hnames entity
  rw [hdue, Nat.succ_mul] at hleft
  rw [hsession, hperRun]
  omega

/-! ### All rounds -/

/-- What some rounds of exploring come to: these entries are added to the record, and each of them
counts for the neighborhood. -/
structure Explores (s : HillClimb α) (home : Coordinate) (added : Measured α) (t : HillClimb α) :
    Prop where
  record : t.measured = s.measured ++ added
  count : (t.neighborhood home).measuredCount = (s.neighborhood home).measuredCount + added.length

/-- Rounds that follow one round add their entries after the one of this round. -/
lemma Adds.explores {result : Option (RunMeasurement α)} (h : s.Adds home c)
    (hmeasured : s.measureAt measure c = .ok t)
    (hrecord : t.measured = s.measured ++ [(c, result)]) (hrest : t.Explores home added u) :
    s.Explores home ((c, result) :: added) u := by
  constructor
  · rw [hrest.record, hrecord, List.append_assoc, List.singleton_append]
  · rw [hrest.count, h.measuredCount hmeasured, List.length_cons]
    omega

/-- With as many tries as coordinates are missing, exploring adds one entry in each round until there is
nothing to do. -/
lemma exists_explore (measure : Measure α) (hfits : (s.neighborhood home).ball.Fits)
    (hsize : home.size = s.generator.space.dimensions.slots.length) (hnames : s.HasNamesFor home)
    (htries : (s.missing home).card ≤ tries) :
    ∃ added t, s.explore measure home tries = .ok t ∧ s.Explores home added t ∧ t.Finished home ∧
      ∀ k (hk : k < added.length), ∃ u, s.explore measure home k = .ok u ∧
        s.Explores home (added.take k) u ∧ u.Adds home added[k].1 := by
  induction tries generalizing s with
  | zero =>
    rcases finished_or_adds hfits with hfinished | ⟨c, hadds⟩
    · exact ⟨[], s, rfl, ⟨(List.append_nil _).symm, rfl⟩, hfinished, by simp⟩
    · have hpos := Finset.card_pos.mpr ⟨c, mem_missing_of_wanted? hadds.wanted?⟩
      omega
  | succ tries ih =>
    rcases finished_or_adds hfits with hfinished | ⟨c, hadds⟩
    · exact ⟨[], s, explore_of_finished hfits hfinished, ⟨(List.append_nil _).symm, rfl⟩, hfinished,
        by simp⟩
    · obtain ⟨next, hmeasured⟩ := hadds.exists_measureAt hsize hnames measure
      obtain ⟨result, hrecord⟩ := measured_of_wanted? hadds.wanted? hmeasured
      have hball := ball_of_measureAt hmeasured home
      have hspace : next.generator.space = s.generator.space := by
        rw [generator_of_measureAt hmeasured]
      have hless := card_missing_lt hadds.wanted? hmeasured
      obtain ⟨added, t, hexplore, hexplores, hfinished, hrounds⟩ :=
        ih (hball ▸ hfits) (hspace ▸ hsize) (hadds.hasNamesFor hnames hmeasured) (by omega)
      refine ⟨(c, result) :: added, t, (hadds.explore_succ hmeasured).trans hexplore,
        hadds.explores hmeasured hrecord hexplores, hfinished, ?_⟩
      intro k hk
      cases k with
      | zero => exact ⟨s, rfl, ⟨(List.append_nil _).symm, rfl⟩, hadds⟩
      | succ k =>
        obtain ⟨u, hu, hbefore, hnext⟩ := hrounds k (Nat.lt_of_succ_lt_succ hk)
        exact ⟨u, (hadds.explore_succ hmeasured).trans hu, hadds.explores hmeasured hrecord hbefore,
          hnext⟩

/-- In every neighborhood where no slot wraps, home is next if it is not measured, else the smallest
coordinate that is lacking, and no coordinate is next exactly if nothing is lacking.

So exploring around a home, with as many tries as a survey gives it, adds entries to the record and
touches no other one.  Before its round `k` the first `k` of them are recorded and counted, the
neighborhood is not explored, and the entry that is added then is of the coordinate that is next and
lacking.  In the end the neighborhood is explored, or nothing is lacking. -/
theorem explore_in_order (measure : Measure α) :
    (∀ n : Neighborhood α, n.ball.Fits →
      (n.measured.has n.home = false → n.next? = some n.home) ∧
      (n.measured.has n.home = true → ∀ c,
        n.next? = some c ↔ n.Lacks c ∧ ∀ other, n.Lacks other → c = other ∨ c < other) ∧
      (n.next? = none ↔ ∀ c, ¬n.Lacks c)) ∧
    ∀ (s : HillClimb α) (home : Coordinate), (s.neighborhood home).ball.Fits →
      home.size = s.generator.space.dimensions.slots.length → s.HasNamesFor home →
      ∃ added t,
        s.explore measure home ((s.neighborhood home).ball.count + 1) = .ok t ∧
        t.measured = s.measured ++ added ∧
        (t.neighborhood home).measuredCount =
          (s.neighborhood home).measuredCount + added.length ∧
        ((t.neighborhood home).isExplored = true ∨ ∀ c, ¬(t.neighborhood home).Lacks c) ∧
        ∀ k (hk : k < added.length), ∃ u,
          s.explore measure home k = .ok u ∧
          u.measured = s.measured ++ added.take k ∧
          (u.neighborhood home).measuredCount = (s.neighborhood home).measuredCount + k ∧
          (u.neighborhood home).isExplored = false ∧
          (u.neighborhood home).next? = some added[k].1 ∧
          (u.neighborhood home).Lacks added[k].1 := by
  constructor
  · intro n hfits
    exact ⟨Neighborhood.next?_of_new, fun hhome c => Neighborhood.next?_eq_some_iff hfits hhome,
      Neighborhood.next?_eq_none_iff hfits⟩
  · intro s home hfits hsize hnames
    obtain ⟨added, t, hexplore, hexplores, hfinished, hrounds⟩ :=
      exists_explore measure hfits hsize hnames (card_missing_le s home)
    refine ⟨added, t, hexplore, hexplores.record, hexplores.count, hfinished, ?_⟩
    intro k hk
    obtain ⟨u, hu, hbefore, hadds⟩ := hrounds k hk
    have hcount := hbefore.count
    rw [List.length_take, Nat.min_eq_left hk.le] at hcount
    exact ⟨u, hu, hbefore.record, hcount, hadds.unexplored, hadds.next, hadds.lacks⟩

/-- A search for batch sizes that has measured one neighbor of a home and a coordinate far away. -/
def surrounded : HillClimb ℚ where
  generator := batchGenerator
  names := .empty
  constraints := [none]
  measured := [(⟨[1]⟩, none), (⟨[9]⟩, none)]

/-- Around this home two coordinates are to be added: home, and the other neighbor. -/
theorem explore_in_order_of_surrounded :
    (surrounded.neighborhood ⟨[2]⟩).ball.Fits ∧ surrounded.HasNamesFor ⟨[2]⟩ ∧
      (surrounded.neighborhood ⟨[2]⟩).next? = some ⟨[2]⟩ ∧
      ∃ added t, surrounded.explore (fun _ _ => none) ⟨[2]⟩ 3 = .ok t ∧
        t.measured = surrounded.measured ++ added ∧ added.length = 2 ∧
        (t.neighborhood ⟨[2]⟩).measuredCount = 3 := by
  have hfits : (surrounded.neighborhood ⟨[2]⟩).ball.Fits := by
    intro slot hslot
    rw [List.mem_singleton.mp (show slot ∈ [2] from hslot)]
    decide
  have hnames : surrounded.HasNamesFor ⟨[2]⟩ := by
    intro entity
    show 0 + 2 * 2 < UInt64.size
    decide
  obtain ⟨hnext, hloop⟩ := explore_in_order (α := ℚ) fun _ _ => none
  obtain ⟨added, t, hexplore, hrecord, hcount, -, -⟩ :=
    hloop surrounded ⟨[2]⟩ hfits rfl hnames
  have hrun : ∃ t, surrounded.explore (fun _ _ => none) ⟨[2]⟩ 3 = .ok t ∧
      (t.neighborhood ⟨[2]⟩).measuredCount = 3 := exists_ok_of_any (by decide +kernel)
  obtain ⟨t', hexplore', hcount'⟩ := hrun
  obtain rfl : t = t' := Except.ok.inj (hexplore.symm.trans hexplore')
  have hbefore : (surrounded.neighborhood ⟨[2]⟩).measuredCount = 1 := by decide
  refine ⟨hfits, hnames, (hnext _ hfits).1 (by decide), added, t, hexplore, hrecord, ?_, hcount'⟩
  omega

end HillClimb

end ServingTuner
