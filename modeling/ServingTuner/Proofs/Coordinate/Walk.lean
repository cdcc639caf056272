import Mathlib
import ServingTuner.Proofs.Coordinate.Distance
import ServingTuner.Proofs.Coordinate.Odometer

/-!
# Walking through a ball

A cursor meets the readings of the odometer in order and passes over the zero offsets.  `offsets` is
the list of the others, and everything about a cursor is read off it by position: the cursor starts
at the first entry (`first_eq`), `next` takes the `k`-th entry to the one after it
(`next_offsets`), and after the last entry comes the end.  `walk_ball` collects what this says about
a whole walk, and where no slot wraps it says which coordinates are met.
-/

namespace ServingTuner

namespace Ball

variable {ball : Ball}

/-! ### The offsets of the neighbors -/

/-- The readings other than the zero offsets, in order. -/
def offsets (ball : Ball) : List (List ℤ) :=
  (readings ball.radius ball.center.slots).filter fun ds => !ds.all (· == 0)

/-- Offsets from the center to a neighbor: no slot moves further than the radius or below zero, and
some slot moves. -/
structure IsOffset (ball : Ball) (ds : List ℤ) : Prop where
  inside : List.Forall₂ (fun (slot : UInt32) (d : ℤ) =>
    max (-(ball.radius.toNat : ℤ)) (-(slot.toNat : ℤ)) ≤ d ∧ d ≤ ball.radius.toNat)
    ball.center.slots ds
  moves : ∃ d ∈ ds, d ≠ 0

/-- The offsets of the neighbors are all those that the ball allows. -/
lemma mem_offsets {ds : List ℤ} : ds ∈ ball.offsets ↔ ball.IsOffset ds := by
  rw [offsets, List.mem_filter, mem_readings]
  constructor
  · rintro ⟨hinside, hmoves⟩
    exact ⟨hinside, by simpa using hmoves⟩
  · rintro ⟨hinside, hmoves⟩
    exact ⟨hinside, by simpa using hmoves⟩

/-- The offsets of the neighbors increase. -/
lemma pairwise_offsets (ball : Ball) : ball.offsets.Pairwise (· < ·) :=
  (pairwise_readings ball.radius ball.center.slots).filter _

/-- A reading has one position for every slot. -/
lemma length_of_mem_readings {radius : UInt32} {slots : List UInt32} {ds : List ℤ}
    (h : ds ∈ readings radius slots) : ds.length = slots.length :=
  (mem_readings.mp h).length_eq.symm

/-- Positions that are all zero are determined by their number. -/
lemma eq_replicate_of_all_zero {ds : List ℤ} (h : ds.all (· == 0) = true) :
    ds = List.replicate ds.length 0 := by
  rw [List.eq_replicate_iff]
  exact ⟨rfl, by simpa using h⟩

/-- The zero offsets are a reading. -/
lemma zero_mem_readings (radius : UInt32) (slots : List UInt32) :
    List.replicate slots.length 0 ∈ readings radius slots := by
  rw [mem_readings]
  induction slots with
  | nil => simp
  | cons slot slots ih =>
    rw [List.length_cons, List.replicate_succ, List.forall₂_cons]
    refine ⟨?_, ih⟩
    rw [leastOffset_eq]
    omega

/-- There is one offset vector for every reading but the zero offsets. -/
lemma length_offsets (ball : Ball) : ball.offsets.length = ball.count := by
  set all := readings ball.radius ball.center.slots with hall
  have hzeros : ∀ ds ∈ all, ds.all (· == 0) = (ds == List.replicate ball.center.slots.length 0) := by
    intro ds hds
    rw [← length_of_mem_readings hds, Bool.eq_iff_iff, beq_iff_eq]
    exact ⟨eq_replicate_of_all_zero, fun h => by rw [h]; simp⟩
  have hone : all.countP (fun ds => ds.all (· == 0)) = 1 := by
    rw [List.countP_congr fun ds hds => by rw [hzeros ds hds], ← List.count_eq_countP]
    exact List.count_eq_one_of_mem (pairwise_readings _ _).nodup (zero_mem_readings _ _)
  have hsplit := List.length_eq_countP_add_countP (fun ds : List ℤ => ds.all (· == 0)) (l := all)
  have hothers : ball.offsets.length =
      all.countP fun ds => decide ¬(ds.all (· == 0) = true) := by
    rw [offsets, ← List.countP_eq_length_filter]
    exact List.countP_congr fun ds _ => by simp
  rw [hone, length_readings] at hsplit
  rw [hothers, count, ← List.prod_eq_foldr, hsplit, Nat.add_sub_cancel_left]

/-! ### Positions of a cursor -/

/-- The reading after one that stands before `rest` is the first of `rest`. -/
lemma advance_of_suffix {radius : UInt32} {slots : List UInt32} {ds : List ℤ}
    {rest : List (List ℤ)} (h : ds :: rest <:+ readings radius slots) :
    advance radius slots ds = rest.head? := by
  obtain ⟨before, hbefore⟩ := h
  have hturns := turns radius slots
  cases rest with
  | nil =>
    refine hturns.stop ds ?_
    rw [← hbefore, List.getLast?_append_of_ne_nil _ (by simp)]
    rfl
  | cons next rest =>
    have hchain := hturns.chain
    rw [← hbefore, List.isChain_append_cons_cons] at hchain
    exact hchain.2.1

/-- Passing over the zero offsets finds the first entry of `offsets` among the readings left. -/
lemma skipCenter_of_suffix {rest : List (List ℤ)}
    (h : rest <:+ readings ball.radius ball.center.slots) :
    rest.head?.bind ball.skipCenter = (rest.filter fun ds => !ds.all (· == 0)).head? := by
  cases rest with
  | nil => rfl
  | cons ds rest =>
    by_cases hzero : ds.all (· == 0) = true
    · -- The readings increase, so the one after the zero offsets is another one.
      have hnext : ∀ e ∈ rest.head?, e.all (· == 0) = false := by
        intro e he
        by_contra hall
        rw [Bool.not_eq_false] at hall
        have hlt : ds < e := by
          have hsorted := (pairwise_readings ball.radius ball.center.slots).sublist h.sublist
          exact (List.pairwise_cons.mp hsorted).1 e (List.mem_of_head? he)
        have hlength : ds.length = e.length := by
          rw [length_of_mem_readings (h.subset (by simp)),
            length_of_mem_readings (h.subset (List.mem_cons_of_mem _ (List.mem_of_head? he)))]
        rw [eq_replicate_of_all_zero hzero, eq_replicate_of_all_zero hall, hlength] at hlt
        exact lt_irrefl _ hlt
      rw [List.head?_cons, Option.bind_some, skipCenter, if_pos hzero, advance_of_suffix h,
        List.filter_cons_of_neg (by simp [hzero])]
      cases rest with
      | nil => rfl
      | cons e rest =>
        rw [List.filter_cons_of_pos (by simp [hnext e rfl]), List.head?_cons, List.head?_cons]
    · rw [List.head?_cons, Option.bind_some, skipCenter, if_neg hzero,
        List.filter_cons_of_pos (by simpa using hzero), List.head?_cons]

/-- A walk starts at the first entry of `offsets`. -/
lemma first_eq (ball : Ball) : ball.first = ⟨ball.offsets[0]?⟩ := by
  have hskip := skipCenter_of_suffix
    (List.suffix_refl (readings ball.radius ball.center.slots))
  rw [(turns ball.radius ball.center.slots).start, Option.bind_some] at hskip
  rw [first, hskip, ← List.head?_eq_getElem?, offsets]

/-- A step of a cursor goes from every entry among the readings left to the one after it. -/
lemma next_of_suffix {rest : List (List ℤ)} (h : rest <:+ readings ball.radius ball.center.slots)
    (k : ℕ) :
    (⟨(rest.filter fun ds => !ds.all (· == 0))[k]?⟩ : ball.Cursor).next =
      ⟨(rest.filter fun ds => !ds.all (· == 0))[k + 1]?⟩ := by
  induction rest generalizing k with
  | nil => simp [Cursor.next]
  | cons ds rest ih =>
    have hrest : rest <:+ readings ball.radius ball.center.slots :=
      (List.suffix_cons ds rest).trans h
    by_cases hzero : ds.all (· == 0) = true
    · rw [List.filter_cons_of_neg (by simp [hzero])]
      exact ih hrest k
    · rw [List.filter_cons_of_pos (by simpa using hzero)]
      cases k with
      | zero =>
        rw [List.getElem?_cons_zero, List.getElem?_cons_succ, ← List.head?_eq_getElem?,
          ← skipCenter_of_suffix hrest, ← advance_of_suffix h]
        rfl
      | succ k =>
        rw [List.getElem?_cons_succ, List.getElem?_cons_succ]
        exact ih hrest k

/-- A step of a cursor goes from every entry of `offsets` to the one after it. -/
lemma next_offsets (ball : Ball) (k : ℕ) :
    (⟨ball.offsets[k]?⟩ : ball.Cursor).next = ⟨ball.offsets[k + 1]?⟩ :=
  next_of_suffix (List.suffix_refl _) k

/-- After `k` steps a walk stands at the `k`-th entry of `offsets`, or at the end. -/
lemma iterate_next_first (ball : Ball) (k : ℕ) :
    Cursor.next^[k] ball.first = ⟨ball.offsets[k]?⟩ := by
  induction k with
  | zero => exact first_eq ball
  | succ k ih => rw [Function.iterate_succ_apply', ih, next_offsets]

/-- Taking neighbors reads off the entries of `offsets` from the position of the cursor on. -/
lemma take_offsets (ball : Ball) (n k : ℕ) :
    (⟨ball.offsets[k]?⟩ : ball.Cursor).take n =
      (((ball.offsets.drop k).take n).map ball.shifted, ⟨ball.offsets[k + n]?⟩) := by
  induction n generalizing k with
  | zero => simp [Cursor.take]
  | succ n ih =>
    by_cases hk : k < ball.offsets.length
    · have hhere : (⟨ball.offsets[k]?⟩ : ball.Cursor).here? =
          some (ball.shifted ball.offsets[k]) := by
        simp [Cursor.here?, List.getElem?_eq_getElem hk]
      rw [Cursor.take, hhere, next_offsets, ih, List.drop_eq_getElem_cons hk, List.take_succ_cons,
        List.map_cons, Nat.add_assoc, Nat.add_comm 1 n]
    · rw [List.getElem?_eq_none (by omega), List.getElem?_eq_none (by omega),
        List.drop_eq_nil_of_le (by omega)]
      simp [Cursor.take, Cursor.here?]

/-- The neighbors lie at the entries of `offsets`. -/
lemma neighbors_eq (ball : Ball) : ball.neighbors = ball.offsets.map ball.shifted := by
  rw [neighbors, first_eq, take_offsets, ← length_offsets, List.drop_zero, List.take_length]

/-! ### Moved slots -/

/-- An integer as a 32-bit word, over the integers. -/
lemma toNat_ofInt (x : ℤ) : ((UInt32.ofInt x).toNat : ℤ) = x % 2 ^ 32 := by
  rw [UInt32.ofInt, UInt32.toNat_ofNat']
  omega

/-- A slot that is moved comes back to where it was only if it is moved by nothing. -/
lemma ofInt_add_eq_iff {radius slot : UInt32} {d : ℤ}
    (hd : leastOffset radius slot ≤ d ∧ d ≤ radius.toNat) :
    UInt32.ofInt (slot.toNat + d) = slot ↔ d = 0 := by
  have hslot := slot.toNat_lt
  have hradius := radius.toNat_lt
  have hmoved := toNat_ofInt (slot.toNat + d)
  rw [leastOffset_eq] at hd
  rw [← UInt32.toNat_inj]
  omega

/-- No offsets but the zero offsets lead to the center. -/
lemma shifted_eq_center_iff {ds : List ℤ} (hds : ds ∈ readings ball.radius ball.center.slots) :
    ball.shifted ds = ball.center ↔ ds.all (· == 0) = true := by
  have hbounds := mem_readings.mp hds
  clear hds
  obtain ⟨⟨slots⟩, radius⟩ := ball
  rw [shifted, Coordinate.mk.injEq]
  dsimp only at hbounds ⊢
  induction hbounds with
  | nil => simp
  | cons hd _ ih =>
    rw [List.zipWith_cons_cons, List.cons.injEq, ofInt_add_eq_iff hd, List.all_cons,
      Bool.and_eq_true, beq_iff_eq]
    exact and_congr_right' ih

/-- What offsets lead to has as many slots as the center. -/
lemma size_shifted {ds : List ℤ} (hds : ds ∈ readings ball.radius ball.center.slots) :
    (ball.shifted ds).size = ball.center.size := by
  rw [shifted, Coordinate.size, List.length_zipWith, length_of_mem_readings hds, Nat.min_self]
  rfl

/-- Neighbors have as many slots as the center, even where slots wrap. -/
lemma size_of_mem_neighbors {c : Coordinate} (h : c ∈ ball.neighbors) :
    c.size = ball.center.size := by
  rw [neighbors_eq] at h
  obtain ⟨ds, hds, rfl⟩ := List.mem_map.mp h
  exact size_shifted (List.mem_of_mem_filter hds)

/-- A coordinate of the center's size is some way off exactly if it is another one. -/
lemma one_le_distance_iff {c : Coordinate} (hsize : c.size = ball.center.size) :
    1 ≤ ball.center.distance c ↔ c ≠ ball.center := by
  rw [ne_comm, ne_eq, ← Coordinate.distance_eq_zero_iff hsize.symm, ← UInt32.toNat_inj,
    UInt32.le_iff_toNat_le]
  simp [Nat.one_le_iff_ne_zero]

/-- A walk never meets the center, even where slots wrap. -/
lemma one_le_distance_of_mem_neighbors {c : Coordinate} (h : c ∈ ball.neighbors) :
    1 ≤ ball.center.distance c := by
  rw [one_le_distance_iff (size_of_mem_neighbors h)]
  rw [neighbors_eq] at h
  obtain ⟨ds, hds, rfl⟩ := List.mem_map.mp h
  obtain ⟨hreading, hmoves⟩ := List.mem_filter.mp hds
  rw [ne_eq, shifted_eq_center_iff hreading]
  simpa using hmoves

/-! ### Slots that do not wrap -/

/-- No slot of a ball leaves the 32-bit range. -/
def Fits (ball : Ball) : Prop :=
  ∀ slot ∈ ball.center.slots, slot.toNat + ball.radius.toNat ≤ 2 ^ 32 - 1

/-- A slot that fits is moved by exactly its offset. -/
lemma toNat_ofInt_add {radius slot : UInt32} {d : ℤ}
    (hfit : slot.toNat + radius.toNat ≤ 2 ^ 32 - 1)
    (hd : leastOffset radius slot ≤ d ∧ d ≤ radius.toNat) :
    ((UInt32.ofInt (slot.toNat + d)).toNat : ℤ) = slot.toNat + d := by
  rw [leastOffset_eq] at hd
  rw [toNat_ofInt]
  omega

/-- Greater offsets lead to greater slots. -/
lemma zipWith_ofInt_lt {radius : UInt32} {slots : List UInt32} {ds es : List ℤ}
    (hfits : ∀ slot ∈ slots, slot.toNat + radius.toNat ≤ 2 ^ 32 - 1)
    (hds : ds ∈ readings radius slots) (hes : es ∈ readings radius slots) (hlt : ds < es) :
    List.zipWith (fun slot d => UInt32.ofInt (slot.toNat + d)) slots ds <
      List.zipWith (fun slot d => UInt32.ofInt (slot.toNat + d)) slots es := by
  rw [mem_readings] at hds hes
  induction hds generalizing es with
  | nil =>
    rw [List.forall₂_nil_left_iff] at hes
    rw [hes] at hlt
    exact absurd hlt (lt_irrefl _)
  | @cons slot d slots ds hd hds ih =>
    obtain ⟨e, rest, he, hrest, rfl⟩ := List.forall₂_cons_left_iff.mp hes
    have hslot := hfits slot (by simp)
    have hdexact := toNat_ofInt_add hslot hd
    have heexact := toNat_ofInt_add hslot he
    rw [List.zipWith_cons_cons, List.zipWith_cons_cons, List.cons_lt_cons_iff]
    rcases List.cons_lt_cons_iff.mp hlt with hde | ⟨rfl, htail⟩
    · left
      rw [UInt32.lt_iff_toNat_lt]
      omega
    · exact Or.inr ⟨rfl, ih (fun s hs => hfits s (by simp [hs])) hrest htail⟩

/-- Without wrapping the neighbors increase. -/
lemma Fits.pairwise_neighbors (hfits : ball.Fits) : ball.neighbors.Pairwise (· < ·) := by
  rw [neighbors_eq, List.pairwise_map]
  refine (pairwise_offsets ball).imp_of_mem ?_
  intro ds es hds hes hlt
  exact zipWith_ofInt_lt hfits (List.mem_of_mem_filter hds) (List.mem_of_mem_filter hes) hlt

/-- Without wrapping the offsets of a slot lead to the values within the radius. -/
lemma abs_sub_le_iff_exists_offset {radius slot moved : UInt32}
    (hfits : slot.toNat + radius.toNat ≤ 2 ^ 32 - 1) :
    |(slot.toNat : ℤ) - moved.toNat| ≤ radius.toNat ↔
      ∃ d, (leastOffset radius slot ≤ d ∧ d ≤ radius.toNat) ∧
        UInt32.ofInt (slot.toNat + d) = moved := by
  constructor
  · intro h
    have hrange : leastOffset radius slot ≤ (moved.toNat : ℤ) - slot.toNat ∧
        (moved.toNat : ℤ) - slot.toNat ≤ radius.toNat := by
      rw [leastOffset_eq]
      rw [abs_le] at h
      omega
    refine ⟨_, hrange, ?_⟩
    have hexact := toNat_ofInt_add hfits hrange
    rw [← UInt32.toNat_inj]
    omega
  · rintro ⟨d, hd, rfl⟩
    rw [toNat_ofInt_add hfits hd]
    rw [leastOffset_eq] at hd
    rw [abs_le]
    omega

/-- Without wrapping the readings lead to the coordinates within the radius. -/
lemma forall₂_iff_exists_reading {radius : UInt32} {slots moved : List UInt32}
    (hfits : ∀ slot ∈ slots, slot.toNat + radius.toNat ≤ 2 ^ 32 - 1) :
    List.Forall₂ (fun x y : UInt32 => |(x.toNat : ℤ) - y.toNat| ≤ radius.toNat) slots moved ↔
      ∃ ds ∈ readings radius slots,
        List.zipWith (fun slot d => UInt32.ofInt (slot.toNat + d)) slots ds = moved := by
  simp only [mem_readings]
  induction slots generalizing moved with
  | nil => simp [eq_comm]
  | cons slot slots ih =>
    obtain ⟨hslot, hslots⟩ := List.forall_mem_cons.mp hfits
    constructor
    · intro h
      obtain ⟨m, rest, hm, hrest, rfl⟩ := List.forall₂_cons_left_iff.mp h
      obtain ⟨d, hd, rfl⟩ := (abs_sub_le_iff_exists_offset hslot).mp hm
      obtain ⟨ds, hds, rfl⟩ := (ih hslots).mp hrest
      exact ⟨d :: ds, .cons hd hds, rfl⟩
    · rintro ⟨ds, hds, rfl⟩
      obtain ⟨d, rest, hd, hrest, rfl⟩ := List.forall₂_cons_left_iff.mp hds
      have hm := (abs_sub_le_iff_exists_offset hslot).mpr ⟨d, hd, rfl⟩
      exact .cons hm ((ih hslots).mpr ⟨rest, hrest, rfl⟩)

/-- Without wrapping the center can be shifted to just the coordinates within the radius. -/
lemma Fits.exists_shifted_iff (hfits : ball.Fits) {c : Coordinate} :
    (∃ ds ∈ readings ball.radius ball.center.slots, ball.shifted ds = c) ↔
      c.size = ball.center.size ∧ ball.center.distance c ≤ ball.radius := by
  have hslots : (∃ ds ∈ readings ball.radius ball.center.slots, ball.shifted ds = c) ↔
      List.Forall₂ (fun x y : UInt32 => |(x.toNat : ℤ) - y.toNat| ≤ ball.radius.toNat)
        ball.center.slots c.slots := by
    rw [forall₂_iff_exists_reading hfits]
    cases c
    simp only [shifted, Coordinate.mk.injEq]
  rw [hslots]
  constructor
  · intro h
    have hsize : ball.center.size = c.size := h.length_eq
    exact ⟨hsize.symm, (Coordinate.distance_le_iff hsize _).mpr h⟩
  · rintro ⟨hsize, hdist⟩
    exact (Coordinate.distance_le_iff hsize.symm _).mp hdist

/-- Without wrapping the neighbors are the other coordinates within the radius. -/
lemma Fits.mem_neighbors (hfits : ball.Fits) {c : Coordinate} :
    c ∈ ball.neighbors ↔
      c.size = ball.center.size ∧ 1 ≤ ball.center.distance c ∧
        ball.center.distance c ≤ ball.radius := by
  constructor
  · intro hneighbor
    have hpos := one_le_distance_of_mem_neighbors hneighbor
    rw [neighbors_eq, List.mem_map] at hneighbor
    obtain ⟨ds, hds, rfl⟩ := hneighbor
    obtain ⟨hsize, hdist⟩ := hfits.exists_shifted_iff.mp ⟨ds, List.mem_of_mem_filter hds, rfl⟩
    exact ⟨hsize, hpos, hdist⟩
  · rintro ⟨hsize, hpos, hdist⟩
    rw [neighbors_eq, List.mem_map]
    obtain ⟨ds, hds, rfl⟩ := hfits.exists_shifted_iff.mpr ⟨hsize, hdist⟩
    refine ⟨ds, List.mem_filter.mpr ⟨hds, ?_⟩, rfl⟩
    rw [one_le_distance_iff hsize, ne_eq, shifted_eq_center_iff hds] at hpos
    simpa using hpos

/-! ### A whole walk -/

/-- A walk through a ball meets one neighbor for every offset vector that the ball allows, in the
lexicographic order of these vectors: the `k`-th neighbor is the center moved by the `k`-th vector,
slot by slot and modulo `2 ^ 32`, and after the last one the walk is at its end.  If no slot leaves
the 32-bit range, then these are the coordinates at a distance from 1 up to the radius, each exactly
once and in lexicographic order. -/
theorem walk_ball (ball : Ball) :
    ∃ vectors : List (List ℤ),
      vectors.Pairwise (· < ·) ∧
      (∀ ds, ds ∈ vectors ↔ ball.IsOffset ds) ∧
      vectors.length =
        (ball.center.slots.map fun slot =>
          min ball.radius.toNat slot.toNat + ball.radius.toNat + 1).prod - 1 ∧
      (∀ k (hk : k < vectors.length), ∃ c,
        (Cursor.next^[k] ball.first).here? = some c ∧
        c.slots.map (fun slot => (slot.toNat : ℤ)) =
          List.zipWith (fun slot d => ((slot.toNat : ℤ) + d) % 2 ^ 32)
            ball.center.slots vectors[k]) ∧
      Cursor.next^[vectors.length] ball.first = ball.last ∧
      (∀ n, vectors.length ≤ n → ball.first.take n = (ball.neighbors, ball.last)) ∧
      ball.neighbors.length = vectors.length ∧
      (ball.Fits →
        ball.neighbors.Pairwise (· < ·) ∧
        ∀ c, c ∈ ball.neighbors ↔
          c.size = ball.center.size ∧ 1 ≤ ball.center.distance c ∧
            ball.center.distance c ≤ ball.radius) := by
  refine ⟨ball.offsets, pairwise_offsets ball, fun ds => mem_offsets, ?_, ?_, ?_, ?_, ?_, ?_⟩
  · rw [length_offsets, count, List.prod_eq_foldr]
  · intro k hk
    refine ⟨ball.shifted ball.offsets[k], ?_, ?_⟩
    · rw [iterate_next_first, List.getElem?_eq_getElem hk]
      rfl
    · rw [shifted, List.map_zipWith]
      simp only [toNat_ofInt]
  · rw [iterate_next_first, List.getElem?_eq_none le_rfl]
    rfl
  · intro n hn
    rw [first_eq, take_offsets, List.drop_zero, List.take_of_length_le hn, neighbors_eq,
      List.getElem?_eq_none (by omega)]
    rfl
  · rw [neighbors_eq, List.length_map]
  · intro hfits
    exact ⟨hfits.pairwise_neighbors, fun c => hfits.mem_neighbors⟩

/-- Around a center at the edge of the range the walk meets just the coordinates on the inside. -/
theorem walk_ball_corner :
    (⟨⟨[0, 4294967293]⟩, 2⟩ : Ball).Fits ∧
      ∀ c, c ∈ (⟨⟨[0, 4294967293]⟩, 2⟩ : Ball).neighbors ↔
        c.size = 2 ∧ 1 ≤ (⟨[0, 4294967293]⟩ : Coordinate).distance c ∧
          (⟨[0, 4294967293]⟩ : Coordinate).distance c ≤ 2 := by
  have hfits : (⟨⟨[0, 4294967293]⟩, 2⟩ : Ball).Fits := by
    intro slot hslot
    simp only [List.mem_cons, List.not_mem_nil, or_false] at hslot
    rcases hslot with rfl | rfl <;> decide
  obtain ⟨vectors, -, -, -, -, -, -, -, hreach⟩ := walk_ball ⟨⟨[0, 4294967293]⟩, 2⟩
  exact ⟨hfits, (hreach hfits).2⟩

end Ball

end ServingTuner
