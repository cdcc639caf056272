import Mathlib
import ServingTuner.Coordinate.Ball

/-!
# Readings of the odometer

The offsets around a center are counted through like the wheels of an odometer.  `readings` lists
what the odometer shows in the order of a lexicographic enumeration, the zero offsets included, and
`turns` says that `advance` goes through exactly that list: it starts at the first reading, takes
every reading to the one after it, and stops at the last.  Each slot adds one wheel, so all of it is
by induction on the slots; what happens where one wheel moves on and the wheels after it start anew
is the junction of two blocks of the list.
-/

namespace ServingTuner

namespace Ball

/-! ### One wheel -/

/-- The positions of the wheel of one slot. -/
def wheel (radius slot : UInt32) : List ℤ :=
  (List.range (min radius.toNat slot.toNat + radius.toNat + 1)).map
    fun i : ℕ => leastOffset radius slot + (i : ℤ)

/-- The least offset lies as far below zero as the radius and the slot both allow. -/
lemma leastOffset_eq (radius slot : UInt32) :
    leastOffset radius slot = -((min radius.toNat slot.toNat : ℕ) : ℤ) := by
  unfold leastOffset
  omega

/-- A wheel runs through the offsets from the least one up to the radius. -/
lemma mem_wheel {radius slot : UInt32} {d : ℤ} :
    d ∈ wheel radius slot ↔ leastOffset radius slot ≤ d ∧ d ≤ radius.toNat := by
  rw [wheel, List.mem_map, leastOffset_eq]
  constructor
  · rintro ⟨i, hi, rfl⟩
    rw [List.mem_range] at hi
    omega
  · rintro ⟨hlow, hhigh⟩
    refine ⟨(d + (min radius.toNat slot.toNat : ℕ)).toNat, ?_, ?_⟩
    · rw [List.mem_range]
      omega
    · omega

/-- A wheel has as many positions as the slot can go down, the center, and the radius up. -/
lemma length_wheel (radius slot : UInt32) :
    (wheel radius slot).length = min radius.toNat slot.toNat + radius.toNat + 1 := by
  simp [wheel]

/-- A wheel starts at the least offset. -/
lemma head?_wheel (radius slot : UInt32) :
    (wheel radius slot).head? = some (leastOffset radius slot) := by
  simp [wheel, List.range_succ_eq_map]

/-- A wheel ends at the radius. -/
lemma getLast?_wheel (radius slot : UInt32) :
    (wheel radius slot).getLast? = some (radius.toNat : ℤ) := by
  rw [wheel, List.getLast?_map, List.getLast?_range, if_neg (by omega), Option.map_some,
    leastOffset_eq]
  congr 1
  omega

/-- Every position of a wheel is one more than the position before it. -/
lemma isChain_wheel (radius slot : UInt32) :
    (wheel radius slot).IsChain fun a b => b = a + 1 := by
  rw [wheel, List.isChain_map]
  refine (List.isChain_range_succ (fun i j => j = i + 1) _).mpr ?_ |>.imp ?_
  · intro i _
    rfl
  · intro i j hij
    rw [hij]
    push_cast
    ring

/-- The positions of a wheel increase. -/
lemma pairwise_wheel (radius slot : UInt32) : (wheel radius slot).Pairwise (· < ·) := by
  rw [wheel, List.pairwise_map]
  refine List.pairwise_lt_range.imp ?_
  intro i j hij
  omega

/-! ### All wheels -/

/-- What the odometer shows, reading after reading. -/
def readings (radius : UInt32) : List UInt32 → List (List ℤ)
  | [] => [[]]
  | slot :: slots => (wheel radius slot).flatMap fun d => (readings radius slots).map (d :: ·)

/-- The readings are the lists of one position for every wheel. -/
lemma mem_readings {radius : UInt32} {slots : List UInt32} {ds : List ℤ} :
    ds ∈ readings radius slots ↔
      List.Forall₂ (fun slot d => leastOffset radius slot ≤ d ∧ d ≤ radius.toNat) slots ds := by
  induction slots generalizing ds with
  | nil => simp [readings]
  | cons slot slots ih =>
    simp only [readings, List.mem_flatMap, List.mem_map, mem_wheel, List.forall₂_cons_left_iff]
    constructor
    · rintro ⟨d, hd, rest, hrest, rfl⟩
      exact ⟨d, rest, hd, ih.mp hrest, rfl⟩
    · rintro ⟨d, rest, hd, hrest, rfl⟩
      exact ⟨d, hd, rest, ih.mpr hrest, rfl⟩

/-- The number of readings is the product of the numbers of positions. -/
lemma length_readings (radius : UInt32) (slots : List UInt32) :
    (readings radius slots).length =
      (slots.map fun slot => min radius.toNat slot.toNat + radius.toNat + 1).prod := by
  induction slots with
  | nil => rfl
  | cons slot slots ih =>
    simp [readings, List.length_flatMap, length_wheel, ih]

/-- The readings increase in lexicographic order, with the first wheel the most significant. -/
lemma pairwise_readings (radius : UInt32) (slots : List UInt32) :
    (readings radius slots).Pairwise (· < ·) := by
  induction slots with
  | nil => simp [readings]
  | cons slot slots ih =>
    rw [readings, List.pairwise_flatMap]
    constructor
    · intro d _
      rw [List.pairwise_map]
      refine ih.imp ?_
      intro a b hab
      exact List.cons_lt_cons_self.mpr hab
    · refine (pairwise_wheel radius slot).imp ?_
      intro d e hde x hx y hy
      obtain ⟨a, -, rfl⟩ := List.mem_map.mp hx
      obtain ⟨b, -, rfl⟩ := List.mem_map.mp hy
      exact List.cons_lt_cons_iff.mpr (Or.inl hde)

/-! ### Counting -/

/-- A list of blocks is a chain when every block is one and each junction of two blocks links. -/
lemma isChain_flatMap {α β : Type*} {S : α → α → Prop} {R : β → β → Prop} {f : α → List β}
    {l : List α} (hl : l.IsChain S) (hne : ∀ a, f a ≠ []) (hblock : ∀ a ∈ l, (f a).IsChain R)
    (hjoin : ∀ a ∈ l, ∀ b ∈ l, S a b → ∀ x ∈ (f a).getLast?, ∀ y ∈ (f b).head?, R x y) :
    (l.flatMap f).IsChain R := by
  induction l with
  | nil => simp
  | cons a l ih =>
    rw [List.isChain_cons] at hl
    rw [List.flatMap_cons]
    have hrest : (l.flatMap f).IsChain R :=
      ih hl.2 (fun b hb => hblock b (by simp [hb]))
        (fun b hb c hc => hjoin b (by simp [hb]) c (by simp [hc]))
    refine List.IsChain.append (hblock a (by simp)) hrest ?_
    intro x hx y hy
    cases l with
    | nil => simp at hy
    | cons b l =>
      rw [List.flatMap_cons, List.head?_append_of_ne_nil _ (hne b)] at hy
      exact hjoin a (by simp) b (by simp) (hl.1 b rfl) x hx y hy

/-- `advance` goes through a list of readings: where it starts, which reading follows which, and
where it stops. -/
structure Turns (radius : UInt32) (slots : List UInt32) : Prop where
  start : (readings radius slots).head? = some (slots.map (leastOffset radius))
  chain : (readings radius slots).IsChain fun a b => advance radius slots a = some b
  stop : ∀ ds ∈ (readings radius slots).getLast?, advance radius slots ds = none

/-- The reading of the wheels behind the first one moves on while there is one after it. -/
lemma advance_cons_of_some {radius slot : UInt32} {slots : List UInt32} {d : ℤ} {ds ds' : List ℤ}
    (h : advance radius slots ds = some ds') :
    advance radius (slot :: slots) (d :: ds) = some (d :: ds') := by
  simp [advance, h]

/-- The first wheel moves on when the wheels behind it are at their end. -/
lemma advance_cons_of_none {radius slot : UInt32} {slots : List UInt32} {d : ℤ} {ds : List ℤ}
    (h : advance radius slots ds = none) :
    advance radius (slot :: slots) (d :: ds) =
      if d < radius.toNat then some ((d + 1) :: slots.map (leastOffset radius)) else none := by
  simp [advance, h]

/-- The readings with the first wheel at one position. -/
def block (radius : UInt32) (slots : List UInt32) (d : ℤ) : List (List ℤ) :=
  (readings radius slots).map (d :: ·)

/-- A block starts with the wheels behind the first one at their least offsets. -/
lemma Turns.head?_block {radius : UInt32} {slots : List UInt32} (h : Turns radius slots) (d : ℤ) :
    (block radius slots d).head? = some (d :: slots.map (leastOffset radius)) := by
  rw [block, List.head?_map, h.start, Option.map_some]

/-- No block is empty. -/
lemma Turns.block_ne_nil {radius : UInt32} {slots : List UInt32} (h : Turns radius slots) (d : ℤ) :
    block radius slots d ≠ [] := by
  intro hd
  have hhead := h.head?_block d
  rw [hd] at hhead
  simp at hhead

/-- Inside a block only the wheels behind the first one move. -/
lemma Turns.chain_block {radius slot : UInt32} {slots : List UInt32} (h : Turns radius slots)
    (d : ℤ) :
    (block radius slots d).IsChain fun a b => advance radius (slot :: slots) a = some b := by
  rw [block, List.isChain_map]
  exact h.chain.imp fun a b hab => advance_cons_of_some hab

/-- After the last reading of a block the first wheel moves on, unless it is at its end. -/
lemma Turns.advance_last_block {radius slot : UInt32} {slots : List UInt32}
    (h : Turns radius slots) {d : ℤ} {x : List ℤ} (hx : x ∈ (block radius slots d).getLast?) :
    advance radius (slot :: slots) x =
      if d < radius.toNat then some ((d + 1) :: slots.map (leastOffset radius)) else none := by
  rw [block, List.getLast?_map, Option.mem_map] at hx
  obtain ⟨ds, hds, rfl⟩ := hx
  exact advance_cons_of_none (h.stop ds hds)

/-- The odometer shows all its readings in order. -/
theorem turns (radius : UInt32) (slots : List UInt32) : Turns radius slots := by
  induction slots with
  | nil => exact ⟨rfl, by simp [readings], by simp [readings, advance]⟩
  | cons slot slots ih =>
    have hblocks : readings radius (slot :: slots) =
        (wheel radius slot).flatMap (block radius slots) := rfl
    refine ⟨?_, ?_, ?_⟩
    · obtain ⟨rest, hrest⟩ := List.head?_eq_some_iff.mp (head?_wheel radius slot)
      rw [hblocks, hrest, List.flatMap_cons, List.head?_append_of_ne_nil _ (ih.block_ne_nil _),
        ih.head?_block, List.map_cons]
    · rw [hblocks]
      refine isChain_flatMap (isChain_wheel radius slot) ih.block_ne_nil
        (fun d _ => ih.chain_block d) ?_
      -- The junction of two blocks is where the first wheel moves from `d` on to `e`.
      intro d _ e he hde x hx y hy
      have hbound : d < radius.toNat := by
        have := (mem_wheel.mp he).2
        omega
      rw [ih.head?_block, Option.mem_some_iff] at hy
      rw [ih.advance_last_block hx, if_pos hbound, ← hy, hde]
    · intro ds hds
      obtain ⟨init, hinit⟩ := List.getLast?_eq_some_iff.mp (getLast?_wheel radius slot)
      rw [hblocks, hinit, List.flatMap_append, List.flatMap_singleton,
        List.getLast?_append_of_ne_nil _ (ih.block_ne_nil _)] at hds
      rw [ih.advance_last_block hds, if_neg (lt_irrefl _)]

end Ball

end ServingTuner
