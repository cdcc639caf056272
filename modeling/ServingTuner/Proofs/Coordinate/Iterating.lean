import Mathlib
import ServingTuner.Coordinate.Iterator
import ServingTuner.Proofs.Coordinate.Walk

/-!
# Iterators are indices

An iterator turns its odometer in place, keeps the neighbor that it stands on, and has a mark for the
end.  Whatever is done with iterators over one ball, each of them behaves as an index into the list of
neighbors (`run_iterators`).

The relation is `Iterator.StandsAt`: inside the list an iterator shows the offsets of one neighbor, and
past it nothing but the mark is known, because the offsets differ by how the end was met.  Moving on
takes an iterator from an index to the one after it (`Iterator.StandsAt.increment`), which is the step
of a cursor.  Offsets at different indices are different, since they increase, and so comparing
iterators is comparing indices (`Iterator.StandsAt.beq_eq`).
-/

namespace ServingTuner

namespace Ball

variable {ball : Ball} {radius : UInt32} {slots : List UInt32} {ds ds' : List ℤ}

/-! ### Turning in place -/

/-- The reading after another one has a position for every slot. -/
lemma length_of_advance (h : advance radius slots ds = some ds') : ds'.length = slots.length := by
  induction slots generalizing ds ds' with
  | nil => cases ds <;> cases h
  | cons slot slots ih =>
    cases ds with
    | nil => cases h
    | cons d ds =>
      cases hrest : advance radius slots ds with
      | some rest =>
        rw [advance_cons_of_some hrest, Option.some.injEq] at h
        rw [← h, List.length_cons, List.length_cons, ih hrest]
      | none =>
        rw [advance_cons_of_none hrest] at h
        split_ifs at h
        cases h
        simp

/-- No neighbors are left around a center without slots, or with a radius of zero. -/
lemma offsets_eq_nil (h : (ball.center.slots.isEmpty || ball.radius == 0) = true) :
    ball.offsets = [] := by
  rw [← List.length_eq_zero_iff, length_offsets, count, ← List.prod_eq_foldr]
  rw [Bool.or_eq_true, List.isEmpty_iff, beq_iff_eq] at h
  rcases h with hslots | hradius
  · simp [hslots]
  · simp [hradius]

namespace Iterator

/-- Turning in place shows the next reading, or it starts anew. -/
lemma turn_eq (hlength : ds.length = slots.length) :
    turn radius slots ds =
      match advance radius slots ds with
      | some next => (next, true)
      | none => (slots.map (leastOffset radius), false) := by
  induction slots generalizing ds with
  | nil =>
    rw [List.length_eq_zero_iff.mp hlength]
    rfl
  | cons slot slots ih =>
    obtain ⟨d, rest, rfl⟩ := List.exists_cons_of_length_eq_add_one hlength
    have hrest := ih (Nat.succ.inj hlength)
    cases hadvance : advance radius slots rest with
    | some next => simp [turn, hrest, hadvance, advance_cons_of_some hadvance]
    | none =>
      rw [advance_cons_of_none hadvance]
      by_cases hd : d < radius.toNat
      · simp [turn, hrest, hadvance, hd]
      · simp [turn, hrest, hadvance, hd]

variable {it other : Iterator} {k l : ℕ}

/-- An iterator settles where a cursor does. -/
lemma settle_eq (hlength : it.offsets.length = it.ball.center.slots.length) :
    it.settle =
      match it.ball.skipCenter it.offsets with
      | some ds => { it with offsets := ds, current := it.ball.shifted ds }
      | none => { it with offsets := [], done := true } := by
  have hturn := @turn_eq it.ball.radius _ _ hlength
  rw [settle, skipCenter]
  split_ifs with hzero
  · cases hadvance : advance it.ball.radius it.ball.center.slots it.offsets with
    | some next =>
      rw [hadvance] at hturn
      split
      · rename_i offsets hoffsets
        obtain ⟨rfl, -⟩ := Prod.mk.inj (hoffsets.symm.trans hturn)
        rw [settle, if_neg (Bool.eq_false_iff.mp (not_zero_of_turn hzero hturn))]
      · rename_i offsets hoffsets
        cases hoffsets.symm.trans hturn
    | none =>
      rw [hadvance] at hturn
      split
      · rename_i offsets hoffsets
        cases hoffsets.symm.trans hturn
      · rfl
  · rfl

/-! ### Where an iterator stands -/

/-- An iterator stands at an index: at that of a neighbor it shows the neighbor's offsets and has the
neighbor ready, and at the end it is marked. -/
inductive StandsAt (ball : Ball) : Iterator → ℕ → Prop
  | inside {k : ℕ} (hk : k < ball.offsets.length) :
      StandsAt ball ⟨ball, ball.offsets[k], ball.shifted ball.offsets[k], false⟩ k
  | past {it : Iterator} (hdone : it.done = true) : StandsAt ball it ball.offsets.length

/-- No iterator stands further than the end. -/
lemma StandsAt.le (h : StandsAt ball it k) : k ≤ ball.offsets.length := by
  cases h with
  | inside hk => exact hk.le
  | past => exact le_rfl

/-- An iterator that settles stands at the index of the offsets that it settles on. -/
lemma standsAt_settle (hball : it.ball = ball) (hdone : it.done = false)
    (hlength : it.offsets.length = ball.center.slots.length)
    (hskip : ball.skipCenter it.offsets = ball.offsets[k]?) (hk : k ≤ ball.offsets.length) :
    StandsAt ball it.settle k := by
  subst hball
  rw [settle_eq hlength, hskip]
  rcases hk.lt_or_eq with hlt | rfl
  · rw [List.getElem?_eq_getElem hlt]
    dsimp only
    rw [hdone]
    exact .inside hlt
  · rw [List.getElem?_eq_none le_rfl]
    exact .past rfl

/-- A new iterator stands at the first index. -/
lemma standsAt_start (ball : Ball) : StandsAt ball (start ball) 0 := by
  rw [start]
  split_ifs with hnone
  · have hlength : ball.offsets.length = 0 := by rw [offsets_eq_nil hnone, List.length_nil]
    rw [← hlength]
    exact .past rfl
  · have hfirst : ball.skipCenter (ball.center.slots.map (leastOffset ball.radius)) =
        ball.offsets[0]? := congrArg Cursor.offsets (first_eq ball)
    exact standsAt_settle rfl rfl (List.length_map _) hfirst (Nat.zero_le _)

/-- The iterator past all neighbors stands at the end. -/
lemma standsAt_stop (ball : Ball) : StandsAt ball stop ball.offsets.length := .past rfl

/-- Moving on leads to the next index, unless the iterator is at the end. -/
lemma StandsAt.increment (h : StandsAt ball it k) :
    StandsAt ball it.increment (min (k + 1) ball.offsets.length) := by
  cases h with
  | past hdone =>
    rw [Iterator.increment, if_pos hdone, min_eq_right (Nat.le_succ _)]
    exact .past hdone
  | inside hk =>
    have hnext : (advance ball.radius ball.center.slots ball.offsets[k]).bind ball.skipCenter =
        ball.offsets[k + 1]? := by
      have hcursor := congrArg Cursor.offsets (next_offsets ball k)
      rwa [List.getElem?_eq_getElem hk] at hcursor
    have hlength : ball.offsets[k].length = ball.center.slots.length :=
      length_of_mem_readings (List.mem_of_mem_filter (List.getElem_mem hk))
    rw [min_eq_left hk, Iterator.increment, if_neg Bool.false_ne_true]
    dsimp only
    rw [turn_eq hlength]
    cases hadvance : advance ball.radius ball.center.slots ball.offsets[k] with
    | none =>
      -- The wheels have come round, so this was the last neighbor.
      rw [hadvance, Option.bind_none, eq_comm, List.getElem?_eq_none_iff] at hnext
      rw [le_antisymm hk hnext]
      exact .past rfl
    | some ds =>
      rw [hadvance, Option.bind_some] at hnext
      exact standsAt_settle rfl rfl (length_of_advance hadvance) hnext hk

/-- An iterator has the neighbor at its index ready. -/
lemma StandsAt.current_eq (h : StandsAt ball it k) (hk : k < ball.neighbors.length) :
    it.current = ball.neighbors[k] := by
  cases h with
  | past => exact absurd hk (by simp [neighbors_eq])
  | inside => simp [neighbors_eq]

/-- Iterators are the same if they stand at the same index. -/
lemma StandsAt.beq_eq (h : StandsAt ball it k) (h' : StandsAt ball other l) :
    (it == other) = decide (k = l) := by
  have hdiffer : ∀ {k l : ℕ} (hk : k < ball.offsets.length) (hl : l < ball.offsets.length),
      (ball.offsets[k] == ball.offsets[l]) = decide (k = l) := by
    intro k l hk hl
    rw [Bool.eq_iff_iff, beq_iff_eq, decide_eq_true_iff]
    exact (pairwise_offsets ball).nodup.getElem_inj_iff
  show (it.done == other.done && (it.done || it.offsets == other.offsets)) = _
  cases h with
  | inside hk =>
    cases h' with
    | inside hl => exact hdiffer hk hl
    | past hdone =>
      rw [hdone, decide_eq_false hk.ne]
      rfl
  | past hdone =>
    cases h' with
    | inside hl =>
      rw [hdone, decide_eq_false hl.ne']
      rfl
    | past hdone' => rw [hdone, hdone', decide_eq_true rfl]; rfl

end Iterator

/-! ### Scripts -/

/-- What is done to iterators, each of which has a name.  The value of `x++` goes to a name as well,
which may be `x` itself. -/
inductive Command (ι : Type)
  | increment (x : ι)
  | postIncrement (x before : ι)
  | copy (x y : ι)
  | restart (x : ι)

/-- What commands are about: where to start, how to move on, and how to move on and keep what was. -/
structure Handling (σ : Type) where
  start : σ
  increment : σ → σ
  postIncrement : σ → σ × σ

/-- Iterators over a ball. -/
def iterators (ball : Ball) : Handling Iterator where
  start := .start ball
  increment := Iterator.increment
  postIncrement := Iterator.postIncrement

/-- Indices into a list of some length, which is the index of the end. -/
def indices (length : ℕ) : Handling ℕ where
  start := 0
  increment k := min (k + 1) length
  postIncrement k := (k, min (k + 1) length)

variable {ι σ τ : Type} [DecidableEq ι]

/-- What a command makes of what the names stand for. -/
def Command.apply (handling : Handling σ) (state : ι → σ) : Command ι → ι → σ
  | .increment x => Function.update state x (handling.increment (state x))
  | .postIncrement x before =>
    Function.update (Function.update state x (handling.postIncrement (state x)).2) before
      (handling.postIncrement (state x)).1
  | .copy x y => Function.update state y (state x)
  | .restart x => Function.update state x handling.start

/-- What all names stand for after a script, if they stand for the start before it. -/
def Handling.run (handling : Handling σ) (script : List (Command ι)) : ι → σ :=
  script.foldl (Command.apply handling) fun _ => handling.start

/-- One kind of handling follows another one if it starts there, and goes wherever the other goes. -/
structure Handling.Follows (R : σ → τ → Prop) (own : Handling σ) (other : Handling τ) : Prop where
  start : R own.start other.start
  increment : ∀ {s t}, R s t → R (own.increment s) (other.increment t)
  before : ∀ {s t}, R s t → R (own.postIncrement s).1 (other.postIncrement t).1
  after : ∀ {s t}, R s t → R (own.postIncrement s).2 (other.postIncrement t).2

variable {R : σ → τ → Prop} {own : Handling σ} {other : Handling τ}

/-- Names that stand for related values still do if the values given to one name are related. -/
lemma rel_update {state : ι → σ} {state' : ι → τ} (h : ∀ x, R (state x) (state' x)) {s : σ} {t : τ}
    (hst : R s t) (x y : ι) : R (Function.update state x s y) (Function.update state' x t y) := by
  rw [Function.update_apply, Function.update_apply]
  split_ifs
  · exact hst
  · exact h y

/-- Each command is followed. -/
lemma Handling.Follows.apply (h : Handling.Follows R own other) {state : ι → σ} {state' : ι → τ}
    (hstate : ∀ x, R (state x) (state' x)) (command : Command ι) (x : ι) :
    R (command.apply own state x) (command.apply other state' x) := by
  cases command with
  | increment y => exact rel_update hstate (h.increment (hstate y)) y x
  | postIncrement y before =>
    exact rel_update (rel_update hstate (h.after (hstate y)) y) (h.before (hstate y)) before x
  | copy y z => exact rel_update hstate (hstate y) z x
  | restart y => exact rel_update hstate h.start y x

/-- Whole scripts are followed. -/
lemma Handling.Follows.run (h : Handling.Follows R own other) (script : List (Command ι)) (x : ι) :
    R (own.run script x) (other.run script x) := by
  induction script using List.reverseRecOn generalizing x with
  | nil => exact h.start
  | append_singleton script command ih =>
    rw [Handling.run, Handling.run, List.foldl_concat, List.foldl_concat]
    exact h.apply ih command x

/-- Iterators follow indices into the list of neighbors. -/
lemma follows_indices (ball : Ball) :
    Handling.Follows (Iterator.StandsAt ball) ball.iterators (indices ball.neighbors.length) := by
  rw [neighbors_eq, List.length_map]
  exact ⟨Iterator.standsAt_start ball, fun h => h.increment, fun h => h, fun h => h.increment⟩

/-- Take any number of iterators over a ball that are moved on, copied and started anew in any order,
and an index into the list of neighbors for each, with which the same is done; moving on from the last
index leads to the length of the list, and from there nowhere.  At any time every iterator stands at
its index: it reads the neighbor at this index if there is one, it is at the end if its index is, and
it is the same as another iterator exactly if their indices are equal.  Reading and comparing change no
iterator, so they may come anywhere in between. -/
theorem run_iterators (ball : Ball) (script : List (Command ι)) (x : ι) :
    (indices ball.neighbors.length).run script x ≤ ball.neighbors.length ∧
      (∀ hk : (indices ball.neighbors.length).run script x < ball.neighbors.length,
        (ball.iterators.run script x).current =
          ball.neighbors[(indices ball.neighbors.length).run script x]) ∧
      (ball.iterators.run script x == .stop) =
        decide ((indices ball.neighbors.length).run script x = ball.neighbors.length) ∧
      ∀ y, (ball.iterators.run script x == ball.iterators.run script y) =
        decide ((indices ball.neighbors.length).run script x =
          (indices ball.neighbors.length).run script y) := by
  have hstands := (follows_indices ball).run script
  have hlength : ball.neighbors.length = ball.offsets.length := by
    rw [neighbors_eq, List.length_map]
  refine ⟨hlength ▸ (hstands x).le, (hstands x).current_eq, ?_, ?_⟩
  · rw [(hstands x).beq_eq (Iterator.standsAt_stop ball), hlength]
  · intro y
    exact (hstands x).beq_eq (hstands y)

/-- A ball with one slot at the upper end of its range, and one at the lower end. -/
def cornerBall : Ball := ⟨⟨[4294967295, 0]⟩, 1⟩

/-- An iterator moves on three times, and the last time another one stays behind. -/
def overtaking : List (Command Bool) :=
  [.increment true, .increment true, .postIncrement true false]

/-- The one that stays behind reads the third neighbor, and the other one reads the fourth, of which
a slot has wrapped. -/
theorem run_iterators_of_overtaking :
    (indices cornerBall.neighbors.length).run overtaking false < cornerBall.neighbors.length ∧
      (indices cornerBall.neighbors.length).run overtaking true < cornerBall.neighbors.length ∧
      (cornerBall.iterators.run overtaking false).current = ⟨[4294967295, 1]⟩ ∧
      (cornerBall.iterators.run overtaking true).current = ⟨[0, 0]⟩ ∧
      (cornerBall.iterators.run overtaking false == cornerBall.iterators.run overtaking true) =
        false := by
  have hbehind : (indices cornerBall.neighbors.length).run overtaking false <
      cornerBall.neighbors.length := by decide
  have hahead : (indices cornerBall.neighbors.length).run overtaking true <
      cornerBall.neighbors.length := by decide
  obtain ⟨-, hread, -, hsame⟩ := run_iterators cornerBall overtaking false
  obtain ⟨-, hread', -, -⟩ := run_iterators cornerBall overtaking true
  refine ⟨hbehind, hahead, (hread hbehind).trans ?_, (hread' hahead).trans ?_, ?_⟩
  · exact (List.getElem_eq_iff _).mpr (by decide)
  · exact (List.getElem_eq_iff _).mpr (by decide)
  · rw [hsame]
    decide

end Ball

end ServingTuner
