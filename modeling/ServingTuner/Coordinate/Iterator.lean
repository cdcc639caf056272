import ServingTuner.Coordinate.Ball

/-!
# Iterators

A cursor is what a walk through a ball needs to know. An iterator is a position that is handed out:
it is kept, copied, compared with others and moved on in place, and it may outlive the range that it
was taken from. So it has a copy of the ball of its own, it has the neighbor at its position ready,
and a mark says that it is past the last one.

Iterators are compared by the mark and by the offsets alone. What the offsets are past the last
neighbor depends on where the end was met, and counts for nothing.
-/

namespace ServingTuner.Ball

/-- A position among neighbors that is moved on in place. -/
structure Iterator where
  ball : Ball := ⟨⟨[]⟩, 0⟩
  offsets : List Int := []
  current : Coordinate := ⟨[]⟩
  done : Bool := true

namespace Iterator

/-- Turns the wheels of an odometer in place: the last one below its end moves on, and those after it
start anew. If every wheel is at its end all of them start anew, and the answer is `false`. -/
def turn (radius : UInt32) : List UInt32 → List Int → List Int × Bool
  | slot :: slots, d :: ds =>
    match turn radius slots ds with
    | (ds', true) => (d :: ds', true)
    | (ds', false) =>
      if d < radius.toNat then ((d + 1) :: ds', true) else (leastOffset radius slot :: ds', false)
  | _, ds => (ds, false)

/-- One turn leads away from the zero offsets. -/
theorem not_zero_of_turn {radius : UInt32} {slots : List UInt32} {ds ds' : List Int}
    (hzero : ds.all (· == 0) = true) (h : turn radius slots ds = (ds', true)) :
    ds'.all (· == 0) = false := by
  fun_induction turn radius slots ds generalizing ds' with
  | case1 slot slots d ds rest hrest ih =>
    cases h
    simp only [List.all_cons, Bool.and_eq_true] at hzero
    simp [ih hzero.2 hrest]
  | case2 slot slots d ds rest hrest hlt ih =>
    cases h
    simp only [List.all_cons, Bool.and_eq_true, beq_iff_eq] at hzero
    simp [hzero.1]
  | case3 => cases h
  | case4 => cases h

/-- Turns the wheels until they do not show the zero offsets, and gets the neighbor there ready. -/
def settle (it : Iterator) : Iterator :=
  if it.offsets.all (· == 0) then
    match _ : turn it.ball.radius it.ball.center.slots it.offsets with
    | (offsets, true) => settle { it with offsets }
    | (_, false) => { it with offsets := [], done := true }
  else { it with current := it.ball.shifted it.offsets }
termination_by if it.offsets.all (· == 0) then 1 else 0
decreasing_by
  rename_i hzero hturn
  rw [if_pos hzero, if_neg (Bool.eq_false_iff.mp (not_zero_of_turn hzero hturn))]
  exact Nat.zero_lt_one

/-- The position of the first neighbor. -/
def start (ball : Ball) : Iterator :=
  if ball.center.slots.isEmpty || ball.radius == 0 then { ball }
  else settle { ball, offsets := ball.center.slots.map (leastOffset ball.radius), done := false }

/-- The position past all neighbors, whatever the ball. -/
def stop : Iterator := {}

/-- Moves on to the next neighbor, or past the last one. -/
def increment (it : Iterator) : Iterator :=
  if it.done then it
  else
    match turn it.ball.radius it.ball.center.slots it.offsets with
    | (offsets, true) => settle { it with offsets }
    | (offsets, false) => { it with offsets, done := true }

/-- Moves on, and hands out a copy from before: the copy, and the iterator afterwards. -/
def postIncrement (it : Iterator) : Iterator × Iterator := (it, it.increment)

/-- Iterators past the last neighbor are the same, and others are if their offsets are. -/
instance : BEq Iterator :=
  ⟨fun a b => a.done == b.done && (a.done || a.offsets == b.offsets)⟩

end Iterator

end ServingTuner.Ball
