import Mathlib
import ServingTuner.Proofs.Dimension.Values

/-!
# Dimension sets of several units

A dimension set is put together by calls that each bring the dimensions of one search unit.
Whatever calls come, the set is that of the accepted lists (`run_eq_ofUnits`): their dimensions
stand one list after another, each slot carries the place of its list, and there are as many units
as lists.  So the slots of a unit are those behind the slots of the lists before it, and what a
coordinate gives a unit is read off its own list (`run_resolves`).
-/

namespace ServingTuner

/-! ### Reading a list of pairs -/

namespace Fields

variable {β : Type}

/-- One more pair counts for its name, and the pairs before it for the others. -/
lemma get?_ofList_concat (pairs : List (String × β)) (pair : String × β) (name : String) :
    get? (ofList (pairs ++ [pair])) name =
      if name = pair.1 then some pair.2 else get? (ofList pairs) name := by
  rw [ofList, update, List.foldl_append]
  exact get?_set pair.1 pair.2 _ name

/-- Of the pairs of a name the last one counts. -/
lemma get?_ofList_eq_getLast? (pairs : List (String × β)) (name : String) :
    get? (ofList pairs) name = (pairs.filter (·.1 == name)).getLast?.map Prod.snd := by
  induction pairs using List.reverseRecOn with
  | nil => rfl
  | append_singleton pairs pair ih =>
    rw [get?_ofList_concat, List.filter_append, List.filter_singleton]
    by_cases hname : name = pair.1
    · rw [if_pos hname, hname, beq_self_eq_true, cond_true, List.getLast?_concat, Option.map_some]
    · rw [if_neg hname, beq_eq_false_iff_ne.mpr (Ne.symm hname), cond_false, List.append_nil, ih]

end Fields

/-! ### Calls -/

/-- A call that brings the dimensions of a search unit. -/
structure UnitCall where
  unit : ℕ
  dimensions : List Dimension

namespace DimensionSet

variable {set : DimensionSet} {lists : List (List Dimension)} {c : Coordinate}

/-- The set after a call.  One that is rejected hands back no set, and then the old one remains. -/
def after (set : DimensionSet) (call : UnitCall) : DimensionSet :=
  match set.add call.unit call.dimensions with
  | .ok larger => larger
  | .error _ => set

/-- The set after calls on an empty one. -/
def run (calls : List UnitCall) : DimensionSet := calls.foldl after {}

/-- The lists of dimensions that a set accepts from calls, in their order. -/
def acceptedFrom (set : DimensionSet) : List UnitCall → List (List Dimension)
  | [] => []
  | call :: calls =>
    match set.add call.unit call.dimensions with
    | .ok larger => call.dimensions :: larger.acceptedFrom calls
    | .error _ => set.acceptedFrom calls

/-- The lists of dimensions that an empty set accepts from calls. -/
def accepted (calls : List UnitCall) : List (List Dimension) := acceptedFrom {} calls

/-! ### The set of a list of units -/

/-- The slots of units that are counted from `first`. -/
def slotsFrom (first : ℕ) : List (List Dimension) → List Slot
  | [] => []
  | dimensions :: lists => dimensions.map (Slot.mk first) ++ slotsFrom (first + 1) lists

/-- The set of units with the given dimensions. -/
def ofUnits (lists : List (List Dimension)) : DimensionSet := ⟨slotsFrom 0 lists, lists.length⟩

/-- The slots of some units come before those of others. -/
lemma slotsFrom_append (first : ℕ) (lists others : List (List Dimension)) :
    slotsFrom first (lists ++ others) =
      slotsFrom first lists ++ slotsFrom (first + lists.length) others := by
  induction lists generalizing first with
  | nil => rfl
  | cons dimensions lists ih =>
    rw [List.cons_append, slotsFrom, slotsFrom, ih, List.append_assoc, List.length_cons,
      Nat.add_right_comm first 1, Nat.add_assoc first]

/-- The dimensions of the slots are those of the units, one list after another. -/
lemma map_dimension_slotsFrom (first : ℕ) (lists : List (List Dimension)) :
    (slotsFrom first lists).map (·.dimension) = lists.flatten := by
  induction lists generalizing first with
  | nil => rfl
  | cons dimensions lists ih =>
    rw [slotsFrom, List.map_append, ih, List.map_map, List.flatten_cons]
    exact congrArg (· ++ lists.flatten) (List.map_id dimensions)

/-- There are as many slots as dimensions. -/
lemma length_slotsFrom (first : ℕ) (lists : List (List Dimension)) :
    (slotsFrom first lists).length = lists.flatten.length := by
  rw [← map_dimension_slotsFrom first lists, List.length_map]

/-- Every slot belongs to one of the units. -/
lemma unit_of_mem_slotsFrom {first : ℕ} {slot : Slot} (h : slot ∈ slotsFrom first lists) :
    first ≤ slot.unit ∧ slot.unit < first + lists.length := by
  induction lists generalizing first with
  | nil => cases h
  | cons dimensions lists ih =>
    rw [List.length_cons]
    rcases List.mem_append.mp h with hown | hrest
    · obtain ⟨dimension, -, rfl⟩ := List.mem_map.mp hown
      show first ≤ first ∧ first < _
      omega
    · obtain ⟨hle, hlt⟩ := ih hrest
      omega

/-- A set of units accepts the dimensions of the unit after them, and nothing else. -/
lemma add_ofUnits (lists : List (List Dimension)) (unit : ℕ) (dimensions : List Dimension) :
    (ofUnits lists).add unit dimensions =
      if unit = lists.length then .ok (ofUnits (lists ++ [dimensions]))
      else .error (.unitOutOfOrder unit lists.length) := by
  rw [add]
  refine ite_congr rfl (fun hunit => ?_) fun _ => rfl
  rw [ofUnits, ofUnits, slotsFrom_append, slotsFrom, slotsFrom, List.append_nil, Nat.zero_add,
    List.length_append, hunit]
  rfl

/-- Calls on a set of units leave the set of these and of the accepted ones. -/
lemma foldl_after_ofUnits (lists : List (List Dimension)) (calls : List UnitCall) :
    calls.foldl after (ofUnits lists) = ofUnits (lists ++ (ofUnits lists).acceptedFrom calls) := by
  induction calls generalizing lists with
  | nil => rw [acceptedFrom, List.append_nil, List.foldl_nil]
  | cons call calls ih =>
    rw [List.foldl_cons, after, acceptedFrom, add_ofUnits]
    by_cases hunit : call.unit = lists.length
    · simp only [if_pos hunit, ih, List.append_assoc, List.singleton_append]
    · simp only [if_neg hunit, ih]

/-- The set after calls is that of the accepted units. -/
lemma run_eq_ofUnits (calls : List UnitCall) : run calls = ofUnits (accepted calls) :=
  foldl_after_ofUnits [] calls

/-- Calls that come after others are accepted or not by the set that is left by those. -/
lemma acceptedFrom_append (set : DimensionSet) (before later : List UnitCall) :
    set.acceptedFrom (before ++ later) =
      set.acceptedFrom before ++ (before.foldl after set).acceptedFrom later := by
  induction before generalizing set with
  | nil => rfl
  | cons call before ih =>
    rw [List.cons_append, acceptedFrom, acceptedFrom, List.foldl_cons, after]
    cases set.add call.unit call.dimensions with
    | ok larger => exact congrArg (call.dimensions :: ·) (ih larger)
    | error failure => exact ih set

/-- A further call is accepted exactly if it is about the next unit. -/
lemma accepted_concat (calls : List UnitCall) (call : UnitCall) :
    accepted (calls ++ [call]) = accepted calls ++
      if call.unit = (accepted calls).length then [call.dimensions] else [] := by
  rw [accepted, acceptedFrom_append]
  show accepted calls ++ (run calls).acceptedFrom [call] = _
  rw [run_eq_ofUnits, acceptedFrom, add_ofUnits]
  split_ifs <;> rfl

/-! ### The slots of one unit -/

/-- Where the slots of a unit begin: behind those of the units before it. -/
def offset (lists : List (List Dimension)) (unit : ℕ) : ℕ := (lists.take unit).flatten.length

/-- The dimensions of a unit, each with its own slot of a coordinate. -/
def located (lists : List (List Dimension)) (c : Coordinate) (unit : ℕ) :
    List (Dimension × UInt32) :=
  (lists.getD unit []).zip ((c.slots.drop (offset lists unit)).take (lists.getD unit []).length)

/-- The slots of a unit stand between those of the units before it and those of the units after it.
-/
lemma slotsFrom_split {unit : ℕ} (h : unit < lists.length) :
    slotsFrom 0 lists = slotsFrom 0 (lists.take unit) ++
      ((lists.getD unit []).map (Slot.mk unit) ++
        slotsFrom (unit + 1) (lists.drop (unit + 1))) := by
  have hlists : lists = lists.take unit ++ lists.getD unit [] :: lists.drop (unit + 1) := by
    rw [List.getD_eq_getElem lists [] h, List.getElem_cons_drop, List.take_append_drop]
  conv_lhs => rw [hlists, slotsFrom_append, List.length_take_of_le h.le, Nat.zero_add, slotsFrom]

/-- No slot of the units before a unit is its own. -/
lemma unit_ne_of_mem_before {unit : ℕ} {slot : Slot} (h : slot ∈ slotsFrom 0 (lists.take unit)) :
    slot.unit ≠ unit := by
  have hlt := (unit_of_mem_slotsFrom h).2
  rw [List.length_take] at hlt
  omega

/-- No slot of the units after a unit is its own. -/
lemma unit_ne_of_mem_later {unit : ℕ} {slot : Slot}
    (h : slot ∈ slotsFrom (unit + 1) (lists.drop (unit + 1))) : slot.unit ≠ unit := by
  have hle := (unit_of_mem_slotsFrom h).1
  omega

/-- A unit has none of the slots of other units. -/
lemma filter_unit_eq_nil {unit : ℕ} {slots : List Slot} (h : ∀ slot ∈ slots, slot.unit ≠ unit) :
    slots.filter (·.unit == unit) = [] := by
  rw [List.filter_eq_nil_iff]
  intro slot hslot
  rw [beq_iff_eq]
  exact h slot hslot

/-- The dimensions of a unit are those of its list. -/
lemma dimensionsOf_ofUnits (lists : List (List Dimension)) (unit : ℕ) :
    (ofUnits lists).dimensionsOf unit = lists.getD unit [] := by
  rw [dimensionsOf, ofUnits]
  by_cases hunit : unit < lists.length
  · have hbefore : (slotsFrom 0 (lists.take unit)).filter (·.unit == unit) = [] :=
      filter_unit_eq_nil fun slot hslot => unit_ne_of_mem_before hslot
    have hown : ((lists.getD unit []).map (Slot.mk unit)).filter (·.unit == unit) =
        (lists.getD unit []).map (Slot.mk unit) := by
      rw [List.filter_eq_self]
      intro slot hslot
      obtain ⟨dimension, -, rfl⟩ := List.mem_map.mp hslot
      exact beq_self_eq_true unit
    have hlater : (slotsFrom (unit + 1) (lists.drop (unit + 1))).filter (·.unit == unit) = [] :=
      filter_unit_eq_nil fun slot hslot => unit_ne_of_mem_later hslot
    rw [slotsFrom_split hunit, List.filter_append, List.filter_append, hbefore, hown, hlater,
      List.nil_append, List.append_nil, List.map_map]
    exact List.map_id _
  · have hnone : (slotsFrom 0 lists).filter (·.unit == unit) = [] := by
      refine filter_unit_eq_nil fun slot hslot => ?_
      have hlt := (unit_of_mem_slotsFrom hslot).2
      omega
    rw [hnone, List.getD_eq_default lists [] (not_lt.mp hunit), List.map_nil]

/-- What a unit reads off one slot with its position, if the slot is its own. -/
def readAs (unit : ℕ) (placed : Slot × UInt32) : Option (String × ℤ) :=
  if placed.1.unit = unit then some (placed.1.dimension.name, placed.1.dimension.valueAt placed.2)
  else none

/-- A unit reads nothing off the slots of other units. -/
lemma filterMap_readAs_of_ne {unit : ℕ} {slots : List Slot} (positions : List UInt32)
    (h : ∀ slot ∈ slots, slot.unit ≠ unit) :
    (slots.zip positions).filterMap (readAs unit) = [] := by
  rw [List.filterMap_eq_nil_iff]
  intro placed hplaced
  exact if_neg (h placed.1 (List.of_mem_zip hplaced).1)

/-- A unit reads a value off each of its own slots. -/
lemma filterMap_readAs_own (unit : ℕ) (dimensions : List Dimension) (positions : List UInt32) :
    ((dimensions.map (Slot.mk unit)).zip positions).filterMap (readAs unit) =
      (dimensions.zip positions).map
        fun (dimension, position) => (dimension.name, dimension.valueAt position) := by
  rw [List.zip_map_left, List.filterMap_map, ← List.filterMap_eq_map]
  refine List.filterMap_congr fun placed _ => ?_
  exact if_pos rfl

/-- The slots of a unit end where those of all units do, or before. -/
lemma offset_add_le {unit : ℕ} (hunit : unit < lists.length) :
    offset lists unit + (lists.getD unit []).length ≤ lists.flatten.length := by
  have htotal := congrArg List.length (slotsFrom_split hunit)
  rw [List.length_append, List.length_append, length_slotsFrom, length_slotsFrom, List.length_map]
    at htotal
  rw [offset]
  omega

/-- A unit reads the values of its own dimensions off its own slots. -/
lemma unitValues_slotsFrom {unit : ℕ} (hunit : unit < lists.length)
    (hsize : c.size = lists.flatten.length) :
    unitValues ((slotsFrom 0 lists).zip c.slots) unit =
      Fields.ofList ((located lists c unit).map
        fun (dimension, position) => (dimension.name, dimension.valueAt position)) := by
  have hend : offset lists unit + (lists.getD unit []).length ≤ c.slots.length :=
    (offset_add_le hunit).trans_eq hsize.symm
  have hslots : c.slots = c.slots.take (offset lists unit) ++
      ((c.slots.drop (offset lists unit)).take (lists.getD unit []).length ++
        (c.slots.drop (offset lists unit)).drop (lists.getD unit []).length) := by
    rw [List.take_append_drop, List.take_append_drop]
  show Fields.ofList (((slotsFrom 0 lists).zip c.slots).filterMap (readAs unit)) = _
  rw [located, ← filterMap_readAs_own]
  conv_lhs => rw [slotsFrom_split hunit, hslots]
  rw [List.zip_append, List.zip_append, List.filterMap_append, List.filterMap_append,
    filterMap_readAs_of_ne _ fun _ => unit_ne_of_mem_before,
    filterMap_readAs_of_ne _ fun _ => unit_ne_of_mem_later, List.nil_append, List.append_nil]
  · rw [List.length_map, List.length_take, List.length_drop]
    omega
  · rw [length_slotsFrom, ← offset, List.length_take]
    omega

/-! ### What a coordinate gives the units -/

/-- The values that a coordinate gives units with lists of dimensions.  Every unit has a table, in
which a name has the value of the last dimension of that name at its own slot. -/
structure Resolves (lists : List (List Dimension)) (c : Coordinate) (values : List UnitValues) :
    Prop where
  length_eq : values.length = lists.length
  get?_eq : ∀ unit own, values[unit]? = some own → ∀ name, Fields.get? own name =
    ((located lists c unit).filter (·.1.name == name)).getLast?.map
      fun (dimension, position) => dimension.valueAt position
  range : ∀ own ∈ values, ∀ name value, Fields.get? own name = some value →
    1 ≤ value ∧ value ≤ 2 ^ 62

/-- A name has the value of the last dimension of that name at its own slot. -/
lemma get?_unitValues_slotsFrom {unit : ℕ} (hunit : unit < lists.length)
    (hsize : c.size = lists.flatten.length) (name : String) :
    Fields.get? (unitValues ((slotsFrom 0 lists).zip c.slots) unit) name =
      ((located lists c unit).filter (·.1.name == name)).getLast?.map
        fun (dimension, position) => dimension.valueAt position := by
  rw [unitValues_slotsFrom hunit hsize, Fields.get?_ofList_eq_getLast?, List.filter_map,
    List.getLast?_map, Option.map_map]
  rfl

/-- A coordinate with a slot for every dimension gives all units their values. -/
lemma resolves_ofUnits (hsize : c.size = lists.flatten.length) :
    Resolves lists c
      ((List.range lists.length).map (unitValues ((slotsFrom 0 lists).zip c.slots))) := by
  refine ⟨by rw [List.length_map, List.length_range], ?_, ?_⟩
  · intro unit own hown name
    rw [List.getElem?_map, Option.map_eq_some_iff] at hown
    obtain ⟨place, hplace, rfl⟩ := hown
    obtain ⟨hlt, hunit⟩ := List.getElem?_eq_some_iff.mp hplace
    obtain rfl : unit = place := by rw [← hunit, List.getElem_range]
    exact get?_unitValues_slotsFrom (hlt.trans_eq List.length_range) hsize name
  · intro own hown name value hvalue
    obtain ⟨unit, hunit, rfl⟩ := List.mem_map.mp hown
    rw [get?_unitValues_slotsFrom (List.mem_range.mp hunit) hsize, Option.map_eq_some_iff] at hvalue
    obtain ⟨⟨dimension, position⟩, -, rfl⟩ := hvalue
    exact ⟨dimension.one_le_valueAt position, dimension.valueAt_le position⟩

end DimensionSet

/-- The coordinate with its slots raised to those of another one, where they lie below.  A slot
without a counterpart stays as it is. -/
def Coordinate.raisedTo (c floor : Coordinate) : Coordinate :=
  ⟨c.slots.mapIdx fun i slot => max slot (floor.slots.getD i 0)⟩

namespace DimensionSet

variable {set : DimensionSet} {c : Coordinate}

/-- To raise a coordinate to the start of its set is to raise it to the floor. -/
lemma raisedTo_start (h : c.size = set.slots.length) : c.raisedTo set.start = set.floored c := by
  rw [Coordinate.raisedTo, floored, Coordinate.mk.injEq]
  refine List.ext_getElem ?_ ?_
  · rw [List.length_mapIdx, List.length_zipWith, ← h, Coordinate.size, Nat.min_self]
  · intro i hi hi'
    rw [List.length_zipWith] at hi'
    have hstart : i < set.start.slots.length := by
      rw [start, List.length_map]
      omega
    rw [List.getElem_mapIdx, List.getElem_zipWith, List.getD_eq_getElem _ _ hstart]
    congr 1
    exact List.getElem_map _

/-- A coordinate and the one that is raised to the start give the same values, or none. -/
lemma valuesAt_raisedTo_start (set : DimensionSet) (c : Coordinate) (values : List UnitValues) :
    set.valuesAt (c.raisedTo set.start) = .ok values ↔ set.valuesAt c = .ok values := by
  by_cases hsize : c.size = set.slots.length
  · rw [raisedTo_start hsize, valuesAt_floored hsize]
  · have hraised : (c.raisedTo set.start).size = c.size := List.length_mapIdx
    rw [valuesAt, valuesAt, hraised, if_neg hsize, if_neg hsize]
    constructor <;> intro h <;> cases h

/-- Take any calls that bring an empty set the dimensions of search units.  A further call is
accepted exactly if its unit is the number of calls that were accepted so far, and one that is
rejected changes nothing.  The slots are those of the accepted lists, one list after another; each
belongs to a unit of the set, and the dimensions of a unit are those of its own list.  A coordinate
has values exactly if it has a slot for every slot of the set, and then there is a table for every
accepted list.  No value leaves the range from 1 to `2 ^ 62`, and raising the coordinate to the
start of the set changes none. -/
theorem run_resolves (calls : List UnitCall) :
    (∀ call : UnitCall,
      if call.unit = (accepted calls).length then
        (run calls).add call.unit call.dimensions = .ok (run (calls ++ [call])) ∧
          accepted (calls ++ [call]) = accepted calls ++ [call.dimensions]
      else
        (run calls).add call.unit call.dimensions =
            .error (.unitOutOfOrder call.unit (accepted calls).length) ∧
          run (calls ++ [call]) = run calls ∧ accepted (calls ++ [call]) = accepted calls) ∧
    ((run calls).slots.map (·.dimension) = (accepted calls).flatten ∧
      (run calls).units = (accepted calls).length ∧
      (∀ slot ∈ (run calls).slots, slot.unit < (run calls).units) ∧
      ∀ unit, (run calls).dimensionsOf unit = (accepted calls).getD unit []) ∧
    ∀ c : Coordinate,
      (if c.size = (run calls).slots.length then
        ∃ values, (run calls).valuesAt c = .ok values ∧ Resolves (accepted calls) c values
      else (run calls).valuesAt c = .error (.unresolvable c (run calls).slots.length)) ∧
      ∀ values, (run calls).valuesAt (c.raisedTo (run calls).start) = .ok values ↔
        (run calls).valuesAt c = .ok values := by
  refine ⟨?_, ⟨?_, ?_, ?_, ?_⟩, ?_⟩
  · intro call
    rw [run_eq_ofUnits, run_eq_ofUnits, add_ofUnits, accepted_concat]
    split_ifs
    · exact ⟨rfl, rfl⟩
    · rw [List.append_nil]
      exact ⟨rfl, rfl, rfl⟩
  · rw [run_eq_ofUnits]
    exact map_dimension_slotsFrom 0 _
  · rw [run_eq_ofUnits]
    rfl
  · rw [run_eq_ofUnits]
    intro slot hslot
    exact (unit_of_mem_slotsFrom hslot).2.trans_eq (Nat.zero_add _)
  · intro unit
    rw [run_eq_ofUnits, dimensionsOf_ofUnits]
  · intro c
    refine ⟨?_, valuesAt_raisedTo_start (run calls) c⟩
    rw [valuesAt, run_eq_ofUnits]
    split_ifs with hsize
    · exact ⟨_, rfl, resolves_ofUnits (hsize.trans (length_slotsFrom 0 _))⟩
    · rfl

/-- A unit with two dimensions of one name has the value of the second one.  A call about a unit
that is there already is rejected, and a unit without dimensions has no values. -/
theorem run_resolves_of_repeated_name :
    let first : Dimension := ⟨"batch", .exponential, 2⟩
    let second : Dimension := ⟨"batch", .linear, 0⟩
    let calls : List UnitCall := [⟨0, [first, second]⟩, ⟨0, [first]⟩, ⟨1, []⟩]
    accepted calls = [[first, second], []] ∧
      (⟨0, second⟩ ∈ (run calls).slots ∧ 0 < (run calls).units) ∧
      (run calls).valuesAt ⟨[5, 7]⟩ = .ok [[("batch", 8)], []] ∧
      Resolves [[first, second], []] ⟨[5, 7]⟩ [[("batch", 8)], []] := by
  intro first second calls
  obtain ⟨-, ⟨-, -, hunits, -⟩, hvalues⟩ := run_resolves calls
  have hmem : ⟨0, second⟩ ∈ (run calls).slots := by decide
  obtain ⟨values, hok, hresolves⟩ := (hvalues ⟨[5, 7]⟩).1
  obtain rfl : values = [[("batch", 8)], []] := (Except.ok.inj hok).symm
  exact ⟨rfl, ⟨hmem, hunits _ hmem⟩, hok, hresolves⟩

end DimensionSet

end ServingTuner
