import Mathlib
import ServingTuner.Proofs.Ranking.Gain

/-!
# Gains are means

The gain of a measurement over another one is a mean of the gains of single records, weighted by the
objectives, and the gain of a run is the plain mean over its models.  The weights are normalized in a
pass of their own, and both passes go over the same objectives: those that `shared` lists.

What is said of means does not depend on what they are means of (`isBetweenExtremes_mean`).  That no
other tags count is shown by listing what does count under its tag, as a table of weights and gains
(`ModelMeasurement.shares`).  Its entries are what the gain is put together of
(`ModelMeasurement.gain_eq`), and each is determined by the weight and the values under its tag
(`ModelMeasurement.get?_shares`).
-/

namespace ServingTuner

open Quantity

/-! ### Weighted means -/

/-- A number lies between the smallest and the greatest one of some numbers. -/
def IsBetweenExtremes (x : ℚ) (numbers : Set ℚ) : Prop :=
  ∃ low high, IsLeast numbers low ∧ IsGreatest numbers high ∧ low ≤ x ∧ x ≤ high

section Mean

variable {ι : Type} {terms : List ι} {weight x : ι → ℚ} {bound : ℚ}

/-- A weighted sum is at most what it were if every number that has a weight were equal to a bound. -/
lemma sum_mul_le (hweight : ∀ t ∈ terms, 0 ≤ weight t)
    (hbound : ∀ t ∈ terms, 0 < weight t → x t ≤ bound) :
    (terms.map fun t => weight t * x t).sum ≤ (terms.map weight).sum * bound := by
  rw [← List.sum_map_mul_right]
  refine List.sum_le_sum fun t ht => ?_
  rcases (hweight t ht).eq_or_lt with hzero | hpos
  · rw [← hzero, zero_mul, zero_mul]
  · exact mul_le_mul_of_nonneg_left (hbound t ht hpos) hpos.le

/-- A weighted sum is at least what it were if every number that has a weight were equal to a bound. -/
lemma le_sum_mul (hweight : ∀ t ∈ terms, 0 ≤ weight t)
    (hbound : ∀ t ∈ terms, 0 < weight t → bound ≤ x t) :
    (terms.map weight).sum * bound ≤ (terms.map fun t => weight t * x t).sum := by
  have hneg : (terms.map fun t => weight t * -x t).sum ≤ (terms.map weight).sum * -bound :=
    sum_mul_le hweight fun t ht hpos => neg_le_neg (hbound t ht hpos)
  have hsum : (terms.map fun t => weight t * -x t).sum = -(terms.map fun t => weight t * x t).sum := by
    rw [List.sum_neg, List.map_map]
    simp only [mul_neg, Function.comp_def]
  rw [hsum, mul_neg] at hneg
  exact neg_le_neg_iff.mp hneg

/-- Some number has a weight if there is any weight at all. -/
lemma exists_weight_pos (hpos : 0 < (terms.map weight).sum) : ∃ t ∈ terms, 0 < weight t := by
  by_contra hnone
  push Not at hnone
  have hle : (terms.map weight).sum ≤ (terms.map fun _ => (0 : ℚ)).sum := List.sum_le_sum hnone
  rw [List.sum_map_zero] at hle
  exact hle.not_gt hpos

/-- A mean lies between the smallest and the greatest one of the numbers that have a weight. -/
lemma isBetweenExtremes_mean (hweight : ∀ t ∈ terms, 0 ≤ weight t)
    (hpos : 0 < (terms.map weight).sum) :
    IsBetweenExtremes ((terms.map fun t => weight t / (terms.map weight).sum * x t).sum)
      {y | ∃ t ∈ terms, 0 < weight t ∧ y = x t} := by
  set numbers := ((terms.filter fun t => 0 < weight t).map x).toFinset with hnumbers
  have hmem : ∀ y, y ∈ numbers ↔ ∃ t ∈ terms, 0 < weight t ∧ y = x t := by
    intro y
    simp only [hnumbers, List.mem_toFinset, List.mem_map, List.mem_filter, decide_eq_true_eq,
      and_assoc, eq_comm (a := y)]
  have hnonempty : numbers.Nonempty := by
    obtain ⟨t, ht, htpos⟩ := exists_weight_pos hpos
    exact ⟨x t, (hmem _).mpr ⟨t, ht, htpos, rfl⟩⟩
  have hset : {y | ∃ t ∈ terms, 0 < weight t ∧ y = x t} = (numbers : Set ℚ) := by
    ext y
    exact (hmem y).symm
  have hmean : (terms.map fun t => weight t / (terms.map weight).sum * x t).sum =
      (terms.map fun t => weight t * x t).sum / (terms.map weight).sum := by
    rw [div_eq_mul_inv, ← List.sum_map_mul_right]
    exact congrArg List.sum (List.map_congr_left fun t _ => by ring)
  have hleast := numbers.isLeast_min' hnonempty
  have hgreatest := numbers.isGreatest_max' hnonempty
  rw [hset, hmean]
  refine ⟨_, _, hleast, hgreatest, ?_, ?_⟩
  · rw [le_div_iff₀ hpos, mul_comm]
    exact le_sum_mul hweight fun t ht htpos => hleast.2 ((hmem _).mpr ⟨t, ht, htpos, rfl⟩)
  · rw [div_le_iff₀ hpos, mul_comm]
    exact sum_mul_le hweight fun t ht htpos => hgreatest.2 ((hmem _).mpr ⟨t, ht, htpos, rfl⟩)

end Mean

/-! ### Two measurements of one model -/

/-- The objectives with all weights multiplied by one factor. -/
def Objectives.scaled (objectives : Objectives ℚ) (factor : ℚ) : Objectives ℚ :=
  objectives.map fun (tag, weight) => (tag, factor * weight)

namespace ModelMeasurement

variable {mine theirs mine' theirs' : ModelMeasurement ℚ} {objectives objectives' : Objectives ℚ}

/-- The total weight of the objectives whose metric both measurements have a record of. -/
def commonWeight (mine theirs : ModelMeasurement ℚ) (objectives : Objectives ℚ) : ℚ :=
  ((objectives.filter fun objective =>
    (mine.find? objective.1).isSome && (theirs.find? objective.1).isSome).map (·.2)).sum

/-- A tag of a positive weight that both measurements have a record of. -/
structure Counts (mine theirs : ModelMeasurement ℚ) (objectives : Objectives ℚ) (tag : String)
    (own other : Record ℚ) : Prop where
  weight_pos : ∃ weight, (tag, weight) ∈ objectives ∧ 0 < weight
  own : mine.find? tag = some own
  other : theirs.find? tag = some other

/-- The gains over the other records under all tags that count. -/
def countedGains (mine theirs : ModelMeasurement ℚ) (objectives : Objectives ℚ) : Set ℚ :=
  {g | ∃ tag own other, mine.Counts theirs objectives tag own other ∧ g = own.gainOver other}

/-- What there is under a tag that both measurements have a record of: its weight and the values of
the two records. -/
def weighed? (mine theirs : ModelMeasurement ℚ) (objectives : Objectives ℚ) (tag : String) :
    Option (ℚ × ℚ × ℚ) :=
  match Fields.get? objectives tag, mine.find? tag, theirs.find? tag with
  | some weight, some own, some other => some (weight, own.value, other.value)
  | _, _, _ => none

/-- What an objective adds to the gain, under its tag: its weight and the gain over the other record. -/
def share? (mine theirs : ModelMeasurement ℚ) (objective : String × ℚ) : Option (String × ℚ × ℚ) :=
  match mine.find? objective.1, theirs.find? objective.1 with
  | some own, some other => some (objective.1, objective.2, own.gainOver other)
  | _, _ => none

/-- The weights and gains of which the gain is put together, under their tags. -/
def shares (mine theirs : ModelMeasurement ℚ) (objectives : Objectives ℚ) : Fields (ℚ × ℚ) :=
  objectives.filterMap (share? mine theirs)

/-! #### What the gain is put together of -/

/-- An objective adds to the gain if both measurements have a record of its metric. -/
lemma share?_eq_some_iff {objective : String × ℚ} {share : String × ℚ × ℚ} :
    mine.share? theirs objective = some share ↔
      ∃ own other, mine.find? objective.1 = some own ∧ theirs.find? objective.1 = some other ∧
        share = (objective.1, objective.2, own.gainOver other) := by
  rw [share?]
  cases mine.find? objective.1 <;> cases theirs.find? objective.1 <;> simp [eq_comm]

/-- A share is that of an objective. -/
lemma mem_shares {share : String × ℚ × ℚ} :
    share ∈ mine.shares theirs objectives ↔
      ∃ own other, (share.1, share.2.1) ∈ objectives ∧ mine.find? share.1 = some own ∧
        theirs.find? share.1 = some other ∧ share.2.2 = own.gainOver other := by
  rw [shares, List.mem_filterMap]
  constructor
  · rintro ⟨objective, hmem, hshare⟩
    obtain ⟨own, other, hown, hother, rfl⟩ := share?_eq_some_iff.mp hshare
    exact ⟨own, other, hmem, hown, hother, rfl⟩
  · rintro ⟨own, other, hmem, hown, hother, hgain⟩
    refine ⟨(share.1, share.2.1), hmem, share?_eq_some_iff.mpr ⟨own, other, hown, hother, ?_⟩⟩
    rw [← hgain]

/-- The shares are a weight and a gain for all that is shared. -/
lemma map_shared (mine theirs : ModelMeasurement ℚ) (objectives : Objectives ℚ) :
    (shared mine theirs objectives).map (fun t => (t.1, t.2.1.gainOver t.2.2)) =
      (mine.shares theirs objectives).map (·.2) := by
  rw [shared, shares, List.map_filterMap, List.map_filterMap]
  refine List.filterMap_congr ?_
  rintro ⟨tag, weight⟩ -
  dsimp only [share?]
  cases mine.find? tag <;> cases theirs.find? tag <;> rfl

/-- The weight in common is that of the shares. -/
lemma commonWeight_eq (mine theirs : ModelMeasurement ℚ) (objectives : Objectives ℚ) :
    mine.commonWeight theirs objectives = ((mine.shares theirs objectives).map (·.2.1)).sum := by
  rw [commonWeight, shares, List.map_filterMap]
  induction objectives with
  | nil => rfl
  | cons objective objectives ih =>
    cases hown : mine.find? objective.1 <;> cases hother : theirs.find? objective.1 <;>
      simpa [share?, hown, hother] using ih

/-- The gain is the mean of the shares. -/
lemma gain_eq (mine theirs : ModelMeasurement ℚ) (objectives : Objectives ℚ) :
    mine.gain theirs objectives =
      if mine.commonWeight theirs objectives ≤ 0 then 0
      else ((mine.shares theirs objectives).map fun share =>
        share.2.1 / mine.commonWeight theirs objectives * share.2.2).sum := by
  have hweights : (shared mine theirs objectives).map (·.1) =
      (mine.shares theirs objectives).map (·.2.1) := by
    simpa only [List.map_map, Function.comp_def] using
      congrArg (List.map (·.1)) (map_shared mine theirs objectives)
  have hgains : ∀ total : ℚ,
      (shared mine theirs objectives).map (fun t => t.1 / total * t.2.1.gainOver t.2.2) =
        (mine.shares theirs objectives).map fun share => share.2.1 / total * share.2.2 := by
    intro total
    simpa only [List.map_map, Function.comp_def] using
      congrArg (List.map fun share => share.1 / total * share.2) (map_shared mine theirs objectives)
  rw [commonWeight_eq, gain_eq_shared, hweights, hgains]

/-- The gains that count are those of the shares with a weight. -/
lemma countedGains_eq (mine theirs : ModelMeasurement ℚ) (objectives : Objectives ℚ) :
    mine.countedGains theirs objectives =
      {g | ∃ share ∈ mine.shares theirs objectives, 0 < share.2.1 ∧ g = share.2.2} := by
  ext g
  constructor
  · rintro ⟨tag, own, other, ⟨⟨weight, hmem, hpos⟩, hown, hother⟩, rfl⟩
    exact ⟨(tag, weight, own.gainOver other), mem_shares.mpr ⟨own, other, hmem, hown, hother, rfl⟩,
      hpos, rfl⟩
  · rintro ⟨share, hshare, hpos, rfl⟩
    obtain ⟨own, other, hmem, hown, hother, hgain⟩ := mem_shares.mp hshare
    exact ⟨share.1, own, other, ⟨⟨share.2.1, hmem, hpos⟩, hown, hother⟩, hgain⟩

/-! #### What the gain does not depend on -/

/-- The gain of one value over another one in the metric of a tag. -/
def gainAt (tag : String) (own other : ℚ) : ℚ :=
  (Metric.ofTag? tag).elim 0 fun metric =>
    (⟨metric, own, 0⟩ : Record ℚ).gainOver ⟨metric, other, 0⟩

/-- Of two records of a tag nothing but the values counts. -/
lemma gainOver_eq_gainAt {tag : String} {own other : Record ℚ} (h : theirs.find? tag = some other) :
    own.gainOver other = gainAt tag own.value other.value := by
  have htag := List.find?_some h
  rw [beq_iff_eq] at htag
  rw [gainAt, ← htag, Metric.ofTag?_tag]
  rfl

/-- The share under a tag is determined by what is weighed under this tag. -/
lemma get?_shares (mine theirs : ModelMeasurement ℚ) (objectives : Objectives ℚ) (tag : String) :
    Fields.get? (mine.shares theirs objectives) tag =
      (mine.weighed? theirs objectives tag).map fun (weight, own, other) =>
        (weight, gainAt tag own other) := by
  rw [weighed?, shares]
  induction objectives with
  | nil => rfl
  | cons objective objectives ih =>
    cases hshare : mine.share? theirs objective with
    | none =>
      -- An objective that adds nothing is not weighed either.
      rw [List.filterMap_cons_none hshare, ih, Fields.get?]
      split_ifs with hkey
      · rw [share?, ← hkey] at hshare
        cases hown : mine.find? tag with
        | none => cases Fields.get? objectives tag <;> rfl
        | some own =>
          cases hother : theirs.find? tag with
          | none => cases Fields.get? objectives tag <;> rfl
          | some other =>
            rw [hown, hother] at hshare
            cases hshare
      · rfl
    | some share =>
      obtain ⟨own, other, hown, hother, rfl⟩ := share?_eq_some_iff.mp hshare
      rw [List.filterMap_cons_some hshare, Fields.get?, Fields.get?]
      split_ifs with hkey
      · rw [hkey, hown, hother, Option.map_some, gainOver_eq_gainAt hother]
      · exact ih

/-- The shares are in the order of the objectives. -/
lemma sorted_shares (h : Fields.Sorted objectives) :
    Fields.Sorted (mine.shares theirs objectives) := by
  rw [Fields.Sorted, Fields.keys, List.pairwise_map] at h ⊢
  refine h.filterMap _ fun objective objective' hlt share hshare share' hshare' => ?_
  obtain ⟨-, -, -, -, rfl⟩ := share?_eq_some_iff.mp hshare
  obtain ⟨-, -, -, -, rfl⟩ := share?_eq_some_iff.mp hshare'
  exact hlt

/-- What is weighed under the tags is all that the gain depends on. -/
lemma gain_congr (h : Fields.Sorted objectives) (h' : Fields.Sorted objectives')
    (hsame : ∀ tag, mine.weighed? theirs objectives tag = mine'.weighed? theirs' objectives' tag) :
    mine.gain theirs objectives = mine'.gain theirs' objectives' := by
  have hshares : mine.shares theirs objectives = mine'.shares theirs' objectives' := by
    refine (sorted_shares h).ext (sorted_shares h') fun tag => ?_
    rw [get?_shares, get?_shares, hsame]
  rw [gain_eq, gain_eq, commonWeight_eq, commonWeight_eq, hshares]

/-- A factor of all weights is a factor of the shares' weights. -/
lemma shares_scaled (mine theirs : ModelMeasurement ℚ) (factor : ℚ) (objectives : Objectives ℚ) :
    mine.shares theirs (objectives.scaled factor) =
      (mine.shares theirs objectives).map fun share =>
        (share.1, factor * share.2.1, share.2.2) := by
  rw [shares, shares, Objectives.scaled, List.filterMap_map, List.map_filterMap]
  refine List.filterMap_congr ?_
  rintro ⟨tag, weight⟩ -
  dsimp only [Function.comp_apply, share?]
  cases mine.find? tag <;> cases theirs.find? tag <;> rfl

/-- A positive factor of all weights changes no gain. -/
lemma gain_scaled {factor : ℚ} (hfactor : 0 < factor) (mine theirs : ModelMeasurement ℚ)
    (objectives : Objectives ℚ) :
    mine.gain theirs (objectives.scaled factor) = mine.gain theirs objectives := by
  have hweight : mine.commonWeight theirs (objectives.scaled factor) =
      factor * mine.commonWeight theirs objectives := by
    rw [commonWeight_eq, commonWeight_eq, shares_scaled, List.map_map, ← List.sum_map_mul_left]
    rfl
  have hnone : factor * mine.commonWeight theirs objectives ≤ 0 ↔
      mine.commonWeight theirs objectives ≤ 0 := by
    rw [← not_lt, ← not_lt, mul_pos_iff_of_pos_left hfactor]
  simp only [gain_eq, hweight, hnone, shares_scaled, List.map_map, Function.comp_def,
    mul_div_mul_left _ _ hfactor.ne']

/-! #### Between which gains the gain lies -/

/-- The gain lies between the smallest and the greatest one of those that count. -/
lemma isBetweenExtremes_gain (hweights : ∀ objective ∈ objectives, 0 ≤ objective.2)
    (hpos : 0 < mine.commonWeight theirs objectives) :
    IsBetweenExtremes (mine.gain theirs objectives) (mine.countedGains theirs objectives) := by
  rw [gain_eq, if_neg hpos.not_ge, countedGains_eq]
  rw [commonWeight_eq] at hpos ⊢
  refine isBetweenExtremes_mean (fun share hshare => ?_) hpos
  obtain ⟨own, other, hmem, -⟩ := mem_shares.mp hshare
  exact hweights _ hmem

/-- There is no gain if the records under all tags that count are equal. -/
lemma gain_eq_zero (hweights : ∀ objective ∈ objectives, 0 ≤ objective.2)
    (hpos : 0 < mine.commonWeight theirs objectives)
    (hequal : ∀ tag own other, mine.Counts theirs objectives tag own other →
      own.value = other.value) : mine.gain theirs objectives = 0 := by
  have hzero : ∀ g ∈ mine.countedGains theirs objectives, g = 0 := by
    rintro g ⟨tag, own, other, hcounts, rfl⟩
    rw [Record.gainOver, equal_rat, zero_rat, hequal tag own other hcounts, sub_self]
    cases other.metric.polarity <;> simp
  obtain ⟨low, high, hleast, hgreatest, hlow, hhigh⟩ := isBetweenExtremes_gain hweights hpos
  rw [hzero low hleast.1] at hlow
  rw [hzero high hgreatest.1] at hhigh
  exact le_antisymm hhigh hlow

end ModelMeasurement

/-! ### Two runs -/

namespace RunMeasurement

variable {a b : RunMeasurement ℚ}

/-- The gains of the models that both runs have, by their positions. -/
def modelGains (a b : RunMeasurement ℚ) : Set ℚ :=
  {g | ∃ (i : ℕ) (x y : RunEntry ℚ), a.models[i]? = some x ∧ b.models[i]? = some y ∧
    g = x.measurement.gain y.measurement x.objectives}

/-- The gains of the models are listed by their positions. -/
lemma mem_gains {g : ℚ} : g ∈ a.gains b ↔ g ∈ a.modelGains b := by
  rw [gains, List.mem_iff_getElem?]
  refine exists_congr fun i => ?_
  rw [List.getElem?_zipWith]
  cases a.models[i]? <;> cases b.models[i]? <;> simp [eq_comm]

/-- The gain lies between the smallest and the greatest gain of a model. -/
lemma isBetweenExtremes_gain (h : 0 < min a.models.length b.models.length) :
    IsBetweenExtremes (a.gain b) (a.modelGains b) := by
  have hlength : (((a.gains b).map fun _ => (1 : ℚ)).sum) = (a.gains b).length := by simp
  have hpos : 0 < ((a.gains b).map fun _ => (1 : ℚ)).sum := by
    rw [hlength, Nat.cast_pos, gains, List.length_zipWith]
    exact h
  have hmean := @isBetweenExtremes_mean ℚ (a.gains b) (fun _ => 1) id (fun _ _ => zero_le_one) hpos
  have hset : {g | ∃ own ∈ a.gains b, (0 : ℚ) < 1 ∧ g = id own} = a.modelGains b := by
    ext g
    rw [← mem_gains]
    simp
  have hgain : ((a.gains b).map fun g => 1 / ((a.gains b).length : ℚ) * id g).sum = a.gain b := by
    rw [gain_eq, List.sum_map_mul_left, List.map_id, one_div]
  rwa [hset, hlength, hgain] at hmean

/-- Runs that have no model in common do not gain over each other. -/
lemma gain_of_apart (h : min a.models.length b.models.length = 0) : a.gain b = 0 := by
  have hgains : a.gains b = [] := by
    rw [← List.length_eq_zero_iff, gains, List.length_zipWith, h]
  rw [gain_eq, hgains, List.sum_nil, mul_zero]

end RunMeasurement

/-- The gain of a measurement over another one depends on nothing but the weights and values under
those tags that both have a record of.  If these have any weight together, it lies between the
smallest and the greatest gain under a tag of positive weight, it stays the same if all weights are
multiplied by a positive factor, and it is 0 if the records under these tags are equal.  Without any
weight it is 0.  The gain of a run lies between the smallest and the greatest gain of the models that
both runs have, and it is 0 if there are none. -/
theorem gain_isMean {objectives : Objectives ℚ} (hsorted : Fields.Sorted objectives)
    (hweights : ∀ objective ∈ objectives, 0 ≤ objective.2) (mine theirs : ModelMeasurement ℚ) :
    (∀ (mine' theirs' : ModelMeasurement ℚ) (objectives' : Objectives ℚ), Fields.Sorted objectives' →
        (∀ tag, mine.weighed? theirs objectives tag = mine'.weighed? theirs' objectives' tag) →
        mine.gain theirs objectives = mine'.gain theirs' objectives') ∧
      (0 < mine.commonWeight theirs objectives →
        IsBetweenExtremes (mine.gain theirs objectives) (mine.countedGains theirs objectives) ∧
        (∀ factor : ℚ, 0 < factor →
          mine.gain theirs (objectives.scaled factor) = mine.gain theirs objectives) ∧
        ((∀ tag own other, mine.Counts theirs objectives tag own other → own.value = other.value) →
          mine.gain theirs objectives = 0)) ∧
      (¬0 < mine.commonWeight theirs objectives → mine.gain theirs objectives = 0) ∧
      ∀ a b : RunMeasurement ℚ,
        (0 < min a.models.length b.models.length → IsBetweenExtremes (a.gain b) (a.modelGains b)) ∧
        (min a.models.length b.models.length = 0 → a.gain b = 0) := by
  refine ⟨?_, ?_, ?_, ?_⟩
  · intro mine' theirs' objectives' hsorted' hsame
    exact ModelMeasurement.gain_congr hsorted hsorted' hsame
  · intro hpos
    refine ⟨ModelMeasurement.isBetweenExtremes_gain hweights hpos, ?_,
      ModelMeasurement.gain_eq_zero hweights hpos⟩
    intro factor hfactor
    exact ModelMeasurement.gain_scaled hfactor mine theirs objectives
  · intro hnone
    rw [ModelMeasurement.gain_eq, if_pos (not_lt.mp hnone)]
  · intro a b
    exact ⟨RunMeasurement.isBetweenExtremes_gain, RunMeasurement.gain_of_apart⟩

/-- A throughput of 110 at a latency of 8. -/
def quickModel : ModelMeasurement ℚ := .ofRecords "" [⟨.throughput, 110, 0⟩, ⟨.latencyP99, 8, 0⟩]

/-- A throughput of 100 at a latency of 10. -/
def slowModel : ModelMeasurement ℚ := .ofRecords "" [⟨.throughput, 100, 0⟩, ⟨.latencyP99, 10, 0⟩]

/-- Latency counts three times as much as throughput. -/
def latencyFirst : Objectives ℚ := [(Metric.latencyP99.tag, 3), (Metric.throughput.tag, 1)]

/-- A gain of a tenth and one of a fifth have a mean between them, which is the same for objectives
with another factor, and if a metric gets a weight of which only one of the two has a record. -/
theorem gain_isMean_of_latencyFirst :
    Fields.Sorted latencyFirst ∧ (∀ objective ∈ latencyFirst, 0 ≤ objective.2) ∧
      0 < quickModel.commonWeight slowModel latencyFirst ∧
      IsBetweenExtremes (quickModel.gain slowModel latencyFirst)
        (quickModel.countedGains slowModel latencyFirst) ∧
      quickModel.gain slowModel (latencyFirst.scaled 5) = quickModel.gain slowModel latencyFirst ∧
      quickModel.gain slowModel latencyFirst = 35 / 2 ∧
      quickModel.gain slowModel latencyFirst =
        (quickModel.set ⟨.gpuUtilization, 50, 0⟩).gain slowModel
          ((Metric.gpuUtilization.tag, 7) :: latencyFirst) := by
  have hsorted : Fields.Sorted latencyFirst := by
    unfold Fields.Sorted
    decide
  have hweights : ∀ objective ∈ latencyFirst, 0 ≤ objective.2 := by decide +kernel
  have hpos : 0 < quickModel.commonWeight slowModel latencyFirst := by decide +kernel
  obtain ⟨hcongr, hmean, -⟩ := gain_isMean hsorted hweights quickModel slowModel
  obtain ⟨hbetween, hscaled, -⟩ := hmean hpos
  refine ⟨hsorted, hweights, hpos, hbetween, hscaled 5 (by norm_num), by decide +kernel, ?_⟩
  apply hcongr
  · unfold Fields.Sorted
    decide
  · intro tag
    by_cases hgpu : tag = Metric.gpuUtilization.tag
    · rw [hgpu]
      decide +kernel
    · have hother : (Metric.gpuUtilization.tag == tag) = false :=
        beq_eq_false_iff_ne.mpr (Ne.symm hgpu)
      have hown : (quickModel.set ⟨.gpuUtilization, 50, 0⟩).find? tag = quickModel.find? tag := by
        simp [quickModel, ModelMeasurement.ofRecords, ModelMeasurement.set, ModelMeasurement.put,
          ModelMeasurement.find?, List.find?_cons, hother]
      rw [ModelMeasurement.weighed?, ModelMeasurement.weighed?, hown, Fields.get?, if_neg hgpu]

end ServingTuner
