import Mathlib
import ServingTuner.Proofs.Generator.Resolution

/-!
# Products that saturate

Products of batch sizes, instance counts and multipliers are cut off at the greatest signed 64-bit
integer.  On signed words, a division tells whether the product would leave the range before it is
taken.  Where no factor is negative none of these steps can fail (`saturatingProduct?_eq_some`), and
of several factors the product is cut off once, whatever their order and grouping
(`saturatingProduct_saturatingProduct`).

That no factor is negative is up to the generator.  Its definitions leave open how products are
formed, so its work can be done with a product that asserts even more, namely that both factors are
at least 1, and that has no result where the assertion or a step on words fails (`countProduct?`).
Everything that a generator was created for has a result in this way, and it is the one that the
generator gives (`saturatingProduct_exact`).
-/

namespace ServingTuner

/-! ### Products on signed words -/

/-- An integer that a signed 64-bit word holds. -/
def IsSigned (n : ℤ) : Prop := -maxSigned - 1 ≤ n ∧ n ≤ maxSigned

instance (n : ℤ) : Decidable (IsSigned n) := inferInstanceAs (Decidable (_ ∧ _))

/-- An integer as a signed word, if it is one. -/
def signed? (n : ℤ) : Option ℤ := if IsSigned n then some n else none

/-- The quotient of signed words, rounded towards zero.  There is none by zero, and none that leaves
the range. -/
def quotient? (a b : ℤ) : Option ℤ := if b = 0 then none else signed? (a.tdiv b)

/-- The product of signed words, unless it leaves the range. -/
def product? (a b : ℤ) : Option ℤ := signed? (a * b)

/-- The saturating product step by step on signed words.  It has no result if one of the steps has
none. -/
def saturatingProduct? (a b : ℤ) : Option ℤ :=
  if a = 0 ∨ b = 0 then some 0
  else do
    let quotient ← quotient? maxSigned b
    if quotient < a then some maxSigned else product? a b

/-- A word is the integer that it was made of. -/
lemma signed?_eq_some_iff {m n : ℤ} : signed? m = some n ↔ IsSigned m ∧ m = n := by
  unfold signed?
  split_ifs with h <;> simp [h]

/-- What the steps come to is the saturating product, also where factors are negative. -/
lemma eq_of_saturatingProduct? {a b n : ℤ} (h : saturatingProduct? a b = some n) :
    saturatingProduct a b = n := by
  unfold saturatingProduct? at h
  unfold saturatingProduct
  by_cases hzero : a = 0 ∨ b = 0
  · rw [if_pos hzero] at h ⊢
    exact Option.some.inj h
  · rw [if_neg hzero] at h ⊢
    obtain ⟨quotient, hquotient, hrest⟩ := Option.bind_eq_some_iff.mp h
    rw [quotient?, if_neg (not_or.mp hzero).2] at hquotient
    obtain ⟨-, rfl⟩ := signed?_eq_some_iff.mp hquotient
    split_ifs at hrest ⊢ with hover
    · exact Option.some.inj hrest
    · exact (signed?_eq_some_iff.mp hrest).2

/-- Where no factor is negative, all steps have a result: nothing is divided by zero, and neither the
quotient nor the product leaves the range. -/
lemma saturatingProduct?_eq_some {a b : ℤ} (ha : 0 ≤ a) (hb : 0 ≤ b) :
    saturatingProduct? a b = some (saturatingProduct a b) := by
  have hmax : (0 : ℤ) ≤ maxSigned := by decide
  suffices hsome : ∃ n, saturatingProduct? a b = some n by
    obtain ⟨n, hn⟩ := hsome
    rw [hn, eq_of_saturatingProduct? hn]
  unfold saturatingProduct?
  split_ifs with hzero
  · exact ⟨0, rfl⟩
  · have hpos : 0 < b := lt_of_le_of_ne hb fun heq => hzero (Or.inr heq.symm)
    have hquotient : quotient? maxSigned b = some (maxSigned / b) := by
      have hle : maxSigned / b ≤ maxSigned := Int.ediv_le_self b hmax
      have hnonneg : 0 ≤ maxSigned / b := Int.ediv_nonneg hmax hb
      rw [quotient?, if_neg hpos.ne', Int.tdiv_eq_ediv_of_nonneg hmax, signed?_eq_some_iff]
      exact ⟨⟨by omega, hle⟩, rfl⟩
    rw [hquotient, Option.bind_eq_bind, Option.bind_some]
    split_ifs with hover
    · exact ⟨maxSigned, rfl⟩
    · -- The division has shown that the product is no greater than the greatest word.
      rw [not_lt, Int.le_ediv_iff_mul_le hpos] at hover
      have hproduct : 0 ≤ a * b := mul_nonneg ha hb
      exact ⟨a * b, signed?_eq_some_iff.mpr ⟨⟨by omega, hover⟩, rfl⟩⟩

/-- Two of three factors that are not negative may also be taken from the right. -/
lemma saturatingProduct_saturatingProduct_right {a b c : ℤ} (ha : 0 ≤ a) (hb : 0 ≤ b) (hc : 0 ≤ c) :
    saturatingProduct a (saturatingProduct b c) = min (a * b * c) maxSigned := by
  have hinner : 0 ≤ saturatingProduct b c := by
    rw [saturatingProduct_eq b hc]
    exact le_min (mul_nonneg hb hc) (by decide)
  calc saturatingProduct a (saturatingProduct b c)
      = saturatingProduct (saturatingProduct b c) a := by
        rw [saturatingProduct_eq a hinner, saturatingProduct_eq _ ha, mul_comm]
    _ = min (b * c * a) maxSigned := saturatingProduct_saturatingProduct hb hc ha
    _ = min (a * b * c) maxSigned := by rw [mul_comm, mul_assoc]

/-! ### The work of a generator with asserted products -/

/-- The saturating product of counts: it asserts that both factors are at least 1, and takes its
steps on signed words. -/
def countProduct? (a b : ℤ) : Option ℤ := if 1 ≤ a ∧ 1 ≤ b then saturatingProduct? a b else none

/-- Factors of at least 1 pass the assertion. -/
lemma countProduct?_eq_some {a b : ℤ} (ha : 1 ≤ a) (hb : 1 ≤ b) :
    countProduct? a b = some (saturatingProduct a b) := by
  rw [countProduct?, if_pos ⟨ha, hb⟩, saturatingProduct?_eq_some (by omega) (by omega)]

/-- Positive sizes and a positive multiplier pass the assertion. -/
lemma Bounds.formulaConcurrencyWith_eq_some (bounds : Bounds) {batchSize instanceCount : ℤ}
    (hbatch : 1 ≤ batchSize) (hinstances : 1 ≤ instanceCount) (hmultiplier : 1 ≤ bounds.multiplier) :
    bounds.formulaConcurrencyWith countProduct? batchSize instanceCount =
      some (bounds.formulaConcurrency batchSize instanceCount) := by
  have hfull : 1 ≤ saturatingProduct batchSize instanceCount := by
    rw [saturatingProduct_eq _ (by omega)]
    exact le_min (one_le_mul_of_one_le_of_one_le hbatch hinstances) (by decide)
  rw [formulaConcurrencyWith, countProduct?_eq_some hbatch hinstances]
  exact countProduct?_eq_some hfull hmultiplier

namespace Generator

variable {g : Generator}

/-- If every element has a result, then so has the list. -/
lemma mapM_eq_some {α β : Type} {xs : List α} {f : α → Option β} {r : α → β}
    (h : ∀ x ∈ xs, f x = some (r x)) : xs.mapM f = some (xs.map r) := by
  induction xs with
  | nil => rfl
  | cons x xs ih =>
    obtain ⟨hx, hxs⟩ := List.forall_mem_cons.mp h
    rw [List.mapM_cons, hx, ih hxs]
    rfl

/-- The concurrency of a unit with positive sizes passes the assertion. -/
lemma concurrencyWith_eq_some (hbounds : g.bounds.check = .ok ()) (own : UnitValues)
    {batchSize instanceCount : ℤ} (hbatch : 1 ≤ batchSize) (hinstances : 1 ≤ instanceCount) :
    g.concurrencyWith countProduct? own batchSize instanceCount =
      some (g.concurrencyWith plainProduct own batchSize instanceCount).run := by
  obtain ⟨-, -, -, hmultiplier⟩ := Bounds.check_eq_ok hbounds
  have hformula := g.bounds.formulaConcurrencyWith_eq_some hbatch hinstances hmultiplier
  unfold concurrencyWith
  cases g.space.mode with
  | formula => exact hformula
  | coordinate =>
    cases Fields.get? own Dimension.concurrency with
    | none => exact hformula
    | some asked => rfl

/-- A unit's values pass the assertion. -/
lemma settingsWith_eq_some (hbounds : g.bounds.check = .ok ()) (unit : ServedUnit)
    {own : UnitValues} (hown : PositiveValues own) :
    g.settingsWith countProduct? unit own = some (g.settings unit own) := by
  have hconcurrency := concurrencyWith_eq_some hbounds own (one_le_batchSize hbounds unit hown)
    (one_le_instanceCount hbounds unit hown)
  exact congrArg (· >>= fun concurrency => some (UnitSettings.mk (g.settings unit own).batchSize
    (g.settings unit own).instanceCount (g.bounds.concurrency.clamp concurrency))) hconcurrency

/-- The variant of a unit passes the assertion. -/
lemma draftWith_eq_some (hbounds : g.bounds.check = .ok ()) (unit : ServedUnit) {own : UnitValues}
    (hown : PositiveValues own) : g.draftWith countProduct? unit own = some (g.draft unit own) := by
  rw [draftWith, settingsWith_eq_some hbounds unit hown]
  rfl

/-- The default variant of a unit passes the assertion. -/
lemma defaultDraftWith_eq_some (hbounds : g.bounds.check = .ok ()) (unit : ServedUnit) :
    g.defaultDraftWith countProduct? unit = some (g.defaultDraft unit) := by
  obtain ⟨-, -, -, hmultiplier⟩ := Bounds.check_eq_ok hbounds
  rw [defaultDraftWith, g.bounds.formulaConcurrencyWith_eq_some unit.isCount_baseBatchSize.1
    (ServedUnit.one_le_instanceCount unit.baseline) hmultiplier]
  rfl

/-- The drafts of all models pass the assertion. -/
lemma draftsWith_eq_some (hbounds : g.bounds.check = .ok ()) (models : List ServedModel)
    {values : List UnitValues} (hvalues : ∀ own ∈ values, PositiveValues own) :
    g.draftsWith countProduct? models values = some (g.drafts models values) := by
  induction models generalizing values with
  | nil => rfl
  | cons model rest ih =>
    have hown : (model.units.zip values).mapM
        (fun pair => g.draftWith countProduct? pair.1 pair.2) =
          some (List.zipWith g.draft model.units values) := by
      rw [← List.map_uncurry_zip_eq_zipWith]
      refine mapM_eq_some fun pair hpair => ?_
      exact draftWith_eq_some hbounds pair.1 (hvalues pair.2 (List.of_mem_zip hpair).2)
    have hothers : g.draftsWith countProduct? rest (values.drop model.unitCount) =
        some (g.drafts rest (values.drop model.unitCount)) :=
      ih fun own hmem => hvalues own (List.mem_of_mem_drop hmem)
    rw [draftsWith, hown, hothers, drafts_cons]
    rfl

/-- The configuration at any coordinate passes the assertion. -/
lemma configAtWith_eq_some (hbounds : g.bounds.check = .ok ()) (c : Coordinate) :
    g.configAtWith countProduct? c = some (g.configAt c) := by
  rw [configAtWith, configAt_def]
  cases hvalues : g.space.dimensions.valuesAt c with
  | error failure => rfl
  | ok values =>
    dsimp only
    rw [draftsWith_eq_some hbounds g.models (positiveValues_of_valuesAt hvalues)]
    rfl

/-- The configuration of the baselines passes the assertion. -/
lemma defaultConfigWith_eq_some (hbounds : g.bounds.check = .ok ()) :
    g.defaultConfigWith countProduct? = some g.defaultConfig := by
  have hdrafts : (g.models.mapM fun model => do
      let own ← model.units.mapM (g.defaultDraftWith countProduct?)
      return (model, own)) = some (g.models.map fun model =>
        (model, model.units.map g.defaultDraft)) := by
    refine mapM_eq_some fun model _ => ?_
    rw [mapM_eq_some fun unit _ => defaultDraftWith_eq_some hbounds unit]
    rfl
  rw [defaultConfigWith, hdrafts, defaultConfig_def]
  rfl

/-- The next configuration passes the assertion. -/
lemma nextWith_eq_some (hbounds : g.bounds.check = .ok ()) :
    g.nextWith countProduct? = some g.next := by
  unfold nextWith
  cases hphase : g.phase with
  | default =>
    rw [defaultConfigWith_eq_some hbounds, next_of_default hphase]
    rfl
  | stepping =>
    rw [configAtWith_eq_some hbounds, next_of_stepping hphase]
    rfl

end Generator

/-- The saturating product of factors that are not negative is the exact one, cut off at the greatest
signed 64-bit integer, and on signed words it is computed without a division by zero and without
leaving the range.  Of three factors it is the exact product, cut off once, in whatever order and
grouping they are multiplied.  A generator that could be created multiplies nothing below 1, however
it is used afterwards: all its configurations are the same with products that assert this. -/
theorem saturatingProduct_exact :
    (∀ a b : ℤ, 0 ≤ a → 0 ≤ b →
      saturatingProduct a b = min (a * b) (2 ^ 63 - 1) ∧
        saturatingProduct? a b = some (saturatingProduct a b)) ∧
    (∀ a b c x y z : ℤ, 0 ≤ a → 0 ≤ b → 0 ≤ c → [x, y, z].Perm [a, b, c] →
      saturatingProduct (saturatingProduct x y) z = min (a * b * c) (2 ^ 63 - 1) ∧
        saturatingProduct x (saturatingProduct y z) = min (a * b * c) (2 ^ 63 - 1)) ∧
    ∀ (space : SearchSpace) (bounds : Bounds) (models : List ServedModel) (registry : VariantNames)
      (g : Generator), Generator.create space bounds models (some registry) = .ok g →
      ∀ calls : List SessionCall,
        let now := ((Session.mk g registry).run calls).generator
        now.nextWith countProduct? = some now.next ∧
          now.defaultConfigWith countProduct? = some now.defaultConfig ∧
            ∀ c, now.configAtWith countProduct? c = some (now.configAt c) := by
  refine ⟨?_, ?_, ?_⟩
  · intro a b ha hb
    exact ⟨saturatingProduct_eq a hb, saturatingProduct?_eq_some ha hb⟩
  · intro a b c x y z ha hb hc hperm
    have hproduct : x * y * z = a * b * c := by
      simpa [mul_assoc] using hperm.prod_eq
    have hnonneg : ∀ n ∈ [x, y, z], 0 ≤ n := by
      intro n hn
      have hmem := hperm.mem_iff.mp hn
      simp only [List.mem_cons, List.not_mem_nil, or_false] at hmem
      rcases hmem with rfl | rfl | rfl <;> assumption
    have hx : 0 ≤ x := hnonneg x (by simp)
    have hy : 0 ≤ y := hnonneg y (by simp)
    have hz : 0 ≤ z := hnonneg z (by simp)
    rw [← hproduct]
    exact ⟨saturatingProduct_saturatingProduct hx hy hz,
      saturatingProduct_saturatingProduct_right hx hy hz⟩
  · intro space bounds models registry g hg calls now
    obtain ⟨phase, hnow, -⟩ := Session.run_new hg calls
    obtain ⟨-, -, hchecked, -⟩ := Generator.create_eq_ok hg
    have hbounds : ((Session.mk g registry).run calls).generator.bounds.check = .ok () := by
      rw [hnow]
      exact hchecked
    exact ⟨Generator.nextWith_eq_some hbounds, Generator.defaultConfigWith_eq_some hbounds,
      Generator.configAtWith_eq_some hbounds⟩

/-- A product past the range of words does not leave it, and one with zero is zero although the other
two factors saturate.  A generator over a plain model and an ensemble, one stage of which asks for its
own concurrency, gives the same with asserted products after it was moved. -/
theorem saturatingProduct_exact_of_pipeline :
    let space : SearchSpace := { dimensions := Session.mixedDimensions, mode := .coordinate }
    let bounds : Bounds := { batchSize := ⟨none, some 16⟩ }
    (0 ≤ (3037000500 : ℤ) ∧ saturatingProduct? 3037000500 3037000500 = some maxSigned) ∧
    ([3037000500, 0, 3037000500].Perm [3037000500, 3037000500, (0 : ℤ)] ∧
      saturatingProduct (saturatingProduct 3037000500 0) 3037000500 = 0 ∧
      saturatingProduct (saturatingProduct 3037000500 3037000500) 0 = 0) ∧
    ∃ g, Generator.create space bounds [Session.plain, Session.pipeline] (some .empty) = .ok g ∧
      let now := ((Session.mk g .empty).run [.next, .moveTo ⟨[0, 3, 6, 1]⟩]).generator
      now.nextWith countProduct? = some now.next ∧
        now.configAtWith countProduct? ⟨[9, 3, 6, 1]⟩ = some (now.configAt ⟨[9, 3, 6, 1]⟩) := by
  intro space bounds
  obtain ⟨hexact, hthree, hgenerator⟩ := saturatingProduct_exact
  have hperm : [3037000500, 0, 3037000500].Perm [3037000500, 3037000500, (0 : ℤ)] := by decide
  have hg : Generator.create space bounds [Session.plain, Session.pipeline] (some .empty) = .ok
      { space, bounds, models := [Session.plain, Session.pipeline]
        cursor := Session.mixedDimensions.start } := rfl
  obtain ⟨hnext, -, hconfig⟩ := hgenerator space bounds _ .empty _ hg [.next, .moveTo ⟨[0, 3, 6, 1]⟩]
  refine ⟨⟨by norm_num, ?_⟩, ⟨hperm, ?_, ?_⟩, _, hg, hnext, hconfig _⟩
  · exact (hexact 3037000500 3037000500 (by norm_num) (by norm_num)).2
  · exact (hthree 3037000500 3037000500 0 _ _ _ (by norm_num) (by norm_num) le_rfl hperm).1
  · exact (hthree 3037000500 3037000500 0 _ _ _ (by norm_num) (by norm_num) le_rfl (.refl _)).1

end ServingTuner
