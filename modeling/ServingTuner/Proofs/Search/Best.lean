import Mathlib
import ServingTuner.Proofs.Ranking.Preorder
import ServingTuner.Proofs.Search.Measured

/-!
# The best around home

The best coordinate is found in one pass over the entries of a neighborhood.  If every step of the
pass ends with an entry that is preferred to the two that it compares, in whatever sense
(`Neighborhood.IsPreference`), then the pass ends with one that is preferred to all entries.

Where the ranking is a total preorder on the results that there are (`RunConstraints.IsPreorder`),
one entry is preferred to another one (`Neighborhood.Leads`) if it ranks above it, or if they rank
equal and it goes first: home before all others, and of two others the smaller coordinate.  The pass,
in whatever order, ends with the one that leads all entries (`Neighborhood.exists_leads`), and there
is only one such coordinate.  So the best coordinate does not depend on the order
(`Neighborhood.best?_of_perm`).  In particular nothing measured in the neighborhood ranks above it,
and since home gives way only to a better one, it is home itself or ranks above home
(`Neighborhood.best?_eq`).
-/

namespace ServingTuner

/-! ### Best entries -/

namespace Measured

variable {α : Type} {measured : Measured α} {entry : Coordinate × Option (RunMeasurement α)}

/-- The results that were recorded. -/
def results (measured : Measured α) : List (Option (RunMeasurement α)) := measured.map (·.2)

/-- The result of an entry is among those that were recorded. -/
lemma mem_results (h : entry ∈ measured) : entry.2 ∈ measured.results := List.mem_map_of_mem h

end Measured

namespace Neighborhood

variable {α : Type} {n : Neighborhood α} {measured : Measured α} {a b c : Coordinate}
  {entry best start : Coordinate × Option (RunMeasurement α)}

/-- The results in a neighborhood were recorded. -/
lemma mem_results (h : entry ∈ n.entries) : entry.2 ∈ n.measured.results :=
  Measured.mem_results (mem_entries.mp h).1

/-- A neighborhood has no other results than those that were recorded. -/
lemma results_subset (n : Neighborhood α) : n.entries.results ⊆ n.measured.results :=
  List.map_subset _ (List.filter_subset_self _)

/-- Which of two coordinates goes first where their results rank equal: home, and of two others the
lexicographically smaller one. -/
def Before (n : Neighborhood α) (a b : Coordinate) : Prop := a = n.home ∨ b ≠ n.home ∧ ¬ b < a

/-- No coordinate has to give way to itself. -/
lemma Before.refl (n : Neighborhood α) (a : Coordinate) : n.Before a a := by
  by_cases ha : a = n.home
  · exact Or.inl ha
  · exact Or.inr ⟨ha, List.lt_irrefl a.slots⟩

/-- What goes before a coordinate goes before all that this goes before. -/
lemma Before.trans (hab : n.Before a b) (hbc : n.Before b c) : n.Before a c := by
  rcases hab with hhome | ⟨hb, hab⟩
  · exact Or.inl hhome
  · rcases hbc with hhome | ⟨hc, hbc⟩
    · exact absurd hhome hb
    · exact Or.inr ⟨hc, List.not_lt.mpr (List.le_trans (List.not_lt.mp hab) (List.not_lt.mp hbc))⟩

/-- Of two coordinates only one goes first. -/
lemma Before.antisymm (hab : n.Before a b) (hba : n.Before b a) : a = b := by
  by_cases ha : a = n.home
  · rcases hba with hb | ⟨hne, -⟩
    · rw [ha, hb]
    · exact absurd ha hne
  · obtain ⟨hb, hle⟩ := hab.resolve_left ha
    obtain ⟨-, hge⟩ := hba.resolve_left hb
    exact congrArg Coordinate.mk (List.le_antisymm (List.not_lt.mp hle) (List.not_lt.mp hge))

variable [Quantity α] {constraints : RunConstraints α}

/-- A step of the pass ends with the entry that it looks at if this beats the best one so far, and else
with the best one so far. -/
lemma keepBest_eq_or (hunique : n.measured.coordinates.Nodup) (hentry : entry ∈ n.entries)
    (hbest : best ∈ n.entries) :
    n.keepBest constraints (some best) entry = some entry ∧ n.beats constraints entry best = true ∨
      n.keepBest constraints (some best) entry = some best ∧
        (entry = best ∨ ¬n.beats constraints entry best = true) := by
  rw [keepBest]
  split_ifs with hkeep
  · exact Or.inl ⟨rfl, (Bool.and_eq_true_iff.mp hkeep).2⟩
  · refine Or.inr ⟨rfl, ?_⟩
    by_cases hsame : entry.1 = best.1
    · left
      exact Measured.eq_of_mem hunique (mem_entries.mp hentry).1 (mem_entries.mp hbest).1 hsame
    · right
      simpa [hsame] using hkeep

/-- A preference between entries that a pass over them follows: each step ends with an entry that is
preferred to the best one so far and to the one that is looked at.  The best one so far is preferred
to home, for home is not looked at in a tie. -/
structure IsPreference (n : Neighborhood α) (constraints : RunConstraints α)
    (R : Coordinate × Option (RunMeasurement α) → Coordinate × Option (RunMeasurement α) → Prop) :
    Prop where
  refl : ∀ entry ∈ n.entries, R entry entry
  trans : ∀ entry ∈ n.entries, ∀ best ∈ n.entries, ∀ start ∈ n.entries,
    R entry best → R best start → R entry start
  step : ∀ entry ∈ n.entries, ∀ best ∈ n.entries,
    (∀ start ∈ n.entries, start.1 = n.home → R best start) →
    ∃ found ∈ n.entries, n.keepBest constraints (some best) entry = some found ∧
      R found best ∧ R found entry

section Preference

variable {R : Coordinate × Option (RunMeasurement α) → Coordinate × Option (RunMeasurement α) → Prop}

/-- To look at some entries ends with one that is preferred to all of them and the one to start
from. -/
lemma IsPreference.exists_foldl (h : n.IsPreference constraints R) {entries : Measured α}
    (hentries : entries ⊆ n.entries) (hbest : best ∈ n.entries)
    (hhome : ∀ start ∈ n.entries, start.1 = n.home → R best start) :
    ∃ found ∈ n.entries, entries.foldl (n.keepBest constraints) (some best) = some found ∧
      R found best ∧ ∀ entry ∈ entries, R found entry := by
  induction entries generalizing best with
  | nil => exact ⟨best, hbest, rfl, h.refl best hbest, by simp⟩
  | cons entry entries ih =>
    obtain ⟨hentry, hentries⟩ := List.cons_subset.mp hentries
    obtain ⟨next, hnext, hkeep, hover, hhere⟩ := h.step entry hentry best hbest hhome
    -- What is preferred to the best one so far is still preferred to home.
    have hhome' : ∀ start ∈ n.entries, start.1 = n.home → R next start :=
      fun start hstart hsame =>
        h.trans next hnext best hbest start hstart hover (hhome start hstart hsame)
    obtain ⟨found, hfound, hfold, hlast, hothers⟩ := ih hentries hnext hhome'
    refine ⟨found, hfound, ?_, h.trans found hfound next hnext best hbest hlast hover,
      List.forall_mem_cons.mpr ⟨h.trans found hfound next hnext entry hentry hlast hhere, hothers⟩⟩
    rw [List.foldl_cons, hkeep, hfold]

/-- The best coordinate of a neighborhood is that of an entry which is preferred to all entries. -/
lemma IsPreference.exists_best? (h : n.IsPreference constraints R)
    (hunique : n.measured.coordinates.Nodup) (hentries : n.entries ≠ []) :
    ∃ found ∈ n.entries, n.best? constraints = some found.1 ∧
      ∀ entry ∈ n.entries, R found entry := by
  by_cases hhome : n.measured.has n.home = true
  · obtain ⟨start, hentry, hsame, hstart⟩ := exists_homeEntry hhome
    have honly : ∀ own ∈ n.entries, own.1 = n.home → R start own := by
      intro own hown hsame'
      rw [Measured.eq_of_mem hunique (mem_entries.mp hown).1 (mem_entries.mp hentry).1
        (hsame'.trans hsame.symm)]
      exact h.refl start hentry
    obtain ⟨found, hfound, hfold, -, hothers⟩ :=
      h.exists_foldl (List.Subset.refl n.entries) hentry honly
    refine ⟨found, hfound, ?_, hothers⟩
    rw [best?, hstart, hfold, Option.map_some]
  · -- Without home the walk starts from the entry that it meets first.
    obtain ⟨first, rest, hcons⟩ := List.exists_cons_of_ne_nil hentries
    have hfirst : first ∈ n.entries := by rw [hcons]; exact List.mem_cons_self
    have hrest : rest ⊆ n.entries := by rw [hcons]; exact List.subset_cons_self first rest
    have hnone : ∀ own ∈ n.entries, own.1 = n.home → R first own := by
      intro own hown hsame
      refine absurd (Measured.has_iff.mpr ?_) hhome
      rw [← hsame]
      exact List.mem_map_of_mem (mem_entries.mp hown).1
    obtain ⟨found, hfound, hfold, hover, hothers⟩ := h.exists_foldl hrest hfirst hnone
    have hstart : n.measured.entry? n.home = none :=
      Measured.entry?_eq_none (Bool.eq_false_iff.mpr hhome)
    refine ⟨found, hfound, ?_, fun entry hentry => ?_⟩
    · rw [best?, hstart, hcons, List.foldl_cons, keepBest, hfold, Option.map_some]
    · rw [hcons] at hentry
      exact List.forall_mem_cons.mpr ⟨hover, hothers⟩ entry hentry

end Preference

/-- Whether an entry is to be preferred to another one: it ranks above it, or ranks equal and goes
first. -/
def Leads (n : Neighborhood α) (constraints : RunConstraints α)
    (entry other : Coordinate × Option (RunMeasurement α)) : Prop :=
  constraints.rank entry.2 other.2 = .gt ∨
    constraints.rank entry.2 other.2 = .eq ∧ n.Before entry.1 other.1

/-- No entry ranks below one that it leads. -/
lemma Leads.rank_ne_lt (h : n.Leads constraints entry best) :
    constraints.rank entry.2 best.2 ≠ .lt := by
  rcases h with hrank | ⟨hrank, -⟩ <;> rw [hrank] <;> decide

/-- An entry of home is led by entries above it and of itself only. -/
lemma Leads.eq_home_or_gt (h : n.Leads constraints entry start) (hhome : start.1 = n.home) :
    entry.1 = n.home ∨ constraints.rank entry.2 start.2 = .gt := by
  rcases h with hrank | ⟨-, hbefore | ⟨hne, -⟩⟩
  · exact Or.inr hrank
  · exact Or.inl hbefore
  · exact absurd hhome hne

/-- Each entry leads itself. -/
lemma Leads.refl (hrank : constraints.IsPreorder n.entries.results) (h : entry ∈ n.entries) :
    n.Leads constraints entry entry :=
  Or.inr ⟨hrank.rank_self (Measured.mem_results h), Before.refl n entry.1⟩

/-- What leads an entry leads all that this leads. -/
lemma Leads.trans (hrank : constraints.IsPreorder n.entries.results) (hentry : entry ∈ n.entries)
    (hbest : best ∈ n.entries) (hstart : start ∈ n.entries) (h : n.Leads constraints entry best)
    (h' : n.Leads constraints best start) : n.Leads constraints entry start := by
  have hresult := Measured.mem_results hentry
  have hresult' := Measured.mem_results hbest
  have hresult'' := Measured.mem_results hstart
  rcases h with habove | ⟨hequal, hbefore⟩
  · exact Or.inl (hrank.gt_of_gt_of_ge hresult hresult' hresult'' habove h'.rank_ne_lt)
  · have hge : constraints.rank entry.2 best.2 ≠ .lt := by rw [hequal]; decide
    rcases h' with habove' | ⟨hequal', hbefore'⟩
    · exact Or.inl (hrank.gt_of_ge_of_gt hresult hresult' hresult'' hge habove')
    · have hge' : constraints.rank best.2 start.2 ≠ .lt := by rw [hequal']; decide
      cases hlast : constraints.rank entry.2 start.2 with
      | lt => exact absurd hlast (hrank.trans _ hresult _ hresult' _ hresult'' hge hge')
      | eq => exact Or.inr ⟨hlast, hbefore.trans hbefore'⟩
      | gt => exact Or.inl hlast

/-- Of two entries that lead each other both are of one coordinate. -/
lemma Leads.antisymm (hrank : constraints.IsPreorder n.entries.results) (hentry : entry ∈ n.entries)
    (hbest : best ∈ n.entries) (h : n.Leads constraints entry best)
    (h' : n.Leads constraints best entry) : entry.1 = best.1 := by
  have hswap := hrank.swap _ (Measured.mem_results hentry) _ (Measured.mem_results hbest)
  rcases h with habove | ⟨hequal, hbefore⟩
  · rw [habove] at hswap
    exact absurd hswap h'.rank_ne_lt
  · rcases h' with habove' | ⟨-, hbefore'⟩
    · rw [habove', hequal] at hswap
      cases hswap
    · exact hbefore.antisymm hbefore'

/-- There is no best coordinate where nothing is measured. -/
lemma best?_of_entries_eq_nil (h : n.entries = []) : n.best? constraints = none := by
  have hhome : n.measured.has n.home = false := by
    by_contra hhome
    obtain ⟨start, hstart, -⟩ := exists_homeEntry (by simpa using hhome)
    rw [h] at hstart
    cases hstart
  rw [best?, Measured.entry?_eq_none hhome, h]
  rfl

/-- What takes the place of the best entry leads it. -/
lemma leads_of_beats (h : n.beats constraints entry best = true) :
    n.Leads constraints entry best := by
  unfold beats at h
  cases hrank : constraints.rank entry.2 best.2 with
  | lt => simp [hrank] at h
  | eq =>
    simp only [hrank, Bool.and_eq_true, bne_iff_ne, decide_eq_true_eq] at h
    exact Or.inr ⟨hrank, Or.inr ⟨h.1, List.lt_asymm h.2⟩⟩
  | gt => exact Or.inl hrank

/-- What does not take the place of the best entry is led by it, unless it is of home. -/
lemma leads_of_not_beats (hrank : constraints.IsPreorder n.entries.results)
    (hentry : entry ∈ n.entries) (hbest : best ∈ n.entries) (hhome : entry.1 ≠ n.home)
    (h : ¬ n.beats constraints entry best = true) : n.Leads constraints best entry := by
  have hswap := hrank.swap _ (Measured.mem_results hentry) _ (Measured.mem_results hbest)
  unfold beats at h
  cases hcompare : constraints.rank entry.2 best.2 with
  | lt => exact Or.inl (hswap.trans (congrArg Ordering.swap hcompare))
  | eq =>
    simp only [hcompare, Bool.and_eq_true, bne_iff_ne, decide_eq_true_eq, not_and] at h
    refine Or.inr ⟨hswap.trans (congrArg Ordering.swap hcompare), ?_⟩
    by_cases hfirst : best.1 = n.home
    · exact Or.inl hfirst
    · exact Or.inr ⟨hhome, h hfirst⟩
  | gt => simp [hcompare] at h

/-- To look at one more entry ends with one that leads it and the best one so far.  The best one so
far has to lead home: home itself would not take its place in a tie. -/
lemma exists_keepBest (hrank : constraints.IsPreorder n.entries.results)
    (hunique : n.measured.coordinates.Nodup) (hentry : entry ∈ n.entries) (hbest : best ∈ n.entries)
    (hhome : ∀ start ∈ n.entries, start.1 = n.home → n.Leads constraints best start) :
    ∃ found ∈ n.entries, n.keepBest constraints (some best) entry = some found ∧
      n.Leads constraints found best ∧ n.Leads constraints found entry := by
  rcases keepBest_eq_or hunique hentry hbest with ⟨hkeep, hbeats⟩ | ⟨hkeep, hsame | hnot⟩
  · exact ⟨entry, hentry, hkeep, leads_of_beats hbeats, Leads.refl hrank hentry⟩
  · rw [hsame]
    exact ⟨best, hbest, hsame ▸ hkeep, Leads.refl hrank hbest, Leads.refl hrank hbest⟩
  · refine ⟨best, hbest, hkeep, Leads.refl hrank hbest, ?_⟩
    by_cases hstart : entry.1 = n.home
    · exact hhome entry hentry hstart
    · exact leads_of_not_beats hrank hentry hbest hstart hnot

/-- The best coordinate of a neighborhood is that of an entry which leads all entries. -/
lemma exists_leads (hrank : constraints.IsPreorder n.entries.results)
    (hunique : n.measured.coordinates.Nodup) (hentries : n.entries ≠ []) :
    ∃ found ∈ n.entries, n.best? constraints = some found.1 ∧
      ∀ entry ∈ n.entries, n.Leads constraints found entry := by
  have hprefers : n.IsPreference constraints (n.Leads constraints) := by
    constructor
    · intro entry hentry
      exact Leads.refl hrank hentry
    · intro entry hentry best hbest start hstart h h'
      exact h.trans hrank hentry hbest hstart h'
    · intro entry hentry best hbest hhome
      exact exists_keepBest hrank hunique hentry hbest hhome
  exact hprefers.exists_best? hunique hentries

/-- The best coordinate of a neighborhood is home, or ranks above it, and nothing measured in there
ranks above the best one. -/
theorem best?_eq (hrank : constraints.IsPreorder n.measured.results)
    (hunique : n.measured.coordinates.Nodup) (hhome : n.measured.has n.home = true) :
    ∃ start ∈ n.entries, ∃ found ∈ n.entries, start.1 = n.home ∧
      n.best? constraints = some found.1 ∧
      (found = start ∨ constraints.rank found.2 start.2 = .gt) ∧
      ∀ entry ∈ n.entries, constraints.rank entry.2 found.2 ≠ .gt := by
  have hrank' := hrank.mono n.results_subset
  obtain ⟨start, hentry, hsame, -⟩ := exists_homeEntry hhome
  obtain ⟨found, hfound, hbest, hothers⟩ :=
    exists_leads hrank' hunique (List.ne_nil_of_mem hentry)
  refine ⟨start, hentry, found, hfound, hsame, hbest, ?_, ?_⟩
  · apply ((hothers start hentry).eq_home_or_gt hsame).imp_left
    intro hfirst
    exact Measured.eq_of_mem hunique (mem_entries.mp hfound).1 (mem_entries.mp hentry).1
      (hfirst.trans hsame.symm)
  · intro entry hmember habove
    have hswap := hrank.swap _ (mem_results hmember) _ (mem_results hfound)
    rw [habove] at hswap
    exact (hothers entry hmember).rank_ne_lt hswap

/-- Whether an entry of the neighborhood is one that no other ranks above. -/
def IsTop (n : Neighborhood α) (constraints : RunConstraints α)
    (top : Coordinate × Option (RunMeasurement α)) : Prop :=
  top ∈ n.entries ∧ ∀ entry ∈ n.entries, constraints.rank entry.2 top.2 ≠ .gt

/-- What leads all entries is at the top, and goes first among those that are. -/
lemma isTop_of_leads (hrank : constraints.IsPreorder n.entries.results) (h : best ∈ n.entries)
    (hleads : ∀ entry ∈ n.entries, n.Leads constraints best entry) :
    n.IsTop constraints best ∧ ∀ top, n.IsTop constraints top → n.Before best.1 top.1 := by
  refine ⟨⟨h, fun entry hentry habove => ?_⟩, fun top htop => ?_⟩
  · have hswap := hrank.swap _ (Measured.mem_results hentry) _ (Measured.mem_results h)
    rw [habove] at hswap
    exact (hleads entry hentry).rank_ne_lt hswap
  · rcases hleads top htop.1 with habove | ⟨-, hbefore⟩
    · exact absurd habove (htop.2 best h)
    · exact hbefore

/-- The best coordinate does not depend on the order in which the results are stored: what leads all
entries does so in every order. -/
lemma best?_perm (hrank : constraints.IsPreorder n.entries.results)
    (hunique : n.measured.coordinates.Nodup) (horder : measured.Perm n.measured) :
    { n with measured := measured }.best? constraints = n.best? constraints := by
  have hentries := entries_perm horder
  have hunique' := Measured.nodup_of_perm horder hunique
  have hrank' := hrank.mono (List.map_subset (·.2) hentries.subset)
  by_cases hnone : n.entries = []
  · have hnone' : ({ n with measured := measured } : Neighborhood α).entries = [] :=
      List.perm_nil.mp (hnone ▸ hentries)
    rw [best?_of_entries_eq_nil hnone, best?_of_entries_eq_nil hnone']
  · obtain ⟨found, hfound, hbest, hleads⟩ := exists_leads hrank hunique hnone
    obtain ⟨found', hfound', hbest', hleads'⟩ :=
      exists_leads hrank' hunique' fun hnil => hnone (List.nil_perm.mp (hnil ▸ hentries))
    have hmem : found' ∈ n.entries := hentries.subset hfound'
    rw [hbest, hbest']
    apply congrArg some
    exact Leads.antisymm hrank hmem hfound (hleads' found (hentries.symm.subset hfound))
      (hleads found' hmem)

/-- Where the ranking is a total preorder on the results in the neighborhood, its best coordinate is
the same in whatever order the results are stored.  There is none in an empty neighborhood; it is
home if nothing ranks above a measured home, and else the lexicographically smallest one of those
that nothing ranks above. -/
theorem best?_of_perm (hrank : constraints.IsPreorder n.entries.results)
    (hunique : n.measured.coordinates.Nodup) (horder : measured.Perm n.measured) :
    { n with measured := measured }.best? constraints = n.best? constraints ∧
      (n.entries = [] → n.best? constraints = none) ∧
      (∀ own, n.IsTop constraints (n.home, own) → n.best? constraints = some n.home) ∧
      (n.entries ≠ [] → (∀ own, ¬ n.IsTop constraints (n.home, own)) →
        ∃ best, n.best? constraints = some best.1 ∧ n.IsTop constraints best ∧
          ∀ top, n.IsTop constraints top → best.1 = top.1 ∨ best.1 < top.1) := by
  refine ⟨best?_perm hrank hunique horder, best?_of_entries_eq_nil, fun own hown => ?_,
    fun hentries hnot => ?_⟩
  · obtain ⟨found, hfound, hbest, hleads⟩ :=
      exists_leads hrank hunique (List.ne_nil_of_mem hown.1)
    rcases (isTop_of_leads hrank hfound hleads).2 _ hown with hhome | ⟨hne, -⟩
    · rw [hbest, hhome]
    · exact absurd rfl hne
  · obtain ⟨found, hfound, hbest, hleads⟩ := exists_leads hrank hunique hentries
    obtain ⟨htop, hfirst⟩ := isTop_of_leads hrank hfound hleads
    refine ⟨found, hbest, htop, fun top hother => ?_⟩
    rcases hfirst top hother with hhome | ⟨-, hle⟩
    · exact absurd (hhome ▸ htop) (hnot found.2)
    · apply (List.le_iff_lt_or_eq.mp (List.not_lt.mp hle)).symm.imp_left
      exact fun hslots => congrArg Coordinate.mk hslots

/-- Three throughputs around a home that was not measured, two of them equal. -/
def tied : Neighborhood ℚ where
  measured := [(⟨[2]⟩, some (RunConstraints.throughputs [2])),
    (⟨[0]⟩, some (RunConstraints.throughputs [2])), (⟨[3]⟩, some (RunConstraints.throughputs [1]))]
  ball := ⟨⟨[1]⟩, 2⟩
  minMeasured := 3

/-- Of two coordinates that tie the smaller one is the best, in whatever order they were
measured. -/
theorem best?_of_tied :
    tied.best? [none] = some ⟨[0]⟩ ∧
      { tied with measured := tied.measured.reverse }.best? [none] = some ⟨[0]⟩ := by
  have hbest : tied.best? [none] = some ⟨[0]⟩ := by decide +kernel
  refine ⟨hbest, ?_⟩
  rw [← hbest]
  apply (best?_of_perm (n := tied) _ _ _).1
  · decide +kernel
  · decide
  · exact List.reverse_perm _

/-- Two results that gain over each other, and over that of home. -/
def contested : Neighborhood ℚ where
  measured := [(⟨[0]⟩, some (RunConstraints.throughputs [1, 1])),
    (⟨[1]⟩, some (RunConstraints.throughputs [4, 2])),
    (⟨[2]⟩, some (RunConstraints.throughputs [2, 4]))]
  ball := ⟨⟨[0]⟩, 2⟩
  minMeasured := 3

/-- Where the ranking is no preorder, the last of the results that gain over each other wins, so the
order counts. -/
example : contested.best? [none, none] = some ⟨[2]⟩ ∧
    { contested with measured := contested.measured.reverse }.best? [none, none] = some ⟨[1]⟩ := by
  decide +kernel

end Neighborhood

end ServingTuner
