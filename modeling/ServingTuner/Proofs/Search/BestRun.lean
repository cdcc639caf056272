import Mathlib
import ServingTuner.Proofs.Search.Accounts
import ServingTuner.Proofs.Search.Trials

/-!
# The best run of a search

Where the ranking is a total preorder on the answers of the measure function, failed runs aside, the
best run of a search that has ended is the first best of all trials (`run_best`): of the default
configuration, if that was tried, and of all measured coordinates in the order in which they were
measured.  A trial whose result was remembered ranks equal to the one that it was remembered from, so
the best run is one that was handed to the measure function itself.
-/

namespace ServingTuner

namespace HillClimb

variable {α : Type} {measure : Measure α} {session : Session} {start : List (Trial α)}

/-- What a search tries before any coordinate is one trial without a coordinate, if any. -/
lemma IsStart.eq_of_mem {trial : Trial α} (h : IsStart measure session start)
    (htrial : trial ∈ start) : trial.coordinate = none ∧ start = [trial] := by
  rw [IsStart] at h
  split at h
  · obtain ⟨config, -, rfl⟩ := h
    obtain rfl := List.mem_singleton.mp htrial
    exact ⟨rfl, rfl⟩
  · rw [h] at htrial
    cases htrial

variable [Quantity α] {scan : Scan α} {s after : HillClimb α} {constraints : RunConstraints α}
  {maxSteps : UInt32} {best : BestRun α}

/-- The first best of the trials that a search remembers was handed to the measure function. -/
lemma Remembers.exists_asked {trials : List (Trial α)} (h : s.Remembers measure trials)
    (hpreorder : constraints.IsPreorder (s.results.map (·.2)))
    (hbest : IsFirstBest constraints trials (some best)) :
    ∃ asked others, s.calls = asked ++ best.config :: others ∧
      measure asked best.config = some best.measurement := by
  have hmem := hbest.trial_mem
  have hself : constraints.rank (some best.measurement) (some best.measurement) = .eq :=
    hpreorder.rank_self (List.mem_map_of_mem (f := (·.2)) (h.tried _ hmem))
  obtain ⟨-, before, rest, htrials, hbefore, -⟩ := hbest
  -- A trial of the same text before it would have the same result and not rank below it.
  have hnone : before.find? (·.config.text == best.config.text) = none := by
    rw [List.find?_eq_none]
    intro earlier hearlier htext
    have hsame : earlier.result = some best.measurement :=
      h.result_eq (by rw [htrials]; exact List.mem_append_left _ hearlier) hmem (eq_of_beq htext)
    have hgt := hbefore earlier hearlier
    rw [hsame, hself] at hgt
    cases hgt
  have hfirst : trials.find? (·.config.text == best.config.text) = some best.trial := by
    rw [htrials, List.find?_append, hnone, Option.none_or]
    exact List.find?_cons_of_pos (beq_self_eq_true _)
  exact h.first _ _ hfirst

/-- Take a search that has run to its end, with any scan, and let the ranking be a total preorder on
all answers of the measure function but the failures.  The best run is the first best of all trials:
of the default configuration, if the search started with it, and of the measured coordinates in
order.  There is none exactly if every answer was a failure.  The best run was handed to the measure
function and got its measurement as the answer.  It has no coordinate exactly if it is the default
configuration; else it is the configuration at its coordinate, which was measured with that result.
-/
theorem run_best (hrun : (fresh session constraints maxSteps).run (some measure) scan = .ok after)
    (hrank : constraints.IsPreorder
      (((answers measure after.calls).map (·.2)).filter (·.isSome))) :
    ∃ start tries, IsStart measure session start ∧
      List.Forall₂ (IsTrialAt session after.names) after.measured tries ∧
      IsFirstBest constraints (start ++ tries) after.best ∧
      (after.best = none ↔ ∀ answer ∈ answers measure after.calls, answer.2 = none) ∧
      ∀ best, after.best = some best →
        (∃ asked others, after.calls = asked ++ best.config :: others ∧
          measure asked best.config = some best.measurement) ∧
        (best.coordinate = none ↔ start = [best.trial]) ∧
        ∀ c, best.coordinate = some c →
          (c, some best.measurement) ∈ after.measured ∧
            MadeAt session after.names c best.config := by
  obtain ⟨p, hreaches, -, rfl⟩ := exists_reaches_of_run hrun
  obtain ⟨start, tries, hstart, hlogged⟩ := hreaches.exists_logged
  obtain ⟨hremembers, hkept⟩ := hlogged.ledger
  have hpreorder := hrank.of_filter
  rw [← hremembers.answers] at hpreorder
  have hconstraints : p.search.constraints = constraints := hreaches.sound.ranks
  rw [hconstraints] at hkept
  have hbest := hkept hpreorder
  refine ⟨start, tries, hstart, hlogged.entries, hbest, ?_, ?_⟩
  · rw [← hremembers.answers]
    constructor
    · intro hnone answer hanswer
      rw [hnone] at hbest
      obtain ⟨trial, htrial, rfl⟩ := hremembers.answered answer hanswer
      exact hbest trial htrial
    · intro hfailed
      by_contra hsome
      obtain ⟨best, hsome⟩ := Option.ne_none_iff_exists'.mp hsome
      rw [hsome] at hbest
      cases hfailed _ (hremembers.tried _ hbest.trial_mem)
  · intro best hsome
    rw [hsome] at hbest
    have hasked := hremembers.exists_asked hpreorder hbest
    have hmem := hbest.trial_mem
    have htried : best.trial ∈ tries → ∃ c, best.coordinate = some c ∧
        (c, some best.measurement) ∈ p.search.measured ∧
          MadeAt session p.search.names c best.config := by
      intro hmem
      obtain ⟨⟨c, result⟩, hentry, hcoordinate, hresult, hmade⟩ :=
        exists_mem_of_forall₂ hlogged.entries.flip hmem
      obtain rfl : some best.measurement = result := hresult
      exact ⟨c, hcoordinate, hentry, hmade⟩
    refine ⟨hasked, ⟨?_, ?_⟩, ?_⟩
    · intro hnone
      rcases List.mem_append.mp hmem with hfirst | hlater
      · exact (hstart.eq_of_mem hfirst).2
      · obtain ⟨c, hcoordinate, -⟩ := htried hlater
        rw [hnone] at hcoordinate
        cases hcoordinate
    · intro hsame
      exact (hstart.eq_of_mem (by rw [hsame]; exact List.mem_cons_self)).1
    · intro c hc
      rcases List.mem_append.mp hmem with hfirst | hlater
      · have hnone : best.coordinate = none := (hstart.eq_of_mem hfirst).1
        rw [hc] at hnone
        cases hnone
      · obtain ⟨c', hcoordinate, hrest⟩ := htried hlater
        rw [hc] at hcoordinate
        obtain rfl := Option.some.inj hcoordinate
        exact hrest

/-- Measures no throughput for the first run, and one that stays the same from the third run on. -/
def plateau : Measure ℚ := fun asked _ =>
  if asked = [] then none
  else some ⟨[⟨.ofRecords "" [⟨.throughput, min asked.length 2, 0⟩], Objectives.standard⟩]⟩

/-- What a search comes to where the default run fails and two others tie: the answers rank as a
preorder, and the best run is at the second coordinate that was measured. -/
lemma exists_run_plateau :
    ∃ after, (fresh ⟨batchGenerator, .empty⟩ [none] 32).run (some plateau) = .ok after ∧
      RunConstraints.IsPreorder [none]
        (((answers plateau after.calls).map (·.2)).filter (·.isSome)) ∧
      after.measured.coordinates = [⟨[0]⟩, ⟨[1]⟩, ⟨[2]⟩] ∧
      after.best.bind (·.coordinate) = some ⟨[1]⟩ := by
  exact exists_ok_of_any (by decide +kernel)

/-- Of two runs that tie the first one is the best, after a default run that failed. -/
theorem run_best_of_plateau :
    ∃ after best, (fresh ⟨batchGenerator, .empty⟩ [none] 32).run (some plateau) = .ok after ∧
      after.measured.coordinates = [⟨[0]⟩, ⟨[1]⟩, ⟨[2]⟩] ∧ after.best = some best ∧
      best.coordinate = some ⟨[1]⟩ ∧ (⟨[1]⟩, some best.measurement) ∈ after.measured ∧
      ∃ asked others, after.calls = asked ++ best.config :: others ∧
        plateau asked best.config = some best.measurement := by
  obtain ⟨after, hrun, hrank, hmeasured, hcoordinate⟩ := exists_run_plateau
  obtain ⟨start, tries, -, -, -, -, hbest⟩ := run_best hrun hrank
  obtain ⟨best, hsome, hcoordinate⟩ := Option.bind_eq_some_iff.mp hcoordinate
  obtain ⟨hasked, -, hentry⟩ := hbest best hsome
  exact ⟨after, best, hrun, hmeasured, hsome, hcoordinate, (hentry _ hcoordinate).1, hasked⟩

end HillClimb

end ServingTuner
