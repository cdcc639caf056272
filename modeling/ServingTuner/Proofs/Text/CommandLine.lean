import Mathlib
import ServingTuner.Generator
import ServingTuner.Proofs.VariantNames.Entity

/-!
# What a command line tells

The flags of a model are written as the variant's name, the concurrency and then the model's own
flags, and the lines of several models are joined by blanks.  Nothing is escaped on the way.  Still
the line tells the flags of every model if the variants are numbered ones (`flags_of_text_eq`): the
text around the two numbers is the same for all runs of the models, and neither number is followed
by a digit.
-/

namespace ServingTuner

/-! ### Words -/

/-- The characters of words, each after a blank. -/
def spaced (words : List String) : List Char := words.flatMap fun word => ' ' :: word.toList

/-- Words after blanks end a number. -/
lemma endsNumber_spaced_append {words : List String} {rest : List Char}
    (h : Text.EndsNumber rest) : Text.EndsNumber (spaced words ++ rest) := by
  cases words with
  | nil => exact h
  | cons word words => exact Text.endsNumber_cons (by decide)

/-- Words after blanks end a number if nothing follows. -/
lemma endsNumber_spaced (words : List String) : Text.EndsNumber (spaced words) := by
  simpa using @endsNumber_spaced_append words [] Text.endsNumber_nil

/-- Words joined by blanks are the first one and the others after blanks. -/
lemma toList_intercalate_cons (word : String) (words : List String) :
    (String.intercalate " " (word :: words)).toList = word.toList ++ spaced words := by
  induction words generalizing word with
  | nil => simp [spaced]
  | cons next words ih =>
    rw [String.intercalate_cons_cons, String.toList_append, String.toList_append, ih next]
    simp [spaced]

/-- Joining lines onto one that is not empty puts each of them after a blank. -/
lemma toList_foldl_join {line : String} (hline : line ≠ "") (texts : List String) :
    (texts.foldl (fun line text => (if line.isEmpty then line else line ++ " ") ++ text)
      line).toList = line.toList ++ spaced texts := by
  induction texts generalizing line with
  | nil => simp [spaced]
  | cons text texts ih =>
    have hblank : line.isEmpty = false := by simpa [String.isEmpty_iff] using hline
    have hlonger : line ++ " " ++ text ≠ "" := by
      intro h
      have hlist := congrArg String.toList h
      simp at hlist
    rw [List.foldl_cons, hblank, if_neg (by simp), ih hlonger]
    simp [spaced]

/-- Lines of which the first one is not empty are joined like words. -/
lemma toList_join_cons {text : String} (htext : text ≠ "") (texts : List String) :
    (RunConfig.join (text :: texts)).toList = text.toList ++ spaced texts := by
  have hfirst : RunConfig.join (text :: texts) =
      texts.foldl (fun line text => (if line.isEmpty then line else line ++ " ") ++ text) text := by
    rw [RunConfig.join, List.foldl_cons]
    congr 1
  rw [hfirst, toList_foldl_join htext]

/-! ### The line of one model -/

/-- Setting a field does not change those that are picked by other names. -/
lemma filter_set {β : Type} {p : String × β → Bool} {key : String}
    (hkey : ∀ value, p (key, value) = false) (value : β) (fields : Fields β) :
    (Fields.set key value fields).filter p = fields.filter p := by
  fun_induction Fields.set key value fields with
  | case1 => simp [hkey]
  | case2 v rest => simp [hkey]
  | case3 k v rest hne hlt => simp [hkey]
  | case4 k v rest hne hlt ih => rw [List.filter_cons, List.filter_cons, ih]

namespace ServedUnit

/-- The flags of a model's own that no run sets, as words. -/
def ownWords (unit : ServedUnit) : List String :=
  ((BenchmarkFlags.update {} (.obj unit.flags)).fields.filter
    fun (key, _) => !BenchmarkFlags.isLeading key).map
      fun (key, value) => BenchmarkFlags.longForm key value

/-- The words of a run's flags: the variant, one item in a request, the concurrency, and the model's
own flags. -/
lemma words_benchmarkFlags (unit : ServedUnit) (variant : String) (concurrency : ℤ) :
    (unit.benchmarkFlags variant concurrency).words =
      ("-m " ++ variant) :: "-b 1" :: ("--concurrency-range=" ++ toString concurrency) ::
        unit.ownWords := by
  have hother : ((unit.benchmarkFlags variant concurrency).fields.filter
      fun (key, _) => !BenchmarkFlags.isLeading key) =
      (BenchmarkFlags.update {} (.obj unit.flags)).fields.filter
        fun (key, _) => !BenchmarkFlags.isLeading key := by
    rw [benchmarkFlags, BenchmarkFlags.set, filter_set fun _ => rfl, BenchmarkFlags.set,
      filter_set fun _ => rfl, BenchmarkFlags.set, filter_set fun _ => rfl]
  have hleading : (BenchmarkFlags.leading.filterMap fun flag =>
      ((unit.benchmarkFlags variant concurrency).get? flag.1).map flag.2) =
      ["-m " ++ variant, "-b 1", "--concurrency-range=" ++ toString concurrency] := by
    simp [BenchmarkFlags.leading, benchmarkFlags, BenchmarkFlags.get?, BenchmarkFlags.set,
      Fields.get?_set, BenchmarkFlags.modelName, BenchmarkFlags.batchSize,
      BenchmarkFlags.concurrencyRange, BenchmarkFlags.valueText, BenchmarkFlags.longForm, Json.text]
    rfl
  rw [BenchmarkFlags.words, hother]
  exact congrArg (· ++ unit.ownWords) hleading

/-- The flags of a run tell the variant and the concurrency. -/
lemma benchmarkFlags_inj (unit : ServedUnit) {variant other : String} {a b : ℤ}
    (h : unit.benchmarkFlags variant a = unit.benchmarkFlags other b) : variant = other ∧ a = b := by
  have hname := congrArg (·.get? BenchmarkFlags.modelName) h
  have hconcurrency := congrArg (·.get? BenchmarkFlags.concurrencyRange) h
  simp only [benchmarkFlags, BenchmarkFlags.get?, BenchmarkFlags.set, Fields.get?_set,
    if_neg (show BenchmarkFlags.modelName ≠ BenchmarkFlags.concurrencyRange by decide),
    if_neg (show BenchmarkFlags.modelName ≠ BenchmarkFlags.batchSize by decide), if_true,
    Option.some.injEq, Json.str.injEq, Json.int.injEq] at hname hconcurrency
  exact ⟨hname, hconcurrency⟩

/-- What follows the concurrency in a run's line. -/
def lineEnd (unit : ServedUnit) (rest : List Char) : List Char := spaced unit.ownWords ++ rest

/-- The characters of a run's line: the variant and the concurrency, each after a fixed text, and
what follows them. -/
lemma toList_text_benchmarkFlags (unit : ServedUnit) (variant : String) (concurrency : ℤ)
    (rest : List Char) :
    (unit.benchmarkFlags variant concurrency).text.toList ++ rest =
      "-m ".toList ++ (variant.toList ++ (" -b 1 --concurrency-range=".toList ++
        ((toString concurrency).toList ++ unit.lineEnd rest))) := by
  rw [BenchmarkFlags.text, words_benchmarkFlags, toList_intercalate_cons, lineEnd]
  simp [spaced]

/-- The line of a run is not empty. -/
lemma text_benchmarkFlags_ne (unit : ServedUnit) (variant : String) (concurrency : ℤ) :
    (unit.benchmarkFlags variant concurrency).text ≠ "" := by
  intro h
  have hlist := toList_text_benchmarkFlags unit variant concurrency []
  rw [h] at hlist
  simp at hlist

/-- What follows a concurrency ends it. -/
lemma endsNumber_lineEnd (unit : ServedUnit) {rest : List Char} (h : Text.EndsNumber rest) :
    Text.EndsNumber (unit.lineEnd rest) := endsNumber_spaced_append h

/-- The line of a run with a numbered variant tells the number, the concurrency and what follows. -/
lemma text_numbered_append_inj (unit : ServedUnit) {i j : UInt64} {a b : ℤ} {s t : List Char}
    (hs : Text.EndsNumber s) (ht : Text.EndsNumber t)
    (h : (unit.benchmarkFlags (VariantName.numbered unit.name i) a).text.toList ++ s =
      (unit.benchmarkFlags (VariantName.numbered unit.name j) b).text.toList ++ t) :
    i = j ∧ a = b ∧ s = t := by
  rw [toList_text_benchmarkFlags, toList_text_benchmarkFlags, VariantName.toList_numbered,
    VariantName.toList_numbered, List.append_assoc, List.append_assoc] at h
  have hnumber := List.append_cancel_left (List.append_cancel_left h)
  have hblank : ∀ rest, Text.EndsNumber (" -b 1 --concurrency-range=".toList ++ rest) :=
    fun rest => Text.endsNumber_cons (by decide)
  obtain ⟨hindex, hafter⟩ := Text.toString_nat_append_inj (hblank _) (hblank _) hnumber
  obtain ⟨hconcurrency, hend⟩ := Text.toString_int_append_inj (unit.endsNumber_lineEnd hs)
    (unit.endsNumber_lineEnd ht) (List.append_cancel_left hafter)
  exact ⟨UInt64.toNat_inj.mp hindex, hconcurrency, List.append_cancel_left hend⟩

/-- The line of a run with the default variant is not that of one with a numbered variant. -/
lemma text_standard_append_ne (unit : ServedUnit) (i : UInt64) (a b : ℤ) (s t : List Char) :
    (unit.benchmarkFlags (VariantName.standard unit.name) a).text.toList ++ s ≠
      (unit.benchmarkFlags (VariantName.numbered unit.name i) b).text.toList ++ t := by
  intro h
  have hstandard : (VariantName.standard unit.name).toList =
      (unit.name ++ VariantName.separator).toList ++ "default".toList := by
    rw [VariantName.standard, String.toList_append]
  rw [toList_text_benchmarkFlags, toList_text_benchmarkFlags, VariantName.toList_numbered,
    hstandard, List.append_assoc, List.append_assoc] at h
  have hnumber := List.append_cancel_left (List.append_cancel_left h)
  -- One side starts with the first letter of `default`, the other one with a digit.
  cases hdigits : (toString i.toNat).toList with
  | nil => exact Text.toString_nat_ne_nil _ hdigits
  | cons c digits =>
    have hdigit : c.isDigit = true :=
      Text.isDigit_of_mem_toString (n := i.toNat) (by rw [hdigits]; exact List.mem_cons_self)
    rw [hdigits, List.cons_append] at hnumber
    have hletter : 'd' = c := (List.cons.inj hnumber).1
    rw [← hletter] at hdigit
    exact absurd hdigit (by decide)

end ServedUnit

/-! ### The line of a run -/

/-- The flags of a model's run with a numbered variant. -/
def HasNumberedFlags (model : ServedModel) (run : ModelRun) : Prop :=
  ∃ index concurrency,
    run.flags = model.benchmarkFlags (VariantName.numbered model.name index) concurrency

/-- The lines of numbered runs of the same models, each after a blank, tell the flags of the runs. -/
lemma flags_of_spaced_eq {models : List ServedModel} {runs others : List ModelRun}
    (hruns : List.Forall₂ HasNumberedFlags models runs)
    (hothers : List.Forall₂ HasNumberedFlags models others)
    (h : spaced (runs.map (·.flags.text)) = spaced (others.map (·.flags.text))) :
    runs.map (·.flags) = others.map (·.flags) := by
  induction hruns generalizing others with
  | nil =>
    cases hothers
    rfl
  | @cons model run models runs hrun hruns ih =>
    rcases others with _ | ⟨other, others⟩
    · cases hothers
    rcases hothers with _ | ⟨⟨j, b, hflags'⟩, hothers⟩
    obtain ⟨i, a, hflags⟩ := hrun
    have hspaced : run.flags.text.toList ++ spaced (runs.map (·.flags.text)) =
        other.flags.text.toList ++ spaced (others.map (·.flags.text)) := (List.cons.inj h).2
    rw [hflags, hflags'] at hspaced
    obtain ⟨rfl, rfl, hrest⟩ :=
      model.text_numbered_append_inj (endsNumber_spaced _) (endsNumber_spaced _) hspaced
    rw [List.map_cons, List.map_cons, hflags, hflags', ih hothers hrest]

/-- The text of a run of some models is that of its lines after blanks, without the first blank. -/
lemma cons_toList_text {model : ServedModel} {run : ModelRun} (hrun : HasNumberedFlags model run)
    (runs : List ModelRun) :
    ' ' :: (RunConfig.mk (run :: runs)).text.toList =
      spaced ((run :: runs).map (·.flags.text)) := by
  obtain ⟨index, concurrency, hflags⟩ := hrun
  have hline : run.flags.text ≠ "" := by
    rw [hflags]
    exact model.text_benchmarkFlags_ne _ _
  rw [RunConfig.text, List.map_cons, toList_join_cons hline]
  rfl

/-- Two runs of the same models, all with numbered variants, have the same flags if their texts are
the same. -/
theorem flags_of_text_eq {models : List ServedModel} {config other : RunConfig}
    (hconfig : List.Forall₂ HasNumberedFlags models config.models)
    (hother : List.Forall₂ HasNumberedFlags models other.models) (h : config.text = other.text) :
    config.models.map (·.flags) = other.models.map (·.flags) := by
  obtain ⟨runs⟩ := config
  obtain ⟨others⟩ := other
  rcases hconfig with _ | ⟨hrun, hruns⟩
  · cases hother
    rfl
  · rcases hother with _ | ⟨hrun', hruns'⟩
    refine flags_of_spaced_eq (.cons hrun hruns) (.cons hrun' hruns') ?_
    rw [← cons_toList_text hrun, ← cons_toList_text hrun', h]

/-- Runs of which the first one has the default variant in one and a numbered variant in the other
have different texts. -/
lemma text_standard_ne {model : ServedModel} {run standard : ModelRun} {concurrency : ℤ}
    (hrun : HasNumberedFlags model run)
    (hstandard : standard.flags =
      model.benchmarkFlags (VariantName.standard model.name) concurrency)
    (runs standards : List ModelRun) :
    (RunConfig.mk (standard :: standards)).text ≠ (RunConfig.mk (run :: runs)).text := by
  intro h
  have hline : standard.flags.text ≠ "" := by
    rw [hstandard]
    exact model.text_benchmarkFlags_ne _ _
  have hlist := cons_toList_text hrun runs
  obtain ⟨index, asked, hflags⟩ := hrun
  rw [← h, RunConfig.text, List.map_cons, toList_join_cons hline, List.map_cons] at hlist
  have hlines := (List.cons.inj hlist).2
  rw [hstandard, hflags] at hlines
  exact model.text_standard_append_ne index concurrency asked _ _ hlines

end ServingTuner
