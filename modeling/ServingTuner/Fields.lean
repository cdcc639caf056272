/-!
# Fields

A table from names to values, kept as a list in strictly increasing order of the names. Order on
names is by code point, which is also the order of their UTF-8 bytes. The small statements below
say what reading gives after each change, and that every change keeps the order.
-/

namespace ServingTuner

/-- Name and value pairs in increasing order of the names. -/
abbrev Fields (β : Type) := List (String × β)

namespace Fields

variable {β : Type}

/-- The value under a name. -/
def get? : Fields β → String → Option β
  | [], _ => none
  | (k, v) :: rest, key => if key = k then some v else get? rest key

/-- Whether a name is present. -/
def has (fields : Fields β) (key : String) : Bool := (get? fields key).isSome

/-- The names, in order. -/
def keys (fields : Fields β) : List String := fields.map Prod.fst

/-- The values, in the order of their names. -/
def values (fields : Fields β) : List β := fields.map Prod.snd

/-- Puts a value under a name, in place of the one there or at the name's position. -/
def set (key : String) (value : β) : Fields β → Fields β
  | [] => [(key, value)]
  | (k, v) :: rest =>
    if key = k then (key, value) :: rest
    else if key < k then (key, value) :: (k, v) :: rest
    else (k, v) :: set key value rest

/-- Removes a name. -/
def erase : Fields β → String → Fields β
  | [], _ => []
  | (k, v) :: rest, key => if key = k then erase rest key else (k, v) :: erase rest key

/-- Puts every field of `changes` over those of `fields`. -/
def update (fields changes : Fields β) : Fields β :=
  changes.foldl (fun acc pair => set pair.1 pair.2 acc) fields

/-- The table of a list of pairs; of a repeated name the last value counts. -/
def ofList (pairs : List (String × β)) : Fields β := update [] pairs

/-- The names increase strictly. -/
def Sorted (fields : Fields β) : Prop := (keys fields).Pairwise (· < ·)

theorem mem_keys_of_get? {fields : Fields β} {key : String} {value : β}
    (h : get? fields key = some value) : key ∈ keys fields := by
  induction fields with grind [get?, keys]

theorem mem_values_of_get? {fields : Fields β} {key : String} {value : β}
    (h : get? fields key = some value) : value ∈ values fields := by
  induction fields with grind [get?, values]

theorem get?_isSome_iff {fields : Fields β} {key : String} :
    (get? fields key).isSome = true ↔ key ∈ keys fields := by
  induction fields with grind [get?, keys]

theorem length_set_le (key : String) (value : β) (fields : Fields β) :
    (set key value fields).length ≤ fields.length + 1 := by
  fun_induction set key value fields with grind

theorem length_le_set (key : String) (value : β) (fields : Fields β) :
    fields.length ≤ (set key value fields).length := by
  fun_induction set key value fields with grind

/-! ### Reading after a change -/

theorem get?_set (key : String) (value : β) (fields : Fields β) (k : String) :
    get? (set key value fields) k = if k = key then some value else get? fields k := by
  fun_induction set key value fields with grind [get?]

theorem get?_erase (fields : Fields β) (key k : String) :
    get? (erase fields key) k = if k = key then none else get? fields k := by
  induction fields with grind [get?, erase]

theorem mem_values_of_get?_update {fields changes : Fields β} {key : String} {value : β}
    (h : get? (update fields changes) key = some value) :
    value ∈ values changes ∨ get? fields key = some value := by
  induction changes generalizing fields with
  | nil => exact Or.inr h
  | cons pair changes ih =>
    rcases ih h with hmem | hget
    · exact Or.inl (List.mem_cons_of_mem _ hmem)
    · rw [get?_set] at hget
      split at hget
      · exact Or.inl (Option.some.inj hget ▸ List.mem_cons_self)
      · exact Or.inr hget

/-! ### Every change keeps the order -/

theorem mem_keys_set {key k : String} {value : β} {fields : Fields β} :
    k ∈ keys (set key value fields) ↔ k = key ∨ k ∈ keys fields := by
  fun_induction set key value fields with grind [keys]

theorem mem_keys_of_erase {key k : String} {fields : Fields β} (h : k ∈ keys (erase fields key)) :
    k ∈ keys fields := by
  induction fields with grind [keys, erase]

theorem Sorted.set {fields : Fields β} (h : Sorted fields) (key : String) (value : β) :
    Sorted (set key value fields) := by
  unfold Sorted at *
  fun_induction Fields.set key value fields with
  | case1 => simp [keys]
  | case2 => simpa [keys] using h
  | case3 k v rest hne hlt =>
    simp only [keys, List.map_cons, List.pairwise_cons] at h ⊢
    refine ⟨fun a ha => ?_, h⟩
    rcases List.mem_cons.1 ha with rfl | ha
    · exact hlt
    · exact String.lt_trans hlt (h.1 a ha)
  | case4 k v rest hne hlt ih =>
    simp only [keys, List.map_cons, List.pairwise_cons] at h ⊢
    refine ⟨fun a ha => ?_, ih h.2⟩
    rcases mem_keys_set.1 ha with rfl | ha
    · exact String.not_le.1 fun hle => hne (String.le_antisymm hle (String.not_lt.1 hlt))
    · exact h.1 a ha

theorem Sorted.erase {fields : Fields β} (h : Sorted fields) (key : String) :
    Sorted (erase fields key) := by
  unfold Sorted at *
  induction fields with
  | nil => simpa [Fields.erase] using h
  | cons pair rest ih =>
    obtain ⟨k, v⟩ := pair
    simp only [keys, List.map_cons, List.pairwise_cons] at h
    by_cases hk : key = k
    · simpa [Fields.erase, hk] using ih h.2
    · simp only [Fields.erase, hk, if_false, keys, List.map_cons, List.pairwise_cons]
      exact ⟨fun a ha => h.1 a (mem_keys_of_erase ha), ih h.2⟩

theorem Sorted.update {fields : Fields β} (h : Sorted fields) (changes : Fields β) :
    Sorted (update fields changes) := by
  unfold Fields.update
  induction changes generalizing fields with
  | nil => exact h
  | cons pair rest ih => exact ih (h.set pair.1 pair.2)

theorem sorted_nil : Sorted ([] : Fields β) := List.Pairwise.nil

theorem sorted_ofList (pairs : List (String × β)) : Sorted (ofList pairs) :=
  sorted_nil.update pairs

/-! ### Tables in order -/

/-- No name is twice in a table in order. -/
theorem Sorted.nodup_keys {fields : Fields β} (h : Sorted fields) : (keys fields).Nodup := by
  refine h.imp fun hlt heq => ?_
  rw [heq] at hlt
  exact String.lt_irrefl _ hlt

/-- Behind the first field there is none of its name. -/
theorem Sorted.get?_rest {k : String} {v : β} {rest : Fields β} (h : Sorted ((k, v) :: rest)) :
    get? rest k = none := by
  cases hget : get? rest k with
  | none => rfl
  | some value =>
    exact absurd ((List.pairwise_cons.mp h).1 k (mem_keys_of_get? hget)) (String.lt_irrefl k)

/-- The first field has the least name. -/
theorem Sorted.lt_of_get? {k key : String} {v value : β} {rest : Fields β}
    (h : Sorted ((k, v) :: rest)) (hne : key ≠ k) (hget : get? ((k, v) :: rest) key = some value) :
    k < key := by
  rw [get?, if_neg hne] at hget
  exact (List.pairwise_cons.mp h).1 key (mem_keys_of_get? hget)

/-- Tables that read the same are equal. -/
theorem Sorted.ext {fields others : Fields β} (h : Sorted fields) (hothers : Sorted others)
    (hget : ∀ key, get? fields key = get? others key) : fields = others := by
  induction fields generalizing others with
  | nil =>
    cases others with
    | nil => rfl
    | cons pair others =>
      have hfirst := hget pair.1
      simp [get?] at hfirst
  | cons pair fields ih =>
    obtain ⟨k, v⟩ := pair
    have hk : get? ((k, v) :: fields) k = some v := if_pos rfl
    cases others with
    | nil =>
      rw [hget] at hk
      cases hk
    | cons other others =>
      obtain ⟨k', v'⟩ := other
      have hk' : get? ((k', v') :: others) k' = some v' := if_pos rfl
      -- Each of the two first names is read from the other table too, so none is before the other.
      have hkey : k = k' := Classical.byContradiction fun hne =>
        String.lt_irrefl k (String.lt_trans
          (h.lt_of_get? (Ne.symm hne) ((hget k').trans hk'))
          (hothers.lt_of_get? hne ((hget k).symm.trans hk)))
      subst hkey
      have hvalue : v = v' := Option.some.inj (hk.symm.trans ((hget k).trans hk'))
      have hrest : fields = others := by
        refine ih (List.pairwise_cons.mp h).2 (List.pairwise_cons.mp hothers).2 fun key => ?_
        by_cases hkey : key = k
        · rw [hkey, h.get?_rest, hothers.get?_rest]
        · have hkeys := hget key
          rwa [get?, get?, if_neg hkey, if_neg hkey] at hkeys
      rw [hvalue, hrest]

end Fields

end ServingTuner
