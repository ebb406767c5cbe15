import Mathlib.Data.List.Induction
import Mathlib.Data.List.Nodup
import Mathlib.Tactic.Tauto

/-! Insertion-ordered dictionaries as association lists.
Setting a present key keeps its position; building from pairs keeps the last value a key
was given. Lookup is the list's own `List.lookup`.
-/

namespace Dict

variable {κ α β : Type} [DecidableEq κ]

/-- The keys in insertion order. -/
def keys (entries : List (κ × α)) : List κ :=
  entries.map Prod.fst

/-- Set one key, in place when it is present and at the end otherwise. -/
def set (key : κ) (value : α) : List (κ × α) → List (κ × α)
  | [] => [(key, value)]
  | entry :: rest =>
      if entry.1 = key then (key, value) :: rest else entry :: set key value rest

/-- Set every pair in turn, so a later pair overrides an earlier one. -/
def update (entries extra : List (κ × α)) : List (κ × α) :=
  extra.foldl (fun done pair => set pair.1 pair.2 done) entries

/-- A dictionary display: set every pair in an empty dictionary. -/
def ofPairs (pairs : List (κ × α)) : List (κ × α) :=
  update [] pairs

/-- Remove a key; an absent key leaves the dictionary as it is. -/
def erase (key : κ) (entries : List (κ × α)) : List (κ × α) :=
  entries.filter (fun entry => entry.1 ≠ key)

theorem lookup_cons (key other : κ) (value : α) (rest : List (κ × α))
    : ((key, value) :: rest).lookup other
      = if other = key then some value else rest.lookup other := by
  by_cases same : other = key
  · simp [same]
  · rw [List.lookup_cons, beq_false_of_ne same, if_neg same]

/-- Setting a key changes the lookup of that key only, by induction on the entries. -/
@[simp] theorem lookup_set (key other : κ) (value : α) (entries : List (κ × α))
    : (set key value entries).lookup other
      = if other = key then some value else entries.lookup other := by
  induction entries with
  | nil => simp [set, lookup_cons]
  | cons entry rest ih =>
      obtain ⟨first, old⟩ := entry
      by_cases here : first = key
      · subst here
        by_cases same : other = first <;> simp [set, lookup_cons, same]
      · by_cases same : other = first
        · simp [set, here, same]
        · simp [set, here, lookup_cons, same, ih]

/-- Erasing a key leaves the lookup of every other key, by induction on the entries. -/
theorem lookup_erase {key other : κ} (differs : other ≠ key) (entries : List (κ × α))
    : (erase key entries).lookup other = entries.lookup other := by
  induction entries with
  | nil => rfl
  | cons entry rest ih =>
      obtain ⟨first, value⟩ := entry
      by_cases here : first = key
      · have step : erase key ((first, value) :: rest) = erase key rest := by
          simp [erase, here]
        rw [step, ih, lookup_cons, if_neg (here ▸ differs)]
      · have step : erase key ((first, value) :: rest) = (first, value) :: erase key rest := by
          simp [erase, here]
        rw [step, lookup_cons, lookup_cons, ih]

theorem lookup_erase_same (key : κ) (entries : List (κ × α))
    : (erase key entries).lookup key = none := by
  induction entries with
  | nil => rfl
  | cons entry rest ih =>
      by_cases here : entry.1 = key
      · simpa [erase, here] using ih
      · have differs : ¬ key = entry.1 := fun same => here same.symm
        have step : erase key (entry :: rest) = (entry.1, entry.2) :: erase key rest := by
          simp [erase, here]
        rw [step, lookup_cons, if_neg differs, ih]

theorem erase_erase (key : κ) (entries : List (κ × α))
    : erase key (erase key entries) = erase key entries := by
  simp [erase]

/-- Setting a key leaves the other entries and their order, by induction on the entries. -/
theorem erase_set (key : κ) (value : α) (entries : List (κ × α))
    : erase key (set key value entries)
      = erase key entries := by
  induction entries with
  | nil => simp [set, erase]
  | cons entry rest ih =>
      by_cases here : entry.1 = key
      · simp [set, erase, here]
      · simpa [set, erase, here] using ih

/-- An update is read from its last pair for the key, or else from the old entries, by
induction on the pairs.
-/
theorem lookup_update (entries extra : List (κ × α)) (key : κ)
    : (update entries extra).lookup key
      = (extra.reverse.lookup key).or (entries.lookup key) := by
  induction extra generalizing entries with
  | nil => simp [update]
  | cons pair rest ih =>
      have step : update entries (pair :: rest) = update (set pair.1 pair.2 entries) rest := rfl
      rw [step, ih, lookup_set, List.reverse_cons, List.lookup_append, lookup_cons]
      cases rest.reverse.lookup key with
      | some value => rfl
      | none => by_cases same : key = pair.1 <;> simp [same]

/-- Lookup fails exactly on absent keys. -/
theorem lookup_eq_none_iff (entries : List (κ × α)) (key : κ)
    : entries.lookup key = none ↔ key ∉ keys entries := by
  induction entries with
  | nil => simp [keys]
  | cons entry rest ih =>
      obtain ⟨first, value⟩ := entry
      by_cases same : key = first
      · simp [same, keys]
      · simp only [lookup_cons, same, if_false, ih, keys, List.map_cons, List.mem_cons,
          false_or]

/-- A successful lookup names an entry, by induction on the entries. -/
theorem mem_of_lookup {entries : List (κ × α)} {key : κ} {value : α}
    (found : entries.lookup key = some value)
    : (key, value) ∈ entries := by
  induction entries with
  | nil => simp at found
  | cons entry rest ih =>
      obtain ⟨first, old⟩ := entry
      rw [lookup_cons] at found
      split at found
      · next same =>
          cases found
          exact same ▸ List.mem_cons_self
      · exact List.mem_cons_of_mem _ (ih found)

/-- With distinct keys every entry is the one its lookup finds, by induction. -/
theorem lookup_of_mem {entries : List (κ × α)} {key : κ} {value : α}
    (distinct : (keys entries).Nodup) (member : (key, value) ∈ entries)
    : entries.lookup key = some value := by
  induction entries with
  | nil => cases member
  | cons entry rest ih =>
      obtain ⟨first, old⟩ := entry
      obtain ⟨fresh, distinct⟩ := List.nodup_cons.mp distinct
      rcases List.mem_cons.mp member with same | later
      · cases same
        simp
      · have apart : key ≠ first := by
          rintro rfl
          exact fresh (List.mem_map.mpr ⟨_, later, rfl⟩)
        rw [lookup_cons, if_neg apart]
        exact ih distinct later

/-- With distinct keys, an update reads each key from the extra entries first. -/
theorem lookup_update_of_nodup (entries : List (κ × α)) {extra : List (κ × α)}
    (distinct : (keys extra).Nodup) (key : κ)
    : (update entries extra).lookup key = (extra.lookup key).or (entries.lookup key) := by
  have reversed : (keys extra.reverse).Nodup := by
    simpa only [keys, List.map_reverse, List.nodup_reverse] using distinct
  have same : extra.reverse.lookup key = extra.lookup key := by
    cases found : extra.lookup key with
    | some value =>
        exact lookup_of_mem reversed (List.mem_reverse.mpr (mem_of_lookup found))
    | none =>
        have absent := (lookup_eq_none_iff extra key).mp found
        apply (lookup_eq_none_iff extra.reverse key).mpr
        simpa only [keys, List.map_reverse, List.mem_reverse] using absent
  rw [lookup_update, same]

/-- Setting a key adds that key and no other, by induction on the entries. -/
theorem mem_keys_set (key other : κ) (value : α) (entries : List (κ × α))
    : other ∈ keys (set key value entries) ↔ other = key ∨ other ∈ keys entries := by
  have lookup := lookup_set key other value entries
  by_cases same : other = key
  · simp only [same, if_true, true_or, iff_true] at lookup ⊢
    by_contra absent
    rw [(lookup_eq_none_iff _ _).mpr absent] at lookup
    cases lookup
  · rw [if_neg same] at lookup
    simp only [same, false_or]
    rw [← not_iff_not, ← lookup_eq_none_iff, ← lookup_eq_none_iff, lookup]

/-- Setting a key keeps the keys distinct, by induction on the entries. -/
theorem nodup_set {entries : List (κ × α)} (distinct : (keys entries).Nodup) (key : κ)
    (value : α)
    : (keys (set key value entries)).Nodup := by
  induction entries with
  | nil => simp [set, keys]
  | cons entry rest ih =>
      obtain ⟨fresh, later⟩ := List.nodup_cons.mp distinct
      by_cases here : entry.1 = key
      · simp only [set, here, if_true, keys, List.map_cons, List.nodup_cons]
        exact ⟨here ▸ fresh, later⟩
      · simp only [set, here, if_false, keys, List.map_cons, List.nodup_cons]
        refine ⟨?_, ih later⟩
        intro member
        rcases (mem_keys_set key entry.1 value rest).mp member with same | old
        · exact here same
        · exact fresh old

/-- An update has the old keys and the extra ones, by induction on the pairs. -/
theorem mem_keys_update (entries extra : List (κ × α)) (key : κ)
    : key ∈ keys (update entries extra) ↔ key ∈ keys entries ∨ key ∈ keys extra := by
  induction extra generalizing entries with
  | nil => simp [update, keys]
  | cons pair rest ih =>
      have step : update entries (pair :: rest) = update (set pair.1 pair.2 entries) rest := rfl
      rw [step, ih, mem_keys_set]
      simp only [keys, List.map_cons, List.mem_cons]
      tauto

/-- Updating keeps the keys distinct, by induction on the pairs. -/
theorem nodup_update {entries : List (κ × α)} (distinct : (keys entries).Nodup)
    (extra : List (κ × α))
    : (keys (update entries extra)).Nodup := by
  induction extra generalizing entries with
  | nil => exact distinct
  | cons pair rest ih => exact ih (nodup_set distinct pair.1 pair.2)

omit [DecidableEq κ] in
/-- With distinct keys, the key after a beginning is not one of its keys. -/
theorem not_mem_keys_of_prefix {entries done : List (κ × α)} {entry : κ × α}
    (distinct : (keys entries).Nodup) (beginning : done ++ [entry] <+: entries)
    : entry.1 ∉ keys done := by
  obtain ⟨rest, same⟩ := beginning
  rw [← same, keys, List.map_append, List.map_append, List.append_assoc] at distinct
  intro member
  exact (List.nodup_append.mp distinct).2.2 entry.1 member entry.1 (by simp) rfl

/-- A dictionary built from pairs has distinct keys. -/
theorem nodup_ofPairs (pairs : List (κ × α)) : (keys (ofPairs pairs)).Nodup :=
  nodup_update (by simp [keys]) pairs

/-- With distinct keys every pair is an entry of the dictionary that is built from them. -/
theorem mem_ofPairs {pairs : List (κ × α)} {pair : κ × α} (distinct : (keys pairs).Nodup)
    (member : pair ∈ pairs)
    : pair ∈ ofPairs pairs := by
  have found := lookup_update_of_nodup [] distinct pair.1
  rw [lookup_of_mem distinct member] at found
  exact mem_of_lookup found

/-- A dictionary that is built from records has the value of the last record with the key,
by induction on the records from their end.
-/
theorem lookup_ofPairs_filterMap_iff {ρ : Type} (pair? : ρ → Option (κ × α)) (records : List ρ)
    (key : κ) (value : α)
    : (ofPairs (records.filterMap pair?)).lookup key = some value
      ↔ ∃ before record after,
          records = before ++ record :: after
          ∧ pair? record = some (key, value)
          ∧ ∀ later ∈ after, ∀ other, pair? later ≠ some (key, other) := by
  induction records using List.reverseRecOn with
  | nil => simp [ofPairs, update]
  | append_singleton records newest ih =>
      have last : (∃ before record after,
            records ++ [newest] = before ++ record :: after
            ∧ pair? record = some (key, value)
            ∧ ∀ later ∈ after, ∀ other, pair? later ≠ some (key, other))
          ↔ pair? newest = some (key, value)
            ∨ (∀ other, pair? newest ≠ some (key, other))
              ∧ (ofPairs (records.filterMap pair?)).lookup key = some value := by
        rw [ih]
        refine ⟨?_, ?_⟩
        · intro ⟨before, record, after, split, here, later⟩
          cases after using List.reverseRecOn with
          | nil =>
              obtain ⟨_, same⟩ := List.append_inj' split rfl
              cases same
              exact Or.inl here
          | append_singleton after final =>
              rw [← List.cons_append, ← List.append_assoc] at split
              obtain ⟨earlier, same⟩ := List.append_inj' split rfl
              cases same
              refine Or.inr ⟨later newest (by simp), before, record, after, earlier, here, ?_⟩
              intro found member
              exact later found (List.mem_append_left _ member)
        · intro either
          rcases either with here | ⟨absent, before, record, after, rfl, here, later⟩
          · exact ⟨records, newest, [], rfl, here, by simp⟩
          · refine ⟨before, record, after ++ [newest], by simp, here, ?_⟩
            intro found member
            rcases List.mem_append.mp member with among | final
            · exact later found among
            · exact List.mem_singleton.mp final ▸ absent
      rw [last, List.filterMap_append]
      cases found : pair? newest with
      | none => simp [found]
      | some pair =>
          have built : ofPairs (records.filterMap pair? ++ [pair])
              = set pair.1 pair.2 (ofPairs (records.filterMap pair?)) := by
            simp [ofPairs, update]
          have one : [newest].filterMap pair? = [pair] := by
            simp [found]
          rw [one, built, lookup_set]
          by_cases same : key = pair.1
          · simp [same, Prod.ext_iff]
          · have differ : ∀ other, pair ≠ (key, other) := by
              intro other equal
              exact same (by rw [equal])
            simp [same, differ]

end Dict
