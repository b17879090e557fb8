import Mathlib.Data.List.Forall2
import Mathlib.Data.List.Nodup
import Mathlib.Data.Finset.Card
import Mathlib.Data.Finset.Dedup

/-!
Owns tables whose rows are looked up by a key, in the manner of a data frame with
an index: the row of a key, the re-indexing of a table by a list of keys, the number
of distinct values of a column, and columns computed row by row. The laws say when a
lookup succeeds and that none of this depends on the order of the rows. Also owns
dictionaries in insertion order, in the manner of Python's `dict`.

Does not own any concrete columns.
-/

set_option autoImplicit false

namespace Sidewalk.Foundation.KeyedTable

variable {Row Key : Type} [DecidableEq Key] {key : Row → Key} {rows : List Row}

/-- The first row with a key. -/
def find? (key : Row → Key) (rows : List Row) (wanted : Key) : Option Row :=
  rows.find? fun row => key row = wanted

/-- The rows of a list of keys, `none` where a key is absent. A table with a
repeated key cannot be re-indexed. -/
def reindex (key : Row → Key) (rows : List Row) (wanted : List Key) :
    Option (List (Option Row)) :=
  if (rows.map key).Nodup then some (wanted.map (find? key rows)) else none

/-- The number of distinct values in a column. -/
def nunique (column : List Key) : Nat := column.dedup.length

/-! ## Computed columns -/

/-- Computations that all return give a list of results, each as its computation says. -/
theorem mapM_related {Error Item Value : Type} {f : Item → Except Error Value}
    {R : Item → Value → Prop} {items : List Item}
    (each : ∀ item ∈ items, ∃ value, f item = .ok value ∧ R item value) :
    ∃ values, items.mapM f = .ok values ∧ List.Forall₂ R items values := by
  induction items with
  | nil => exact ⟨[], rfl, List.Forall₂.nil⟩
  | cons item items inductionHypothesis =>
      obtain ⟨⟨value, returned, related⟩, later⟩ := List.forall_mem_cons.mp each
      obtain ⟨values, others, allRelated⟩ := inductionHypothesis later
      refine ⟨value :: values, ?_, List.Forall₂.cons related allRelated⟩
      rw [List.mapM_cons, returned, others]
      rfl

theorem mapM_ok {Error Item Value : Type} {f : Item → Except Error Value} {value : Item → Value}
    {items : List Item} (each : ∀ item ∈ items, f item = .ok (value item)) :
    items.mapM f = .ok (items.map value) := by
  obtain ⟨values, returned, related⟩ := mapM_related (R := fun item result => value item = result)
    fun item member => ⟨value item, each item member, rfl⟩
  have same : List.Forall₂ Eq (items.map value) values := List.forall₂_map_left_iff.mpr related
  rw [List.forall₂_eq_eq_eq] at same
  rw [returned, same]

/-! ## Lookup -/

theorem find?_of_mem (unique : (rows.map key).Nodup) {row : Row} (member : row ∈ rows) :
    find? key rows (key row) = some row := by
  induction rows with
  | nil => exact absurd member List.not_mem_nil
  | cons head tail inductionHypothesis =>
      obtain ⟨fresh, tailUnique⟩ := List.nodup_cons.mp unique
      unfold find?
      rcases List.mem_cons.mp member with rfl | later
      · rw [List.find?_cons_of_pos (by simp)]
      · have other : key head ≠ key row := by
          intro same
          exact fresh (same ▸ List.mem_map_of_mem later)
        rw [List.find?_cons_of_neg (by simpa using other)]
        exact inductionHypothesis tailUnique later

theorem find?_eq_some_iff (unique : (rows.map key).Nodup) {wanted : Key} {row : Row} :
    find? key rows wanted = some row ↔ row ∈ rows ∧ key row = wanted := by
  constructor
  · intro found
    exact ⟨List.mem_of_find?_eq_some found, by simpa using List.find?_some found⟩
  · intro member
    obtain ⟨member, rfl⟩ := member
    exact find?_of_mem unique member

/-- The order of the rows does not matter to a lookup by a unique key. -/
theorem find?_congr (unique : (rows.map key).Nodup) {other : List Row} (perm : rows.Perm other) :
    find? key rows = find? key other := by
  have otherUnique : (other.map key).Nodup := (perm.map key).nodup_iff.mp unique
  funext wanted
  apply Option.ext
  intro row
  rw [find?_eq_some_iff unique, find?_eq_some_iff otherUnique, perm.mem_iff]

/-! ## Distinct values -/

theorem nunique_eq_card (column : List Key) : nunique column = column.toFinset.card :=
  (List.card_toFinset column).symm

theorem nunique_congr {column other : List Key} (perm : column.Perm other) :
    nunique column = nunique other := by
  rw [nunique_eq_card, nunique_eq_card, List.toFinset_eq_of_perm column other perm]

/-! ## Dictionaries in insertion order -/

variable {Value : Type}

/-- `d[key] = value`: the value of a present key is replaced in its place, and a
new key goes to the end. -/
def assign (key : Key) (value : Value) : List (Key × Value) → List (Key × Value)
  | [] => [(key, value)]
  | entry :: rest =>
      if entry.1 = key then (key, value) :: rest else entry :: assign key value rest

theorem assign_of_fresh {wanted : Key} {entries : List (Key × Value)}
    (fresh : wanted ∉ entries.map Prod.fst) (value : Value) :
    assign wanted value entries = entries ++ [(wanted, value)] := by
  induction entries with
  | nil => rfl
  | cons entry rest inductionHypothesis =>
      have other : entry.1 ≠ wanted := by
        intro same
        exact fresh (by simp [same])
      have later : wanted ∉ rest.map Prod.fst := by
        intro member
        exact fresh (List.mem_cons_of_mem _ member)
      rw [assign, if_neg other, inductionHypothesis later, List.cons_append]

/-- Assigning pairs with new and distinct keys appends them in order. -/
theorem foldl_assign {entries pairs : List (Key × Value)}
    (distinct : ((entries ++ pairs).map Prod.fst).Nodup) :
    pairs.foldl (fun dict pair => assign pair.1 pair.2 dict) entries = entries ++ pairs := by
  induction pairs generalizing entries with
  | nil => simp
  | cons pair pairs inductionHypothesis =>
      have fresh : pair.1 ∉ entries.map Prod.fst := by
        intro member
        rw [List.map_append, List.nodup_append] at distinct
        exact distinct.2.2 pair.1 member pair.1 (by simp) rfl
      rw [List.foldl_cons, assign_of_fresh fresh, inductionHypothesis (by simpa using distinct),
        List.append_assoc, List.singleton_append]

/-- `d.get(key)`. -/
def value? (key : Key) (entries : List (Key × Value)) : Option Value :=
  (find? Prod.fst entries key).map Prod.snd

/-- `d.pop(key, None)`. -/
def erase (key : Key) (entries : List (Key × Value)) : List (Key × Value) :=
  entries.filter fun entry => entry.1 ≠ key

theorem value?_eq_some_iff {entries : List (Key × Value)} (unique : (entries.map Prod.fst).Nodup)
    {wanted : Key} {value : Value} :
    value? wanted entries = some value ↔ (wanted, value) ∈ entries := by
  unfold value?
  rw [Option.map_eq_some_iff]
  constructor
  · intro found
    obtain ⟨entry, isEntry, rfl⟩ := found
    obtain ⟨member, rfl⟩ := (find?_eq_some_iff unique).mp isEntry
    exact member
  · intro member
    exact ⟨(wanted, value), (find?_eq_some_iff unique).mpr ⟨member, rfl⟩, rfl⟩

theorem value?_cons (key : Key) (entry : Key × Value) (rest : List (Key × Value)) :
    value? key (entry :: rest) = if entry.1 = key then some entry.2 else value? key rest := by
  unfold value? find?
  rw [List.find?_cons]
  by_cases same : entry.1 = key
  · simp [same]
  · simp [same]

theorem value?_assign (key : Key) (value : Value) (entries : List (Key × Value)) (wanted : Key) :
    value? wanted (assign key value entries) =
      if key = wanted then some value else value? wanted entries := by
  induction entries with
  | nil => rw [assign, value?_cons]
  | cons entry rest inductionHypothesis =>
      rw [assign]
      by_cases same : entry.1 = key
      · rw [if_pos same, value?_cons, value?_cons, same]
        split <;> rfl
      · rw [if_neg same, value?_cons, value?_cons, inductionHypothesis]
        by_cases first : entry.1 = wanted
        · rw [if_pos first, if_pos first, if_neg fun equal => same (first.trans equal.symm)]
        · rw [if_neg first, if_neg first]

theorem value?_erase (key : Key) (entries : List (Key × Value)) (wanted : Key) :
    value? wanted (erase key entries) = if key = wanted then none else value? wanted entries := by
  induction entries with
  | nil => simp [erase, value?, find?]
  | cons entry rest inductionHypothesis =>
      unfold erase at inductionHypothesis ⊢
      by_cases same : entry.1 = key
      · rw [List.filter_cons_of_neg (by simpa using same), inductionHypothesis, value?_cons, same]
        split <;> rfl
      · rw [List.filter_cons_of_pos (by simpa using same), value?_cons, value?_cons,
          inductionHypothesis]
        by_cases first : entry.1 = wanted
        · rw [if_pos first, if_pos first, if_neg fun equal => same (first.trans equal.symm)]
        · rw [if_neg first, if_neg first]

/-- Assigning adds at most one key, at the end. -/
theorem keys_assign (key : Key) (value : Value) (entries : List (Key × Value)) :
    (assign key value entries).map Prod.fst =
      if key ∈ entries.map Prod.fst then entries.map Prod.fst
      else entries.map Prod.fst ++ [key] := by
  induction entries with
  | nil => simp [assign]
  | cons entry rest inductionHypothesis =>
      rw [assign]
      by_cases same : entry.1 = key
      · simp [same]
      · have other : key ≠ entry.1 := fun equal => same equal.symm
        rw [if_neg same, List.map_cons, inductionHypothesis, List.map_cons]
        by_cases member : key ∈ rest.map Prod.fst
        · rw [if_pos member, if_pos (List.mem_cons_of_mem _ member)]
        · have absent : key ∉ entry.1 :: rest.map Prod.fst :=
            List.not_mem_cons_of_ne_of_not_mem other member
          rw [if_neg member, if_neg absent, List.cons_append]

theorem nodup_keys_assign {entries : List (Key × Value)} (unique : (entries.map Prod.fst).Nodup)
    (key : Key) (value : Value) : ((assign key value entries).map Prod.fst).Nodup := by
  rw [keys_assign]
  split
  next => exact unique
  next fresh =>
    rw [List.nodup_append]
    refine ⟨unique, List.nodup_singleton key, ?_⟩
    intro other member last isLast
    rw [List.mem_singleton.mp isLast]
    exact ne_of_mem_of_not_mem member fresh

theorem mem_keys_assign {entries : List (Key × Value)} {key : Key} {value : Value} {other : Key}
    (member : other ∈ (assign key value entries).map Prod.fst) :
    other = key ∨ other ∈ entries.map Prod.fst := by
  rw [keys_assign] at member
  split at member
  next => exact Or.inr member
  next =>
    rcases List.mem_append.mp member with earlier | last
    · exact Or.inr earlier
    · exact Or.inl (List.mem_singleton.mp last)

/-! ## Groups -/

/-- The rows of each key, in order. -/
def groups (rows : List (Key × Row)) : List (Key × List Row) :=
  (rows.map Prod.fst).dedup.map fun key =>
    (key, (rows.filter fun row => row.1 = key).map Prod.snd)

/-- There is one group for each key that a row has, with the rows of that key in order. -/
structure IsGrouping (rows : List (Key × Row)) (grouped : List (Key × List Row)) : Prop where
  distinct : (grouped.map Prod.fst).Nodup
  mem_iff : ∀ {group : Key × List Row}, group ∈ grouped ↔ group.1 ∈ rows.map Prod.fst ∧
    group.2 = (rows.filter fun row => row.1 = group.1).map Prod.snd

theorem isGrouping_groups (rows : List (Key × Row)) : IsGrouping rows (groups rows) where
  distinct := by
    have keys : (groups rows).map Prod.fst = (rows.map Prod.fst).dedup := by
      unfold groups
      rw [List.map_map]
      exact List.map_id _
    rw [keys]
    exact List.nodup_dedup _
  mem_iff := by
    intro group
    unfold groups
    rw [List.mem_map]
    constructor
    · intro made
      obtain ⟨key, member, rfl⟩ := made
      exact ⟨List.mem_dedup.mp member, rfl⟩
    · intro described
      obtain ⟨member, same⟩ := described
      exact ⟨group.1, List.mem_dedup.mpr member, Prod.ext rfl same.symm⟩

/-- The groups of a table whose keys and rows are read off items. -/
theorem IsGrouping.mem_iff_of_map {Item : Type} {items : List Item} {keyOf : Item → Key}
    {rowOf : Item → Row} {grouped : List (Key × List Row)}
    (grouping : IsGrouping (items.map fun item => (keyOf item, rowOf item)) grouped)
    {group : Key × List Row} :
    group ∈ grouped ↔ ∃ item ∈ items, group =
      (keyOf item, (items.filter fun other => keyOf other = keyOf item).map rowOf) := by
  have keys : (items.map fun item => (keyOf item, rowOf item)).map Prod.fst = items.map keyOf := by
    rw [List.map_map]
    rfl
  have rows : ∀ key, ((items.map fun item => (keyOf item, rowOf item)).filter
      fun row => row.1 = key).map Prod.snd =
        (items.filter fun other => keyOf other = key).map rowOf := by
    intro key
    rw [List.filter_map, List.map_map]
    rfl
  rw [grouping.mem_iff, keys, rows, List.mem_map]
  constructor
  · intro described
    obtain ⟨⟨item, member, same⟩, others⟩ := described
    refine ⟨item, member, Prod.ext same.symm ?_⟩
    rw [others, same]
  · intro made
    obtain ⟨item, member, rfl⟩ := made
    exact ⟨⟨item, member, rfl⟩, rfl⟩

end Sidewalk.Foundation.KeyedTable
