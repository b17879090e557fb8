import Mathlib.Data.List.Basic
import Mathlib.Order.Lattice
import Mathlib.Tactic.SplitIfs

/-!
Owns ordered maps in the manner of `std::map`: a key-ascending association list
that carries its order as a field, lookup, assignment through `operator[]`, and
the loop that erases entries while it iterates. Its main laws are the lookup
law of each operation; the erasing loop keeps exactly the entries that the
condition spares, whatever the map holds.

Does not own what keys and values are.
-/

set_option autoImplicit false

namespace Sidewalk.Foundation

/-- A `std::map`: its entries in ascending key order, each key once. -/
structure AssocMap (κ ν : Type*) [LinearOrder κ] where
  entries : List (κ × ν)
  ascending : entries.Pairwise (fun left right => left.1 < right.1)
deriving DecidableEq

namespace AssocMap

variable {κ ν : Type*} [LinearOrder κ]

/-! ## Operations -/

def empty : AssocMap κ ν := ⟨[], List.Pairwise.nil⟩

/-- `std::map::find`; `none` is `end()`. -/
def find? (m : AssocMap κ ν) (key : κ) : Option ν :=
  (m.entries.find? fun entry => entry.1 = key).map Prod.snd

/-- Assignment into a key-ascending list; an existing value is replaced. -/
def assignInto (key : κ) (value : ν) : List (κ × ν) → List (κ × ν)
  | [] => [(key, value)]
  | head :: tail =>
      if key < head.1 then (key, value) :: head :: tail
      else if head.1 < key then head :: assignInto key value tail
      else (key, value) :: tail

theorem mem_assignInto {key : κ} {value : ν} {entry : κ × ν} {entries : List (κ × ν)}
    (member : entry ∈ assignInto key value entries) : entry = (key, value) ∨ entry ∈ entries := by
  induction entries with
  | nil => simpa [assignInto] using member
  | cons head tail inductionHypothesis =>
      rw [assignInto] at member
      split_ifs at member with below above
      · simpa using member
      · rcases List.mem_cons.mp member with rfl | later
        · exact Or.inr (by simp)
        · exact (inductionHypothesis later).imp_right (List.mem_cons_of_mem head)
      · exact (List.mem_cons.mp member).imp_right (List.mem_cons_of_mem head)

theorem assignInto_ascending (key : κ) (value : ν) {entries : List (κ × ν)}
    (ascending : entries.Pairwise (fun left right => left.1 < right.1)) :
    (assignInto key value entries).Pairwise (fun left right => left.1 < right.1) := by
  induction entries with
  | nil => simp [assignInto]
  | cons head tail inductionHypothesis =>
      obtain ⟨headBelow, tailAscending⟩ := List.pairwise_cons.mp ascending
      unfold assignInto
      split_ifs with below above
      · refine List.pairwise_cons.mpr ⟨fun entry member => ?_, ascending⟩
        rcases List.mem_cons.mp member with rfl | later
        · exact below
        · exact below.trans (headBelow entry later)
      · refine List.pairwise_cons.mpr ⟨fun entry member => ?_, inductionHypothesis tailAscending⟩
        rcases mem_assignInto member with rfl | later
        · exact above
        · exact headBelow entry later
      · have same : key = head.1 := le_antisymm (not_lt.mp above) (not_lt.mp below)
        exact List.pairwise_cons.mpr
          ⟨fun entry member => same ▸ headBelow entry member, tailAscending⟩

/-- `m[key] = value`. -/
def assign (m : AssocMap κ ν) (key : κ) (value : ν) : AssocMap κ ν :=
  ⟨assignInto key value m.entries, assignInto_ascending key value m.ascending⟩

/-- The loop
`for (it = begin(); it != end();) it = expired(*it) ? erase(it) : next(it);`.
The iterator stands between the entries it has passed and those that remain;
`erase` drops the entry under the iterator and yields the one after it. -/
def eraseLoop (expired : ν → Bool) : List (κ × ν) → List (κ × ν) → List (κ × ν)
  | passed, [] => passed
  | passed, entry :: remaining =>
      if expired entry.2 then eraseLoop expired passed remaining
      else eraseLoop expired (passed ++ [entry]) remaining

omit [LinearOrder κ] in
/-- The erasing loop removes every expired entry and no other. -/
theorem eraseLoop_eq_filter (expired : ν → Bool) (passed remaining : List (κ × ν)) :
    eraseLoop expired passed remaining =
      passed ++ remaining.filter fun entry => !expired entry.2 := by
  induction remaining generalizing passed with
  | nil => simp [eraseLoop]
  | cons entry remaining inductionHypothesis =>
      unfold eraseLoop
      split_ifs with isExpired
      · simp [inductionHypothesis, isExpired]
      · simp [inductionHypothesis, isExpired]

/-- The map after the erasing loop has run from `begin()`. -/
def eraseWhere (m : AssocMap κ ν) (expired : ν → Bool) : AssocMap κ ν :=
  ⟨eraseLoop expired [] m.entries, by
    rw [eraseLoop_eq_filter]
    exact m.ascending.filter _⟩

/-- The assignments `m[key] = value` of a list, one after the other. -/
def assignAll (m : AssocMap κ ν) (pairs : List (κ × ν)) : AssocMap κ ν :=
  pairs.foldl (fun m pair => m.assign pair.1 pair.2) m

/-! ## Laws -/

@[ext] theorem ext {left right : AssocMap κ ν} (same : left.entries = right.entries) :
    left = right := by
  cases left
  cases right
  simpa using same

theorem entries_eraseWhere (m : AssocMap κ ν) (expired : ν → Bool) :
    (m.eraseWhere expired).entries = m.entries.filter fun entry => !expired entry.2 :=
  eraseLoop_eq_filter expired [] m.entries

private theorem find?_entry_iff {entries : List (κ × ν)} {key : κ} {value : ν}
    (ascending : entries.Pairwise (fun left right => left.1 < right.1)) :
    (entries.find? fun entry => entry.1 = key).map Prod.snd = some value ↔
      (key, value) ∈ entries := by
  induction entries with
  | nil => simp
  | cons head tail inductionHypothesis =>
      obtain ⟨headBelow, tailAscending⟩ := List.pairwise_cons.mp ascending
      by_cases here : head.1 = key
      · have notLater : (key, value) ∉ tail := fun later => by
          have below := headBelow _ later
          rw [here] at below
          exact lt_irrefl _ below
        rw [List.find?_cons_of_pos (by simpa using here)]
        simp only [Option.map_some, Option.some.injEq, List.mem_cons, notLater, or_false]
        constructor
        · rintro rfl
          exact Prod.ext here.symm rfl
        · rintro rfl
          rfl
      · have notHead : (key, value) ≠ head := fun equal => here (equal ▸ rfl)
        rw [List.find?_cons_of_neg (by simpa using here), inductionHypothesis tailAscending]
        simp [notHead]

theorem find?_eq_some_iff {m : AssocMap κ ν} {key : κ} {value : ν} :
    m.find? key = some value ↔ (key, value) ∈ m.entries :=
  find?_entry_iff m.ascending

private theorem find?_assignInto (key : κ) (value : ν) (other : κ) (entries : List (κ × ν)) :
    ((assignInto key value entries).find? fun entry => entry.1 = other).map Prod.snd =
      if other = key then some value
      else (entries.find? fun entry => entry.1 = other).map Prod.snd := by
  induction entries with
  | nil =>
      by_cases same : other = key
      · simp [assignInto, same]
      · simp [assignInto, same, Ne.symm same]
  | cons head tail inductionHypothesis =>
      unfold assignInto
      by_cases same : other = key
      · subst same
        rw [if_pos rfl] at inductionHypothesis ⊢
        split_ifs with below above
        · simp
        · have different : head.1 ≠ other := above.ne
          rw [List.find?_cons_of_neg (by simpa using different), inductionHypothesis]
        · simp
      · have different : key ≠ other := Ne.symm same
        rw [if_neg same] at inductionHypothesis ⊢
        split_ifs with below above
        · rw [List.find?_cons_of_neg (by simpa using different)]
        · by_cases here : head.1 = other
          · simp [here]
          · rw [List.find?_cons_of_neg (by simpa using here),
              List.find?_cons_of_neg (by simpa using here), inductionHypothesis]
        · have equal : key = head.1 := le_antisymm (not_lt.mp above) (not_lt.mp below)
          rw [List.find?_cons_of_neg (by simpa using different),
            List.find?_cons_of_neg (by simpa using equal ▸ different)]

theorem find?_assign (m : AssocMap κ ν) (key : κ) (value : ν) (other : κ) :
    (m.assign key value).find? other = if other = key then some value else m.find? other :=
  find?_assignInto key value other m.entries

theorem assignAll_append (m : AssocMap κ ν) (before after : List (κ × ν)) :
    m.assignAll (before ++ after) = (m.assignAll before).assignAll after :=
  List.foldl_append

theorem find?_assignAll_of_not_mem (m : AssocMap κ ν) {pairs : List (κ × ν)} {key : κ}
    (absent : key ∉ pairs.map Prod.fst) : (m.assignAll pairs).find? key = m.find? key := by
  induction pairs generalizing m with
  | nil => rfl
  | cons pair pairs inductionHypothesis =>
      rw [List.map_cons, List.mem_cons, not_or] at absent
      rw [show m.assignAll (pair :: pairs) = (m.assign pair.1 pair.2).assignAll pairs from rfl,
        inductionHypothesis _ absent.2, find?_assign, if_neg absent.1]

theorem find?_assignAll_of_mem (m : AssocMap κ ν) {pairs : List (κ × ν)}
    (distinct : (pairs.map Prod.fst).Nodup) {key : κ} {value : ν} (member : (key, value) ∈ pairs) :
    (m.assignAll pairs).find? key = some value := by
  induction pairs generalizing m with
  | nil => exact absurd member List.not_mem_nil
  | cons pair pairs inductionHypothesis =>
      rw [List.map_cons, List.nodup_cons] at distinct
      rw [show m.assignAll (pair :: pairs) = (m.assign pair.1 pair.2).assignAll pairs from rfl]
      rcases List.mem_cons.mp member with rfl | later
      · rw [find?_assignAll_of_not_mem _ distinct.1, find?_assign, if_pos rfl]
      · exact inductionHypothesis _ distinct.2 later

/-- What a key maps to after a list of assignments was assigned or was there. -/
theorem mem_or_find?_of_find?_assignAll {m : AssocMap κ ν} {pairs : List (κ × ν)} {key : κ}
    {value : ν} (found : (m.assignAll pairs).find? key = some value) :
    (key, value) ∈ pairs ∨ m.find? key = some value := by
  induction pairs generalizing m with
  | nil => exact Or.inr found
  | cons pair pairs inductionHypothesis =>
      rcases inductionHypothesis (m := m.assign pair.1 pair.2) found with later | earlier
      · exact Or.inl (List.mem_cons_of_mem _ later)
      · rw [find?_assign] at earlier
        split_ifs at earlier with same
        · rw [Option.some.injEq] at earlier
          exact Or.inl (by simp [same, ← earlier])
        · exact Or.inr earlier

/-- Lookup after the erasing loop: a key keeps its value unless that value is
expired. -/
theorem find?_eraseWhere (m : AssocMap κ ν) (expired : ν → Bool) (key : κ) :
    (m.eraseWhere expired).find? key = (m.find? key).filter fun value => !expired value := by
  apply Option.ext
  intro value
  rw [find?_eq_some_iff, entries_eraseWhere, List.mem_filter, Option.filter_eq_some_iff,
    find?_eq_some_iff]

end AssocMap

end Sidewalk.Foundation
