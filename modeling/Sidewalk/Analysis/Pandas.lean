import Sidewalk.Analysis.Kpis
import Sidewalk.Foundation.Csv

/-!
Owns what the scripts use of pandas: the numbers of a column, with an infinity and a
NaN, and the functions that read a file, drop rows, take a mean and group rows, with
what the documentation says of them as laws.

Does not own pandas itself: the functions given here are the plainest with these laws.
Arithmetic is exact, and what is divided is not negative, so an infinity is positive.
-/

set_option autoImplicit false

namespace Sidewalk.Analysis

open Sidewalk.Foundation

/-! ## Columns of numbers -/

/-- A number of a column. -/
inductive Number where
  | finite (value : ℚ)
  | infinite
  | nan
deriving DecidableEq, Repr

namespace Number

/-- A cell of a column of integers; a blank one is a NaN. -/
def ofCell (value : Option Int) : Number := value.elim .nan fun value => .finite value

/-- The value of a finite number. -/
def value? : Number → Option ℚ
  | .finite value => some value
  | _ => none

/-- `a / b`. -/
def divide : Number → Number → Number
  | .finite a, .finite b =>
      if b = 0 then if a = 0 then .nan else .infinite else .finite (a / b)
  | .infinite, .finite _ => .infinite
  | .finite _, .infinite => .finite 0
  | _, _ => .nan

/-- `1 - a`. -/
def oneMinus : Number → Number
  | .finite value => .finite (1 - value)
  | other => other

/-- The mean of the values of a column, and a NaN when it has none. -/
def average (column : List Number) : Number :=
  (mean (column.filterMap value?)).elim .nan .finite

end Number

/-! ## Functions on tables -/

/-- The functions of pandas that the scripts use, with their laws: the rows that have a
value in the subset stay, a mean passes over NaN and over the order of the rows, and
each key has one group, with its rows in order. -/
structure Pandas where
  /-- `pd.read_csv` -/
  readCsv : Csv.Reader
  /-- `dropna(subset=...)`, on the column of the subset and another one -/
  dropna : List (Option Int) → List (Option Int) → List (Option Int)
  dropna_rows : ∀ rows : List (Option Int × Option Int),
    dropna (rows.map Prod.fst) (rows.map Prod.snd) =
      (rows.filter fun row => row.1.isSome).map Prod.snd
  /-- `mean()` -/
  mean : List Number → Number
  mean_values : ∀ column, .infinite ∉ column → mean column = Number.average column
  mean_perm : ∀ {column other : List Number}, column.Perm other → mean column = mean other
  /-- `groupby` -/
  groupby : {Key Row : Type} → [DecidableEq Key] → List (Key × Row) → List (Key × List Row)
  groupby_rows : ∀ {Key Row : Type} [DecidableEq Key] (rows : List (Key × Row)),
    KeyedTable.IsGrouping rows (groupby rows)

theorem mean_of_ne_nil {column : List ℚ} (some : column ≠ []) :
    mean column = .some (column.sum / column.length) := by
  unfold mean
  rw [if_neg (by simpa using some)]

/-- The mean of permuted values is the same. -/
theorem average_perm {column other : List Number} (perm : column.Perm other) :
    Number.average column = Number.average other := by
  have values : mean (column.filterMap Number.value?) = mean (other.filterMap Number.value?) :=
    mean_congr (perm.filterMap Number.value?)
  unfold Number.average
  rw [values]

namespace Pandas

variable (pandas : Pandas)

/-- Columns of one table, restricted to the rows with a value in one of them. -/
theorem dropna_map {Row : Type} (rows : List Row) (subset column : Row → Option Int) :
    pandas.dropna (rows.map subset) (rows.map column) =
      (rows.filter fun row => (subset row).isSome).map column := by
  have kept := pandas.dropna_rows (rows.map fun row => (subset row, column row))
  rw [List.map_map, List.map_map, List.filter_map, List.map_map] at kept
  exact kept

/-- A column without infinities and NaN has the mean of its values. -/
theorem mean_finite {Entry : Type} {entries : List Entry} (some : entries ≠ [])
    {number : Entry → Number} {value : Entry → ℚ}
    (finite : ∀ entry ∈ entries, number entry = .finite (value entry)) :
    pandas.mean (entries.map number) = .finite ((entries.map value).sum / entries.length) := by
  have values : entries.map number = entries.map fun entry => .finite (value entry) :=
    List.map_congr_left finite
  have noInfinity : Number.infinite ∉ entries.map fun entry => Number.finite (value entry) := by
    simp
  have kept : (entries.map fun entry => Number.finite (value entry)).filterMap Number.value? =
      entries.map value := by
    rw [List.filterMap_map]
    exact congrFun List.filterMap_eq_map' entries
  rw [values, pandas.mean_values _ noInfinity, Number.average, kept,
    mean_of_ne_nil (by simpa using some), List.length_map]
  rfl

/-- The plainest functions with these laws. -/
def documented : Pandas where
  readCsv := Csv.splitting
  dropna subset column :=
    (subset.zip column).filterMap fun cells => if cells.1.isSome then some cells.2 else none
  dropna_rows rows := by
    rw [List.zip_map', List.filterMap_map, ← List.filterMap_eq_map', List.filterMap_filter]
    rfl
  mean column := if .infinite ∈ column then .infinite else Number.average column
  mean_values _ noInfinity := if_neg noInfinity
  mean_perm perm := by simp only [perm.mem_iff, average_perm perm]
  groupby := KeyedTable.groups
  groupby_rows := KeyedTable.isGrouping_groups

end Pandas

end Sidewalk.Analysis
