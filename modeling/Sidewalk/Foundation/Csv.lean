import Mathlib.Data.List.Nodup
import Sidewalk.Foundation.Decimal
import Sidewalk.Foundation.Delimited

/-!
Owns comma-separated files with a header line: schemas that say what a record has
in each column, the text a schema writes, and what a reader of such files is, with
the columns of a table by name and the integers in them. The laws say that every
column that was written is read back.

Does not own cells that need quoting, nor what a reader does with other texts: the
one given here reads no text with a row wider or narrower than the header. Of the
number formats only decimal integers are read.
-/

set_option autoImplicit false

namespace Sidewalk.Foundation.Csv

/-- The text of a cell. -/
abbrev Field : Type := List Char

/-- The characters of names and numbers. -/
def isCellChar (c : Char) : Bool := c.isAlphanum || c = '.' || c = '-' || c = '+' || c = '_'

/-- A cell that is a name or a number, without separators, quotes or white space. -/
def Plain (field : Field) : Prop := field.all isCellChar = true

instance (field : Field) : Decidable (Plain field) := inferInstanceAs (Decidable (_ = true))

/-- The columns of a file, each with what a record has there. There are several, so
that no line is blank. -/
structure Schema (Record : Type) where
  columns : List (Field × (Record → Field))
  several : 2 ≤ columns.length
  names_plain : ∀ column ∈ columns, Plain column.1
  names_distinct : (columns.map Prod.fst).Nodup

variable {Record : Type}

namespace Schema

/-- The header. -/
def names (schema : Schema Record) : List Field := schema.columns.map Prod.fst

/-- The row of a record. -/
def fields (schema : Schema Record) (record : Record) : List Field :=
  schema.columns.map fun column => column.2 record

end Schema

/-! ## Writing -/

/-- A line of cells. -/
def line (fields : List Field) : List Char := [','].intercalate fields ++ ['\n']

/-- The file of a list of records. -/
def Schema.write (schema : Schema Record) (records : List Record) : List Char :=
  line schema.names ++ records.flatMap fun record => line (schema.fields record)

/-! ## Reading -/

/-- A file that was read: its header and its rows. -/
structure Table where
  columns : List Field
  rows : List (List Field)
deriving DecidableEq, Repr

/-- What reads files: it gives back the cells of a file with several columns, distinct
names and plain cells. -/
structure Reader where
  read : List Char → Option Table
  read_lines : ∀ (columns : List Field) (rows : List (List Field)),
    2 ≤ columns.length → columns.Nodup → (∀ row ∈ rows, row.length = columns.length) →
    (∀ row ∈ columns :: rows, ∀ field ∈ row, Plain field) →
      read (line columns ++ rows.flatMap line) = some ⟨columns, rows⟩

/-- Read a text: blank lines are passed over, and without a header nothing is read. -/
def read (text : List Char) : Option Table :=
  match ((Delimited.getlines '\n' text).filter (· ≠ [])).map (List.splitOn ',') with
  | [] => none
  | columns :: rows =>
      if rows.all fun row => row.length = columns.length then some ⟨columns, rows⟩ else none

/-- The cells under a name. -/
def Table.column (table : Table) (name : Field) : Option (List Field) :=
  (table.columns.idxOf? name).map fun index => table.rows.map fun row => row.getD index []

/-- A decimal integer that is the whole of a cell. -/
def int? (field : Field) : Option Int :=
  (Decimal.strtoll field).filter fun value => Decimal.ofInt value = field

/-- A cell of a column of integers: `none` when it is blank. -/
def cell (field : Field) : Option (Option Int) :=
  if field = [] then some none else (int? field).map some

/-- The integers of a column, if there is nothing else in it. -/
def Table.ints (table : Table) (name : Field) : Option (List (Option Int)) :=
  (table.column name).bind fun fields => fields.mapM cell

/-- How a cell that may be blank is written. -/
def ofCell (value : Option Int) : Field := value.elim [] Decimal.ofInt

/-! ## Cells -/

theorem int?_ofInt (value : Int) : int? (Decimal.ofInt value) = some value := by
  unfold int?
  rw [Decimal.strtoll_ofInt]
  simp

theorem cell_ofCell (value : Option Int) : cell (ofCell value) = some value := by
  cases value with
  | none => rfl
  | some value =>
      change (if Decimal.ofInt value = [] then some none
        else (int? (Decimal.ofInt value)).map some) = some (some value)
      rw [if_neg (Decimal.ofInt_ne_nil value), int?_ofInt]
      rfl

theorem plain_iff {field : Field} : Plain field ↔ ∀ c ∈ field, isCellChar c = true :=
  List.all_eq_true

theorem Plain.notMem {field : Field} (plain : Plain field) {c : Char}
    (other : isCellChar c = false) : c ∉ field := by
  intro member
  rw [plain_iff.mp plain c member] at other
  cases other

theorem isCellChar_of_isDigit {c : Char} (digit : c.isDigit = true) : isCellChar c = true := by
  simp [isCellChar, Char.isAlphanum, digit]

theorem plain_ofNat (value : Nat) : Plain (Decimal.ofNat value) :=
  plain_iff.mpr fun _ member => isCellChar_of_isDigit (Decimal.isDigit_of_mem_ofNat member)

theorem plain_ofInt (value : Int) : Plain (Decimal.ofInt value) := by
  cases value with
  | ofNat value => exact plain_ofNat value
  | negSucc value =>
      rw [plain_iff]
      intro c member
      rcases List.mem_cons.mp member with rfl | digits
      · decide
      · exact plain_iff.mp (plain_ofNat (value + 1)) c digits

theorem plain_ofCell (value : Option Int) : Plain (ofCell value) := by
  cases value with
  | none => rfl
  | some value => exact plain_ofInt value

/-! ## Lines -/

theorem intercalate_ne_nil {fields : List Field} (several : 2 ≤ fields.length) :
    [','].intercalate fields ≠ [] := by
  match fields, several with
  | first :: second :: rest, _ =>
      rw [List.intercalate_cons_cons]
      simp

theorem newline_notMem {fields : List Field} (plain : ∀ field ∈ fields, Plain field) :
    '\n' ∉ [','].intercalate fields := by
  intro member
  rcases Delimited.mem_intercalate member with separator | ⟨field, isField, inField⟩
  · exact absurd separator (by decide)
  · exact (plain field isField).notMem (by decide) inField

/-- Lines that are not blank and have no line break in them are read as they were
written. -/
theorem getlines_lines {lines : List (List Char)} (unbroken : ∀ text ∈ lines, '\n' ∉ text) :
    Delimited.getlines '\n' (lines.flatMap fun text => text ++ ['\n']) = lines := by
  have joined : ∀ lines : List (List Char), lines ≠ [] →
      (lines.flatMap fun text => text ++ ['\n']) = ['\n'].intercalate lines ++ ['\n'] := by
    intro lines some
    induction lines with
    | nil => exact absurd rfl some
    | cons first rest inductionHypothesis =>
        by_cases last : rest = []
        · rw [last]
          simp
        · rw [List.flatMap_cons, inductionHypothesis last, List.intercalate_cons_of_ne_nil last]
          simp
  by_cases none : lines = []
  · rw [none]
    rfl
  · rw [joined lines none]
    exact Delimited.getlines_intercalate_concat '\n' unbroken none

/-- Rows of several plain cells are read as they were written. -/
theorem splitOn_lines {rows : List (List Field)} (plain : ∀ row ∈ rows, ∀ field ∈ row, Plain field)
    (several : ∀ row ∈ rows, 2 ≤ row.length) :
    ((Delimited.getlines '\n' (rows.flatMap line)).filter (· ≠ [])).map (List.splitOn ',') =
      rows := by
  let texts : List (List Char) := rows.map fun row => [','].intercalate row
  have written : rows.flatMap line = texts.flatMap fun text => text ++ ['\n'] := by
    rw [List.flatMap_map]
    rfl
  have unbroken : ∀ text ∈ texts, '\n' ∉ text := by
    intro text member
    obtain ⟨row, rowMember, rfl⟩ := List.mem_map.mp member
    exact newline_notMem (plain row rowMember)
  have kept : texts.filter (· ≠ []) = texts := by
    apply List.filter_eq_self.mpr
    intro text member
    obtain ⟨row, rowMember, rfl⟩ := List.mem_map.mp member
    exact decide_eq_true (intercalate_ne_nil (several row rowMember))
  rw [written, getlines_lines unbroken, kept, List.map_map]
  apply (List.map_congr_left _).trans (List.map_id rows)
  intro row member
  have someField : row ≠ [] := by
    apply List.ne_nil_of_length_pos
    have width := several row member
    omega
  exact List.splitOn_intercalate ','
    (fun field isField => (plain row member field isField).notMem (by decide)) someField

/-! ## Reading what was written -/

variable {schema : Schema Record} {records : List Record}

/-- A record has no separators in its cells. -/
def Schema.PlainRecord (schema : Schema Record) (record : Record) : Prop :=
  ∀ column ∈ schema.columns, Plain (column.2 record)

theorem Reader.read_write (reader : Reader)
    (plain : ∀ record ∈ records, schema.PlainRecord record) :
    reader.read (schema.write records) = some ⟨schema.names, records.map schema.fields⟩ := by
  have rowsPlain : ∀ row ∈ schema.names :: records.map schema.fields, ∀ field ∈ row,
      Plain field := by
    intro row member
    rcases List.mem_cons.mp member with isHeader | later
    · rw [isHeader]
      exact List.forall_mem_map.mpr schema.names_plain
    · obtain ⟨record, recordMember, rfl⟩ := List.mem_map.mp later
      exact List.forall_mem_map.mpr (plain record recordMember)
  have sameWidth : ∀ row ∈ records.map schema.fields, row.length = schema.names.length := by
    intro row member
    obtain ⟨record, -, rfl⟩ := List.mem_map.mp member
    rw [Schema.fields, Schema.names, List.length_map, List.length_map]
  have several : 2 ≤ schema.names.length := by
    rw [Schema.names, List.length_map]
    exact schema.several
  have written : schema.write records =
      line schema.names ++ (records.map schema.fields).flatMap line := by
    rw [Schema.write, List.flatMap_map]
  rw [written]
  exact reader.read_lines _ _ several schema.names_distinct sameWidth rowsPlain

/-- `read` is a reader. -/
def splitting : Reader where
  read := read
  read_lines columns rows several _ sameWidth plain := by
    have severalCells : ∀ row ∈ columns :: rows, 2 ≤ row.length := by
      intro row member
      rcases List.mem_cons.mp member with isHeader | later
      · exact isHeader ▸ several
      · exact (sameWidth row later).symm ▸ several
    have lines := splitOn_lines plain severalCells
    rw [List.flatMap_cons] at lines
    have widths : (rows.all fun row => row.length = columns.length) = true :=
      List.all_eq_true.mpr fun row member => decide_eq_true (sameWidth row member)
    unfold read
    rw [lines]
    simp only [widths, if_true]

/-- A column of the file holds what the records have there. -/
theorem column_write {name : Field} {value : Record → Field}
    (isColumn : (name, value) ∈ schema.columns) :
    Table.column ⟨schema.names, records.map schema.fields⟩ name = some (records.map value) := by
  obtain ⟨index, bound, found⟩ := List.getElem_of_mem isColumn
  have nameBound : index < schema.names.length := by
    rw [Schema.names, List.length_map]
    exact bound
  have nameAt : schema.names[index] = name := by
    simp only [Schema.names, List.getElem_map, found]
  have position : schema.names.idxOf? name = some index := by
    rw [List.idxOf?_eq_some_iff]
    refine ⟨nameBound, nameAt, ?_⟩
    intro earlier before
    rw [← nameAt]
    intro same
    have equal := (schema.names_distinct.getElem_inj_iff).mp same
    omega
  unfold Table.column
  rw [position, Option.map_some, List.map_map]
  congr 1
  apply List.map_congr_left
  intro record _
  have cellAt : (schema.fields record)[index]? = some (value record) := by
    simp [Schema.fields, List.getElem?_eq_getElem bound, found]
  simp [List.getD, cellAt]

/-- A column of integers is read back. -/
theorem ints_write {name : Field} {value : Record → Option Int}
    (isColumn : (name, fun record => ofCell (value record)) ∈ schema.columns) :
    Table.ints ⟨schema.names, records.map schema.fields⟩ name = some (records.map value) := by
  unfold Table.ints
  rw [column_write isColumn, Option.bind_some]
  induction records with
  | nil => rfl
  | cons record records inductionHypothesis =>
      rw [List.map_cons, List.map_cons, List.mapM_cons, cell_ofCell]
      rw [Option.bind_eq_bind, Option.bind_some, inductionHypothesis]
      rfl

end Sidewalk.Foundation.Csv
