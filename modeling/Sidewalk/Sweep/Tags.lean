import Sidewalk.Foundation.Delimited
import Sidewalk.Foundation.Glob
import Sidewalk.Protocol.Delivery

/-!
Owns the tags of a sweep: the tags `sweep.sh` builds from keys, values and a run
number, the names of the files one job writes, and `run_one` with its split of
the job line and its resume test. A tag carries what its keys, values and run
number may contain. The results of this module say how a tag reads at its
separators and that a job line gives its tag, command and run number back.

Does not own the presets, `xargs`, nor how the simulation runs. The directory of
the results is matched literally by the shell.
-/

set_option autoImplicit false

namespace Sidewalk.Sweep

open Sidewalk.Foundation Sidewalk.Protocol

/-! ## Tags -/

/-- A character of a key or a value: no separator of the tag, the job line or a
path, no white space and nothing with a meaning in a shell pattern. -/
def PlainChar (c : Char) : Prop :=
  c ∉ ['_', '=', '/', '|'] ∧ c.isWhitespace = false ∧ Glob.Plain c

instance (c : Char) : Decidable (PlainChar c) := inferInstanceAs (Decidable (_ ∧ _))

/-- A key or a value. -/
def Word (text : Text) : Prop := text ≠ [] ∧ ∀ c ∈ text, PlainChar c

instance (text : Text) : Decidable (Word text) :=
  @instDecidableAnd _ _ _ (List.decidableBAll _ text)

/-- The last key of every tag. -/
def runKey : Text := ['r', 'u', 'n']

/-- A tag `k1=v1_..._km=vm_run=r`. Its keys, `run` among them, are distinct. -/
structure Tag where
  items : List (Text × Text)
  run : Text
  someItem : items ≠ []
  words : ∀ item ∈ items, Word item.1 ∧ Word item.2
  distinct : (items.map Prod.fst ++ [runKey]).Nodup
  run_ne_nil : run ≠ []
  run_digits : ∀ c ∈ run, c.isDigit = true

/-- The keys of a tag with their values, in order. -/
def Tag.entries (tag : Tag) : List (Text × Text) := tag.items ++ [(runKey, tag.run)]

/-- `k=v`. -/
def itemText (item : Text × Text) : Text := item.1 ++ '=' :: item.2

/-- A tag as `sweep.sh` writes it. -/
def Tag.text (tag : Tag) : Text := ['_'].intercalate (tag.entries.map itemText)

example : ∃ tag : Tag, tag.text = "config=retx2-sub10_scheme=0_run=10".toList :=
  ⟨{ items := [("config".toList, "retx2-sub10".toList), ("scheme".toList, ['0'])]
     run := ['1', '0']
     someItem := by decide
     words := by decide
     distinct := by decide
     run_ne_nil := by decide
     run_digits := by simp [Char.isDigit] }, rfl⟩

/-! ## The files of a job -/

/-- `exampleName`. -/
def exampleName (simTag : Text) : Text := simTag ++ ['-'] ++ "sidewalk-robots".toList

/-- The path the simulation passes to `SQLiteOutput`. -/
def dbPath (outputDir simTag : Text) : Text := outputDir ++ exampleName simTag ++ ".db".toList

/-- The name of the database in the output directory. -/
def dbName (simTag : Text) : Text := exampleName simTag ++ ".db".toList

/-- The names of the files a job writes to the output directory: the database, the
sensing trace and the log. -/
def outputs (simTag : Text) : List Text :=
  [dbName simTag, exampleName simTag ++ "-sensing.csv".toList, simTag ++ ".log".toList]

/-! ## `run_one` -/

/-- `${1%%|*}`. -/
def jobTag (argument : Text) : Text := argument.takeWhile fun c => c ≠ '|'

/-- `${1#*|}`, which is the whole argument without a `|`. -/
def jobCommand (argument : Text) : Text :=
  if '|' ∈ argument then (argument.dropWhile fun c => c ≠ '|').drop 1 else argument

/-- What follows the last occurrence of a marker, if there is one. -/
def afterLast (marker : Text) : Text → Option Text
  | [] => none
  | c :: rest =>
      match afterLast marker rest with
      | some later => some later
      | none =>
          if marker.isPrefixOf (c :: rest) then some ((c :: rest).drop marker.length) else none

/-- `${tag##*run=}`. -/
def rngRun (tag : Text) : Text := (afterLast ['r', 'u', 'n', '='] tag).getD tag

/-- The names and sizes of the files in `$OUT`, in the order `compgen` lists them. -/
abbrev Listing : Type := List (Text × Nat)

/-- `${tag}-*.db`. -/
def resumePattern (tag : Text) : Text := tag ++ "-*.db".toList

/-- The resume test: some file matches, and the first one is not empty. -/
def finished (listing : Listing) (tag : Text) : Bool :=
  match listing.find? fun file => Glob.matchesName (resumePattern tag) file.1 with
  | none => false
  | some file => 0 < file.2

/-- What `run_one` does with a job. -/
inductive Job where
  | skipped
  | started (cmd rngRun simTag : Text)
deriving DecidableEq, Repr

/-- `run_one`. -/
def runOne (listing : Listing) (argument : Text) : Job :=
  let tag := jobTag argument
  if finished listing tag then .skipped
  else .started (jobCommand argument) (rngRun tag) tag

/-! ## Characters of a tag -/

variable {tag : Tag}

theorem PlainChar.ne {c d : Char} (plain : PlainChar c) (special : ¬ PlainChar d) : c ≠ d := by
  intro same
  exact special (same ▸ plain)

theorem Word.notMem {text : Text} (word : Word text) {c : Char} (special : ¬ PlainChar c) :
    c ∉ text := by
  intro member
  exact special (word.2 c member)

theorem plainChar_of_isDigit {c : Char} (digit : c.isDigit = true) : PlainChar c := by
  have other : ∀ special : Char, special.isDigit = false → c ≠ special := by
    intro special notDigit same
    rw [same, notDigit] at digit
    exact Bool.noConfusion digit
  refine ⟨?_, ?_, ?_⟩
  · simp [other '_' (by decide), other '=' (by decide), other '/' (by decide),
      other '|' (by decide)]
  · simp [Char.isWhitespace, other ' ' (by decide), other '\t' (by decide),
      other '\r' (by decide), other '\n' (by decide)]
  · simp [Glob.Plain, other '*' (by decide), other '?' (by decide), other '[' (by decide),
      other '\\' (by decide)]

theorem Tag.run_word (tag : Tag) : Word tag.run :=
  ⟨tag.run_ne_nil, fun c member => plainChar_of_isDigit (tag.run_digits c member)⟩

theorem runKey_word : Word runKey := by decide

theorem Tag.entries_words (tag : Tag) : ∀ entry ∈ tag.entries, Word entry.1 ∧ Word entry.2 := by
  intro entry member
  rcases List.mem_append.mp member with item | last
  · exact tag.words entry item
  · obtain rfl := List.mem_singleton.mp last
    exact ⟨runKey_word, tag.run_word⟩

theorem Tag.entries_distinct (tag : Tag) : (tag.entries.map Prod.fst).Nodup := by
  unfold entries
  rw [List.map_append]
  exact tag.distinct

theorem notMem_itemText {entry : Text × Text} (words : Word entry.1 ∧ Word entry.2) {c : Char}
    (special : ¬ PlainChar c) (notEquals : c ≠ '=') : c ∉ itemText entry := by
  unfold itemText
  rw [List.mem_append, List.mem_cons, not_or, not_or]
  exact ⟨words.1.notMem special, notEquals, words.2.notMem special⟩

theorem splitOn_itemText {entry : Text × Text} (words : Word entry.1 ∧ Word entry.2) :
    (itemText entry).splitOn '=' = [entry.1, entry.2] := by
  unfold itemText
  rw [List.splitOn_append_cons_self_of_not_mem (words.1.notMem (by decide)),
    List.splitOn_eq_singleton (words.2.notMem (by decide))]

theorem Tag.splitOn_text (tag : Tag) : tag.text.splitOn '_' = tag.entries.map itemText := by
  unfold text
  apply List.splitOn_intercalate
  · intro item member
    obtain ⟨entry, entryMember, rfl⟩ := List.mem_map.mp member
    exact notMem_itemText (tag.entries_words entry entryMember) (by decide) (by decide)
  · simp [entries]

/-- A tag ends with `_run=` and its run number. -/
theorem Tag.text_eq (tag : Tag) :
    tag.text = ['_'].intercalate (tag.items.map itemText) ++
      ('_' :: 'r' :: 'u' :: 'n' :: '=' :: tag.run) := by
  unfold text entries
  rw [List.map_append, List.map_singleton,
    Delimited.intercalate_concat '_' (by simpa using tag.someItem)]
  rfl

/-- Apart from its separators a tag consists of plain characters. -/
theorem Tag.plain_of_mem_text {tag : Tag} {c : Char} (member : c ∈ tag.text) :
    c = '_' ∨ c = '=' ∨ PlainChar c := by
  rcases Delimited.mem_intercalate member with separator | ⟨item, itemMember, inItem⟩
  · exact Or.inl separator
  · obtain ⟨entry, entryMember, rfl⟩ := List.mem_map.mp itemMember
    have words := tag.entries_words entry entryMember
    rcases List.mem_append.mp inItem with inKey | inRest
    · exact Or.inr (Or.inr (words.1.2 c inKey))
    · rcases List.mem_cons.mp inRest with equals | inValue
      · exact Or.inr (Or.inl equals)
      · exact Or.inr (Or.inr (words.2.2 c inValue))

theorem Tag.notMem_text {tag : Tag} {c : Char} (special : ¬ PlainChar c) (notSeparator : c ≠ '_')
    (notEquals : c ≠ '=') : c ∉ tag.text := by
  intro member
  rcases Tag.plain_of_mem_text member with separator | equals | plain
  · exact notSeparator separator
  · exact notEquals equals
  · exact special plain

theorem Tag.slash_notMem_text (tag : Tag) : '/' ∉ tag.text :=
  Tag.notMem_text (by decide) (by decide) (by decide)

/-! ## Job lines -/

theorem jobLine_parts (tag : Tag) (cmd : Text) :
    jobTag (tag.text ++ '|' :: cmd) = tag.text ∧ jobCommand (tag.text ++ '|' :: cmd) = cmd := by
  have noBar : '|' ∉ tag.text := Tag.notMem_text (by decide) (by decide) (by decide)
  have kept : ∀ c ∈ tag.text, decide (c ≠ '|') = true := by
    intro c member
    rw [decide_eq_true_eq]
    exact ne_of_mem_of_not_mem member noBar
  constructor
  · unfold jobTag
    rw [List.takeWhile_append_of_pos kept]
    simp
  · unfold jobCommand
    rw [if_pos (by simp), List.dropWhile_append_of_pos kept]
    simp

theorem afterLast_append {marker rest found : Text} (later : afterLast marker rest = some found)
    (front : Text) : afterLast marker (front ++ rest) = some found := by
  induction front with
  | nil => exact later
  | cons c front inductionHypothesis =>
      rw [List.cons_append, afterLast, inductionHypothesis]

/-- Without its first character a marker does not occur. -/
theorem afterLast_none {first : Char} {marker text : Text} (absent : first ∉ text) :
    afterLast (first :: marker) text = none := by
  induction text with
  | nil => rfl
  | cons c rest inductionHypothesis =>
      obtain ⟨other, later⟩ := not_or.mp (mt List.mem_cons.mpr absent)
      have noPrefix : (first :: marker).isPrefixOf (c :: rest) = false := by
        simp [List.isPrefixOf, other]
      rw [afterLast, inductionHypothesis later, noPrefix]
      rfl

/-- The random seed of a job is the run number of its tag. -/
theorem rngRun_text (tag : Tag) : rngRun tag.text = tag.run := by
  have noMarker : 'r' ∉ tag.run := by
    intro member
    exact absurd (tag.run_digits 'r' member) (by decide)
  have last :
      afterLast ['r', 'u', 'n', '='] ('r' :: 'u' :: 'n' :: '=' :: tag.run) = some tag.run := by
    have later : afterLast ['r', 'u', 'n', '='] ('u' :: 'n' :: '=' :: tag.run) = none :=
      afterLast_none (by simp [noMarker])
    rw [afterLast, later]
    rfl
  have split : tag.text = (['_'].intercalate (tag.items.map itemText) ++ ['_']) ++
      'r' :: 'u' :: 'n' :: '=' :: tag.run := by
    rw [tag.text_eq, List.append_assoc]
    rfl
  unfold rngRun
  rw [split, afterLast_append last]
  rfl

end Sidewalk.Sweep
