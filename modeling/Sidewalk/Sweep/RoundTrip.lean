import Sidewalk.Analysis.RunTags
import Sidewalk.Sweep.Tags

/-!
Owns the round trip of tags through file names: where the first expression of
`kpi.py` can match in the name of a tag's database, that the tags read from the
name are those of the tag, and that neither names nor resume tests of two tags
meet.

Does not own which files a directory holds: the resume test is for directories
of files that jobs with tags wrote.
-/

set_option autoImplicit false

namespace Sidewalk.Sweep

open Sidewalk.Foundation Sidewalk.Protocol Sidewalk.Analysis

variable {digits : DigitTable} {tag other : Tag}

/-! ## Where a run number can end -/

/-- What a text without the separator is in front of stays in the first field. -/
theorem splitOn_append {front : Text} (plain : '_' ∉ front) (rest : Text) :
    ∃ field more, (front ++ rest).splitOn '_' = (front ++ field) :: more ∧
      (more = [] → field = rest) := by
  by_cases member : '_' ∈ rest
  · obtain ⟨field, later, rfl, fieldPlain⟩ := List.eq_append_cons_of_mem member
    refine ⟨field, later.splitOn '_', ?_, ?_⟩
    · rw [← List.append_assoc]
      apply List.splitOn_append_cons_self_of_not_mem
      rw [List.mem_append, not_or]
      exact ⟨plain, fieldPlain⟩
    · intro none
      exact absurd none (List.splitOn_ne_nil _ _)
  · refine ⟨rest, [], List.splitOn_eq_singleton ?_, fun _ => rfl⟩
    rw [List.mem_append, not_or]
    exact ⟨plain, member⟩

/-- An item that starts with `run=` has the key `run`. -/
theorem key_of_run_prefix {entry : Text × Text} (words : Word entry.1 ∧ Word entry.2) {rest : Text}
    (starts : itemText entry = 'r' :: 'u' :: 'n' :: '=' :: rest) : entry.1 = runKey := by
  have split := splitOn_itemText words
  have again : (runKey ++ '=' :: rest).splitOn '=' = runKey :: rest.splitOn '=' :=
    List.splitOn_append_cons_self_of_not_mem (by decide) rest
  rw [starts] at split
  exact (List.cons_eq_cons.mp (split.symm.trans again)).1

/-- The name of a file of a tag splits into the items and what starts at the run. -/
theorem splitOn_file (tag : Tag) {suffix : Text} (plainSuffix : '_' ∉ suffix) :
    (tag.text ++ '-' :: suffix).splitOn '_' =
      tag.items.map itemText ++ ['r' :: 'u' :: 'n' :: '=' :: (tag.run ++ '-' :: suffix)] := by
  have items : ∀ item ∈ tag.items.map itemText, '_' ∉ item := by
    intro item member
    obtain ⟨entry, entryMember, rfl⟩ := List.mem_map.mp member
    exact notMem_itemText (tag.words entry entryMember) (by decide) (by decide)
  have lastPlain : '_' ∉ 'r' :: 'u' :: 'n' :: '=' :: (tag.run ++ '-' :: suffix) := by
    simp [tag.run_word.notMem (show ¬ PlainChar '_' by decide), plainSuffix]
  rw [tag.text_eq, List.append_assoc, List.cons_append, List.splitOn_append_cons_self,
    List.splitOn_intercalate '_' items (by simpa using tag.someItem)]
  congr 1
  exact List.splitOn_eq_singleton lastPlain

/-- No item of a tag other than its run starts with `run=`. -/
theorem run_prefix_notMem_items (tag : Tag) (rest : Text) :
    'r' :: 'u' :: 'n' :: '=' :: rest ∉ tag.items.map itemText := by
  intro member
  obtain ⟨entry, entryMember, starts⟩ := List.mem_map.mp member
  have key := key_of_run_prefix (tag.words entry entryMember) starts
  have distinct := (List.nodup_append.mp tag.distinct).2.2
  exact distinct entry.1 (List.mem_map_of_mem entryMember) runKey (by simp) key

theorem Tag.isDigit_of_mem_run (tag : Tag) : ∀ c ∈ tag.run, digits.isDigit c = true := by
  intro c member
  exact DigitTable.isDigit_of_isDigit (tag.run_digits c member)

/-- In the name of a file of a tag, a run number that ends at a `-` is the one at
the end of the tag: the tag is the only match of the group. -/
theorem text_of_run_match (tag : Tag) {suffix : Text} (plainSuffix : '_' ∉ suffix)
    {front number rest : Text} (all : ∀ c ∈ number, digits.isDigit c = true)
    (split : tag.text ++ '-' :: suffix =
      front ++ ('_' :: 'r' :: 'u' :: 'n' :: '=' :: number) ++ '-' :: rest) :
    front ++ ('_' :: 'r' :: 'u' :: 'n' :: '=' :: number) = tag.text := by
  have minus : digits.isDigit '-' = false := DigitTable.not_isDigit (by decide) (by decide)
  have plainRun : '_' ∉ 'r' :: 'u' :: 'n' :: '=' :: (number ++ ['-']) := by
    have noSeparator : '_' ∉ number := DigitTable.notMem_digits all (by decide) (by decide)
    simp [noSeparator]
  obtain ⟨field, more, fields, whole⟩ := splitOn_append plainRun rest
  -- the same name split at `_`, once as a tag's and once around the match
  have regrouped : front ++ ('_' :: 'r' :: 'u' :: 'n' :: '=' :: number) ++ '-' :: rest =
      front ++ '_' :: (('r' :: 'u' :: 'n' :: '=' :: (number ++ ['-'])) ++ rest) := by simp
  have same := splitOn_file tag plainSuffix
  rw [split, regrouped, List.splitOn_append_cons_self, fields] at same
  rcases List.eq_nil_or_concat more with none | ⟨earlier, last, rfl⟩
  · -- the match lies in the last field, which is the run of the tag
    subst none
    obtain ⟨frontFields, lastField⟩ := List.append_inj' same rfl
    obtain rfl := whole rfl
    have frontEq : front = ['_'].intercalate (tag.items.map itemText) := by
      rw [← frontFields, List.intercalate_splitOn]
    have tails : number ++ '-' :: field = tag.run ++ '-' :: suffix := by simpa using lastField
    have numberEq : number = tag.run := by
      have taken := congrArg (List.takeWhile digits.isDigit) tails
      rwa [(DigitTable.takeWhile_digits all minus).1,
        (DigitTable.takeWhile_digits tag.isDigit_of_mem_run minus).1] at taken
    rw [tag.text_eq, frontEq, numberEq]
  · -- the match lies in an earlier field, which is no run
    have grouped : ∀ (fields : List Text) (item : Text),
        fields ++ item :: earlier.concat last = (fields ++ item :: earlier) ++ [last] := by simp
    rw [grouped] at same
    have items := (List.append_inj' same rfl).1
    have member : 'r' :: 'u' :: 'n' :: '=' :: (number ++ ['-']) ++ field ∈
        tag.items.map itemText := by
      rw [← items]
      simp
    exact absurd member (run_prefix_notMem_items tag _)

/-! ## Reading the tags back -/

/-- What follows the tag in the name of its database. -/
def dbSuffix : Text := "sidewalk-robots.db".toList

theorem dbName_eq (simTag : Text) : dbName simTag = simTag ++ '-' :: dbSuffix := by
  unfold dbName exampleName dbSuffix
  simp

theorem firstGroup_dbName (tag : Tag) :
    Pattern.firstGroup (runGroup digits) (.literal ['-']) (dbName tag.text) = some tag.text := by
  apply Pattern.firstGroup_eq
  · refine ⟨['-'], dbSuffix, dbName_eq tag.text, ?_, Pattern.matches_literal.mpr rfl⟩
    refine ⟨['_'].intercalate (tag.items.map itemText), '_' :: 'r' :: 'u' :: 'n' :: '=' :: tag.run,
      tag.text_eq, ?_, ['_', 'r', 'u', 'n', '='], tag.run, rfl, Pattern.matches_literal.mpr rfl,
      tag.run_ne_nil, ?_⟩
    · intro c member
      have noNewline : '\n' ∉ tag.text := Tag.notMem_text (by decide) (by decide) (by decide)
      rw [tag.text_eq, List.mem_append, not_or] at noNewline
      rw [decide_eq_true_eq]
      exact ne_of_mem_of_not_mem member noNewline.1
    · intro c member
      exact DigitTable.isDigit_of_isDigit (tag.run_digits c member)
  · intro taken follow left split groupMatches tailMatches
    obtain ⟨front, back, rfl, -, marker, number, rfl, isMarker, -, all⟩ := groupMatches
    obtain rfl := Pattern.matches_literal.mp isMarker
    obtain rfl := Pattern.matches_literal.mp tailMatches
    rw [dbName_eq] at split
    exact text_of_run_match tag (by decide) all split

theorem run_addItem {entries : List (Text × Text)}
    (words : ∀ entry ∈ entries, Word entry.1 ∧ Word entry.2) (tags : List (Text × Text)) :
    Run.run addItem tags (entries.map itemText) =
      .ok (entries.foldl (fun dict entry => KeyedTable.assign entry.1 entry.2 dict) tags) := by
  induction entries generalizing tags with
  | nil => rfl
  | cons entry entries inductionHypothesis =>
      obtain ⟨entryWords, later⟩ := List.forall_mem_cons.mp words
      have added : addItem tags (itemText entry) =
          .ok (KeyedTable.assign entry.1 entry.2 tags) := by
        unfold addItem
        rw [splitOn_itemText entryWords]
      rw [List.map_cons, Run.run_cons added, inductionHypothesis later, List.foldl_cons]

/-- `os.path.join` of a directory and a name. -/
def joinPath (directory name : Text) : Text :=
  if directory = [] ∨ directory.getLast? = some '/' then directory ++ name
  else directory ++ '/' :: name

theorem basename_joinPath (directory : Text) {name : Text} (inDirectory : '/' ∉ name) :
    basename (joinPath directory name) = name := by
  unfold joinPath
  split
  next ended => exact basename_append inDirectory ended
  next =>
    rw [← List.singleton_append, ← List.append_assoc]
    exact basename_append inDirectory (Or.inr (by simp))

theorem slash_notMem_dbName (tag : Tag) : '/' ∉ dbName tag.text := by
  rw [dbName_eq, List.mem_append, not_or]
  exact ⟨tag.slash_notMem_text, by decide⟩

/-- The dictionary read from a tag's database holds the tag's entries. -/
theorem readTags_dbName (directory : Text) (tag : Tag) :
    readTags digits (joinPath directory (dbName tag.text)) =
      .ok (tag.entries.map fun entry => (entry.1, tagValue digits entry.2)) := by
  unfold readTags
  rw [basename_joinPath directory (slash_notMem_dbName tag), firstGroup_dbName]
  simp only [tag.splitOn_text, run_addItem tag.entries_words,
    KeyedTable.foldl_assign
      (show (([] ++ tag.entries).map Prod.fst).Nodup from tag.entries_distinct),
    List.nil_append]

example : readTags asciiDigits "f=-0.5_c=a-1_run=10-sidewalk-robots.db".toList =
    .ok [(['f'], .number (-1 / 2)), (['c'], .text "a-1".toList), (runKey, .number 10)] := by
  decide +kernel

/-- The database of a tag is listed unless its name starts with a period. -/
theorem listed_dbName_iff (tag : Tag) :
    listed (dbName tag.text) = true ↔ tag.text.head? ≠ some '.' := by
  have someText : tag.text ≠ [] := by
    rw [tag.text_eq]
    simp
  have pattern : "*.db".toList = '*' :: ['.', 'd', 'b'] := rfl
  unfold listed
  rw [pattern, Glob.matchesName_ending (by simp [Glob.Plain]), dbName_eq,
    List.head?_append_of_ne_nil _ someText]
  constructor
  · intro both
    exact both.2
  · intro visible
    refine ⟨⟨tag.text ++ '-' :: "sidewalk-robots".toList, ?_, ?_⟩, visible⟩
    · rw [List.mem_append, not_or]
      exact ⟨tag.slash_notMem_text, by decide⟩
    · have suffix : dbSuffix = "sidewalk-robots".toList ++ ['.', 'd', 'b'] := rfl
      rw [suffix, List.append_assoc, List.cons_append]

/-! ## Two tags -/

theorem itemText_injective {left right : Text × Text} (leftWords : Word left.1 ∧ Word left.2)
    (rightWords : Word right.1 ∧ Word right.2) (same : itemText left = itemText right) :
    left = right := by
  have fields := splitOn_itemText leftWords
  rw [same, splitOn_itemText rightWords] at fields
  simp only [List.cons.injEq, and_true] at fields
  exact Prod.ext fields.1.symm fields.2.symm

theorem entries_eq_of_map {left right : List (Text × Text)}
    (leftWords : ∀ entry ∈ left, Word entry.1 ∧ Word entry.2)
    (rightWords : ∀ entry ∈ right, Word entry.1 ∧ Word entry.2)
    (same : left.map itemText = right.map itemText) : left = right := by
  induction left generalizing right with
  | nil => exact (List.map_eq_nil_iff.mp same.symm).symm
  | cons entry left inductionHypothesis =>
      obtain ⟨first, rest, rfl, firstSame, restSame⟩ := List.map_eq_cons_iff.mp same.symm
      obtain ⟨entryWords, leftWords⟩ := List.forall_mem_cons.mp leftWords
      obtain ⟨firstWords, rightWords⟩ := List.forall_mem_cons.mp rightWords
      rw [itemText_injective entryWords firstWords firstSame.symm,
        inductionHypothesis leftWords rightWords restSame.symm]

theorem Tag.text_injective (same : tag.text = other.text) : tag = other := by
  have fields := congrArg (List.splitOn '_') same
  rw [tag.splitOn_text, other.splitOn_text] at fields
  have entries := entries_eq_of_map tag.entries_words other.entries_words fields
  obtain ⟨items, lastItem⟩ := List.append_inj' entries rfl
  simp only [List.cons.injEq, Prod.mk.injEq, true_and, and_true] at lastItem
  cases tag
  cases other
  simp_all

/-! ## The resume test -/

theorem glob_plain_of_mem {c : Char} (member : c ∈ tag.text ++ ['-']) : Glob.Plain c := by
  rcases List.mem_append.mp member with inText | minus
  · rcases Tag.plain_of_mem_text inText with rfl | rfl | plain
    · decide
    · decide
    · exact plain.2.2
  · obtain rfl := List.mem_singleton.mp minus
    decide

theorem resume_match_iff (tag : Tag) {name : Text} :
    Glob.matchesName (resumePattern tag.text) name = true ↔
      ∃ middle, '/' ∉ middle ∧ name = tag.text ++ '-' :: (middle ++ ['.', 'd', 'b']) := by
  have pattern : resumePattern tag.text = (tag.text ++ ['-']) ++ '*' :: ['.', 'd', 'b'] := by
    simp [resumePattern]
  rw [pattern, Glob.matchesName_between (by simp) (fun c => glob_plain_of_mem)
    (by simp [Glob.Plain])]
  simp

/-- The resume test of a tag matches its own database, and no database of another tag. -/
theorem resume_match_dbName :
    Glob.matchesName (resumePattern tag.text) (dbName other.text) = true ↔ tag = other := by
  rw [resume_match_iff]
  constructor
  · intro matched
    obtain ⟨middle, -, nameEq⟩ := matched
    rw [dbName_eq, tag.text_eq] at nameEq
    have all : ∀ c ∈ tag.run, asciiDigits.isDigit c = true := tag.isDigit_of_mem_run
    have same := text_of_run_match other (by decide) all nameEq
    rw [← tag.text_eq] at same
    exact Tag.text_injective same
  · intro own
    subst own
    exact ⟨"sidewalk-robots".toList, by decide, by rw [dbName_eq]; rfl⟩

theorem db_suffix_of_resume_match {name : Text}
    (matched : Glob.matchesName (resumePattern tag.text) name = true) :
    ['.', 'd', 'b'] <:+ name := by
  obtain ⟨middle, -, nameEq⟩ := (resume_match_iff tag).mp matched
  exact ⟨tag.text ++ '-' :: middle, by simp [nameEq]⟩

/-- Of the files of a job only the database ends with `.db`. -/
theorem eq_dbName_of_suffix {name simTag : Text} (written : name ∈ outputs simTag)
    (suffix : ['.', 'd', 'b'] <:+ name) : name = dbName simTag := by
  obtain ⟨front, nameEq⟩ := suffix
  have lastIsB : name.getLast? = some 'b' := by
    have grouped : name = (front ++ ['.', 'd']) ++ ['b'] := by
      rw [← nameEq]
      simp
    rw [grouped, List.getLast?_concat]
  simp only [outputs, List.mem_cons, List.not_mem_nil, or_false] at written
  rcases written with db | rfl | rfl
  · exact db
  · simp at lastIsB
  · simp at lastIsB

/-- In a directory whose databases are those of tags a job is found finished only by
its own database. -/
theorem own_db_of_finished {listing : Listing}
    (written : ∀ file ∈ listing, ['.', 'd', 'b'] <:+ file.1 → ∃ writer : Tag,
      file.1 = dbName writer.text)
    (found : finished listing tag.text = true) :
    ∃ size, 0 < size ∧ (dbName tag.text, size) ∈ listing := by
  unfold finished at found
  split at found
  next => exact Bool.noConfusion found
  next file first =>
    have member := List.mem_of_find?_eq_some first
    have matched : Glob.matchesName (resumePattern tag.text) file.1 = true :=
      List.find?_some
        (p := fun file : Text × Nat => Glob.matchesName (resumePattern tag.text) file.1) first
    obtain ⟨writer, nameEq⟩ := written file member (db_suffix_of_resume_match matched)
    rw [nameEq] at matched
    obtain rfl := resume_match_dbName.mp matched
    refine ⟨file.2, of_decide_eq_true found, ?_⟩
    rw [← nameEq]
    exact member

/-! ## The round trip -/

/-- Tags survive the round trip through file names. From the database of a tag, in
any directory, the keys of the tag are read in order, each with its value or the
number it denotes. The databases of different tags have different names. The
resume test of a tag matches no file of another tag, so a job is skipped only
because of its own database, and otherwise runs with the run number of its tag. -/
theorem tags_survive_file_names (digits : DigitTable) (tag : Tag) :
    (∀ directory, ∃ tags, readTags digits (joinPath directory (dbName tag.text)) = .ok tags ∧
      List.Forall₂ (fun entry read => read.1 = entry.1 ∧ ReadAs digits entry.2 read.2)
        tag.entries tags) ∧
    (∀ outputDir, dbPath (outputDir ++ ['/']) tag.text = outputDir ++ '/' :: dbName tag.text) ∧
    (∀ other : Tag, other ≠ tag → dbName other.text ≠ dbName tag.text ∧
      ∀ name ∈ outputs other.text,
        Glob.matchesName (resumePattern tag.text) name = false) ∧
    ∀ (listing : Listing) (cmd : Text),
      (∀ file ∈ listing, ['.', 'd', 'b'] <:+ file.1 → ∃ writer : Tag,
        file.1 = dbName writer.text) →
      (runOne listing (tag.text ++ '|' :: cmd) = .skipped ∧
          ∃ size, 0 < size ∧ (dbName tag.text, size) ∈ listing) ∨
        runOne listing (tag.text ++ '|' :: cmd) = .started cmd tag.run tag.text := by
  refine ⟨?_, ?_, ?_, ?_⟩
  · intro directory
    refine ⟨_, readTags_dbName directory tag, ?_⟩
    rw [List.forall₂_map_right_iff, List.forall₂_same]
    intro entry _
    exact ⟨rfl, tagValue_readAs entry.2⟩
  · intro outputDir
    simp [dbPath, dbName]
  · intro other different
    constructor
    · intro same
      rw [dbName_eq, dbName_eq, List.append_cancel_right_eq] at same
      exact different (Tag.text_injective same)
    · intro name written
      rw [Bool.eq_false_iff]
      intro matched
      rw [eq_dbName_of_suffix written (db_suffix_of_resume_match matched)] at matched
      exact different (resume_match_dbName.mp matched).symm
  · intro listing cmd written
    obtain ⟨tagEq, commandEq⟩ := jobLine_parts tag cmd
    unfold runOne
    simp only [tagEq, commandEq, rngRun_text]
    by_cases found : finished listing tag.text = true
    · rw [if_pos found]
      exact Or.inl ⟨rfl, own_db_of_finished written found⟩
    · rw [if_neg found]
      exact Or.inr rfl

end Sidewalk.Sweep
