import Mathlib.Data.Char
import Mathlib.Data.List.Lex
import Mathlib.Data.List.Sort
import Sidewalk.Analysis.Sensing
import Sidewalk.Sweep.Campaign

/-!
Owns the model of `main` in `kpi.py` up to `summary.csv`: the databases it lists,
the row it makes of each from the tags of its name, its packets and its sensing
trace, the swept key it finds, and the means of the rows with one scheme and one
value of that key. Over a directory that `sweep.sh` has filled, each mean is over
exactly the runs of one configuration.

Does not own the standard deviations, the order in which pandas sorts the groups,
the figures, nor how numbers are written. Files are given by their contents. A tag
with the name of an indicator and a scheme that is not written as a number are not
modelled.
-/

set_option autoImplicit false

namespace Sidewalk.Analysis

open Sidewalk.Foundation Sidewalk.Protocol Sidewalk.Sweep

/-! ## `main` -/

/-- What `main` can raise. -/
inductive MainError where
  | tag (error : TagError)
  | kpi (error : KpiError)
  | sensing (error : SensingError)
  /-- there is no row -/
  | indexError
  /-- no tag is left besides the scheme and the run, and `x` is an indicator; this is
  not modelled -/
  | noSweptKey
  /-- no row has a scheme -/
  | attributeError
  /-- a scheme is missing or is text -/
  | valueError
  /-- a scheme is not in `SCHEMES` -/
  | keyError
deriving DecidableEq, Repr

/-- A row of `df`. -/
structure SummaryRow where
  tags : List (Text × TagValue)
  kpis : Kpis
  sensing : Option SensingKpis
deriving DecidableEq, Repr

/-- The contents of databases and files by path. -/
structure Files (Ip : Type) where
  database : Text → Database Ip
  trace : Text → Option Text

/-- `sorted(glob.glob(os.path.join(a.dir, "*.db")))`. -/
def databases (dir : Text) (names : List Text) : List Text :=
  ((names.filter listed).map (joinPath dir)).mergeSort fun left right => decide (left ≤ right)

/-- `db[:-3] + "-sensing.csv"`. -/
def sensingPath (db : Text) : Text := db.take (db.length - 3) ++ "-sensing.csv".toList

variable {Ip : Type} [DecidableEq Ip]

/-- The row of a database. -/
def readRow (pandas : Pandas) (digits : DigitTable)
    (percentile : List ℚ → ℚ → Except KpiError ℚ) (pdbS : ℚ) (files : Files Ip) (db : Text) :
    Except MainError SummaryRow := do
  let tags ← (readTags digits db).mapError .tag
  let kpis ← (kpis percentile (files.database db) pdbS).mapError .kpi
  let sensing ← (sensing pandas (files.trace (sensingPath db))).mapError .sensing
  return ⟨tags, kpis, sensing⟩

/-- `next(k for k in rows[0] if k not in ("scheme", "run"))`. -/
def sweptKey (rows : List SummaryRow) : Except MainError Text :=
  match rows with
  | [] => .error .indexError
  | first :: _ =>
    match (first.tags.map Prod.fst).find? fun k => k ≠ schemeKey ∧ k ≠ runKey with
      | none => .error .noSweptKey
      | some x => .ok x

/-- `astype(int)` of a scheme, which cuts off decimals. -/
def schemeInt (row : SummaryRow) : Except MainError Int :=
  match KeyedTable.value? schemeKey row.tags with
  | some (.number value) => .ok (value.num.tdiv value.den)
  | _ => .error .valueError

/-- `SCHEMES[s][0]`. -/
def schemeName (s : Int) : Except MainError Text :=
  if s = 0 then .ok "random".toList
  else if s = 1 then .ok "sensing".toList
  else .error .keyError

/-- `df.scheme.astype(int).map(lambda s: SCHEMES[s][0])`. -/
def schemeColumn (rows : List SummaryRow) : Except MainError (List Text) :=
  if rows.all fun row => (KeyedTable.value? schemeKey row.tags).isNone then
    .error .attributeError
  else do
    let schemes ← rows.mapM schemeInt
    schemes.mapM schemeName

/-- The rows under their keys in the grouping. A row without a value for `x` is in no
group. -/
def keyedRows (x : Text) (schemes : List Text) (rows : List SummaryRow) :
    List ((Text × TagValue) × SummaryRow) :=
  (schemes.zip rows).filterMap fun row =>
    (KeyedTable.value? x row.2.tags).map fun value => ((row.1, value), row.2)

/-- A column that may be missing. -/
def Number.ofOption (value : Option ℚ) : Number := value.elim .nan .finite

/-- The columns whose means `summary.csv` holds. -/
def measures : List (Text × (SummaryRow → Number)) :=
  [("prr".toList, fun row => .finite row.kpis.prr),
    ("pir_ms".toList, fun row => .ofOption row.kpis.pirMs),
    ("collision_frac".toList, fun row => .ofOption row.kpis.collisionFrac),
    ("pssch_fail_frac".toList, fun row => .finite row.kpis.psschFailFrac),
    ("lat_p50_ms".toList, fun row => .finite row.kpis.latP50Ms),
    ("lat_p95_ms".toList, fun row => .finite row.kpis.latP95Ms),
    ("within_pdb".toList, fun row => .ofOption row.kpis.withinPdb),
    ("sel_count".toList, fun row => .ofOption (row.sensing.map fun s => s.selCount)),
    ("backoff_frac".toList, fun row => .ofOption (row.sensing.bind SensingKpis.backoffFrac)),
    ("backoff_steps_mean".toList, fun row => row.sensing.elim .nan SensingKpis.backoffStepsMean),
    ("hd_excl_frac".toList, fun row => row.sensing.elim .nan SensingKpis.hdExclFrac),
    ("rsrp_excl_frac".toList, fun row => row.sensing.elim .nan SensingKpis.rsrpExclFrac)]

/-- A row of `summary.csv`: the scheme and the value of `x`, and the means. -/
structure SummaryLine where
  key : Text × TagValue
  means : List (Text × Number)
deriving DecidableEq, Repr

/-- The means of a group. -/
def means (pandas : Pandas) (rows : List SummaryRow) : List (Text × Number) :=
  measures.map fun measure => (measure.1, pandas.mean (rows.map measure.2))

/-- `main` up to `summary.csv`, on the names of the files in its directory: the swept
key and the lines. -/
def main (pandas : Pandas) (digits : DigitTable) (percentile : List ℚ → ℚ → Except KpiError ℚ)
    (pdbS : ℚ) (files : Files Ip) (dir : Text) (names : List Text) :
    Except MainError (Text × List SummaryLine) := do
  let rows ← (databases dir names).mapM (readRow pandas digits percentile pdbS files)
  let x ← sweptKey rows
  let schemes ← schemeColumn rows
  return (x, (pandas.groupby (keyedRows x schemes rows)).map fun group =>
    ⟨group.1, means pandas group.2⟩)

/-! ## Permuted rows -/

theorem means_congr (pandas : Pandas) {rows others : List SummaryRow} (perm : rows.Perm others) :
    means pandas rows = means pandas others := by
  unfold means
  apply List.map_congr_left
  intro measure _
  rw [pandas.mean_perm (perm.map measure.2)]

/-- What permutes the images of items are the images of permuted items. -/
theorem exists_perm_of_map {Item Value : Type} {value : Item → Value} {items : List Item}
    {values : List Value} (perm : values.Perm (items.map value)) :
    ∃ permuted : List Item, permuted.Perm items ∧ values = permuted.map value := by
  have images : List.Forall₂ (fun image item => image = value item) (items.map value) items := by
    rw [List.forall₂_map_left_iff, List.forall₂_same]
    exact fun _ _ => rfl
  obtain ⟨permuted, matched, permutes⟩ := List.perm_comp_forall₂ perm images
  refine ⟨permuted, permutes, ?_⟩
  rw [← List.forall₂_eq_eq_eq, List.forall₂_map_right_iff]
  exact matched

/-! ## The rows of a sweep -/

section Sweep

variable {preset : Preset} {digits : DigitTable}

/-- The name of a scheme of a preset in the summary. -/
def schemeLabel (s : Text) : Text := if s = ['1'] then "sensing".toList else "random".toList

/-- The key of the summary line of a value and a scheme. -/
def lineKey (digits : DigitTable) (v s : Text) : Text × TagValue :=
  (schemeLabel s, tagValue digits v)

/-- The row of a trial with these indicators. -/
def trialRow (digits : DigitTable) (trial : Trial preset) (kpis : Kpis)
    (sensing : Option SensingKpis) : SummaryRow where
  tags := trial.tag.entries.map fun entry => (entry.1, tagValue digits entry.2)
  kpis := kpis
  sensing := sensing

theorem tags_nodup (trial : Trial preset) (kpis : Kpis) (sensing : Option SensingKpis) :
    ((trialRow digits trial kpis sensing).tags.map Prod.fst).Nodup := by
  have keys : (trialRow digits trial kpis sensing).tags.map Prod.fst =
      trial.tag.entries.map Prod.fst := by
    unfold trialRow
    rw [List.map_map]
    rfl
  rw [keys]
  exact trial.tag.entries_distinct

theorem value?_key (trial : Trial preset) (kpis : Kpis) (sensing : Option SensingKpis) :
    KeyedTable.value? preset.key (trialRow digits trial kpis sensing).tags =
      some (tagValue digits trial.value) := by
  rw [KeyedTable.value?_eq_some_iff (tags_nodup trial kpis sensing)]
  simp [trialRow, Tag.entries, Trial.tag]

theorem value?_scheme (trial : Trial preset) (kpis : Kpis) (sensing : Option SensingKpis) :
    KeyedTable.value? schemeKey (trialRow digits trial kpis sensing).tags =
      some (tagValue digits trial.scheme) := by
  rw [KeyedTable.value?_eq_some_iff (tags_nodup trial kpis sensing)]
  simp [trialRow, Tag.entries, Trial.tag]

/-- The number of a scheme of a preset. -/
def schemeNumber (s : Text) : Int := if s = ['1'] then 1 else 0

theorem schemeInt_trialRow (trial : Trial preset) (kpis : Kpis) (sensing : Option SensingKpis) :
    schemeInt (trialRow digits trial kpis sensing) = .ok (schemeNumber trial.scheme) := by
  have zero : tagValue digits ['0'] = tagValue asciiDigits ['0'] := tagValue_ascii (by decide)
  have one : tagValue digits ['1'] = tagValue asciiDigits ['1'] := tagValue_ascii (by decide)
  have readZero : tagValue asciiDigits ['0'] = .number 0 := by decide +kernel
  have readOne : tagValue asciiDigits ['1'] = .number 1 := by decide +kernel
  unfold schemeInt
  rw [value?_scheme]
  rcases List.mem_cons.mp (preset.schemes_known trial.scheme trial.scheme_mem) with first | other
  · rw [first, zero, readZero]
    rfl
  · rw [List.mem_singleton.mp other, one, readOne]
    rfl

theorem schemeName_schemeNumber (s : Text) : schemeName (schemeNumber s) = .ok (schemeLabel s) := by
  unfold schemeNumber schemeLabel
  split
  next => rfl
  next => rfl

theorem schemeColumn_trials {trials : List (Trial preset)} (some : trials ≠ [])
    (kpisOf : Trial preset → Kpis) (sensingOf : Trial preset → Option SensingKpis) :
    schemeColumn (trials.map fun trial =>
      trialRow digits trial (kpisOf trial) (sensingOf trial)) =
        .ok (trials.map fun trial => schemeLabel trial.scheme) := by
  have present : ((trials.map fun trial => trialRow digits trial (kpisOf trial)
      (sensingOf trial)).all fun row => (KeyedTable.value? schemeKey row.tags).isNone) = false := by
    obtain ⟨trial, member⟩ := List.exists_mem_of_ne_nil _ some
    rw [List.all_eq_false]
    refine ⟨_, List.mem_map_of_mem member, ?_⟩
    rw [value?_scheme]
    exact Bool.false_ne_true
  have ints : (trials.map fun trial => trialRow digits trial (kpisOf trial)
      (sensingOf trial)).mapM schemeInt =
        .ok (trials.map fun trial => schemeNumber trial.scheme) := by
    rw [List.mapM_map]
    apply KeyedTable.mapM_ok
    intro trial _
    exact schemeInt_trialRow trial _ _
  have names : (trials.map fun trial => schemeNumber trial.scheme).mapM schemeName =
      .ok (trials.map fun trial => schemeLabel trial.scheme) := by
    rw [List.mapM_map]
    apply KeyedTable.mapM_ok
    intro trial _
    exact schemeName_schemeNumber trial.scheme
  unfold schemeColumn
  rw [present]
  simp only [ints, bind, Except.bind]
  exact names

theorem keyedRows_trials (digits : DigitTable) (trials : List (Trial preset))
    (kpisOf : Trial preset → Kpis) (sensingOf : Trial preset → Option SensingKpis) :
    keyedRows preset.key (trials.map fun trial => schemeLabel trial.scheme)
      (trials.map fun trial => trialRow digits trial (kpisOf trial) (sensingOf trial)) =
        trials.map fun trial => (lineKey digits trial.value trial.scheme,
          trialRow digits trial (kpisOf trial) (sensingOf trial)) := by
  unfold keyedRows
  rw [List.zip_map', List.filterMap_map, ← List.filterMap_eq_map']
  apply List.filterMap_congr
  intro trial _
  simp only [Function.comp_apply, value?_key]
  rfl

/-- Two values or schemes of a preset have different lines. -/
theorem lineKey_inj {v w s t : Text} (vMember : v ∈ preset.values) (wMember : w ∈ preset.values)
    (sMember : s ∈ preset.schemes) (tMember : t ∈ preset.schemes) :
    lineKey digits v s = lineKey digits w t ↔ v = w ∧ s = t := by
  constructor
  · intro same
    obtain ⟨labels, values⟩ := Prod.mk.inj same
    constructor
    · have ascii : ∀ value ∈ preset.values, tagValue digits value = tagValue asciiDigits value :=
        fun value member => tagValue_ascii (preset.values_ascii value member)
      rw [ascii v vMember, ascii w wMember] at values
      exact List.inj_on_of_nodup_map preset.values_distinct vMember wMember values
    · have apart : ∀ left ∈ [['0'], ['1']], ∀ right ∈ [['0'], ['1']],
          schemeLabel left = schemeLabel right → left = right := by decide +kernel
      exact apart s (preset.schemes_known s sMember) t (preset.schemes_known t tMember) labels
  · intro same
    rw [same.1, same.2]

theorem sweptKey_trialRow (trial : Trial preset) (kpis : Kpis) (sensing : Option SensingKpis)
    (rows : List SummaryRow) :
    sweptKey (trialRow digits trial kpis sensing :: rows) = .ok preset.key := by
  have first : ((trialRow digits trial kpis sensing).tags.map Prod.fst).find?
      (fun k => k ≠ schemeKey ∧ k ≠ runKey) = some preset.key := by
    have fresh := preset.key_fresh
    simp only [List.mem_cons, List.not_mem_nil, or_false, not_or] at fresh
    exact List.find?_cons_of_pos (decide_eq_true fresh)
  simp only [sweptKey, first]

/-- Beside each database is the trace of the same run. -/
theorem sensingPath_dbName (dir simTag : Text) :
    sensingPath (joinPath dir (dbName simTag)) =
      joinPath dir (exampleName simTag ++ "-sensing.csv".toList) := by
  have cut : ∀ front : Text, sensingPath (front ++ ['.', 'd', 'b']) =
      front ++ "-sensing.csv".toList := by
    intro front
    unfold sensingPath
    have length : (front ++ ['.', 'd', 'b']).length - 3 = front.length := by simp
    rw [length, List.take_left]
  have name : dbName simTag = exampleName simTag ++ ['.', 'd', 'b'] := rfl
  unfold joinPath
  split
  next => rw [name, ← List.append_assoc, cut, List.append_assoc]
  next =>
    rw [name, ← List.cons_append, ← List.append_assoc, cut, List.append_assoc, List.cons_append]

theorem db_suffix_of_listed {name : Text} (isListed : listed name = true) :
    ['.', 'd', 'b'] <:+ name := by
  have pattern : "*.db".toList = '*' :: ['.', 'd', 'b'] := rfl
  unfold listed at isListed
  rw [pattern, Glob.matchesName_ending (by simp [Glob.Plain])] at isListed
  obtain ⟨⟨middle, -, nameEq⟩, -⟩ := isListed
  rw [nameEq]
  exact List.suffix_append middle _

theorem listed_dbName (trial : Trial preset) : listed (dbName trial.tag.text) = true := by
  rw [listed_dbName_iff]
  have starts : trial.tag.text.head? = preset.key.head? := by
    have text : trial.tag.text = preset.key ++ ('=' :: trial.value ++
        '_' :: (itemText (schemeKey, trial.scheme) ++ '_' :: itemText (runKey, trial.run))) := by
      simp [Tag.text, Tag.entries, Trial.tag, itemText]
    rw [text, List.head?_append_of_ne_nil _ preset.key_word.1]
  rw [starts]
  exact preset.key_visible

/-- In a directory that a campaign has filled from nothing with the results of all
trials of its sweeps, the databases are those of these trials. -/
theorem perm_databases {presetName : Text} {maxProcs : Nat} {compgen : Order} {moves : List Move}
    {state : Campaign} (known : presetOf presetName = some preset)
    (ran : Run.run (step presetName maxProcs compgen) ⟨[], [], []⟩ moves = .ok state)
    {runs : Runs} (swept : ∀ again, .sweep again ∈ moves → ∀ r ∈ again.numbers, r ∈ runs.numbers)
    (finished : ∀ trial ∈ preset.trials runs, HasResult state.out trial.tag)
    {names : List Text}
    (directory : (names.filter listed).Perm ((state.out.map Prod.fst).filter listed)) (dir : Text) :
    (databases dir names).Perm
      ((preset.trials runs).map fun trial => joinPath dir (dbName trial.tag.text)) := by
  obtain ⟨clean, attributed⟩ := databases_of_campaign known ran swept
  have written : ((state.out.map Prod.fst).filter listed).Perm
      ((preset.trials runs).map fun trial => dbName trial.tag.text) := by
    have injective : Function.Injective fun trial : Trial preset => dbName trial.tag.text := by
      intro left right same
      have names : dbName left.tag.text = dbName right.tag.text := same
      rw [dbName_eq, dbName_eq, List.append_cancel_right_eq] at names
      exact Trial.tag_injective (Tag.text_injective names)
    rw [List.perm_ext_iff_of_nodup (clean.distinct.filter _) ((trials_nodup runs).map injective)]
    intro name
    constructor
    · intro found
      obtain ⟨member, isListed⟩ := List.mem_filter.mp found
      obtain ⟨trial, inRuns, rfl⟩ := attributed name member (db_suffix_of_listed isListed)
      exact List.mem_map.mpr ⟨trial, mem_trials.mpr inRuns, rfl⟩
    · intro made
      obtain ⟨trial, member, rfl⟩ := List.mem_map.mp made
      obtain ⟨content, -, inOut⟩ := finished trial member
      exact List.mem_filter.mpr ⟨List.mem_map_of_mem inOut, listed_dbName trial⟩
  unfold databases
  apply (List.mergeSort_perm _ _).trans
  have joined := (directory.trans written).map (joinPath dir)
  rwa [List.map_map] at joined

variable {Ip : Type} [DecidableEq Ip]

/-- The lines of a table with the rows of these trials. -/
theorem lines_of_trials (pandas : Pandas) {trials : List (Trial preset)} (some : trials ≠ [])
    {kpisOf : Trial preset → Kpis} {sensingOf : Trial preset → Option SensingKpis}
    {percentile : List ℚ → ℚ → Except KpiError ℚ} {pdbS : ℚ} {files : Files Ip} {dir : Text}
    {names : List Text}
    (read : (databases dir names).mapM (readRow pandas digits percentile pdbS files) =
      .ok (trials.map fun trial => trialRow digits trial (kpisOf trial) (sensingOf trial))) :
    main pandas digits percentile pdbS files dir names = .ok (preset.key,
      (pandas.groupby (trials.map fun trial => (lineKey digits trial.value trial.scheme,
        trialRow digits trial (kpisOf trial) (sensingOf trial)))).map fun group =>
          ⟨group.1, means pandas group.2⟩) := by
  have key : sweptKey (trials.map fun trial =>
      trialRow digits trial (kpisOf trial) (sensingOf trial)) = .ok preset.key := by
    obtain ⟨first, rest, rfl⟩ := List.exists_cons_of_ne_nil some
    exact sweptKey_trialRow first _ _ _
  have schemes : schemeColumn (trials.map fun trial => trialRow digits trial (kpisOf trial)
      (sensingOf trial)) = _ := schemeColumn_trials some kpisOf sensingOf
  have keyed := keyedRows_trials digits trials kpisOf sensingOf
  unfold main
  simp only [read, bind, Except.bind, key, schemes, keyed]
  rfl

/-- When `sweep.sh` has filled an empty directory, in whatever sweeps, interleavings
and interruptions, until every trial of the run numbers has its database, and `kpi.py`
can read the databases and traces, then the summary has exactly one line for each
value and each scheme of the preset, under the name of the scheme and the value as a
number where it is one. The means of a line are over the runs of its configuration,
each once, and over nothing else; the order in which files were written or listed
does not matter. -/
theorem summary_of_sweeps {preset : Preset} {presetName : Text}
    (known : presetOf presetName = some preset) (maxProcs : Nat) (compgen : Order)
    {moves : List Move} {state : Campaign}
    (ran : Run.run (step presetName maxProcs compgen) ⟨[], [], []⟩ moves = .ok state)
    {runs : Runs}
    (swept : ∀ again, .sweep again ∈ moves → ∀ r ∈ again.numbers, r ∈ runs.numbers)
    (finished : ∀ trial ∈ preset.trials runs, HasResult state.out trial.tag)
    (pandas : Pandas) (digits : DigitTable) (percentile : List ℚ → ℚ → Except KpiError ℚ)
    (pdbS : ℚ) {files : Files Ip} {dir : Text} {names : List Text}
    (directory : (names.filter listed).Perm ((state.out.map Prod.fst).filter listed))
    {kpisOf : Trial preset → Kpis} {sensingOf : Trial preset → Option SensingKpis}
    (readable : ∀ trial ∈ preset.trials runs,
      kpis percentile (files.database (joinPath dir (dbName trial.tag.text))) pdbS =
          .ok (kpisOf trial) ∧
        sensing pandas (files.trace
          (joinPath dir (exampleName trial.tag.text ++ "-sensing.csv".toList))) =
            .ok (sensingOf trial)) :
    ∃ lines, main pandas digits percentile pdbS files dir names = .ok (preset.key, lines) ∧
      (lines.map SummaryLine.key).Nodup ∧
      ∀ line, line ∈ lines ↔ ∃ v ∈ preset.values, ∃ s ∈ preset.schemes,
        line = ⟨lineKey digits v s, means pandas (((preset.trials runs).filter fun trial =>
          trial.value = v ∧ trial.scheme = s).map fun trial =>
            trialRow digits trial (kpisOf trial) (sensingOf trial))⟩ := by
  obtain ⟨trials, perm, databasesEq⟩ :=
    exists_perm_of_map (perm_databases known ran swept finished directory dir)
  have read : (databases dir names).mapM (readRow pandas digits percentile pdbS files) =
      .ok (trials.map fun trial => trialRow digits trial (kpisOf trial) (sensingOf trial)) := by
    rw [databasesEq, List.mapM_map]
    apply KeyedTable.mapM_ok
    intro trial member
    obtain ⟨kpisEq, sensingEq⟩ := readable trial (perm.mem_iff.mp member)
    show readRow pandas digits percentile pdbS files (joinPath dir (dbName trial.tag.text)) = _
    simp only [readRow, readTags_dbName, sensingPath_dbName, kpisEq, sensingEq, bind, Except.bind,
      Except.mapError]
    rfl
  have trialOf : ∀ v ∈ preset.values, ∀ s ∈ preset.schemes,
      ∃ trial ∈ trials, trial.value = v ∧ trial.scheme = s := by
    intro v vMember s sMember
    obtain ⟨r, rMember⟩ := List.exists_mem_of_ne_nil _ runs.some_number
    refine ⟨⟨v, s, r, vMember, sMember, runs.number_ne_nil r rMember,
      runs.number_digits r rMember⟩, ?_, rfl, rfl⟩
    exact perm.mem_iff.mpr (mem_trials.mpr rMember)
  have some : trials ≠ [] := by
    obtain ⟨v, vMember⟩ := List.exists_mem_of_ne_nil _ preset.some_value
    obtain ⟨s, sMember⟩ := List.exists_mem_of_ne_nil _ preset.some_scheme
    obtain ⟨trial, member, -⟩ := trialOf v vMember s sMember
    exact List.ne_nil_of_mem member
  -- the rows with the key of a configuration are those of its runs
  have meansEq : ∀ v ∈ preset.values, ∀ s ∈ preset.schemes,
      means pandas ((trials.filter fun trial => lineKey digits trial.value trial.scheme =
          lineKey digits v s).map fun trial =>
            trialRow digits trial (kpisOf trial) (sensingOf trial)) =
        means pandas (((preset.trials runs).filter fun trial =>
          trial.value = v ∧ trial.scheme = s).map fun trial =>
            trialRow digits trial (kpisOf trial) (sensingOf trial)) := by
    intro v vMember s sMember
    have sameTrials : ∀ trial ∈ trials, decide (lineKey digits trial.value trial.scheme =
        lineKey digits v s) = decide (trial.value = v ∧ trial.scheme = s) := by
      intro trial _
      apply decide_eq_decide.mpr
      exact lineKey_inj trial.value_mem vMember trial.scheme_mem sMember
    rw [List.filter_congr sameTrials]
    exact means_congr pandas ((perm.filter _).map _)
  refine ⟨_, lines_of_trials pandas some read, ?_, ?_⟩
  · rw [List.map_map]
    exact (pandas.groupby_rows _).distinct
  · intro line
    rw [List.mem_map]
    constructor
    · intro made
      obtain ⟨group, member, rfl⟩ := made
      obtain ⟨trial, -, rfl⟩ := (pandas.groupby_rows _).mem_iff_of_map.mp member
      refine ⟨trial.value, trial.value_mem, trial.scheme, trial.scheme_mem, ?_⟩
      rw [meansEq trial.value trial.value_mem trial.scheme trial.scheme_mem]
    · intro described
      obtain ⟨v, vMember, s, sMember, rfl⟩ := described
      obtain ⟨trial, member, rfl, rfl⟩ := trialOf v vMember s sMember
      refine ⟨_, (pandas.groupby_rows _).mem_iff_of_map.mpr ⟨trial, member, rfl⟩, ?_⟩
      rw [meansEq trial.value vMember trial.scheme sMember]

/-- Two nodes, and one packet between them after that many seconds. -/
def onePacket (latency : ℚ) : Database Nat where
  pktTxRx := [⟨1, .tx, 0, 1, 0⟩, ⟨1 + latency, .rx, 1, 1, 0⟩, ⟨2, .tx, 1, 2, 0⟩]
  avrgPir := [1 / 10]
  simulPsschTx := [⟨0, 2⟩]
  psschTbRx := [⟨1, 2⟩]

/-- Of one value every percentile is that value. -/
def percentileOfOne (values : List ℚ) (_ : ℚ) : Except KpiError ℚ :=
  match values with
  | [value] => .ok value
  | _ => .error .indexError

/-- `RUNS="1 2"`. -/
def twoRuns : Runs where
  numbers := [['1'], ['2']]
  some_number := by decide
  number_ne_nil := by decide
  number_digits := by simp [Char.isDigit]
  distinct := by decide

/-- The indicators of a packet that takes that many milliseconds. -/
def indicatorsAt (latencyMs : ℚ) : Kpis :=
  ⟨1 / 2, some 100, some 0, 1 / 2, latencyMs, latencyMs, some 1⟩

/-- The packet takes 10 ms in the first run and 20 ms in the second. -/
def latencyMs (trial : Trial robotsPdb) : ℚ := if trial.run = ['1'] then 10 else 20

/-- The databases of `robots-pdb` in the directory `results`. -/
def pdbFiles : Files Nat where
  database path :=
    match (robotsPdb.trials twoRuns).find? fun trial =>
      joinPath "results".toList (dbName trial.tag.text) = path with
    | some trial => onePacket (latencyMs trial / 1000)
    | none => onePacket 1
  trace _ := none

/-- The ten trials of `robots-pdb` for two runs, one after the other, summarised: the
latency of a line is the mean over its two runs. -/
theorem summary_of_sweeps_twoRuns :
    let moves : List Move := (robotsPdb.trials twoRuns).flatMap fun trial =>
      [.runOne, .write trial.simulation (dbName trial.tag.text) (some ['x']),
        .exit trial.simulation]
    let out : Directory := (robotsPdb.trials twoRuns).map fun trial =>
      (dbName trial.tag.text, ['x'])
    Run.run (step "robots-pdb".toList 1 asWritten) ⟨[], [], []⟩ (.sweep twoRuns :: moves) =
        .ok ⟨out, [], []⟩ ∧
      ∃ lines, main .documented asciiDigits percentileOfOne (20 / 1000) pdbFiles
          "results".toList (out.map Prod.fst) = .ok (robotsPdb.key, lines) ∧
        (lines.map SummaryLine.key).Nodup ∧
        ∃ line ∈ lines, line.key = ("sensing".toList, .text "stock".toList) ∧
          ("lat_p50_ms".toList, Number.finite 15) ∈ line.means := by
  intro moves out
  have ran : Run.run (step "robots-pdb".toList 1 asWritten) ⟨[], [], []⟩
      (.sweep twoRuns :: moves) = .ok ⟨out, [], []⟩ := by
    decide +kernel
  have swept : ∀ again, .sweep again ∈ .sweep twoRuns :: moves →
      ∀ r ∈ again.numbers, r ∈ twoRuns.numbers := by
    intro again member
    rcases List.mem_cons.mp member with same | later
    · rw [Move.sweep.inj same]
      exact fun _ => id
    · obtain ⟨trial, -, isMove⟩ := List.mem_flatMap.mp later
      simp at isMove
  have finished : ∀ trial ∈ robotsPdb.trials twoRuns, HasResult out trial.tag := by
    intro trial member
    exact ⟨['x'], List.cons_ne_nil _ _, List.mem_map_of_mem member⟩
  have readable : ∀ trial ∈ robotsPdb.trials twoRuns,
      kpis percentileOfOne (pdbFiles.database (joinPath "results".toList (dbName trial.tag.text)))
          (20 / 1000) = .ok (indicatorsAt (latencyMs trial)) ∧
        sensing .documented (pdbFiles.trace (joinPath "results".toList
          (exampleName trial.tag.text ++ "-sensing.csv".toList))) = .ok none := by
    decide +kernel
  have known : presetOf "robots-pdb".toList = some robotsPdb := rfl
  obtain ⟨lines, linesEq, distinct, content⟩ := summary_of_sweeps known 1 asWritten ran swept
    finished .documented asciiDigits percentileOfOne (20 / 1000) (List.Perm.refl _) readable
  refine ⟨ran, lines, linesEq, distinct, _,
    (content _).mpr ⟨"stock".toList, by decide, ['1'], by decide, rfl⟩, ?_, ?_⟩
  · decide +kernel
  · decide +kernel

end Sweep

end Sidewalk.Analysis
