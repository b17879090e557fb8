import Mathlib.Data.List.Nodup
import Sidewalk.Sweep.RoundTrip

/-!
Owns the presets of `sweep.sh`: the values, schemes and options of each, and the
job lines that `jobs` prints for the run numbers of `$RUNS`. A preset carries what
makes its tags tags: its key and values are words, no two values are read as the
same by `kpi.py`, and its schemes are those `kpi.py` knows. The results of this
module say that the lines of a sweep are those of pairwise different tags, one for
each value, scheme and run.

Does not own what the options mean to the simulation.
-/

set_option autoImplicit false

namespace Sidewalk.Sweep

open Sidewalk.Foundation Sidewalk.Protocol Sidewalk.Analysis

/-! ## The script -/

/-- The words of an unquoted list. -/
def words (text : String) : List Text := text.toList.splitOn ' '

/-- The second key of every tag. -/
def schemeKey : Text := "scheme".toList

/-- `$ROBOTS`. -/
def robots : Text := "./build/contrib/sidewalk/examples/ns3.42-sidewalk-robots-optimized".toList

/-- The words of `$RUNS`: at least one run number, as an unset or empty variable stands
for 1 to 5, and none of them twice. -/
structure Runs where
  numbers : List Text
  some_number : numbers ≠ []
  number_ne_nil : ∀ r ∈ numbers, r ≠ []
  number_digits : ∀ r ∈ numbers, ∀ c ∈ r, c.isDigit = true
  distinct : numbers.Nodup

/-- One branch of `jobs`: loops over the values of its key, the schemes and the
runs, with the options that a value and a scheme give. -/
structure Preset where
  key : Text
  values : List Text
  schemes : List Text
  options : Text → Text → Text
  key_word : Word key
  key_fresh : key ∉ [schemeKey, runKey]
  key_visible : key.head? ≠ some '.'
  some_value : values ≠ []
  some_scheme : schemes ≠ []
  values_words : ∀ v ∈ values, Word v
  values_ascii : ∀ v ∈ values, Ascii v
  values_distinct : (values.map (tagValue asciiDigits)).Nodup
  schemes_known : ∀ s ∈ schemes, s ∈ [['0'], ['1']]
  schemes_distinct : schemes.Nodup

/-- `--numRobots=20 --msgPeriod=20 --enableSensing=$s`. -/
def twentyRobots (s : Text) : Text :=
  " --numRobots=20 --msgPeriod=20 --enableSensing=".toList ++ s

/-- The options of the tuned configuration. -/
def tuned : Text :=
  " --slMaxTxTransNumPssch=1 --slSubchannelSize=10 --numerologyBwpSl=1".toList

/-- `${CFG[$c]}`. -/
def configOf (cfg : List (String × String)) (c : Text) : Text :=
  (((cfg.map fun entry => (entry.1.toList, entry.2.toList)).lookup c).getD [])

def robotsDensity : Preset where
  key := "nodes".toList
  values := words "5 10 20 40"
  schemes := words "0 1"
  options n s := " --numRobots=".toList ++ n ++ " --enableSensing=".toList ++ s
  key_word := by decide
  key_fresh := by decide
  key_visible := by decide
  some_value := by decide
  some_scheme := by decide
  values_words := by decide
  values_ascii := by decide
  values_distinct := by decide +kernel
  schemes_known := by decide
  schemes_distinct := by decide

def robotsPeriod : Preset where
  key := "period".toList
  values := words "20 40 100"
  schemes := words "0 1"
  options p s := " --numRobots=20 --msgPeriod=".toList ++ p ++ " --enableSensing=".toList ++ s
  key_word := by decide
  key_fresh := by decide
  key_visible := by decide
  some_value := by decide
  some_scheme := by decide
  values_words := by decide
  values_ascii := by decide
  values_distinct := by decide +kernel
  schemes_known := by decide
  schemes_distinct := by decide

/-- `CFG` of `robots-tuning`. -/
def tuningConfigs : List (String × String) :=
  [("default", ""),
    ("retx1", "--slMaxTxTransNumPssch=1"),
    ("retx2", "--slMaxTxTransNumPssch=2"),
    ("retx2-sub10", "--slMaxTxTransNumPssch=2 --slSubchannelSize=10"),
    ("retx1-sub10-mu1", "--slMaxTxTransNumPssch=1 --slSubchannelSize=10 --numerologyBwpSl=1"),
    ("retx2-sub10-mu1", "--slMaxTxTransNumPssch=2 --slSubchannelSize=10 --numerologyBwpSl=1")]

def robotsTuning : Preset where
  key := "config".toList
  values := words "default retx1 retx2 retx2-sub10 retx1-sub10-mu1 retx2-sub10-mu1"
  schemes := words "0 1"
  options c s := twentyRobots s ++ ' ' :: configOf tuningConfigs c
  key_word := by decide
  key_fresh := by decide
  key_visible := by decide
  some_value := by decide
  some_scheme := by decide
  values_words := by decide
  values_ascii := by decide
  values_distinct := by decide +kernel
  schemes_known := by decide
  schemes_distinct := by decide

def robotsScheduler : Preset where
  key := "fraction".toList
  values := words "1.0 0.5 0.25 0.1 0.0"
  schemes := words "0 1"
  options f s := twentyRobots s ++ tuned ++ " --slotFraction=".toList ++ f
  key_word := by decide
  key_fresh := by decide
  key_visible := by decide
  some_value := by decide
  some_scheme := by decide
  values_words := by decide
  values_ascii := by decide
  values_distinct := by decide +kernel
  schemes_known := by decide
  schemes_distinct := by decide

/-- `CFG` of `robots-pdb`. -/
def pdbConfigs : List (String × String) :=
  [("stock", ""),
    ("pdb10", "--pdb=10"),
    ("pdb5", "--pdb=5"),
    ("frac0.1", "--slotFraction=0.1"),
    ("pdb5-frac0.1", "--pdb=5 --slotFraction=0.1")]

/-- The preset without a loop over the schemes: sensing is on. -/
def robotsPdb : Preset where
  key := "config".toList
  values := words "stock pdb10 pdb5 frac0.1 pdb5-frac0.1"
  schemes := words "1"
  options c s := twentyRobots s ++ tuned ++ ' ' :: configOf pdbConfigs c
  key_word := by decide
  key_fresh := by decide
  key_visible := by decide
  some_value := by decide
  some_scheme := by decide
  values_words := by decide
  values_ascii := by decide
  values_distinct := by decide +kernel
  schemes_known := by decide
  schemes_distinct := by decide

/-- The line echoed for a value, a scheme and a run. -/
def Preset.line (preset : Preset) (v s r : Text) : Text :=
  preset.key ++ '=' :: (v ++ "_scheme=".toList ++ s ++ "_run=".toList ++ r) ++
    '|' :: (robots ++ preset.options v s)

/-- What a branch of `jobs` echoes. -/
def Preset.lines (preset : Preset) (runs : Runs) : List Text :=
  preset.values.flatMap fun v => preset.schemes.flatMap fun s =>
    runs.numbers.map fun r => preset.line v s r

/-- The branches of `jobs` by the name of the preset. -/
def presetOf (name : Text) : Option Preset :=
  if name = "robots-density".toList then some robotsDensity
  else if name = "robots-period".toList then some robotsPeriod
  else if name = "robots-tuning".toList then some robotsTuning
  else if name = "robots-scheduler".toList then some robotsScheduler
  else if name = "robots-pdb".toList then some robotsPdb
  else none

/-- `jobs`: the lines it prints, and whether it exits with status 1. -/
def jobs (name : Text) (runs : Runs) : List Text × Bool :=
  match presetOf name with
  | some preset => (preset.lines runs, false)
  | none => (["unknown preset ".toList ++ name], true)

example : robotsTuning.line "default".toList ['1'] ['3'] =
    ("config=default_scheme=1_run=3|./build/contrib/sidewalk/examples/" ++
      "ns3.42-sidewalk-robots-optimized --numRobots=20 --msgPeriod=20 " ++
      "--enableSensing=1 ").toList := by
  decide +kernel

/-! ## Trials -/

variable {preset : Preset}

/-- A value, a scheme and a run number of a preset. -/
structure Trial (preset : Preset) where
  value : Text
  scheme : Text
  run : Text
  value_mem : value ∈ preset.values
  scheme_mem : scheme ∈ preset.schemes
  run_ne_nil : run ≠ []
  run_digits : ∀ c ∈ run, c.isDigit = true
deriving DecidableEq

/-- The trials of a sweep, in the order of the loops. -/
def Preset.trials (preset : Preset) (runs : Runs) : List (Trial preset) :=
  preset.values.attach.flatMap fun v => preset.schemes.attach.flatMap fun s =>
    runs.numbers.attach.map fun r =>
      { value := v.1
        scheme := s.1
        run := r.1
        value_mem := v.2
        scheme_mem := s.2
        run_ne_nil := runs.number_ne_nil r.1 r.2
        run_digits := runs.number_digits r.1 r.2 }

namespace Trial

/-- The line of a trial. -/
def line (trial : Trial preset) : Text := preset.line trial.value trial.scheme trial.run

/-- What stands after the tag in the line of a trial. -/
def command (trial : Trial preset) : Text := robots ++ preset.options trial.value trial.scheme

theorem scheme_word (trial : Trial preset) : Word trial.scheme := by
  have known := preset.schemes_known trial.scheme trial.scheme_mem
  rcases List.mem_cons.mp known with zero | other
  · rw [zero]
    decide
  · rw [List.mem_singleton.mp other]
    decide

/-- The tag of a trial. -/
def tag (trial : Trial preset) : Tag where
  items := [(preset.key, trial.value), (schemeKey, trial.scheme)]
  run := trial.run
  someItem := List.cons_ne_nil _ _
  words := by
    intro item member
    rcases List.mem_cons.mp member with first | second
    · rw [first]
      exact ⟨preset.key_word, preset.values_words trial.value trial.value_mem⟩
    · rw [List.mem_singleton.mp second]
      exact ⟨(by decide : Word schemeKey), trial.scheme_word⟩
  distinct := by
    have fresh := preset.key_fresh
    have others : schemeKey ≠ runKey := by decide
    simp only [List.mem_cons, List.not_mem_nil, or_false, not_or] at fresh
    simp [fresh.1, fresh.2, others]
  run_ne_nil := trial.run_ne_nil
  run_digits := trial.run_digits

theorem line_eq (trial : Trial preset) : trial.line = trial.tag.text ++ '|' :: trial.command := by
  have separator : "_scheme=".toList = '_' :: (schemeKey ++ ['=']) := by decide
  have last : "_run=".toList = '_' :: (runKey ++ ['=']) := by decide
  unfold line Preset.line Tag.text Tag.entries tag command
  rw [separator, last]
  simp [itemText]

theorem tag_injective : Function.Injective (tag : Trial preset → Tag) := by
  intro left right same
  have items := congrArg Tag.items same
  have run : left.run = right.run := congrArg Tag.run same
  simp only [tag, List.cons.injEq, Prod.mk.injEq, true_and, and_true] at items
  cases left
  cases right
  simp_all

end Trial

theorem mem_trials {runs : Runs} {trial : Trial preset} :
    trial ∈ preset.trials runs ↔ trial.run ∈ runs.numbers := by
  unfold Preset.trials
  simp only [List.mem_flatMap, List.mem_map, List.mem_attach, true_and, Subtype.exists]
  constructor
  · intro looped
    obtain ⟨v, valueMember, s, schemeMember, r, runMember, same⟩ := looped
    rw [← same]
    exact runMember
  · intro member
    exact ⟨trial.value, trial.value_mem, trial.scheme, trial.scheme_mem, trial.run, member, rfl⟩

theorem trials_nodup (runs : Runs) : (preset.trials runs).Nodup := by
  have distinctValues := List.nodup_attach.mpr preset.values_distinct.of_map
  have distinctSchemes := List.nodup_attach.mpr preset.schemes_distinct
  have distinctRuns := List.nodup_attach.mpr runs.distinct
  unfold Preset.trials
  rw [List.nodup_flatMap]
  constructor
  · intro v _
    rw [List.nodup_flatMap]
    constructor
    · intro s _
      apply distinctRuns.map
      intro left right same
      exact Subtype.ext (congrArg Trial.run same)
    · apply distinctSchemes.imp
      intro left right different trial inLeft inRight
      obtain ⟨r, -, rfl⟩ := List.mem_map.mp inLeft
      obtain ⟨other, -, same⟩ := List.mem_map.mp inRight
      exact different (Subtype.ext (congrArg Trial.scheme same).symm)
  · apply distinctValues.imp
    intro left right different trial inLeft inRight
    simp only [List.mem_flatMap, List.mem_map] at inLeft inRight
    obtain ⟨s, -, r, -, rfl⟩ := inLeft
    obtain ⟨otherScheme, -, otherRun, -, same⟩ := inRight
    exact different (Subtype.ext (congrArg Trial.value same).symm)

theorem flatMap_attach {Item Other : Type} (items : List Item) (f : Item → List Other) :
    (items.attach.flatMap fun item => f item.1) = items.flatMap f := by
  conv_rhs => rw [← List.attach_map_subtype_val items, List.flatMap_map]

/-- The lines of a sweep are those of its trials. -/
theorem lines_eq (runs : Runs) : preset.lines runs = (preset.trials runs).map Trial.line := by
  unfold Preset.lines Preset.trials
  rw [List.map_flatMap, ← flatMap_attach]
  congr 1
  funext v
  rw [List.map_flatMap, ← flatMap_attach]
  congr 1
  funext s
  rw [List.map_map]
  conv_lhs => rw [← List.attach_map_subtype_val runs.numbers, List.map_map]
  rfl

end Sidewalk.Sweep
