import Sidewalk.Foundation.WorkPool
import Sidewalk.Sweep.Presets

/-!
Owns whole campaigns of `sweep.sh` on one results directory: sweeps with any run
numbers, `xargs` handing the job lines to at most `$JOBS` processes, simulations
that write, replace and remove their files in any interleaving, and interruptions
at any moment. Every run of this machine is one of a pool of workers, so results
of the library of pools carry over.

Does not own what a simulation writes: it may write anything to the files of its
tag. A sweep is started only when nothing of an earlier one runs, and an interruption
ends all simulations at once. The order in which `compgen` lists names is a parameter.
-/

set_option autoImplicit false

namespace Sidewalk.Sweep

open Sidewalk.Foundation Sidewalk.Protocol

/-! ## The results directory -/

/-- The files of `$OUT` with their contents. -/
abbrev Directory : Type := List (Text × Text)

/-- The order in which `compgen` lists files. -/
structure Order where
  list : Listing → Listing
  perm : ∀ listing, (list listing).Perm listing

/-- The sizes of the files. -/
def sizes (out : Directory) : Listing := out.map fun file => (file.1, file.2.length)

/-- The names a job writes to: those of its outputs and, while SQLite is in a
transaction, its journal. -/
def jobFiles (simTag : Text) : List Text := outputs simTag ++ [dbName simTag ++ "-journal".toList]

/-- A file is written, or removed when there is no content. -/
def setFile (name : Text) (content : Option Text) (out : Directory) : Directory :=
  match content with
  | some content => KeyedTable.assign name content out
  | none => KeyedTable.erase name out

/-! ## `xargs` and the simulations -/

/-- A process that `run_one` started. -/
structure Simulation where
  cmd : Text
  rngRun : Text
  simTag : Text
deriving DecidableEq

/-- The directory, the lines `xargs` has not handed out, and the simulations that
run. -/
structure Campaign where
  out : Directory
  lines : List Text
  running : List Simulation
deriving DecidableEq

/-- What can happen. -/
inductive Move where
  /-- `sweep.sh` is started with these run numbers -/
  | sweep (runs : Runs)
  /-- `xargs` hands the next line to `run_one` -/
  | runOne
  /-- a simulation writes or removes one of its files -/
  | write (simulation : Simulation) (name : Text) (content : Option Text)
  /-- a simulation ends, whatever its exit status -/
  | exit (simulation : Simulation)
  /-- everything is killed -/
  | interrupt

/-- `xargs -P`: zero stands for any number. -/
def mayStart (maxProcs count : Nat) : Bool := maxProcs = 0 || count < maxProcs

/-- One move of the campaign of a preset. -/
def step (presetName : Text) (maxProcs : Nat) (compgen : Order) (campaign : Campaign) :
    Move → Except Unit Campaign
  | .sweep runs =>
      if campaign.lines = [] ∧ campaign.running = [] then
        .ok { campaign with lines := (jobs presetName runs).1 }
      else .error ()
  | .runOne =>
      match campaign.lines with
      | [] => .error ()
      | line :: rest =>
          if mayStart maxProcs campaign.running.length then
            match runOne (compgen.list (sizes campaign.out)) line with
            | .skipped => .ok { campaign with lines := rest }
            | .started cmd rngRun simTag =>
                .ok { campaign with
                  lines := rest
                  running := ⟨cmd, rngRun, simTag⟩ :: campaign.running }
          else .error ()
  | .write simulation name content =>
      if simulation ∈ campaign.running ∧ name ∈ jobFiles simulation.simTag then
        .ok { campaign with out := setFile name content campaign.out }
      else .error ()
  | .exit simulation =>
      if simulation ∈ campaign.running then
        .ok { campaign with running := campaign.running.erase simulation }
      else .error ()
  | .interrupt => .ok { campaign with lines := [], running := [] }

/-- The lines handed out, each with whether its job was skipped. -/
def handedOut (compgen : Order) (campaign : Campaign) : Move → List (Text × Bool)
  | .runOne => (campaign.lines.take 1).map fun line =>
      (line, runOne (compgen.list (sizes campaign.out)) line = .skipped)
  | _ => []

/-- Whether a simulation that ends has written its database. -/
def wroteDatabase (campaign : Campaign) : Move → List Bool
  | .exit simulation =>
      [campaign.out.any fun file => file.1 = dbName simulation.simTag && !file.2.isEmpty]
  | _ => []

/-- Names are distinct, and every database is that of a tag. -/
structure Clean (out : Directory) : Prop where
  distinct : (out.map Prod.fst).Nodup
  databases : ∀ name ∈ out.map Prod.fst, ['.', 'd', 'b'] <:+ name →
    ∃ writer : Tag, name = dbName writer.text

/-- The database of a tag is there and not empty. -/
def HasResult (out : Directory) (tag : Tag) : Prop :=
  ∃ content, content ≠ [] ∧ (dbName tag.text, content) ∈ out

/-! ## Files of different jobs -/

variable {tag other : Tag} {name : Text}

/-- What follows the tag in the names of the files of a job. -/
def suffixes : List Text :=
  ["-sidewalk-robots.db".toList, "-sidewalk-robots-sensing.csv".toList, ".log".toList,
    "-sidewalk-robots.db-journal".toList]

theorem jobFiles_eq (simTag : Text) : jobFiles simTag = suffixes.map (simTag ++ ·) := by
  simp [jobFiles, outputs, dbName, exampleName, suffixes]

/-- No suffix ends another one. -/
theorem suffixes_apart : ∀ left ∈ suffixes, ∀ right ∈ suffixes, left <:+ right → left = right := by
  decide +kernel

theorem tag_of_jobFiles (mine : name ∈ jobFiles tag.text) (others : name ∈ jobFiles other.text) :
    tag = other := by
  rw [jobFiles_eq, List.mem_map] at mine others
  obtain ⟨left, leftMember, rfl⟩ := mine
  obtain ⟨right, rightMember, same⟩ := others
  have leftEnds : left <:+ tag.text ++ left := List.suffix_append _ _
  have rightEnds : right <:+ tag.text ++ left := same ▸ List.suffix_append _ _
  have sameSuffix : left = right := by
    rcases List.suffix_or_suffix_of_suffix leftEnds rightEnds with ends | ends
    · exact suffixes_apart left leftMember right rightMember ends
    · exact (suffixes_apart right rightMember left leftMember ends).symm
  subst sameSuffix
  exact (Tag.text_injective (List.append_cancel_right same)).symm

theorem dbName_mem_jobFiles (simTag : Text) : dbName simTag ∈ jobFiles simTag := by
  simp [jobFiles, outputs]

/-- Of the files of a job only the database ends with `.db`. -/
theorem eq_dbName_of_mem {simTag : Text} (written : name ∈ jobFiles simTag)
    (suffix : ['.', 'd', 'b'] <:+ name) : name = dbName simTag := by
  rcases List.mem_append.mp written with output | journal
  · exact eq_dbName_of_suffix output suffix
  · have ends : name <:+ name := List.suffix_rfl
    rw [List.mem_singleton.mp journal] at suffix
    have lastIsL : "-journal".toList <:+ dbName simTag ++ "-journal".toList :=
      List.suffix_append _ _
    have nested := List.suffix_of_suffix_length_le suffix lastIsL (by decide)
    exact absurd nested (by decide)

/-! ## The resume test -/

theorem finished_iff {compgen : Order} {out : Directory} (clean : Clean out) :
    finished (compgen.list (sizes out)) tag.text = true ↔ HasResult out tag := by
  have listed : ∀ file, file ∈ compgen.list (sizes out) ↔ file ∈ sizes out :=
    fun file => (compgen.perm _).mem_iff
  have written : ∀ file ∈ compgen.list (sizes out), ['.', 'd', 'b'] <:+ file.1 →
      ∃ writer : Tag, file.1 = dbName writer.text := by
    intro file member suffix
    apply clean.databases file.1 _ suffix
    obtain ⟨entry, entryMember, rfl⟩ := List.mem_map.mp ((listed file).mp member)
    exact List.mem_map_of_mem entryMember
  constructor
  · intro found
    obtain ⟨size, positive, member⟩ := own_db_of_finished written found
    obtain ⟨entry, entryMember, same⟩ := List.mem_map.mp ((listed _).mp member)
    obtain ⟨nameEq, sizeEq⟩ := Prod.mk.inj same
    refine ⟨entry.2, ?_, nameEq ▸ entryMember⟩
    apply List.ne_nil_of_length_pos
    omega
  · intro result
    obtain ⟨content, notEmpty, member⟩ := result
    have inListing : (dbName tag.text, content.length) ∈ compgen.list (sizes out) :=
      (listed _).mpr (List.mem_map_of_mem member)
    unfold finished
    cases found : (compgen.list (sizes out)).find? fun file =>
        Glob.matchesName (resumePattern tag.text) file.1 with
    | none =>
        have noMatch := List.find?_eq_none.mp found _ inListing
        exact absurd (resume_match_dbName.mpr rfl) noMatch
    | some file =>
        have fileMember := List.mem_of_find?_eq_some found
        have matched : Glob.matchesName (resumePattern tag.text) file.1 = true :=
          List.find?_some
            (p := fun file : Text × Nat => Glob.matchesName (resumePattern tag.text) file.1) found
        obtain ⟨writer, nameEq⟩ := written file fileMember (db_suffix_of_resume_match matched)
        rw [nameEq] at matched
        obtain rfl := resume_match_dbName.mp matched
        -- the one file of this name is the result
        obtain ⟨entry, entryMember, rfl⟩ := List.mem_map.mp ((listed _).mp fileMember)
        have sameContent : some entry.2 = some content := by
          rw [← (KeyedTable.value?_eq_some_iff clean.distinct).mpr member,
            ← (KeyedTable.value?_eq_some_iff clean.distinct).mpr entryMember]
          rw [show entry.1 = dbName tag.text from nameEq]
        rw [Option.some.inj sameContent]
        exact decide_eq_true (List.length_pos_of_ne_nil notEmpty)

theorem clean_setFile {out : Directory} (clean : Clean out) (written : name ∈ jobFiles tag.text)
    (content : Option Text) : Clean (setFile name content out) := by
  cases content with
  | none =>
      have kept : (setFile name none out).Sublist out := List.filter_sublist
      constructor
      · exact clean.distinct.sublist (kept.map Prod.fst)
      · intro file member
        exact clean.databases file ((kept.map Prod.fst).subset member)
  | some content =>
      constructor
      · exact KeyedTable.nodup_keys_assign clean.distinct name content
      · intro file member suffix
        rcases KeyedTable.mem_keys_assign member with isName | earlier
        · rw [isName] at suffix ⊢
          exact ⟨tag, eq_dbName_of_mem written suffix⟩
        · exact clean.databases file earlier suffix

theorem value?_setFile (name : Text) (content : Option Text) (out : Directory) :
    (fun file => KeyedTable.value? file (setFile name content out)) =
      Function.update (fun file => KeyedTable.value? file out) name content := by
  funext file
  rw [Function.update_apply]
  cases content with
  | none =>
      rw [setFile, KeyedTable.value?_erase]
      by_cases same : file = name
      · rw [if_pos same.symm, if_pos same]
      · rw [if_neg same, if_neg fun equal => same equal.symm]
  | some content =>
      rw [setFile, KeyedTable.value?_assign]
      by_cases same : file = name
      · rw [if_pos same.symm, if_pos same]
      · rw [if_neg same, if_neg fun equal => same equal.symm]

/-! ## A campaign is a pool of workers -/

variable {preset : Preset} {presetName : Text} {maxProcs : Nat} {compgen : Order}

/-- The process of a trial. -/
def Trial.simulation (trial : Trial preset) : Simulation :=
  { cmd := trial.command, rngRun := trial.run, simTag := trial.tag.text }

theorem Trial.simulation_injective :
    Function.Injective (Trial.simulation : Trial preset → Simulation) := by
  intro left right same
  apply Trial.tag_injective
  exact Tag.text_injective (congrArg Simulation.simTag same)

/-- The trials of a preset as the jobs of a pool. -/
def plan (preset : Preset) (maxProcs : Nat) : WorkPool.Plan (Trial preset) Text Text where
  files trial := jobFiles trial.tag.text
  result trial := dbName trial.tag.text
  complete content := !content.isEmpty
  limit := if maxProcs = 0 then none else some maxProcs
  result_mem trial := dbName_mem_jobFiles trial.tag.text
  disjoint mine others := Trial.tag_injective (tag_of_jobFiles mine others)

/-- A campaign shows the state of a pool. -/
structure Shows (campaign : Campaign) (pool : WorkPool.Pool (Trial preset) Text Text) : Prop where
  clean : Clean campaign.out
  store : pool.store = fun file => KeyedTable.value? file campaign.out
  lines : campaign.lines = pool.pending.map Trial.line
  running : campaign.running = pool.running.map Trial.simulation

/-- A move is an event of the pool. -/
inductive IsEvent : Move → WorkPool.Event (Trial preset) Text Text → Prop where
  | sweep (runs : Runs) : IsEvent (.sweep runs) (.launch (preset.trials runs))
  | runOne : IsEvent .runOne .next
  | write (trial : Trial preset) (name : Text) (content : Option Text) :
      IsEvent (.write trial.simulation name content) (.write trial name content)
  | exit (trial : Trial preset) : IsEvent (.exit trial.simulation) (.leave trial)
  | interrupt : IsEvent .interrupt .halt

theorem hasRoom_eq (preset : Preset) (count : Nat) :
    (plan preset maxProcs).hasRoom count = mayStart maxProcs count := by
  unfold WorkPool.Plan.hasRoom mayStart plan
  by_cases unlimited : maxProcs = 0
  · simp [unlimited]
  · simp [unlimited]

theorem done_iff {out : Directory} (clean : Clean out) (trial : Trial preset) :
    (plan preset maxProcs).done (fun file => KeyedTable.value? file out) trial = true ↔
      HasResult out trial.tag := by
  unfold WorkPool.Plan.done HasResult plan
  rw [Option.any_eq_true]
  constructor
  · intro complete
    obtain ⟨content, found, notEmpty⟩ := complete
    refine ⟨content, ?_, (KeyedTable.value?_eq_some_iff clean.distinct).mp found⟩
    simpa using notEmpty
  · intro result
    obtain ⟨content, notEmpty, member⟩ := result
    refine ⟨content, (KeyedTable.value?_eq_some_iff clean.distinct).mpr member, ?_⟩
    simpa using notEmpty

/-- `run_one` on the line of a trial starts its simulation unless the result is there. -/
theorem runOne_line (maxProcs : Nat) (compgen : Order) {out : Directory} (clean : Clean out)
    (trial : Trial preset) :
    runOne (compgen.list (sizes out)) trial.line =
      if (plan preset maxProcs).done (fun file => KeyedTable.value? file out) trial then .skipped
      else .started trial.command trial.run trial.tag.text := by
  have same : finished (compgen.list (sizes out)) trial.tag.text =
      (plan preset maxProcs).done (fun file => KeyedTable.value? file out) trial :=
    Bool.eq_iff_iff.mpr ((finished_iff clean).trans (done_iff clean trial).symm)
  obtain ⟨tagEq, commandEq⟩ := jobLine_parts trial.tag trial.command
  have seed : rngRun trial.tag.text = trial.run := rngRun_text trial.tag
  unfold runOne
  rw [trial.line_eq]
  simp only [tagEq, commandEq, seed, same]

theorem handedOut_eq {campaign : Campaign} {pool : WorkPool.Pool (Trial preset) Text Text}
    (shows : Shows campaign pool) {move : Move} {event : WorkPool.Event (Trial preset) Text Text}
    (isEvent : IsEvent move event) :
    handedOut compgen campaign move =
      (WorkPool.handed (plan preset maxProcs) pool event).map fun item =>
        (item.1.line, item.2) := by
  cases isEvent with
  | runOne =>
      rw [handedOut, WorkPool.handed, shows.lines]
      cases pool.pending with
      | nil => rfl
      | cons trial rest =>
          have decided :
              decide (runOne (compgen.list (sizes campaign.out)) trial.line = .skipped) =
                (plan preset maxProcs).done pool.store trial := by
            rw [runOne_line maxProcs compgen shows.clean trial, shows.store]
            split <;> simp_all
          simp only [List.map_cons, List.take_succ_cons, List.take_zero, List.map_nil, decided]
  | sweep runs => rfl
  | write trial name content => rfl
  | exit trial => rfl
  | interrupt => rfl

theorem step_shows {campaign next : Campaign} {pool : WorkPool.Pool (Trial preset) Text Text}
    {move : Move} (known : presetOf presetName = some preset) (shows : Shows campaign pool)
    (stepped : step presetName maxProcs compgen campaign move = .ok next) :
    ∃ event after, IsEvent move event ∧
      WorkPool.step (plan preset maxProcs) pool event = .ok after ∧ Shows next after := by
  cases move with
  | sweep runs =>
      simp only [step] at stepped
      split at stepped
      next idle =>
        obtain rfl := Except.ok.inj stepped
        have noLines : pool.pending = [] := List.map_eq_nil_iff.mp (shows.lines ▸ idle.1)
        have noneRuns : pool.running = [] := List.map_eq_nil_iff.mp (shows.running ▸ idle.2)
        refine ⟨_, { pool with pending := preset.trials runs }, .sweep runs, ?_, ?_⟩
        · simp only [WorkPool.step]
          rw [if_pos ⟨noLines, noneRuns⟩]
        · refine ⟨shows.clean, shows.store, ?_, shows.running⟩
          unfold jobs
          rw [known]
          exact lines_eq runs
      next => cases stepped
  | runOne =>
      simp only [step] at stepped
      split at stepped
      next => cases stepped
      next line rest lines =>
        obtain ⟨trial, later, pending, rfl, rfl⟩ := List.map_eq_cons_iff.mp (shows.lines ▸ lines)
        have sameCount : campaign.running.length = pool.running.length := by
          rw [shows.running, List.length_map]
        split at stepped
        next room =>
          rw [sameCount, ← hasRoom_eq preset] at room
          rw [runOne_line maxProcs compgen shows.clean trial, ← shows.store] at stepped
          by_cases done : (plan preset maxProcs).done pool.store trial = true
          · rw [if_pos done] at stepped
            obtain rfl := Except.ok.inj stepped
            refine ⟨_, { pool with pending := later }, .runOne, ?_, ?_⟩
            · simp only [WorkPool.step, pending]
              rw [if_pos room, if_pos done]
            · exact ⟨shows.clean, shows.store, rfl, shows.running⟩
          · rw [if_neg done] at stepped
            obtain rfl := Except.ok.inj stepped
            refine ⟨_, { pool with pending := later, running := trial :: pool.running }, .runOne,
              ?_, ?_⟩
            · simp only [WorkPool.step, pending]
              rw [if_pos room, if_neg done]
            · refine ⟨shows.clean, shows.store, rfl, ?_⟩
              rw [List.map_cons, ← shows.running]
              rfl
        next => cases stepped
  | write simulation name content =>
      simp only [step] at stepped
      split at stepped
      next allowed =>
        obtain rfl := Except.ok.inj stepped
        obtain ⟨trial, runs, rfl⟩ := List.mem_map.mp (shows.running ▸ allowed.1)
        refine ⟨_, { pool with store := Function.update pool.store name content },
          .write trial name content, ?_, ?_⟩
        · simp only [WorkPool.step]
          rw [if_pos ⟨runs, allowed.2⟩]
        · refine ⟨clean_setFile shows.clean allowed.2 content, ?_, shows.lines, shows.running⟩
          rw [value?_setFile, ← shows.store]
      next => cases stepped
  | exit simulation =>
      simp only [step] at stepped
      split at stepped
      next runs =>
        obtain rfl := Except.ok.inj stepped
        obtain ⟨trial, trialRuns, rfl⟩ := List.mem_map.mp (shows.running ▸ runs)
        refine ⟨_, { pool with running := pool.running.erase trial }, .exit trial, ?_, ?_⟩
        · simp only [WorkPool.step]
          rw [if_pos trialRuns]
        · refine ⟨shows.clean, shows.store, shows.lines, ?_⟩
          rw [List.map_erase Trial.simulation_injective, shows.running]
      next => cases stepped
  | interrupt =>
      obtain rfl := Except.ok.inj stepped
      exact ⟨.halt, { pool with pending := [], running := [] }, .interrupt, rfl, shows.clean,
        shows.store, rfl, rfl⟩

theorem run_shows {campaign final : Campaign} {pool : WorkPool.Pool (Trial preset) Text Text}
    {moves : List Move} (known : presetOf presetName = some preset) (shows : Shows campaign pool)
    (ran : Run.run (step presetName maxProcs compgen) campaign moves = .ok final) :
    ∃ events last, List.Forall₂ IsEvent moves events ∧
      Run.run (WorkPool.step (plan preset maxProcs)) pool events = .ok last ∧ Shows final last ∧
      Run.observe (step presetName maxProcs compgen) (handedOut compgen) campaign moves =
        (Run.observe (WorkPool.step (plan preset maxProcs))
          (WorkPool.handed (plan preset maxProcs)) pool events).map
            (fun item => (item.1.line, item.2)) ∧
      ∀ past rest, events = past ++ rest → ∃ pastMoves restMoves middle middlePool,
        moves = pastMoves ++ restMoves ∧ List.Forall₂ IsEvent restMoves rest ∧
        Run.run (step presetName maxProcs compgen) campaign pastMoves = .ok middle ∧
        Run.run (WorkPool.step (plan preset maxProcs)) pool past = .ok middlePool ∧
        Shows middle middlePool := by
  apply Run.run_refines _ shows ran
  intro state next showing move shown stepped
  obtain ⟨event, after, isEvent, poolStepped, kept⟩ := step_shows known shown stepped
  exact ⟨event, after, isEvent, poolStepped, kept, handedOut_eq shown isEvent⟩

theorem exists_move {moves : List Move} {events : List (WorkPool.Event (Trial preset) Text Text)}
    (matched : List.Forall₂ IsEvent moves events) :
    ∀ event ∈ events, ∃ move ∈ moves, IsEvent move event := by
  induction matched with
  | nil => exact fun event member => absurd member List.not_mem_nil
  | cons isEvent _ inductionHypothesis =>
      intro event member
      rcases List.mem_cons.mp member with first | later
      · rw [first]
        exact ⟨_, List.mem_cons_self, isEvent⟩
      · obtain ⟨move, moveMember, same⟩ := inductionHypothesis event later
        exact ⟨move, List.mem_cons_of_mem _ moveMember, same⟩

theorem admissible_of_isEvent {moves : List Move}
    {events : List (WorkPool.Event (Trial preset) Text Text)}
    (matched : List.Forall₂ IsEvent moves events) :
    ∀ event ∈ events, WorkPool.Admissible event := by
  intro event member
  obtain ⟨move, -, isEvent⟩ := exists_move matched event member
  cases isEvent with
  | sweep runs => exact trials_nodup runs
  | runOne => trivial
  | write trial name content => trivial
  | exit trial => trivial
  | interrupt => trivial

/-- Before its first sweep a campaign shows an idle pool. -/
theorem shows_initial {out : Directory} (clean : Clean out) :
    Shows ⟨out, [], []⟩
      (⟨fun file => KeyedTable.value? file out, [], []⟩ : WorkPool.Pool (Trial preset) Text Text) :=
  ⟨clean, rfl, rfl, rfl⟩

/-- A reachable campaign shows a pool whose running jobs never meet. -/
theorem shows_reachable {out : Directory} {moves : List Move} {state : Campaign}
    (known : presetOf presetName = some preset) (clean : Clean out)
    (ran : Run.run (step presetName maxProcs compgen) ⟨out, [], []⟩ moves = .ok state) :
    ∃ pool : WorkPool.Pool (Trial preset) Text Text,
      Shows state pool ∧ WorkPool.Sound (plan preset maxProcs) pool := by
  obtain ⟨events, pool, matched, poolRan, shows, -, -⟩ :=
    run_shows known (shows_initial clean) ran
  exact ⟨pool, shows, WorkPool.run_sound (WorkPool.sound_of_idle ⟨rfl, rfl⟩)
    (admissible_of_isEvent matched) poolRan⟩

/-- From an empty directory the databases are those of trials with run numbers that
some sweep had. -/
theorem databases_of_campaign {moves : List Move} {state : Campaign} {numbers : List Text}
    (known : presetOf presetName = some preset)
    (ran : Run.run (step presetName maxProcs compgen) ⟨[], [], []⟩ moves = .ok state)
    (swept : ∀ runs, .sweep runs ∈ moves → ∀ r ∈ runs.numbers, r ∈ numbers) :
    Clean state.out ∧ ∀ name ∈ state.out.map Prod.fst, ['.', 'd', 'b'] <:+ name →
      ∃ trial : Trial preset, trial.run ∈ numbers ∧ name = dbName trial.tag.text := by
  have clean : Clean [] := ⟨List.nodup_nil, fun _ member => absurd member List.not_mem_nil⟩
  obtain ⟨events, pool, matched, poolRan, shows, -, -⟩ :=
    run_shows known (shows_initial clean) ran
  have attributed : WorkPool.Attributed (plan preset maxProcs) (fun _ => none)
      (fun trial => trial.run ∈ numbers) pool := by
    apply WorkPool.run_attributed _ _ poolRan
    · exact ⟨fun _ member => absurd member List.not_mem_nil,
        fun _ member => absurd member List.not_mem_nil, fun _ changed => absurd rfl changed⟩
    · intro trials launched trial member
      obtain ⟨move, moveMember, isEvent⟩ := exists_move matched _ launched
      cases isEvent with
      | sweep runs => exact swept runs moveMember trial.run (mem_trials.mp member)
  refine ⟨shows.clean, ?_⟩
  intro name member suffix
  obtain ⟨file, fileMember, rfl⟩ := List.mem_map.mp member
  have present : pool.store file.1 ≠ none := by
    rw [shows.store]
    show KeyedTable.value? file.1 state.out ≠ none
    rw [(KeyedTable.value?_eq_some_iff shows.clean.distinct).mpr fileMember]
    exact Option.some_ne_none _
  obtain ⟨trial, inNumbers, owned⟩ := attributed.written file.1 present
  exact ⟨trial, inNumbers, eq_dbName_of_mem owned suffix⟩

/-! ## Results are kept -/

/-- In every campaign of a preset, whatever its sweeps, interleavings and
interruptions: at most `$JOBS` simulations run at a time, each with the options and
the seed of its trial, no two on the same tag or with a file in common. `run_one`
starts a trial if and only if its database is missing or empty. And once a trial
has a database that is not empty and does not run, it never runs again and none of
its files ever changes. -/
theorem campaign_keeps_results {preset : Preset} {presetName : Text}
    (known : presetOf presetName = some preset) (maxProcs : Nat) (compgen : Order)
    {out : Directory} (clean : Clean out) {moves : List Move} {state : Campaign}
    (ran : Run.run (step presetName maxProcs compgen) ⟨out, [], []⟩ moves = .ok state) :
    (∃ trials : List (Trial preset), state.running = trials.map Trial.simulation ∧
      (0 < maxProcs → trials.length ≤ maxProcs) ∧
      trials.Pairwise fun trial other => trial.tag ≠ other.tag ∧
        ∀ name ∈ jobFiles trial.tag.text, name ∉ jobFiles other.tag.text) ∧
    (∀ trial : Trial preset,
      (HasResult state.out trial.tag ∧
          runOne (compgen.list (sizes state.out)) trial.line = .skipped) ∨
        (¬ HasResult state.out trial.tag ∧
          runOne (compgen.list (sizes state.out)) trial.line =
            .started trial.command trial.run trial.tag.text)) ∧
    ∀ trial : Trial preset, HasResult state.out trial.tag → trial.simulation ∉ state.running →
      ∀ later final, Run.run (step presetName maxProcs compgen) state later = .ok final →
        trial.simulation ∉ final.running ∧
        ∀ name ∈ jobFiles trial.tag.text,
          KeyedTable.value? name final.out = KeyedTable.value? name state.out := by
  obtain ⟨pool, shows, sound⟩ := shows_reachable known clean ran
  refine ⟨⟨pool.running, shows.running, ?_, ?_⟩, ?_, ?_⟩
  · intro positive
    apply sound.bounded maxProcs
    show (if maxProcs = 0 then none else some maxProcs) = some maxProcs
    rw [if_neg (by omega)]
  · apply (List.nodup_append.mp sound.distinct).1.imp
    intro trial other different
    have differentTags : trial.tag ≠ other.tag := fun same => different (Trial.tag_injective same)
    exact ⟨differentTags, fun name mine others => differentTags (tag_of_jobFiles mine others)⟩
  · intro trial
    have outcome := runOne_line maxProcs compgen shows.clean trial
    by_cases done : (plan preset maxProcs).done
        (fun file => KeyedTable.value? file state.out) trial = true
    · rw [if_pos done] at outcome
      exact Or.inl ⟨(done_iff shows.clean trial).mp done, outcome⟩
    · rw [if_neg done] at outcome
      exact Or.inr ⟨fun result => done ((done_iff shows.clean trial).mpr result), outcome⟩
  · intro trial result left later final ranLater
    obtain ⟨events, last, -, poolRan, showsFinal, -, -⟩ := run_shows known shows ranLater
    have settled : WorkPool.Final (plan preset maxProcs) pool.store trial pool := by
      constructor
      · exact fun _ _ => rfl
      · rw [shows.store]
        exact (done_iff shows.clean trial).mpr result
      · intro runs
        exact left (shows.running ▸ List.mem_map_of_mem runs)
    have kept := WorkPool.run_final settled poolRan
    constructor
    · intro runs
      rw [showsFinal.running] at runs
      exact kept.left ((List.mem_map_of_injective Trial.simulation_injective).mp runs)
    · intro name owned
      have same := kept.kept name owned
      rw [showsFinal.store, shows.store] at same
      exact same

/-- The files in the order in which they were written. -/
def asWritten : Order where
  list := id
  perm _ := List.Perm.refl _

/-- `RUNS=1`. -/
def oneRun : Runs where
  numbers := [['1']]
  some_number := by decide
  number_ne_nil := by decide
  number_digits := by simp [Char.isDigit]
  distinct := by decide

/-- The first trial of `robots-pdb`. -/
def stockTrial : Trial robotsPdb where
  value := "stock".toList
  scheme := ['1']
  run := ['1']
  value_mem := by decide
  scheme_mem := by decide
  run_ne_nil := by decide
  run_digits := by simp [Char.isDigit]

/-- A sweep is killed in the middle of its first simulation, which is then never
run again. -/
theorem campaign_keeps_results_interrupted :
    let moves : List Move := [.sweep oneRun, .runOne,
      .write stockTrial.simulation (dbName stockTrial.tag.text) (some ['x']), .interrupt]
    let state : Campaign := ⟨[(dbName stockTrial.tag.text, ['x'])], [], []⟩
    Run.run (step "robots-pdb".toList 4 asWritten) ⟨[], [], []⟩ moves = .ok state ∧
      ∀ later final, Run.run (step "robots-pdb".toList 4 asWritten) state later = .ok final →
        stockTrial.simulation ∉ final.running := by
  intro moves state
  have ran : Run.run (step "robots-pdb".toList 4 asWritten) ⟨[], [], []⟩ moves = .ok state := by
    decide +kernel
  have clean : Clean [] := ⟨List.nodup_nil, fun _ member => absurd member List.not_mem_nil⟩
  refine ⟨ran, ?_⟩
  intro later final ranLater
  have known : presetOf "robots-pdb".toList = some robotsPdb := rfl
  have kept := (campaign_keeps_results known 4 asWritten clean ran).2.2
  have result : HasResult state.out stockTrial.tag :=
    ⟨['x'], List.cons_ne_nil _ _, List.mem_singleton.mpr rfl⟩
  exact (kept stockTrial result List.not_mem_nil later final ranLater).1

/-! ## A sweep that runs to its end -/

/-- Neither another sweep nor an interruption. -/
def Undisturbed : Move → Prop
  | .sweep _ => False
  | .interrupt => False
  | _ => True

theorem undisturbed_of_isEvent {moves : List Move}
    {events : List (WorkPool.Event (Trial preset) Text Text)}
    (undisturbed : ∀ move ∈ moves, Undisturbed move)
    (matched : List.Forall₂ IsEvent moves events) :
    ∀ event ∈ events, WorkPool.Undisturbed event := by
  intro event member
  obtain ⟨move, moveMember, isEvent⟩ := exists_move matched event member
  have calm := undisturbed move moveMember
  cases isEvent with
  | sweep runs => exact calm.elim
  | runOne => trivial
  | write trial name content => trivial
  | exit trial => trivial
  | interrupt => exact calm.elim

theorem idle_of_shows {campaign : Campaign} {pool : WorkPool.Pool (Trial preset) Text Text}
    (shows : Shows campaign pool) (ended : campaign.lines = [] ∧ campaign.running = []) :
    WorkPool.Idle pool :=
  ⟨List.map_eq_nil_iff.mp (shows.lines ▸ ended.1),
    List.map_eq_nil_iff.mp (shows.running ▸ ended.2)⟩

/-- The lines of an undisturbed sweep are handed out in order. -/
theorem lines_handed_out {campaign final : Campaign}
    {pool : WorkPool.Pool (Trial preset) Text Text} {moves : List Move}
    (known : presetOf presetName = some preset) (shows : Shows campaign pool)
    (undisturbed : ∀ move ∈ moves, Undisturbed move)
    (ran : Run.run (step presetName maxProcs compgen) campaign moves = .ok final) :
    (Run.observe (step presetName maxProcs compgen) (handedOut compgen) campaign moves).map
      Prod.fst ++ final.lines = campaign.lines := by
  obtain ⟨events, last, matched, poolRan, showsFinal, observed, -⟩ := run_shows known shows ran
  have inOrder := WorkPool.run_pending (undisturbed_of_isEvent undisturbed matched) poolRan
  rw [observed, List.map_map, showsFinal.lines, shows.lines, ← inOrder, List.map_append,
    List.map_map]
  rfl

theorem hasResult_of_wrote {out : Directory}
    (wrote : (out.any fun file => file.1 = dbName tag.text && !file.2.isEmpty) = true) :
    HasResult out tag := by
  obtain ⟨file, member, both⟩ := List.any_eq_true.mp wrote
  rw [Bool.and_eq_true, decide_eq_true_eq] at both
  refine ⟨file.2, by simpa using both.2, ?_⟩
  rw [← both.1]
  exact member

/-- The trials of an undisturbed sweep whose simulations all wrote their databases
have their results at its end. -/
theorem results_of_sweep {campaign final : Campaign}
    {pool : WorkPool.Pool (Trial preset) Text Text} {moves : List Move}
    (known : presetOf presetName = some preset) (shows : Shows campaign pool)
    (sound : WorkPool.Sound (plan preset maxProcs) pool)
    (undisturbed : ∀ move ∈ moves, Undisturbed move)
    (ran : Run.run (step presetName maxProcs compgen) campaign moves = .ok final)
    (ended : final.lines = [] ∧ final.running = [])
    (successful : ∀ wrote ∈ Run.observe (step presetName maxProcs compgen) wroteDatabase campaign
      moves, wrote = true) :
    ∀ trial ∈ pool.pending, HasResult final.out trial.tag := by
  obtain ⟨events, last, matched, poolRan, showsFinal, -, prefixes⟩ := run_shows known shows ran
  have complete : ∀ trial ∈ pool.pending,
      (plan preset maxProcs).done last.store trial = true := by
    apply WorkPool.run_complete sound (undisturbed_of_isEvent undisturbed matched) _ poolRan
      (idle_of_shows showsFinal ended)
    -- a job leaves where a simulation exits
    intro past trial rest middlePool split pastRan
    obtain ⟨pastMoves, restMoves, middle, reached, movesSplit, restMatched, middleRan,
      reachedRan, showsMiddle⟩ := prefixes past (.leave trial :: rest) split
    obtain rfl := Except.ok.inj (pastRan.symm.trans reachedRan)
    cases restMatched with
    | cons isEvent _ =>
        cases isEvent with
        | exit trial =>
            rw [showsMiddle.store]
            apply (done_iff showsMiddle.clean trial).mpr
            apply hasResult_of_wrote
            apply successful
            rw [movesSplit]
            exact Run.mem_observe_of_run middleRan List.mem_cons_self
  intro trial member
  have done := complete trial member
  rw [showsFinal.store] at done
  exact (done_iff showsFinal.clean trial).mp done

/-- Sweeps over trials that have their results start nothing and change nothing. -/
theorem rerun_rests {campaign final : Campaign} {pool : WorkPool.Pool (Trial preset) Text Text}
    {moves : List Move} (known : presetOf presetName = some preset) (shows : Shows campaign pool)
    (ended : campaign.lines = [] ∧ campaign.running = [])
    (results : ∀ runs, .sweep runs ∈ moves → ∀ trial ∈ preset.trials runs,
      HasResult campaign.out trial.tag)
    (ran : Run.run (step presetName maxProcs compgen) campaign moves = .ok final) :
    final.running = [] ∧
      ∀ name, KeyedTable.value? name final.out = KeyedTable.value? name campaign.out := by
  obtain ⟨events, last, matched, poolRan, showsFinal, -, -⟩ := run_shows known shows ran
  have idle := idle_of_shows shows ended
  have initial : WorkPool.Resting (plan preset maxProcs) pool.store pool := by
    constructor
    · rfl
    · intro trial waits
      rw [idle.1] at waits
      exact absurd waits List.not_mem_nil
    · exact idle.2
  have rested : WorkPool.Resting (plan preset maxProcs) pool.store last := by
    apply WorkPool.run_resting initial _ poolRan
    intro launched member trial trialMember
    obtain ⟨move, moveMember, isEvent⟩ := exists_move matched _ member
    cases isEvent with
    | sweep runs =>
        rw [shows.store]
        exact (done_iff shows.clean trial).mpr (results runs moveMember trial trialMember)
  constructor
  · rw [showsFinal.running, rested.none_runs]
    rfl
  · intro name
    have same := congrFun rested.unchanged name
    rw [showsFinal.store, shows.store] at same
    exact same

/-- When a sweep runs to its end undisturbed, and every simulation that ended had
written its database, then every line of the preset was handed out exactly once, in
order, and every trial of the sweep has its result. After it, sweeps with the same
run numbers or some of them start no simulation and change no file, even when they
are interrupted. -/
theorem completed_sweep_is_not_rerun {preset : Preset} {presetName : Text}
    (known : presetOf presetName = some preset) (maxProcs : Nat) (compgen : Order)
    {out : Directory} (clean : Clean out) {before moves : List Move} {state final : Campaign}
    (reached : Run.run (step presetName maxProcs compgen) ⟨out, [], []⟩ before = .ok state)
    (runs : Runs) (undisturbed : ∀ move ∈ moves, Undisturbed move)
    (swept : Run.run (step presetName maxProcs compgen) state (.sweep runs :: moves) = .ok final)
    (ended : final.lines = [] ∧ final.running = [])
    (successful : ∀ wrote ∈ Run.observe (step presetName maxProcs compgen) wroteDatabase state
      (.sweep runs :: moves), wrote = true) :
    (Run.observe (step presetName maxProcs compgen) (handedOut compgen) state
        (.sweep runs :: moves)).map Prod.fst = preset.lines runs ∧
    (∀ trial ∈ preset.trials runs, HasResult final.out trial.tag) ∧
    ∀ later last, Run.run (step presetName maxProcs compgen) final later = .ok last →
      (∀ again, .sweep again ∈ later → ∀ r ∈ again.numbers, r ∈ runs.numbers) →
      last.running = [] ∧
        ∀ name, KeyedTable.value? name last.out = KeyedTable.value? name final.out := by
  obtain ⟨pool, shows, sound⟩ := shows_reachable known clean reached
  obtain ⟨afterSweep, started, ranMoves⟩ := Run.run_cons_ok swept
  obtain ⟨event, launched, isEvent, launch, showsLaunched⟩ := step_shows known shows started
  cases isEvent
  obtain ⟨-, launchedEq⟩ := WorkPool.launch_ok launch
  have pending : launched.pending = preset.trials runs := by rw [launchedEq]
  have soundLaunched := WorkPool.step_sound sound
    (show WorkPool.Admissible (.launch (preset.trials runs)) from trials_nodup runs) launch
  have results : ∀ trial ∈ preset.trials runs, HasResult final.out trial.tag := by
    rw [← pending]
    apply results_of_sweep known showsLaunched soundLaunched undisturbed ranMoves ended
    rw [Run.observe_cons started] at successful
    exact successful
  obtain ⟨finalPool, showsFinal, -⟩ := shows_reachable known clean
    ((Run.run_append reached _).trans swept)
  refine ⟨?_, results, ?_⟩
  · have inOrder := lines_handed_out known showsLaunched undisturbed ranMoves
    rw [ended.1, List.append_nil, showsLaunched.lines, pending, ← lines_eq] at inOrder
    rw [Run.observe_cons started]
    exact inOrder
  · intro later last ranLater smaller
    apply rerun_rests known showsFinal ended _ ranLater
    intro again sweepMember trial trialMember
    apply results
    exact mem_trials.mpr (smaller again sweepMember trial.run (mem_trials.mp trialMember))

/-- The five trials of `robots-pdb` one after the other. -/
theorem completed_sweep_is_not_rerun_once :
    let moves : List Move := (robotsPdb.trials oneRun).flatMap fun trial =>
      [.runOne, .write trial.simulation (dbName trial.tag.text) (some ['x']),
        .exit trial.simulation]
    ∃ final : Campaign,
      Run.run (step "robots-pdb".toList 1 asWritten) ⟨[], [], []⟩ (.sweep oneRun :: moves) =
        .ok final ∧
      ∀ later last, Run.run (step "robots-pdb".toList 1 asWritten) final later = .ok last →
        (∀ again, .sweep again ∈ later → ∀ r ∈ again.numbers, r ∈ oneRun.numbers) →
        last.running = [] := by
  intro moves
  let final : Campaign :=
    ⟨(robotsPdb.trials oneRun).map fun trial => (dbName trial.tag.text, ['x']), [], []⟩
  have swept : Run.run (step "robots-pdb".toList 1 asWritten) ⟨[], [], []⟩
      (.sweep oneRun :: moves) = .ok final := by
    decide +kernel
  have clean : Clean [] := ⟨List.nodup_nil, fun _ member => absurd member List.not_mem_nil⟩
  have undisturbed : ∀ move ∈ moves, Undisturbed move := by
    intro move member
    obtain ⟨trial, -, isMove⟩ := List.mem_flatMap.mp member
    simp only [List.mem_cons, List.not_mem_nil, or_false] at isMove
    rcases isMove with rfl | rfl | rfl <;> trivial
  have known : presetOf "robots-pdb".toList = some robotsPdb := rfl
  have initial : Run.run (step "robots-pdb".toList 1 asWritten) ⟨[], [], []⟩ [] =
      .ok ⟨[], [], []⟩ := rfl
  refine ⟨final, swept, ?_⟩
  intro later last ranLater smaller
  have rests := (completed_sweep_is_not_rerun known 1 asWritten clean initial oneRun undisturbed
    swept ⟨rfl, rfl⟩ (by decide +kernel)).2.2
  exact (rests later last ranLater smaller).1

end Sidewalk.Sweep
