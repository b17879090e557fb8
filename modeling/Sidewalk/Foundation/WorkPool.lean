import Mathlib.Data.List.Nodup
import Mathlib.Logic.Function.Basic
import Sidewalk.Foundation.Run

/-!
Owns pools of workers over a persistent store: jobs are launched as a list, handed
out in order to a bounded number of workers, passed over when their result is
already there, and cut off at any moment, after which the same or other jobs can
be launched again. Every job writes to keys of its own. The laws say that running
jobs never meet, that a complete result is never touched again, that every job
launched is handed out once and in order, and that jobs with complete results are
not run again.

Does not own what a job writes, nor any particular store.
-/

set_option autoImplicit false

namespace Sidewalk.Foundation.WorkPool

variable {Job Key Value : Type}

/-- What the jobs of a pool write. `limit` bounds the jobs that run at a time. -/
structure Plan (Job Key Value : Type) where
  files : Job → List Key
  result : Job → Key
  complete : Value → Bool
  limit : Option Nat
  result_mem : ∀ job, result job ∈ files job
  disjoint : ∀ {job other : Job} {key : Key}, key ∈ files job → key ∈ files other → job = other

/-- A pool: its store, the jobs not handed out and those that run. -/
structure Pool (Job Key Value : Type) where
  store : Key → Option Value
  pending : List Job
  running : List Job

/-- What can happen. A value written is `none` when the key is removed. -/
inductive Event (Job Key Value : Type) where
  | launch (jobs : List Job)
  | next
  | write (job : Job) (key : Key) (value : Option Value)
  | leave (job : Job)
  | halt

namespace Plan

/-- The result of a job is there and complete. -/
def done (plan : Plan Job Key Value) (store : Key → Option Value) (job : Job) : Bool :=
  (store (plan.result job)).any plan.complete

/-- Another job may run beside `count` jobs. -/
def hasRoom (plan : Plan Job Key Value) (count : Nat) : Bool :=
  plan.limit.all fun limit => count < limit

end Plan

variable [DecidableEq Job] [DecidableEq Key]

/-- One event. Jobs are launched only when the pool is idle. -/
def step (plan : Plan Job Key Value) (pool : Pool Job Key Value) :
    Event Job Key Value → Except Unit (Pool Job Key Value)
  | .launch jobs =>
      if pool.pending = [] ∧ pool.running = [] then .ok { pool with pending := jobs }
      else .error ()
  | .next =>
      match pool.pending with
      | [] => .error ()
      | job :: rest =>
          if plan.hasRoom pool.running.length then
            if plan.done pool.store job then .ok { pool with pending := rest }
            else .ok { pool with pending := rest, running := job :: pool.running }
          else .error ()
  | .write job key value =>
      if job ∈ pool.running ∧ key ∈ plan.files job then
        .ok { pool with store := Function.update pool.store key value }
      else .error ()
  | .leave job =>
      if job ∈ pool.running then .ok { pool with running := pool.running.erase job }
      else .error ()
  | .halt => .ok { pool with pending := [], running := [] }

/-- The jobs handed out, each with whether it was passed over. -/
def handed (plan : Plan Job Key Value) (pool : Pool Job Key Value) :
    Event Job Key Value → List (Job × Bool)
  | .next => (pool.pending.take 1).map fun job => (job, plan.done pool.store job)
  | _ => []

/-- Nothing is left to do. -/
def Idle (pool : Pool Job Key Value) : Prop := pool.pending = [] ∧ pool.running = []

/-- The jobs of a launch are distinct. -/
def Admissible : Event Job Key Value → Prop
  | .launch jobs => jobs.Nodup
  | _ => True

variable {plan : Plan Job Key Value} {pool next : Pool Job Key Value}
  {event : Event Job Key Value}

/-! ## What a step does -/

theorem launch_ok {jobs : List Job} (stepped : step plan pool (.launch jobs) = .ok next) :
    Idle pool ∧ next = { pool with pending := jobs } := by
  simp only [step] at stepped
  split at stepped
  next idle => exact ⟨idle, (Except.ok.inj stepped).symm⟩
  next => cases stepped

theorem next_ok (stepped : step plan pool .next = .ok next) :
    ∃ job rest, pool.pending = job :: rest ∧ plan.hasRoom pool.running.length = true ∧
      ((plan.done pool.store job = true ∧ next = { pool with pending := rest }) ∨
        (plan.done pool.store job = false ∧
          next = { pool with pending := rest, running := job :: pool.running })) := by
  simp only [step] at stepped
  split at stepped
  next => cases stepped
  next job rest pending =>
    split at stepped
    next room =>
      refine ⟨job, rest, pending, room, ?_⟩
      split at stepped
      next done => exact Or.inl ⟨done, (Except.ok.inj stepped).symm⟩
      next notDone =>
        exact Or.inr ⟨Bool.eq_false_iff.mpr notDone, (Except.ok.inj stepped).symm⟩
    next => cases stepped

theorem write_ok {job : Job} {key : Key} {value : Option Value}
    (stepped : step plan pool (.write job key value) = .ok next) :
    job ∈ pool.running ∧ key ∈ plan.files job ∧
      next = { pool with store := Function.update pool.store key value } := by
  simp only [step] at stepped
  split at stepped
  next allowed => exact ⟨allowed.1, allowed.2, (Except.ok.inj stepped).symm⟩
  next => cases stepped

theorem leave_ok {job : Job} (stepped : step plan pool (.leave job) = .ok next) :
    job ∈ pool.running ∧ next = { pool with running := pool.running.erase job } := by
  simp only [step] at stepped
  split at stepped
  next runs => exact ⟨runs, (Except.ok.inj stepped).symm⟩
  next => cases stepped

theorem halt_ok (stepped : step plan pool .halt = .ok next) :
    next = { pool with pending := [], running := [] } := (Except.ok.inj stepped).symm

/-! ## Running jobs never meet -/

/-- What every step keeps: no job runs or waits twice, and the limit holds. -/
structure Sound (plan : Plan Job Key Value) (pool : Pool Job Key Value) : Prop where
  distinct : (pool.running ++ pool.pending).Nodup
  bounded : ∀ limit, plan.limit = some limit → pool.running.length ≤ limit

omit [DecidableEq Job] [DecidableEq Key] in
theorem sound_of_idle (idle : Idle pool) : Sound plan pool := by
  constructor
  · rw [idle.1, idle.2]
    exact List.nodup_nil
  · intro limit _
    rw [idle.2]
    exact Nat.zero_le limit

theorem step_sound (sound : Sound plan pool) (admissible : Admissible event)
    (stepped : step plan pool event = .ok next) : Sound plan next := by
  cases event with
  | launch jobs =>
      obtain ⟨idle, rfl⟩ := launch_ok stepped
      constructor
      · rw [show pool.running = [] from idle.2]
        exact admissible
      · exact sound.bounded
  | next =>
      obtain ⟨job, rest, pending, room, skipped | started⟩ := next_ok stepped
      · rw [skipped.2]
        have distinct := sound.distinct
        rw [pending] at distinct
        exact ⟨distinct.sublist (List.Sublist.append_left (List.sublist_cons_self job rest) _),
          sound.bounded⟩
      · rw [started.2]
        constructor
        · have distinct := sound.distinct
          rw [pending] at distinct
          exact List.perm_middle.nodup_iff.mp distinct
        · intro limit bound
          unfold Plan.hasRoom at room
          rw [bound] at room
          exact of_decide_eq_true room
  | write job key value =>
      obtain ⟨-, -, rfl⟩ := write_ok stepped
      exact ⟨sound.distinct, sound.bounded⟩
  | leave job =>
      obtain ⟨-, rfl⟩ := leave_ok stepped
      constructor
      · exact sound.distinct.sublist (List.erase_sublist.append_right _)
      · intro limit bound
        exact Nat.le_trans List.erase_sublist.length_le (sound.bounded limit bound)
  | halt =>
      rw [halt_ok stepped]
      exact sound_of_idle ⟨rfl, rfl⟩

theorem run_sound {start final : Pool Job Key Value} {events : List (Event Job Key Value)}
    (sound : Sound plan start) (admissible : ∀ event ∈ events, Admissible event)
    (ran : Run.run (step plan) start events = .ok final) : Sound plan final := by
  apply Run.history_induction (fun _ pool => Sound plan pool) ran sound
  intro past event rest middle next split _ kept stepped
  exact step_sound kept (admissible event (by rw [split]; simp)) stepped

/-! ## Complete results stay -/

/-- The result of a job is complete, the job does not run, and its keys hold what
they held in a store. -/
structure Final (plan : Plan Job Key Value) (store : Key → Option Value) (job : Job)
    (pool : Pool Job Key Value) : Prop where
  kept : ∀ key ∈ plan.files job, pool.store key = store key
  done : plan.done pool.store job = true
  left : job ∉ pool.running

omit [DecidableEq Job] [DecidableEq Key] in
theorem done_congr {store other : Key → Option Value} {job : Job}
    (same : other (plan.result job) = store (plan.result job)) :
    plan.done other job = plan.done store job := by
  unfold Plan.done
  rw [same]

theorem step_final {store : Key → Option Value} {job : Job} (final : Final plan store job pool)
    (stepped : step plan pool event = .ok next) : Final plan store job next := by
  cases event with
  | launch jobs =>
      obtain ⟨-, rfl⟩ := launch_ok stepped
      exact ⟨final.kept, final.done, final.left⟩
  | next =>
      obtain ⟨other, rest, -, -, skipped | started⟩ := next_ok stepped
      · rw [skipped.2]
        exact ⟨final.kept, final.done, final.left⟩
      · rw [started.2]
        refine ⟨final.kept, final.done, ?_⟩
        -- the job that starts is not done, so it is another one
        intro member
        rcases List.mem_cons.mp member with same | runs
        · have notDone := started.1
          rw [← same, final.done] at notDone
          exact Bool.noConfusion notDone
        · exact final.left runs
  | write other key value =>
      obtain ⟨runs, owned, rfl⟩ := write_ok stepped
      have untouched : ∀ mine ∈ plan.files job,
          Function.update pool.store key value mine = pool.store mine := by
        intro mine member
        apply Function.update_of_ne
        intro same
        rw [same] at member
        exact final.left (plan.disjoint member owned ▸ runs)
      constructor
      · intro mine member
        exact (untouched mine member).trans (final.kept mine member)
      · exact (done_congr (untouched _ (plan.result_mem job))).trans final.done
      · exact final.left
  | leave other =>
      obtain ⟨-, rfl⟩ := leave_ok stepped
      exact ⟨final.kept, final.done, fun member => final.left (List.mem_of_mem_erase member)⟩
  | halt =>
      rw [halt_ok stepped]
      exact ⟨final.kept, final.done, List.not_mem_nil⟩

/-- Once the result of a job that does not run is complete, no later event changes
what the job has written, and the job never runs again. -/
theorem run_final {store : Key → Option Value} {job : Job} {start last : Pool Job Key Value}
    {events : List (Event Job Key Value)} (final : Final plan store job start)
    (ran : Run.run (step plan) start events = .ok last) : Final plan store job last := by
  apply Run.history_induction (fun _ pool => Final plan store job pool) ran final
  intro _ _ _ _ _ _ _ kept stepped
  exact step_final kept stepped

/-! ## Who wrote what -/

/-- Only launched jobs wait or run, and a key whose value has changed is one of
theirs. -/
structure Attributed (plan : Plan Job Key Value) (store : Key → Option Value)
    (launched : Job → Prop) (pool : Pool Job Key Value) : Prop where
  waiting : ∀ job ∈ pool.pending, launched job
  running : ∀ job ∈ pool.running, launched job
  written : ∀ key, pool.store key ≠ store key → ∃ job, launched job ∧ key ∈ plan.files job

theorem step_attributed {store : Key → Option Value} {launched : Job → Prop}
    (attributed : Attributed plan store launched pool)
    (launches : ∀ jobs, event = .launch jobs → ∀ job ∈ jobs, launched job)
    (stepped : step plan pool event = .ok next) : Attributed plan store launched next := by
  cases event with
  | launch jobs =>
      obtain ⟨-, rfl⟩ := launch_ok stepped
      exact ⟨launches jobs rfl, attributed.running, attributed.written⟩
  | next =>
      obtain ⟨job, rest, pending, -, outcome⟩ := next_ok stepped
      have waiting : ∀ other ∈ job :: rest, launched other := pending ▸ attributed.waiting
      have later : ∀ other ∈ rest, launched other := fun other member =>
        waiting other (List.mem_cons_of_mem job member)
      rcases outcome with skipped | started
      · rw [skipped.2]
        exact ⟨later, attributed.running, attributed.written⟩
      · rw [started.2]
        refine ⟨later, ?_, attributed.written⟩
        exact List.forall_mem_cons.mpr ⟨waiting job List.mem_cons_self, attributed.running⟩
  | write job key value =>
      obtain ⟨runs, owned, rfl⟩ := write_ok stepped
      refine ⟨attributed.waiting, attributed.running, ?_⟩
      intro other changed
      by_cases same : other = key
      · exact ⟨job, attributed.running job runs, same ▸ owned⟩
      · apply attributed.written other
        intro unchanged
        exact changed ((Function.update_of_ne same _ _).trans unchanged)
  | leave job =>
      obtain ⟨-, rfl⟩ := leave_ok stepped
      exact ⟨attributed.waiting, fun other member =>
        attributed.running other (List.mem_of_mem_erase member), attributed.written⟩
  | halt =>
      rw [halt_ok stepped]
      exact ⟨fun _ member => absurd member List.not_mem_nil,
        fun _ member => absurd member List.not_mem_nil, attributed.written⟩

theorem run_attributed {store : Key → Option Value} {launched : Job → Prop}
    {start final : Pool Job Key Value} {events : List (Event Job Key Value)}
    (attributed : Attributed plan store launched start)
    (launches : ∀ jobs, .launch jobs ∈ events → ∀ job ∈ jobs, launched job)
    (ran : Run.run (step plan) start events = .ok final) :
    Attributed plan store launched final := by
  apply Run.history_induction (fun _ pool => Attributed plan store launched pool) ran attributed
  intro past event rest middle next split _ kept stepped
  apply step_attributed kept _ stepped
  intro jobs isLaunch
  apply launches jobs
  rw [split, isLaunch]
  simp

/-! ## Jobs are handed out once and in order -/

/-- An event of an undisturbed launch: neither another launch nor a halt. -/
def Undisturbed : Event Job Key Value → Prop
  | .launch _ => False
  | .halt => False
  | _ => True

theorem step_pending (calm : Undisturbed event) (stepped : step plan pool event = .ok next) :
    (handed plan pool event).map Prod.fst ++ next.pending = pool.pending := by
  cases event with
  | launch jobs => exact calm.elim
  | next =>
      obtain ⟨job, rest, pending, -, skipped | started⟩ := next_ok stepped
      · rw [skipped.2, handed, pending]
        rfl
      · rw [started.2, handed, pending]
        rfl
  | write job key value =>
      obtain ⟨-, -, rfl⟩ := write_ok stepped
      rfl
  | leave job =>
      obtain ⟨-, rfl⟩ := leave_ok stepped
      rfl
  | halt => exact calm.elim

theorem run_pending {start final : Pool Job Key Value} {events : List (Event Job Key Value)}
    (calm : ∀ event ∈ events, Undisturbed event)
    (ran : Run.run (step plan) start events = .ok final) :
    (Run.observe (step plan) (handed plan) start events).map Prod.fst ++ final.pending =
      start.pending := by
  apply Run.history_induction (fun past pool =>
    (Run.observe (step plan) (handed plan) start past).map Prod.fst ++ pool.pending =
      start.pending) ran rfl
  intro past event rest middle next split reached kept stepped
  rw [Run.observe_concat reached, List.map_append, List.append_assoc,
    step_pending (calm event (by rw [split]; simp)) stepped]
  exact kept

/-! ## A launch that runs to its end -/

/-- A job waits, runs, or is done. -/
def Placed (plan : Plan Job Key Value) (pool : Pool Job Key Value) (job : Job) : Prop :=
  job ∈ pool.pending ∨ job ∈ pool.running ∨
    plan.done pool.store job = true ∧ job ∉ pool.running

theorem step_placed {job : Job} (sound : Sound plan pool) (calm : Undisturbed event)
    (leaves : ∀ other, event = .leave other → plan.done pool.store other = true)
    (placed : Placed plan pool job) (stepped : step plan pool event = .ok next) :
    Placed plan next job := by
  rcases placed with waits | runs | finished
  · cases event with
    | launch jobs => exact calm.elim
    | next =>
        obtain ⟨head, rest, pending, -, outcome⟩ := next_ok stepped
        rw [pending] at waits
        rcases List.mem_cons.mp waits with isHead | later
        · rw [isHead]
          have distinct := sound.distinct
          rw [pending, List.nodup_append] at distinct
          have notRunning : head ∉ pool.running := by
            intro member
            exact distinct.2.2 head member head List.mem_cons_self rfl
          rcases outcome with skipped | started
          · rw [skipped.2]
            exact Or.inr (Or.inr ⟨skipped.1, notRunning⟩)
          · rw [started.2]
            exact Or.inr (Or.inl List.mem_cons_self)
        · rcases outcome with skipped | started
          · rw [skipped.2]
            exact Or.inl later
          · rw [started.2]
            exact Or.inl later
    | write other key value =>
        obtain ⟨-, -, rfl⟩ := write_ok stepped
        exact Or.inl waits
    | leave other =>
        obtain ⟨-, rfl⟩ := leave_ok stepped
        exact Or.inl waits
    | halt => exact calm.elim
  · cases event with
    | launch jobs => exact calm.elim
    | next =>
        obtain ⟨head, rest, -, -, skipped | started⟩ := next_ok stepped
        · rw [skipped.2]
          exact Or.inr (Or.inl runs)
        · rw [started.2]
          exact Or.inr (Or.inl (List.mem_cons_of_mem head runs))
    | write other key value =>
        obtain ⟨-, -, rfl⟩ := write_ok stepped
        exact Or.inr (Or.inl runs)
    | leave other =>
        obtain ⟨-, rfl⟩ := leave_ok stepped
        by_cases isOther : job = other
        · rw [isOther]
          have distinct := (List.nodup_append.mp sound.distinct).1
          exact Or.inr (Or.inr ⟨leaves other rfl, distinct.not_mem_erase⟩)
        · exact Or.inr (Or.inl ((List.mem_erase_of_ne isOther).mpr runs))
    | halt => exact calm.elim
  · have final : Final plan pool.store job pool := ⟨fun _ _ => rfl, finished.1, finished.2⟩
    have kept := step_final final stepped
    exact Or.inr (Or.inr ⟨kept.done, kept.left⟩)

/-- When an undisturbed launch has come to its end, and every job that left had
completed its result, the results of all its jobs are complete. -/
theorem run_complete {start final : Pool Job Key Value} {events : List (Event Job Key Value)}
    (sound : Sound plan start) (calm : ∀ event ∈ events, Undisturbed event)
    (leaves : ∀ past job rest middle, events = past ++ .leave job :: rest →
      Run.run (step plan) start past = .ok middle → plan.done middle.store job = true)
    (ran : Run.run (step plan) start events = .ok final) (idle : Idle final) :
    ∀ job ∈ start.pending, plan.done final.store job = true := by
  intro job member
  have placed : Sound plan final ∧ Placed plan final job := by
    apply Run.history_induction (fun _ pool => Sound plan pool ∧ Placed plan pool job) ran
      ⟨sound, Or.inl member⟩
    intro past event rest middle next split reached kept stepped
    have calmEvent := calm event (by rw [split]; simp)
    have admissible : Admissible event := by
      cases event with
      | launch jobs => exact calmEvent.elim
      | next => trivial
      | write job key value => trivial
      | leave job => trivial
      | halt => trivial
    refine ⟨step_sound kept.1 admissible stepped, ?_⟩
    apply step_placed kept.1 calmEvent _ kept.2 stepped
    intro other isLeave
    exact leaves past other rest middle (isLeave ▸ split) reached
  rcases placed.2 with waits | runs | finished
  · rw [idle.1] at waits
    exact absurd waits List.not_mem_nil
  · rw [idle.2] at runs
    exact absurd runs List.not_mem_nil
  · exact finished.1

/-! ## A launch with nothing to do -/

/-- Nothing runs, and whatever waits is done. -/
structure Resting (plan : Plan Job Key Value) (store : Key → Option Value)
    (pool : Pool Job Key Value) : Prop where
  unchanged : pool.store = store
  waiting : ∀ job ∈ pool.pending, plan.done store job = true
  none_runs : pool.running = []

theorem step_resting {store : Key → Option Value} (resting : Resting plan store pool)
    (notLaunch : ∀ jobs, event = .launch jobs → ∀ job ∈ jobs, plan.done store job = true)
    (stepped : step plan pool event = .ok next) : Resting plan store next := by
  cases event with
  | launch jobs =>
      obtain ⟨-, rfl⟩ := launch_ok stepped
      exact ⟨resting.unchanged, notLaunch jobs rfl, resting.none_runs⟩
  | next =>
      obtain ⟨job, rest, pending, -, skipped | started⟩ := next_ok stepped
      · rw [skipped.2]
        refine ⟨resting.unchanged, ?_, resting.none_runs⟩
        intro later member
        exact resting.waiting later (pending ▸ List.mem_cons_of_mem job member)
      · have waiting := resting.waiting job (pending ▸ List.mem_cons_self)
        have notDone := started.1
        rw [resting.unchanged, waiting] at notDone
        exact Bool.noConfusion notDone
  | write job key value =>
      obtain ⟨runs, -⟩ := write_ok stepped
      rw [resting.none_runs] at runs
      exact absurd runs List.not_mem_nil
  | leave job =>
      obtain ⟨runs, -⟩ := leave_ok stepped
      rw [resting.none_runs] at runs
      exact absurd runs List.not_mem_nil
  | halt =>
      rw [halt_ok stepped]
      exact ⟨resting.unchanged, fun _ member => absurd member List.not_mem_nil, rfl⟩

/-- As long as only jobs with complete results are launched, none of them runs and
the store stays as it is. -/
theorem run_resting {store : Key → Option Value} {start final : Pool Job Key Value}
    {events : List (Event Job Key Value)} (resting : Resting plan store start)
    (launches : ∀ jobs, .launch jobs ∈ events → ∀ job ∈ jobs, plan.done store job = true)
    (ran : Run.run (step plan) start events = .ok final) : Resting plan store final := by
  apply Run.history_induction (fun _ pool => Resting plan store pool) ran resting
  intro past event rest middle next split _ kept stepped
  apply step_resting kept _ stepped
  intro jobs isLaunch
  apply launches jobs
  rw [split, isLaunch]
  simp

end Sidewalk.Foundation.WorkPool
