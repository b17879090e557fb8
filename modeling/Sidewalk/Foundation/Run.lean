import Mathlib.Tactic.TypeStar
import Mathlib.Data.List.Induction

/-!
Owns runs of a deterministic step function that can fault: the state after a
sequence of events, what a run lets an observer see at each of its steps, and
the induction rules that carry a fact about one step to a whole run. A rule may
speak about the events already taken, so that an invariant can relate a state to
its history. Two machines can be run side by side, a finer one simulating a
coarser one.

Does not own any particular machine.
-/

set_option autoImplicit false

namespace Sidewalk.Foundation.Run

variable {State Event Error Observation : Type}

/-- The state after a sequence of events; an event that faults ends the run. -/
def run (step : State → Event → Except Error State) : State → List Event → Except Error State
  | state, [] => .ok state
  | state, event :: events =>
      match step state event with
      | .error error => .error error
      | .ok next => run step next events

/-- What an observer who looks at every step of a run sees, in order. -/
def observe (step : State → Event → Except Error State)
    (view : State → Event → List Observation) : State → List Event → List Observation
  | _, [] => []
  | state, event :: events =>
      view state event ++
        match step state event with
        | .error _ => []
        | .ok next => observe step view next events

variable {step : State → Event → Except Error State}
  {view : State → Event → List Observation}

/-! ## Composition -/

@[simp] theorem run_nil (state : State) : run step state [] = .ok state := rfl

@[simp] theorem observe_nil (state : State) : observe step view state [] = [] := rfl

theorem run_cons {state next : State} {event : Event} (stepped : step state event = .ok next)
    (events : List Event) : run step state (event :: events) = run step next events := by
  simp only [run, stepped]

theorem observe_cons {state next : State} {event : Event} (stepped : step state event = .ok next)
    (events : List Event) :
    observe step view state (event :: events) =
      view state event ++ observe step view next events := by
  simp only [observe, stepped]

theorem run_cons_ok {state final : State} {event : Event} {events : List Event}
    (ran : run step state (event :: events) = .ok final) :
    ∃ next, step state event = .ok next ∧ run step next events = .ok final := by
  rw [run] at ran
  split at ran
  next => cases ran
  next next stepped => exact ⟨next, stepped, ran⟩

theorem run_single (state : State) (event : Event) :
    run step state [event] = step state event := by
  unfold run
  split
  next stepped => exact stepped.symm
  next stepped => exact stepped.symm

theorem run_append {state middle : State} {before : List Event}
    (ran : run step state before = .ok middle) (after : List Event) :
    run step state (before ++ after) = run step middle after := by
  induction before generalizing state with
  | nil =>
      rw [run_nil, Except.ok.injEq] at ran
      rw [ran, List.nil_append]
  | cons event before inductionHypothesis =>
      obtain ⟨next, stepped, rest⟩ := run_cons_ok ran
      rw [List.cons_append, run_cons stepped, inductionHypothesis rest]

theorem run_append_ok {state final : State} {before after : List Event}
    (ran : run step state (before ++ after) = .ok final) :
    ∃ middle, run step state before = .ok middle ∧ run step middle after = .ok final := by
  induction before generalizing state with
  | nil => exact ⟨state, rfl, ran⟩
  | cons event before inductionHypothesis =>
      obtain ⟨next, stepped, rest⟩ := run_cons_ok ran
      obtain ⟨middle, first, second⟩ := inductionHypothesis rest
      exact ⟨middle, (run_cons stepped before).trans first, second⟩

theorem run_concat_ok {state final : State} {before : List Event} {event : Event}
    (ran : run step state (before ++ [event]) = .ok final) :
    ∃ middle, run step state before = .ok middle ∧ step middle event = .ok final := by
  obtain ⟨middle, first, last⟩ := run_append_ok ran
  obtain ⟨next, stepped, rest⟩ := run_cons_ok last
  rw [run_nil, Except.ok.injEq] at rest
  exact ⟨middle, first, rest ▸ stepped⟩

theorem run_concat {state middle final : State} {before : List Event} {event : Event}
    (ran : run step state before = .ok middle) (stepped : step middle event = .ok final) :
    run step state (before ++ [event]) = .ok final := by
  rw [run_append ran, run_cons stepped, run_nil]

/-- A run that faults does so at one of its events, after a run that does not. -/
theorem run_error_split {state : State} {error : Error} {events : List Event}
    (ran : run step state events = .error error) :
    ∃ past event rest middle, events = past ++ event :: rest ∧
      run step state past = .ok middle ∧ step middle event = .error error := by
  induction events generalizing state with
  | nil => cases ran
  | cons event events inductionHypothesis =>
      cases stepped : step state event with
      | error fault =>
          rw [run, stepped] at ran
          exact ⟨[], event, events, state, rfl, rfl, stepped.trans ran⟩
      | ok next =>
          rw [run_cons stepped] at ran
          obtain ⟨past, last, rest, middle, split, first, faults⟩ := inductionHypothesis ran
          exact ⟨event :: past, last, rest, middle, congrArg (event :: ·) split,
            (run_cons stepped past).trans first, faults⟩

theorem observe_append {state middle : State} {before : List Event}
    (ran : run step state before = .ok middle) (after : List Event) :
    observe step view state (before ++ after) =
      observe step view state before ++ observe step view middle after := by
  induction before generalizing state with
  | nil =>
      rw [run_nil, Except.ok.injEq] at ran
      rw [ran, List.nil_append, observe_nil, List.nil_append]
  | cons event before inductionHypothesis =>
      obtain ⟨next, stepped, rest⟩ := run_cons_ok ran
      rw [List.cons_append, observe_cons stepped, observe_cons stepped, inductionHypothesis rest,
        List.append_assoc]

theorem observe_concat {state middle : State} {before : List Event} {event : Event}
    (ran : run step state before = .ok middle) :
    observe step view state (before ++ [event]) =
      observe step view state before ++ view middle event := by
  rw [observe_append ran]
  congr 1
  unfold observe
  split <;> simp

/-- What is observed is seen at some step of the run, in the state before it. -/
theorem mem_observe {state : State} {events : List Event} {observation : Observation}
    (seen : observation ∈ observe step view state events) :
    ∃ before event after middle, events = before ++ event :: after ∧
      run step state before = .ok middle ∧ observation ∈ view middle event := by
  induction events generalizing state with
  | nil => exact absurd seen List.not_mem_nil
  | cons event events inductionHypothesis =>
      rw [observe] at seen
      rcases List.mem_append.mp seen with here | later
      · exact ⟨[], event, events, state, rfl, rfl, here⟩
      · split at later
        next => exact absurd later List.not_mem_nil
        next next stepped =>
          obtain ⟨before, found, after, middle, split, ran, member⟩ := inductionHypothesis later
          exact ⟨event :: before, found, after, middle, congrArg (event :: ·) split,
            (run_cons stepped before).trans ran, member⟩

/-- What is seen at a step of a run is observed. -/
theorem mem_observe_of_run {state middle : State} {before after : List Event} {event : Event}
    {observation : Observation} (ran : run step state before = .ok middle)
    (seen : observation ∈ view middle event) :
    observation ∈ observe step view state (before ++ event :: after) := by
  rw [observe_append ran, observe]
  exact List.mem_append_right _ (List.mem_append_left _ seen)

variable (step) in
/-- Observations whose keys each come from their event inherit the order and the
multiplicity of the keys of the events. -/
theorem observe_sublist {Key : Type} (key : Observation → Key) (keys : Event → List Key)
    (each : ∀ state event, ((view state event).map key).Sublist (keys event)) (state : State)
    (events : List Event) :
    ((observe step view state events).map key).Sublist (events.flatMap keys) := by
  induction events generalizing state with
  | nil => exact List.Sublist.refl []
  | cons event events inductionHypothesis =>
      rw [observe, List.map_append, List.flatMap_cons]
      apply (each state event).append
      split
      next => exact List.nil_sublist _
      next next _ => exact inductionHypothesis next

/-- Observing through a function of lists that respects concatenation. -/
theorem observe_map {Other : Type} {other : State → Event → List Other}
    (f : List Observation → List Other) (empty : f [] = [])
    (append : ∀ before after, f (before ++ after) = f before ++ f after)
    (through : ∀ state event, f (view state event) = other state event) (state : State)
    (events : List Event) :
    f (observe step view state events) = observe step other state events := by
  induction events generalizing state with
  | nil => exact empty
  | cons event events inductionHypothesis =>
      rw [observe, observe, append, through]
      split
      next => rw [empty]
      next next stepped => rw [inductionHypothesis]

/-! ## Induction rules -/

/-- What holds at the start and is preserved by every step, given the events
taken so far, holds at the end of every run with the whole history. -/
theorem history_induction (invariant : List Event → State → Prop) {start final : State}
    {events : List Event} (ran : run step start events = .ok final)
    (initial : invariant [] start)
    (preserved : ∀ past event rest middle next, events = past ++ event :: rest →
      run step start past = .ok middle → invariant past middle →
      step middle event = .ok next → invariant (past ++ [event]) next) :
    invariant events final := by
  induction events using List.reverseRecOn generalizing final with
  | nil =>
      rw [run_nil, Except.ok.injEq] at ran
      exact ran ▸ initial
  | append_singleton past event inductionHypothesis =>
      obtain ⟨middle, first, stepped⟩ := run_concat_ok ran
      refine preserved past event [] middle final rfl first ?_ stepped
      apply inductionHypothesis first
      intro earlier current rest middle next split
      apply preserved earlier current (rest ++ [event]) middle next
      rw [split, List.append_assoc, List.cons_append]

variable (step) in
/-- A run whose events are all admissible never faults while the invariant
holds, and the invariant holds at its end. -/
theorem run_total (invariant : State → Prop) {admissible : Event → Prop}
    (progress : ∀ state event, invariant state → admissible event →
      ∃ next, step state event = .ok next ∧ invariant next)
    {start : State} (initial : invariant start) {events : List Event}
    (all : ∀ event ∈ events, admissible event) :
    ∃ final, run step start events = .ok final ∧ invariant final := by
  induction events generalizing start with
  | nil => exact ⟨start, rfl, initial⟩
  | cons event events inductionHypothesis =>
      obtain ⟨next, stepped, kept⟩ := progress start event initial (all event (by simp))
      obtain ⟨final, rest, holds⟩ :=
        inductionHypothesis kept fun event member => all event (List.mem_cons_of_mem _ member)
      exact ⟨final, (run_cons stepped events).trans rest, holds⟩

/-! ## Simulation -/

variable {Fine FineEvent FineError : Type}

/-- Two results agree: both are states that are related, or both are faults that
correspond. -/
def Agrees (related : Fine → State → Prop) (sameFault : FineError → Error → Prop) :
    Except FineError Fine → Except Error State → Prop
  | .ok fineState, .ok state => related fineState state
  | .error fineError, .error error => sameFault fineError error
  | .ok _, .error _ => False
  | .error _, .ok _ => False

theorem run_append_error {state : State} {error : Error} {before : List Event}
    (ran : run step state before = .error error) (after : List Event) :
    run step state (before ++ after) = .error error := by
  induction before generalizing state with
  | nil => cases ran
  | cons event before inductionHypothesis =>
      cases stepped : step state event with
      | error fault =>
          simp only [run, stepped] at ran
          simp only [List.cons_append, run, stepped, ran]
      | ok next =>
          rw [run_cons stepped] at ran
          rw [List.cons_append, run_cons stepped]
          exact inductionHypothesis ran

/-- A finer machine whose every step from related states agrees with the step of
the coarser one agrees with it over every run, and the two fault together. -/
theorem run_agrees {fine : Fine → FineEvent → Except FineError Fine}
    (coarse : FineEvent → Event) {related : Fine → State → Prop}
    {sameFault : FineError → Error → Prop} {fineStart : Fine} {start : State}
    (initial : related fineStart start) (events : List FineEvent)
    (simulated : ∀ past event rest fineState state, events = past ++ event :: rest →
      run fine fineStart past = .ok fineState → run step start (past.map coarse) = .ok state →
      related fineState state →
      Agrees related sameFault (fine fineState event) (step state (coarse event))) :
    Agrees related sameFault (run fine fineStart events)
      (run step start (events.map coarse)) := by
  induction events using List.reverseRecOn with
  | nil => exact initial
  | append_singleton past event inductionHypothesis =>
      have earlier := inductionHypothesis fun before current rest fineState state split =>
        simulated before current (rest ++ [event]) fineState state (by rw [split]; simp)
      rw [List.map_append, List.map_singleton]
      cases ranFine : run fine fineStart past with
      | error fineError =>
          cases ran : run step start (past.map coarse) with
          | error error =>
              rw [run_append_error ranFine, run_append_error ran]
              rwa [ranFine, ran] at earlier
          | ok state =>
              rw [ranFine, ran] at earlier
              exact earlier.elim
      | ok fineState =>
          cases ran : run step start (past.map coarse) with
          | error error =>
              rw [ranFine, ran] at earlier
              exact earlier.elim
          | ok state =>
              rw [ranFine, ran] at earlier
              have here := simulated past event [] fineState state rfl ranFine ran earlier
              rw [run_append ranFine, run_append ran, run_single, run_single]
              exact here

/-- When every step of a finer machine is matched by a step of the coarser one from
related states, every run is matched, each of its prefixes by one of the coarser
run, and what the two let an observer see agrees. -/
theorem run_refines {fine : Fine → FineEvent → Except FineError Fine}
    {matched : FineEvent → Event → Prop} {related : Fine → State → Prop}
    {FineObservation : Type} {fineView : Fine → FineEvent → List FineObservation}
    {read : Observation → FineObservation}
    (simulated : ∀ {fineState fineNext state fineEvent}, related fineState state →
      fine fineState fineEvent = .ok fineNext → ∃ event next, matched fineEvent event ∧
        step state event = .ok next ∧ related fineNext next ∧
        fineView fineState fineEvent = (view state event).map read)
    {fineStart fineFinal : Fine} {start : State} {fineEvents : List FineEvent}
    (initial : related fineStart start) (ran : run fine fineStart fineEvents = .ok fineFinal) :
    ∃ events final, List.Forall₂ matched fineEvents events ∧ run step start events = .ok final ∧
      related fineFinal final ∧
      observe fine fineView fineStart fineEvents = (observe step view start events).map read ∧
      ∀ past rest, events = past ++ rest → ∃ finePast fineRest fineMiddle middle,
        fineEvents = finePast ++ fineRest ∧ List.Forall₂ matched fineRest rest ∧
        run fine fineStart finePast = .ok fineMiddle ∧ run step start past = .ok middle ∧
        related fineMiddle middle := by
  induction fineEvents generalizing fineStart start with
  | nil =>
      obtain rfl : fineStart = fineFinal := Except.ok.inj ran
      refine ⟨[], start, List.Forall₂.nil, rfl, initial, rfl, ?_⟩
      intro past rest split
      obtain ⟨rfl, rfl⟩ := List.append_eq_nil_iff.mp split.symm
      exact ⟨[], [], fineStart, start, rfl, List.Forall₂.nil, rfl, rfl, initial⟩
  | cons fineEvent fineEvents inductionHypothesis =>
      obtain ⟨fineNext, fineStepped, fineRan⟩ := run_cons_ok ran
      obtain ⟨event, next, isMatch, stepped, kept, seen⟩ := simulated initial fineStepped
      obtain ⟨events, final, matches', ran', relates, observed, prefixes⟩ :=
        inductionHypothesis kept fineRan
      refine ⟨event :: events, final, List.Forall₂.cons isMatch matches',
        (run_cons stepped events).trans ran', relates, ?_, ?_⟩
      · rw [observe_cons fineStepped, observe_cons stepped, List.map_append, seen, observed]
      · intro past rest split
        cases past with
        | nil =>
            rw [List.nil_append] at split
            exact ⟨[], fineEvent :: fineEvents, fineStart, start, rfl,
              split ▸ List.Forall₂.cons isMatch matches', rfl, rfl, initial⟩
        | cons first past =>
            obtain ⟨rfl, later⟩ := List.cons_eq_cons.mp split
            obtain ⟨finePast, fineRest, fineMiddle, middle, fineSplit, restMatches, finePrefix,
              coarsePrefix, middleRelated⟩ := prefixes past rest later
            exact ⟨fineEvent :: finePast, fineRest, fineMiddle, middle,
              congrArg (fineEvent :: ·) fineSplit, restMatches,
              (run_cons fineStepped finePast).trans finePrefix,
              (run_cons stepped past).trans coarsePrefix, middleRelated⟩

end Sidewalk.Foundation.Run
