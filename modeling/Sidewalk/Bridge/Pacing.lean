import Sidewalk.Bridge.Loop
import Sidewalk.Foundation.Pacing

/-!
Owns the pacing of the loop of `BridgeNode::run` to the wall clock. Pacing changes
nothing of what the loop sends, handles and logs. With `realtime` no turn begins
before its simulation time has passed on the wall, and how far it is behind depends
only on the worst stretch of turns so far.

Does not own the clock: how long each turn works, and how late the sleep ends, is
given in nanoseconds.
-/

set_option autoImplicit false

namespace Sidewalk.Bridge

open Sidewalk.Foundation Sidewalk.Foundation.Pacing

/-- A turn, the time from its beginning to `sleep_until`, and the time from the end of
the sleep that is due to the beginning of the next turn, a report included. -/
structure PacedTurn (n : Nat) (Coord : Type) extends Turn n Coord where
  work : Nat
  late : Nat

/-- The loop between turns, the steady clock and `next_wall`. -/
structure Paced (n : Nat) (Coord : Type) where
  loop : Loop n Coord
  wall : Int
  nextWall : Int

variable {n : Nat} {Coord : Type}

/-- The loop before its first turn, at the time `start` of the clock. -/
def Paced.initial (n : Nat) (origin : Pose Coord) (start : Int) : Paced n Coord where
  loop := Loop.initial n origin
  wall := start
  nextWall := start

/-- `step` in nanoseconds. -/
def LoopParams.stepNs (params : LoopParams Coord) : Int := params.stepMs * 1000000

/-- One turn of the loop, with its pacing. -/
def pacedTurn (params : LoopParams Coord) (realtime : Bool) (paced : Paced n Coord)
    (now : PacedTurn n Coord) : Except (Ending n Coord) (Paced n Coord) :=
  match turn params paced.loop now.toTurn with
  | .error ending => .error ending
  | .ok loop =>
      let ready := paced.wall + now.work
      if realtime then
        let nextWall := paced.nextWall + params.stepNs
        .ok ⟨loop, max ready nextWall + now.late, nextWall⟩
      else .ok ⟨loop, ready + now.late, paced.nextWall⟩

/-- What a turn takes of the wall clock. -/
def PacedTurn.job (now : PacedTurn n Coord) : Job Int := ⟨now.work, now.late⟩

/-- How far the wall clock is past the simulation time. -/
def Paced.lag (start : Int) (paced : Paced n Coord) : Int :=
  paced.wall - (start + paced.loop.simNs)

/-! ## Runs -/

/-- Pacing is invisible to the loop. -/
theorem pacedTurn_agrees (params : LoopParams Coord) (realtime : Bool) (origin : Pose Coord)
    (start : Int) (turns : List (PacedTurn n Coord)) :
    Run.Agrees (fun (paced : Paced n Coord) loop => paced.loop = loop) Eq
      (Run.run (pacedTurn params realtime) (Paced.initial n origin start) turns)
      (Run.run (turn params) (Loop.initial n origin) (turns.map PacedTurn.toTurn)) := by
  refine Run.run_agrees PacedTurn.toTurn ?_ turns ?_
  · rfl
  · rintro past now rest paced loop - - - rfl
    unfold pacedTurn
    cases turn params paced.loop now.toTurn with
    | error ending => rfl
    | ok next =>
        cases realtime with
        | true => rfl
        | false => rfl

variable {params : LoopParams Coord} {origin : Pose Coord} {start : Int}

/-- With `realtime` the lag follows the recursion of paced loops. -/
theorem lag_run {turns : List (PacedTurn n Coord)} {paced : Paced n Coord}
    (ran : Run.run (pacedTurn params true) (Paced.initial n origin start) turns = .ok paced) :
    paced.nextWall = start + paced.loop.simNs ∧
      paced.lag start = lagAfter params.stepNs (turns.map PacedTurn.job) := by
  refine Run.history_induction (fun past paced => paced.nextWall = start + paced.loop.simNs ∧
    paced.lag start = lagAfter params.stepNs (past.map PacedTurn.job)) ran ?_ ?_
  · simp [Paced.initial, Paced.lag, Loop.initial, lagAfter]
  · intro past now rest paced next _ _ earlier stepped
    obtain ⟨deadline, lag⟩ := earlier
    unfold pacedTurn at stepped
    split at stepped
    next => cases stepped
    next loop turned =>
      obtain ⟨receiver, answered⟩ := turn_ok turned
      have clock : loop.simNs = paced.loop.simNs + params.stepNs := answered.simNs
      rw [if_pos rfl, Except.ok.injEq] at stepped
      subst stepped
      rw [List.map_append, List.map_singleton, lagAfter_concat, ← lag]
      unfold Paced.lag at lag ⊢
      simp only [nextLag, PacedTurn.job, deadline, clock]
      constructor
      · omega
      · omega

/-- Every run of the paced loop is, without its clock, a run of the loop. With `realtime`
no turn begins before its simulation time has passed, and the lag is that of the
worst stretch of turns: the lateness of waking up before it and what its turns took
beyond their steps. Turns that fit the step make up for a lag by their slack, until
only the lateness of waking up is left; a loop whose turns all fit and that wakes up
in time is never behind. -/
theorem realtime_keeps_pace (params : LoopParams Coord) (origin : Pose Coord) (start : Int)
    (turns : List (PacedTurn n Coord)) :
    Run.Agrees (fun (paced : Paced n Coord) loop => paced.loop = loop) Eq
        (Run.run (pacedTurn params true) (Paced.initial n origin start) turns)
        (Run.run (turn params) (Loop.initial n origin) (turns.map PacedTurn.toTurn)) ∧
      ∀ paced, Run.run (pacedTurn params true) (Paced.initial n origin start) turns = .ok paced →
        0 ≤ paced.lag start ∧
        IsGreatest (stretches params.stepNs (turns.map PacedTurn.job)) (paced.lag start) ∧
        (∀ past rest bound, turns = past ++ rest →
          (∀ now ∈ rest, now.job.cost ≤ params.stepNs ∧ now.job.late ≤ bound) →
          ∃ middle, Run.run (pacedTurn params true) (Paced.initial n origin start) past =
              .ok middle ∧
            paced.lag start ≤ max
              (middle.lag start + excess params.stepNs (rest.map PacedTurn.job)) bound) ∧
        ((∀ now ∈ turns, now.job.work ≤ params.stepNs ∧ now.job.late = 0) →
          paced.lag start = 0) := by
  refine ⟨pacedTurn_agrees params true origin start turns, ?_⟩
  intro paced ran
  obtain ⟨-, lag⟩ := lag_run ran
  have ahead : 0 ≤ paced.lag start := by
    rw [lag]
    apply lagAfter_nonneg
    rw [List.forall_mem_map]
    intro now _
    exact Int.natCast_nonneg now.late
  refine ⟨ahead, lag ▸ lagAfter_greatest _ _, ?_, ?_⟩
  · rintro past rest bound rfl fits
    obtain ⟨middle, ranPast, -⟩ := Run.run_append_ok ran
    refine ⟨middle, ranPast, ?_⟩
    rw [lag, (lag_run ranPast).2, List.map_append]
    apply lagAfter_append_le
    · rw [List.forall_mem_map]
      intro now inRest
      exact (fits now inRest).1
    · rw [List.forall_mem_map]
      intro now inRest
      exact (fits now inRest).2
  · intro punctual
    rw [lag]
    apply lagAfter_eq_zero
    rwa [List.forall_mem_map]

/-- `silent`, with 25 ms of work and awake in time. -/
def slow : PacedTurn 1 Int := { silent with work := 25000000, late := 0 }

/-- `silent`, with 1 ms of work and awake in time. -/
def quick : PacedTurn 1 Int := { silent with work := 1000000, late := 0 }

/-- A turn of 25 ms in steps of 10 ms leaves a lag, and the next one makes up 9 ms. -/
theorem realtime_keeps_pace_briefly :
    ∃ middle paced,
      Run.run (pacedTurn briefly true) (Paced.initial 1 ⟨0, 0, 0, 0, 0, 0, 1⟩ 0) [slow] =
        .ok middle ∧
      Run.run (pacedTurn briefly true) (Paced.initial 1 ⟨0, 0, 0, 0, 0, 0, 1⟩ 0) [slow, quick] =
        .ok paced ∧
      0 ≤ paced.lag 0 ∧ paced.lag 0 ≤ max (middle.lag 0 - 9000000) 0 := by
  have goesOn : (match Run.run (pacedTurn briefly true)
      (Paced.initial 1 ⟨0, 0, 0, 0, 0, 0, 1⟩ 0) [slow, quick] with
    | .ok _ => true
    | .error _ => false) = true := by decide +kernel
  have slack : excess briefly.stepNs ([quick].map PacedTurn.job) = -9000000 := by decide +kernel
  cases ran : Run.run (pacedTurn briefly true)
      (Paced.initial 1 ⟨0, 0, 0, 0, 0, 0, 1⟩ 0) [slow, quick] with
  | error ending =>
      rw [ran] at goesOn
      cases goesOn
  | ok paced =>
      obtain ⟨ahead, -, recovers, -⟩ :=
        (realtime_keeps_pace briefly ⟨0, 0, 0, 0, 0, 0, 1⟩ 0 [slow, quick]).2 paced ran
      obtain ⟨middle, ranPast, caughtUp⟩ := recovers [slow] [quick] 0 rfl (by decide +kernel)
      rw [slack] at caughtUp
      exact ⟨middle, paced, ranPast, rfl, ahead, caughtUp⟩

end Sidewalk.Bridge
