import Mathlib.Data.List.ProdSigma
import Sidewalk.Cosim.EndToEnd

/-!
Owns how much the gateway remembers between rounds: after every run of rounds its
table of transmissions holds the packets of the last second and nothing else, at
most one for each robot and step, and no delivery is pending.

Does not own what the bridge keeps: its recorded latencies grow with the run.
-/

set_option autoImplicit false

namespace Sidewalk.Cosim

open Sidewalk.Foundation Sidewalk.Protocol Sidewalk.Bridge Sidewalk.Gateway

variable {n : Nat} {Coord : Type} {setting : Setting n Coord}

/-- The number of steps in a second, the one it starts with included. -/
def stepsPerSecond (setting : Setting n Coord) : Nat := 1000 / setting.params.stepMs + 1

theorem timeAt_inj (positive : 0 < setting.params.stepMs) {j k : Nat} :
    timeAt setting j = timeAt setting k ↔ j = k := by
  have step : (setting.params.stepMs : Int) * 1000000 ≠ 0 := by omega
  unfold timeAt
  rw [Int.mul_eq_mul_right_iff step]
  exact Int.ofNat_inj

/-- A step is at most a second before another one if and only if few steps are
between them. -/
theorem young_iff (positive : 0 < setting.params.stepMs) {k last : Nat} (le : k ≤ last) :
    timeAt setting last - timeAt setting k ≤ seconds 1 ↔ last - k < stepsPerSecond setting := by
  have difference : timeAt setting last - timeAt setting k =
      ((last - k) * setting.params.stepMs : Nat) * 1000000 := by
    unfold timeAt
    rw [← Int.sub_mul, ← Int.natCast_sub le, Int.natCast_mul, Int.mul_assoc]
  have within :
      (last - k) * setting.params.stepMs ≤ 1000 ↔ last - k ≤ 1000 / setting.params.stepMs :=
    (Nat.le_div_iff_mul_le positive).symm
  unfold stepsPerSecond
  rw [difference, Nat.lt_succ_iff, ← within, seconds]
  omega

/-- Every entry of the table is the packet of a round of the last second. -/
theorem entry_of_round (lawful : setting.Lawful) (positive : 0 < setting.params.stepMs)
    {rounds : List (Round n Coord)} {system : Coupled n Coord}
    (ran : Run.run (step setting) (Coupled.initial setting) rounds = .ok system)
    {entry : Uid × TxRecord n} (member : entry ∈ system.gateway.tx.entries) :
    ∃ k round, rounds[k]? = some round ∧ round.packet entry.2.robot = some entry.1 ∧
      entry.2.time = timeAt setting k ∧ rounds.length - 1 - k < stepsPerSecond setting := by
  have between := between_run lawful ran
  have found := AssocMap.find?_eq_some_iff.mpr member
  obtain ⟨earlier, sender, later, rfl, emits, sentAt⟩ := between.emitted _ _ found
  have young := between.young _ _ found
  have position : earlier.length ≤ (earlier ++ sender :: later).length - 1 := by
    rw [List.length_append, List.length_cons]
    omega
  rw [sentAt, young_iff positive position] at young
  refine ⟨earlier.length, sender, ?_, emits.2.2, sentAt, young⟩
  rw [List.getElem?_append_right (Nat.le_refl _), Nat.sub_self, List.getElem?_cons_zero]

/-- The robot and the time of an entry determine it. -/
theorem entry_unique (lawful : setting.Lawful) (positive : 0 < setting.params.stepMs)
    {rounds : List (Round n Coord)} {system : Coupled n Coord}
    (ran : Run.run (step setting) (Coupled.initial setting) rounds = .ok system)
    {entry other : Uid × TxRecord n} (member : entry ∈ system.gateway.tx.entries)
    (otherMember : other ∈ system.gateway.tx.entries) (same : entry.2 = other.2) :
    entry = other := by
  obtain ⟨k, round, position, packet, time, -⟩ := entry_of_round lawful positive ran member
  obtain ⟨j, otherRound, otherPosition, otherPacket, otherTime, -⟩ :=
    entry_of_round lawful positive ran otherMember
  rw [← same] at otherPacket otherTime
  obtain rfl := (timeAt_inj positive).mp (time.symm.trans otherTime)
  obtain rfl := Option.some.inj (position.symm.trans otherPosition)
  exact Prod.ext (Option.some.inj (packet.symm.trans otherPacket)) same

/-- However long the co-simulation runs, between rounds the gateway remembers at most
one packet for each robot and step of the last second, and no delivery is pending.
When packets have distinct uids, the table holds exactly the packets that can be
traced to an emission within the second. -/
theorem gateway_remembers_last_second (setting : Setting n Coord) (lawful : setting.Lawful)
    (positive : 0 < setting.params.stepMs) {rounds : List (Round n Coord)}
    {system : Coupled n Coord}
    (ran : Run.run (step setting) (Coupled.initial setting) rounds = .ok system) :
    system.gateway.tx.entries.length ≤ n * (1000 / setting.params.stepMs + 1) ∧
      (∀ i, system.gateway.deliveries i = []) ∧
      (UniquePackets rounds → ∀ uid record, system.gateway.tx.find? uid = some record ↔
        Traceable setting rounds uid record) := by
  have between := between_run lawful ran
  refine ⟨?_, ?_, ?_⟩
  · -- entries are distinct pairs of a robot and a step
    let pairs := (List.finRange n).product
      ((List.range (stepsPerSecond setting)).map fun j => timeAt setting (rounds.length - 1 - j))
    have distinct : (system.gateway.tx.entries.map fun entry =>
        (entry.2.robot, entry.2.time)).Nodup := by
      have entries : system.gateway.tx.entries.Nodup :=
        system.gateway.tx.ascending.imp fun below same => absurd (same ▸ below) (lt_irrefl _)
      apply entries.map_on
      intro entry member other otherMember same
      apply entry_unique lawful positive ran member otherMember
      obtain ⟨robot, time⟩ := Prod.mk.inj same
      cases entryRecord : entry.2
      cases otherRecord : other.2
      simp_all
    have within : (system.gateway.tx.entries.map fun entry =>
        (entry.2.robot, entry.2.time)) ⊆ pairs := by
      intro pair member
      obtain ⟨entry, inTable, rfl⟩ := List.mem_map.mp member
      obtain ⟨k, round, inRounds, -, time, recent⟩ := entry_of_round lawful positive ran inTable
      obtain ⟨bound, -⟩ := List.getElem?_eq_some_iff.mp inRounds
      apply List.mem_product.mpr
      refine ⟨List.mem_finRange _, List.mem_map.mpr ⟨rounds.length - 1 - k, ?_, ?_⟩⟩
      · exact List.mem_range.mpr recent
      · rw [time]
        congr 1
        omega
    have size : pairs.length = n * stepsPerSecond setting := by
      apply (List.length_product _ _).trans
      rw [List.length_finRange, List.length_map, List.length_range]
    have count := (distinct.subperm within).length_le
    rw [List.length_map, size] at count
    exact count
  · obtain ⟨events, atUpdate, ranEvents⟩ := between.updated
    intro i
    rw [deliveries_of_atUpdate ranEvents atUpdate]
  · exact fun unique => find?_iff_traceable lawful ran unique

/-- After the overtaken run the table of two robots holds at most two packets. -/
theorem gateway_remembers_last_second_overtaken :
    ∃ system, Run.run (step twoRobots) (Coupled.initial twoRobots) overtaken = .ok system ∧
      system.gateway.tx.entries.length ≤ 2 := by
  obtain ⟨system, ran⟩ := lockstep_total twoRobots_lawful overtaken_schedule
  obtain ⟨bound, -, -⟩ := gateway_remembers_last_second twoRobots twoRobots_lawful (by decide) ran
  exact ⟨system, ran, bound⟩

end Sidewalk.Cosim
