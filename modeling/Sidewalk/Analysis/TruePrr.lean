import Mathlib.Algebra.BigOperators.Group.Finset.Sigma
import Mathlib.Algebra.BigOperators.Ring.Finset
import Mathlib.Algebra.Order.Field.Basic
import Mathlib.Data.Fintype.Card
import Mathlib.Data.Rat.Cast.Order
import Mathlib.Tactic.Ring
import Sidewalk.Analysis.Kpis

/-!
Owns what the reception ratio of `kpis` means: the robots of a run, the tables
such a run can write, and the pairs of a packet and another robot it should
reach. The ratio of row counts is the fraction of these pairs that were
delivered, and every received row contributes its own latency.

Does not own how ns-3 writes the table.
-/

set_option autoImplicit false

namespace Sidewalk.Analysis

open Sidewalk.Foundation

variable {Ip : Type} [DecidableEq Ip] {N : Nat}

/-- The robots of a run, each with the id of its node and its address. -/
structure Robots (N : Nat) (Ip : Type) where
  nodeId : Fin N → Nat
  ip : Fin N → Ip
  nodeId_injective : Function.Injective nodeId
  ip_injective : Function.Injective ip

/-- A table a run can write: every robot transmits, packets are identified by
their source and sequence number, and a packet is received at most once by each
other robot and never by its sender. -/
structure RunTable (robots : Robots N Ip) (p : List (PktRow Ip)) : Prop where
  transmitters : ∀ tx ∈ txRows p, ∃ i, tx.srcIp = robots.ip i
  everyRobot : ∀ i, ∃ tx ∈ txRows p, tx.srcIp = robots.ip i
  uniquePackets : ((txRows p).map PktRow.packet).Nodup
  refers : ∀ rx ∈ rxRows p, ∃ tx ∈ txRows p, tx.packet = rx.packet
  receivers : ∀ rx ∈ rxRows p, ∃ i, rx.nodeId = robots.nodeId i ∧ rx.srcIp ≠ robots.ip i
  atMostOnce : ((rxRows p).map fun rx => (rx.packet, rx.nodeId)).Nodup

/-! ## Packets and their other robots -/

/-- The transmitted packets. -/
def packets (p : List (PktRow Ip)) : Finset (Ip × Nat) := ((txRows p).map PktRow.packet).toFinset

/-- The pairs of a packet and a robot other than its sender. -/
def pairs (robots : Robots N Ip) (p : List (PktRow Ip)) : Finset ((Ip × Nat) × Fin N) :=
  (packets p ×ˢ Finset.univ).filter fun pair => robots.ip pair.2 ≠ pair.1.1

/-- The robot of a pair received its packet. -/
def Delivered (robots : Robots N Ip) (p : List (PktRow Ip)) (pair : (Ip × Nat) × Fin N) : Prop :=
  ∃ rx ∈ rxRows p, rx.packet = pair.1 ∧ rx.nodeId = robots.nodeId pair.2

instance (robots : Robots N Ip) (p : List (PktRow Ip)) (pair : (Ip × Nat) × Fin N) :
    Decidable (Delivered robots p pair) :=
  inferInstanceAs (Decidable (∃ rx ∈ rxRows p, rx.packet = pair.1 ∧ _))

/-- The pairs that were delivered. -/
def delivered (robots : Robots N Ip) (p : List (PktRow Ip)) : Finset ((Ip × Nat) × Fin N) :=
  (pairs robots p).filter (Delivered robots p)

variable {robots : Robots N Ip} {p : List (PktRow Ip)}

theorem mem_packets {packet : Ip × Nat} :
    packet ∈ packets p ↔ ∃ tx ∈ txRows p, tx.packet = packet := by
  simp [packets]

theorem mem_pairs {packet : Ip × Nat} {i : Fin N} :
    (packet, i) ∈ pairs robots p ↔ packet ∈ packets p ∧ robots.ip i ≠ packet.1 := by
  simp [pairs]

omit [DecidableEq Ip] in
theorem mem_tx_or_rx {row : PktRow Ip} (member : row ∈ p) : row ∈ txRows p ∨ row ∈ rxRows p := by
  cases name : row.txRx with
  | tx => exact Or.inl (List.mem_filter.mpr ⟨member, by simp [name]⟩)
  | rx => exact Or.inr (List.mem_filter.mpr ⟨member, by simp [name]⟩)

/-! ## Counting -/

theorem nNodes_eq (table : RunTable robots p) : nNodes p = N := by
  have sources : (p.map PktRow.srcIp).toFinset = Finset.univ.image robots.ip := by
    ext ip
    simp only [List.mem_toFinset, List.mem_map, Finset.mem_image, Finset.mem_univ, true_and]
    constructor
    · intro source
      obtain ⟨row, member, rfl⟩ := source
      rcases mem_tx_or_rx member with isTx | isRx
      · obtain ⟨i, same⟩ := table.transmitters row isTx
        exact ⟨i, same.symm⟩
      · obtain ⟨tx, isTx, packet⟩ := table.refers row isRx
        obtain ⟨i, same⟩ := table.transmitters tx isTx
        exact ⟨i, same.symm.trans (congrArg Prod.fst packet)⟩
    · intro robot
      obtain ⟨i, rfl⟩ := robot
      obtain ⟨tx, isTx, same⟩ := table.everyRobot i
      exact ⟨tx, List.mem_of_mem_filter isTx, same⟩
  unfold nNodes
  rw [KeyedTable.nunique_eq_card, sources, Finset.card_image_of_injective _ robots.ip_injective,
    Finset.card_univ, Fintype.card_fin]

theorem packets_card (table : RunTable robots p) : (packets p).card = (txRows p).length := by
  unfold packets
  rw [List.toFinset_card_of_nodup table.uniquePackets, List.length_map]

theorem others_card (table : RunTable robots p) {packet : Ip × Nat} (sent : packet ∈ packets p) :
    (Finset.univ.filter fun i => robots.ip i ≠ packet.1).card = N - 1 := by
  obtain ⟨tx, isTx, rfl⟩ := mem_packets.mp sent
  obtain ⟨sender, source⟩ := table.transmitters tx isTx
  have others : (Finset.univ.filter fun i => robots.ip i ≠ tx.packet.1) =
      Finset.univ.erase sender := by
    ext i
    simp [PktRow.packet, source, robots.ip_injective.eq_iff]
  rw [others, Finset.card_erase_of_mem (Finset.mem_univ sender), Finset.card_univ, Fintype.card_fin]

theorem pairs_card (table : RunTable robots p) :
    (pairs robots p).card = (txRows p).length * (N - 1) := by
  unfold pairs
  rw [Finset.card_filter, Finset.sum_product, ← packets_card table]
  apply Finset.sum_const_nat
  intro packet sent
  rw [← Finset.card_filter]
  exact others_card table sent

/-- A received row stands for one delivered pair, and each delivered pair has one. -/
theorem delivered_card (table : RunTable robots p) :
    (delivered robots p).card = (rxRows p).length := by
  have byNode : Function.Injective
      fun pair : (Ip × Nat) × Fin N => (pair.1, robots.nodeId pair.2) := by
    intro left right same
    simp only [Prod.mk.injEq] at same
    exact Prod.ext same.1 (robots.nodeId_injective same.2)
  have rows : (delivered robots p).image (fun pair => (pair.1, robots.nodeId pair.2)) =
      ((rxRows p).map fun rx => (rx.packet, rx.nodeId)).toFinset := by
    ext entry
    simp only [Finset.mem_image, List.mem_toFinset, List.mem_map, delivered, Finset.mem_filter]
    constructor
    · intro reached
      obtain ⟨pair, ⟨-, rx, isRx, samePacket, sameNode⟩, rfl⟩ := reached
      exact ⟨rx, isRx, Prod.ext samePacket sameNode⟩
    · intro received
      obtain ⟨rx, isRx, rfl⟩ := received
      obtain ⟨i, receiver, notSender⟩ := table.receivers rx isRx
      refine ⟨(rx.packet, i), ⟨?_, rx, isRx, rfl, receiver⟩, Prod.ext rfl receiver.symm⟩
      exact mem_pairs.mpr ⟨mem_packets.mpr (table.refers rx isRx), notSender.symm⟩
  rw [← Finset.card_image_of_injective _ byNode, rows, List.toFinset_card_of_nodup table.atMostOnce,
    List.length_map]

theorem pairs_card_pos (table : RunTable robots p) (atLeastTwo : 2 ≤ N) :
    0 < (pairs robots p).card := by
  obtain ⟨tx, isTx, -⟩ := table.everyRobot ⟨0, by omega⟩
  have some : 0 < (txRows p).length := List.length_pos_of_mem isTx
  rw [pairs_card table]
  exact Nat.mul_pos some (by omega)

/-- The ratio of row counts is the fraction of pairs that were delivered. -/
theorem prr_eq (table : RunTable robots p) (atLeastTwo : 2 ≤ N) :
    prr p = .ok ((delivered robots p).card / (pairs robots p).card) := by
  have positive := pairs_card_pos table atLeastTwo
  have potential : ((txRows p).length * ((nNodes p : Int) - 1) : Int) = (pairs robots p).card := by
    rw [nNodes_eq table, pairs_card table]
    push_cast [Nat.cast_sub (show 1 ≤ N by omega)]
    ring
  unfold prr
  rw [potential, if_neg (by omega), delivered_card table]
  rfl

theorem delivered_le_pairs : (delivered robots p).card ≤ (pairs robots p).card :=
  Finset.card_filter_le _ _

theorem delivered_eq_pairs_iff :
    (delivered robots p).card = (pairs robots p).card ↔
      ∀ pair ∈ pairs robots p, Delivered robots p pair :=
  Finset.card_filter_eq_iff

/-! ## Latencies -/

/-- `value` is the latency of a received row: its time minus the time of the one
transmitted row with its packet. -/
def IsLatency (p : List (PktRow Ip)) (rx : PktRow Ip) (value : ℚ) : Prop :=
  ∃ tx ∈ txRows p, tx.packet = rx.packet ∧
    (∀ other ∈ txRows p, other.packet = rx.packet → other = tx) ∧ value = rx.timeSec - tx.timeSec

/-- The latencies are those of the received rows, one for each, in order. -/
theorem lat_matches (table : RunTable robots p) :
    ∃ values, lat p = .ok values ∧ List.Forall₂ (IsLatency p) (rxRows p) values := by
  refine ⟨_, lat_eq table.uniquePackets, ?_⟩
  apply forall₂_reduceOption
  intro rx isRx
  obtain ⟨tx, isTx, samePacket⟩ := table.refers rx isRx
  have found : KeyedTable.find? PktRow.packet (txRows p) rx.packet = some tx :=
    (KeyedTable.find?_eq_some_iff table.uniquePackets).mpr ⟨isTx, samePacket⟩
  refine ⟨rx.timeSec - tx.timeSec, by rw [found]; rfl, tx, isTx, samePacket, ?_, rfl⟩
  intro other isOther same
  have again := (KeyedTable.find?_eq_some_iff table.uniquePackets).mpr ⟨isOther, same⟩
  rw [found] at again
  exact (Option.some.inj again).symm

/-! ## The true ratio -/

/-- For every table a run with at least two robots can write, in any order of its
rows, `kpis` counts the robots, its ratio is the fraction of the pairs of a packet
and another robot that were delivered, it is one if and only if all were, and each
received row contributes its latency. Another order of the rows changes neither
the ratio nor the multiset of latencies nor the fraction within the delay budget.
A run with a reception and with rows in the other tables gets a dictionary, and
every dictionary holds these values. -/
theorem kpis_ratio_is_delivered_fraction (robots : Robots N Ip) (atLeastTwo : 2 ≤ N)
    (db : Database Ip) (table : RunTable robots db.pktTxRx) :
    nNodes db.pktTxRx = N ∧
    (∃ ratio : ℚ, prr db.pktTxRx = .ok ratio ∧ 0 ≤ ratio ∧ ratio ≤ 1 ∧
      ratio = (delivered robots db.pktTxRx).card / (pairs robots db.pktTxRx).card ∧
      (ratio = 1 ↔ ∀ pair ∈ pairs robots db.pktTxRx, Delivered robots db.pktTxRx pair)) ∧
    (∃ values, lat db.pktTxRx = .ok values ∧
      List.Forall₂ (IsLatency db.pktTxRx) (rxRows db.pktTxRx) values ∧
      ∀ permuted : List (PktRow Ip), permuted.Perm db.pktTxRx →
        prr permuted = prr db.pktTxRx ∧
        ∃ others, lat permuted = .ok others ∧ others.Perm values ∧
          ∀ pdbS, withinPdb others pdbS = withinPdb values pdbS) ∧
    ∀ percentile pdbS,
      (rxRows db.pktTxRx ≠ [] → db.simulPsschTx ≠ [] → db.psschTbRx ≠ [] →
        (∀ values, values ≠ [] → ∀ level, ∃ value, percentile values level = .ok value) →
        ∃ result, kpis percentile db pdbS = .ok result) ∧
      ∀ result, kpis percentile db pdbS = .ok result →
        prr db.pktTxRx = .ok result.prr ∧
        ∃ values, lat db.pktTxRx = .ok values ∧ result.withinPdb = withinPdb values pdbS := by
  have positive : (0 : ℚ) < (pairs robots db.pktTxRx).card :=
    Nat.cast_pos.mpr (pairs_card_pos table atLeastTwo)
  have bound : ((delivered robots db.pktTxRx).card : ℚ) ≤ (pairs robots db.pktTxRx).card :=
    Nat.cast_le.mpr delivered_le_pairs
  obtain ⟨values, computed, matched⟩ := lat_matches table
  refine ⟨nNodes_eq table, ?_, ?_, ?_⟩
  · refine ⟨_, prr_eq table atLeastTwo, ?_, (div_le_one positive).mpr bound, rfl, ?_⟩
    · exact div_nonneg (Nat.cast_nonneg _) positive.le
    · rw [div_eq_one_iff_eq positive.ne', Nat.cast_inj]
      exact delivered_eq_pairs_iff
  · refine ⟨values, computed, matched, ?_⟩
    intro permuted perm
    obtain ⟨same, others, again, otherValues, reordered⟩ := lat_congr table.uniquePackets perm.symm
    rw [computed, Except.ok.injEq] at again
    subst again
    exact ⟨prr_congr perm, others, otherValues, reordered.symm, withinPdb_congr reordered.symm⟩
  · intro percentile pdbS
    constructor
    · intro someRx someSt someTb levels
      have someValue : values ≠ [] := by
        intro none
        subst none
        exact someRx (List.forall₂_nil_right_iff.mp matched)
      exact exists_kpis (prr_eq table atLeastTwo) computed (levels values someValue) someSt someTb
        pdbS
    · intro result returned
      exact kpis_ok returned

/-- Two robots that each send once; the second hears the first after half a second. -/
def twoRobotTable : List (PktRow Nat) :=
  [⟨1, .tx, 0, 7, 0⟩, ⟨3 / 2, .rx, 1, 7, 0⟩, ⟨2, .tx, 1, 8, 0⟩]

/-- The two robots of the table. -/
def twoRobots : Robots 2 Nat where
  nodeId i := i
  ip i := 7 + i
  nodeId_injective := by decide
  ip_injective := by decide

theorem kpis_ratio_is_half_delivered :
    ∃ ratio : ℚ, prr twoRobotTable = .ok ratio ∧ 0 ≤ ratio ∧ ratio ≤ 1 := by
  have table : RunTable twoRobots twoRobotTable :=
    ⟨by decide, by decide, by decide, by decide, by decide, by decide⟩
  obtain ⟨-, ⟨ratio, computed, nonneg, atMost, -⟩, -⟩ :=
    kpis_ratio_is_delivered_fraction twoRobots (le_refl 2) ⟨twoRobotTable, [], [], []⟩ table
  exact ⟨ratio, computed, nonneg, atMost⟩

end Sidewalk.Analysis
