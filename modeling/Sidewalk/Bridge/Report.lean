import Mathlib.Algebra.Order.Floor.Semifield
import Mathlib.Data.Rat.Floor
import Mathlib.Tactic.Linarith
import Sidewalk.Bridge.State
import Sidewalk.Foundation.OrderStatistic

/-!
Owns the model of `BridgeNode::report`: the sorted copy of the recorded
latencies, the two ranks it reads from the copy, and the line it logs. The
results say that the report never reads outside the copy, what its percentiles
depend on, and for which latencies they are in order.

Does not own how the numbers of the line are printed. The factor `0.95` and the
divisions are exact, and a reception ratio with nothing sent stands as
`BridgeNode.prr` has it.
-/

set_option autoImplicit false

namespace Sidewalk.Bridge

open Sidewalk.Foundation

/-- The line logged by `report`, with the values of its conversions; the two
percentiles are in milliseconds. -/
inductive ReportLine where
  /-- `t=… sent=… delivered=0` -/
  | nothingDelivered (simNs : Int) (sent : Nat)
  /-- `t=… sent=… delivered=… PRR=… latency p50=… p95=… ms` -/
  | summary (simNs : Int) (sent delivered : Nat) (prr p50 p95 : ℚ)
deriving DecidableEq, Repr

/-- The time a report line carries. -/
def ReportLine.time : ReportLine → Int
  | .nothingDelivered simNs _ => simNs
  | .summary simNs _ _ _ _ _ => simNs

/-- An index beyond the end of a `std::vector`. -/
inductive IndexFault where
  | pastEnd
deriving DecidableEq, Repr

/-- `l[rank]` on a vector. -/
def element (l : List Int) (rank : Nat) : Except IndexFault Int :=
  match l[rank]? with
  | none => .error .pastEnd
  | some value => .ok value

/-- The index `l.size() / 2`. -/
def p50Rank (size : Nat) : Nat := size / 2

/-- The index `static_cast<size_t>(0.95 * (l.size() - 1))`. -/
def p95Rank (size : Nat) : Nat := ⌊(19 / 20 : ℚ) * (size - 1 : Nat)⌋₊

variable {n : Nat} {Coord : Type}

/-- `BridgeNode::report`: the node afterwards, and the line it logs. -/
def report (simNs : Int) (node : BridgeNode n Coord) :
    Except IndexFault (BridgeNode n Coord × ReportLine) :=
  if node.latenciesUs.isEmpty then
    .ok (node, .nothingDelivered simNs node.sent)
  else do
    -- a copy is sorted; `latencies_us_` keeps its order of arrival
    let l := OrderStatistic.sorted node.latenciesUs
    let p50 ← element l (p50Rank l.length)
    let p95 ← element l (p95Rank l.length)
    return (node, .summary simNs node.sent l.length node.prr ((p50 : ℚ) / 1000) ((p95 : ℚ) / 1000))

/-! ## Ranks -/

theorem p95Rank_eq (size : Nat) : p95Rank size = 19 * (size - 1) / 20 := by
  have scaled : (19 / 20 : ℚ) * (size - 1 : Nat) = ((19 * (size - 1) : Nat) : ℚ) / (20 : Nat) := by
    push_cast
    ring
  unfold p95Rank
  rw [scaled, Nat.floor_div_eq_div]

theorem p50Rank_lt {size : Nat} (positive : 0 < size) : p50Rank size < size := by
  unfold p50Rank
  omega

theorem p95Rank_lt {size : Nat} (positive : 0 < size) : p95Rank size < size := by
  rw [p95Rank_eq]
  omega

/-- The two ranks are in order for every number of latencies but two. -/
theorem p50Rank_le_p95Rank {size : Nat} (positive : 0 < size) (notTwo : size ≠ 2) :
    p50Rank size ≤ p95Rank size := by
  rw [p95Rank_eq]
  unfold p50Rank
  omega

theorem ranks_two : p50Rank 2 = 1 ∧ p95Rank 2 = 0 := by
  rw [p95Rank_eq]
  exact ⟨rfl, rfl⟩

/-! ## The reported values -/

theorem element_sorted {l : List Int} {rank : Nat} {value : Int}
    (found : OrderStatistic.ofRank l rank = some value) :
    element (OrderStatistic.sorted l) rank = .ok value := by
  unfold element
  rw [show (OrderStatistic.sorted l)[rank]? = some value from found]

theorem report_eq {node : BridgeNode n Coord} (some : node.latenciesUs ≠ []) (simNs : Int)
    {p50 p95 : Int}
    (p50Is : OrderStatistic.ofRank node.latenciesUs (p50Rank node.latenciesUs.length) = .some p50)
    (p95Is : OrderStatistic.ofRank node.latenciesUs (p95Rank node.latenciesUs.length) = .some p95) :
    report simNs node =
      .ok (node, .summary simNs node.sent node.latenciesUs.length node.prr
        ((p50 : ℚ) / 1000) ((p95 : ℚ) / 1000)) := by
  have filled : ¬ node.latenciesUs.isEmpty = true := by simpa using some
  unfold report
  simp only [if_neg filled, OrderStatistic.length_sorted, element_sorted p50Is,
    element_sorted p95Is]
  rfl

theorem exists_percentiles {l : List Int} (some : l ≠ []) :
    ∃ p50 p95 : Int, p50 ∈ l ∧ p95 ∈ l ∧
      OrderStatistic.ofRank l (p50Rank l.length) = .some p50 ∧
      OrderStatistic.ofRank l (p95Rank l.length) = .some p95 := by
  have positive : 0 < l.length := List.length_pos_iff.mpr some
  obtain ⟨p50, p50Member, p50Is⟩ := OrderStatistic.ofRank_of_lt (p50Rank_lt positive)
  obtain ⟨p95, p95Member, p95Is⟩ := OrderStatistic.ofRank_of_lt (p95Rank_lt positive)
  exact ⟨p50, p95, p50Member, p95Member, p50Is, p95Is⟩

/-- A report never faults, leaves the node as it was and carries the time it was made. -/
theorem report_total (simNs : Int) (node : BridgeNode n Coord) :
    ∃ line, line.time = simNs ∧ report simNs node = .ok (node, line) := by
  by_cases none : node.latenciesUs = []
  · refine ⟨.nothingDelivered simNs node.sent, rfl, ?_⟩
    unfold report
    simp [none]
  · obtain ⟨p50, p95, -, -, p50Is, p95Is⟩ := exists_percentiles none
    exact ⟨_, rfl, report_eq none simNs p50Is p95Is⟩

/-- The order of two percentiles of the same latencies: with two latencies the
rank of the median is the higher one, with any other number it is not. -/
theorem percentiles_le_iff {l : List Int} (some : l ≠ []) {p50 p95 : Int}
    (p50Is : OrderStatistic.ofRank l (p50Rank l.length) = .some p50)
    (p95Is : OrderStatistic.ofRank l (p95Rank l.length) = .some p95) :
    p50 ≤ p95 ↔ ∀ first second, l = [first, second] → first = second := by
  have positive : 0 < l.length := List.length_pos_iff.mpr some
  by_cases two : l.length = 2
  · obtain ⟨left, right, rfl⟩ := List.length_eq_two.mp two
    obtain ⟨least, greatest⟩ := OrderStatistic.ofRank_pair left right
    rw [List.length_cons, List.length_singleton, ranks_two.1, greatest, Option.some.injEq] at p50Is
    rw [List.length_cons, List.length_singleton, ranks_two.2, least, Option.some.injEq] at p95Is
    subst p50Is p95Is
    constructor
    · intro ordered first second same
      simp only [List.cons.injEq, and_true] at same
      obtain ⟨rfl, rfl⟩ := same
      omega
    · intro equal
      rw [equal left right rfl, max_self, min_self]
  · have ordered := OrderStatistic.ofRank_mono (p50Rank_le_p95Rank positive two) p50Is p95Is
    constructor
    · intro _ first second same
      exact absurd (by rw [same]; rfl) two
    · intro _
      exact ordered

/-- The percentiles of a report are consistent: the report reads inside its copy
and leaves the node as it was, the two values are recorded latencies, any order
of arrival gives the same line, and the median is at most the 95th percentile. -/
def ConsistentPercentiles (simNs : Int) (node : BridgeNode n Coord) : Prop :=
  ∃ p50 p95 : Int, p50 ∈ node.latenciesUs ∧ p95 ∈ node.latenciesUs ∧
    (∀ arrived : List Int, arrived.Perm node.latenciesUs →
      report simNs { node with latenciesUs := arrived } =
        .ok ({ node with latenciesUs := arrived },
          .summary simNs node.sent node.latenciesUs.length node.prr
            ((p50 : ℚ) / 1000) ((p95 : ℚ) / 1000))) ∧
    p50 ≤ p95

theorem eq_of_div_thousand {left right : Int} (same : (left : ℚ) / 1000 = (right : ℚ) / 1000) :
    left = right := by
  have scaled : (left : ℚ) = (right : ℚ) := by linarith
  exact_mod_cast scaled

theorem ConsistentPercentiles.le {simNs : Int} {node : BridgeNode n Coord} {p50 p95 : Int}
    (consistent : ConsistentPercentiles simNs node) (some : node.latenciesUs ≠ [])
    (p50Is : OrderStatistic.ofRank node.latenciesUs (p50Rank node.latenciesUs.length) = .some p50)
    (p95Is : OrderStatistic.ofRank node.latenciesUs (p95Rank node.latenciesUs.length) = .some p95) :
    p50 ≤ p95 := by
  obtain ⟨low, high, -, -, reported, ordered⟩ := consistent
  have line := reported node.latenciesUs (List.Perm.refl _)
  rw [report_eq some simNs p50Is p95Is] at line
  simp only [Except.ok.injEq, Prod.mk.injEq, ReportLine.summary.injEq, true_and] at line
  have sameLow : p50 = low := eq_of_div_thousand line.1
  have sameHigh : p95 = high := eq_of_div_thousand line.2
  rw [sameLow, sameHigh]
  exact ordered

/-- The reported percentiles are consistent except for exactly two latencies
that differ, where the median is the larger and the 95th percentile the smaller. -/
theorem consistentPercentiles_iff (simNs : Int) (node : BridgeNode n Coord)
    (some : node.latenciesUs ≠ []) :
    ConsistentPercentiles simNs node ↔
      ∀ first second, node.latenciesUs = [first, second] → first = second := by
  obtain ⟨p50, p95, p50Member, p95Member, p50Is, p95Is⟩ := exists_percentiles some
  rw [← percentiles_le_iff some p50Is p95Is]
  constructor
  · intro consistent
    exact consistent.le some p50Is p95Is
  · intro ordered
    refine ⟨p50, p95, p50Member, p95Member, ?_, ordered⟩
    intro arrived perm
    have length : arrived.length = node.latenciesUs.length := perm.length_eq
    have filled : { node with latenciesUs := arrived }.latenciesUs ≠ [] := by
      intro empty
      exact some (List.nil_perm.mp (empty ▸ perm))
    rw [← OrderStatistic.ofRank_congr perm, ← length] at p50Is p95Is
    rw [report_eq filled simNs p50Is p95Is]
    simp only [BridgeNode.prr, length]

/-- Two robots, two messages sent and delivered, after 7 ms and after 3 ms. -/
def twoDeliveries : BridgeNode 2 Nat :=
  { BridgeNode.initial 2 ⟨0, 0, 0, 0, 0, 0, 1⟩ with sent := 2, latenciesUs := [7000, 3000] }

theorem consistentPercentiles_iff_equal :
    ConsistentPercentiles 0 { twoDeliveries with latenciesUs := [7000, 7000] } := by
  apply (consistentPercentiles_iff 0 { twoDeliveries with latenciesUs := [7000, 7000] }
    (List.cons_ne_nil _ _)).mpr
  intro first second same
  simp only [List.cons.injEq, and_true] at same
  exact same.1.symm.trans same.2

/-- With two different latencies the median is reported above the 95th percentile. -/
theorem twoDeliveries_inconsistent :
    report 0 twoDeliveries = .ok (twoDeliveries, .summary 0 2 2 1 7 3) ∧
      ¬ ConsistentPercentiles 0 twoDeliveries := by
  have some : twoDeliveries.latenciesUs ≠ [] := List.cons_ne_nil _ _
  have p50Is : OrderStatistic.ofRank twoDeliveries.latenciesUs
      (p50Rank twoDeliveries.latenciesUs.length) = .some 7000 := by
    rw [show twoDeliveries.latenciesUs.length = 2 from rfl, ranks_two.1]
    decide
  have p95Is : OrderStatistic.ofRank twoDeliveries.latenciesUs
      (p95Rank twoDeliveries.latenciesUs.length) = .some 3000 := by
    rw [show twoDeliveries.latenciesUs.length = 2 from rfl, ranks_two.2]
    decide
  constructor
  · rw [report_eq some 0 p50Is p95Is]
    norm_num [twoDeliveries, BridgeNode.prr]
  · intro consistent
    have ordered := consistent.le some p50Is p95Is
    omega

end Sidewalk.Bridge
