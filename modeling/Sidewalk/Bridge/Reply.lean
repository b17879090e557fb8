import Sidewalk.Bridge.State
import Sidewalk.Gateway.State

/-!
Owns the decoding of replies: the hand-written split is the split at spaces, an
item is read back as the delivery it was printed from, and `handleReply` on the
encoded table of deliveries extracts exactly that table.

Does not own which deliveries a reply contains.
-/

set_option autoImplicit false

namespace Sidewalk.Bridge

open Sidewalk.Foundation Sidewalk.Protocol

variable {n : Nat} {Coord : Type}

/-! ## Splitting the line -/

/-- The loop from the character after `past ++ current` on, when `past` has been
cut off and `current` is the field begun. -/
theorem foldl_splitTurn (past current remaining : Text) (plain : ' ' ∉ current)
    (fields : List Text) :
    ((List.range' (past.length + current.length) (remaining.length + 1)).foldl
        (splitTurn (past ++ (current ++ remaining))) (past.length, fields)).2 =
      fields ++ (current ++ remaining).splitOn ' ' := by
  induction remaining generalizing past current fields with
  | nil =>
      rw [List.append_nil, List.splitOn_eq_singleton plain]
      simp [splitTurn]
  | cons c remaining inductionHypothesis =>
      have here :
          (past ++ (current ++ c :: remaining))[past.length + current.length]? = some c := by
        simp
      rw [List.length_cons, List.range'_succ, List.foldl_cons]
      by_cases space : c = ' '
      · subst space
        have turn : splitTurn (past ++ (current ++ ' ' :: remaining)) (past.length, fields)
            (past.length + current.length) =
              (past.length + current.length + 1, fields ++ [current]) := by
          rw [splitTurn, if_pos (Or.inr here)]
          simp
        have next :=
          inductionHypothesis (past ++ current ++ [' ']) [] (by simp) (fields ++ [current])
        simp only [List.length_append, List.length_singleton, List.length_nil, Nat.add_zero,
          List.nil_append, List.append_assoc, List.singleton_append] at next
        rw [turn, List.splitOn_append_cons_self_of_not_mem plain, Nat.add_assoc, next]
      · have turn : splitTurn (past ++ (current ++ c :: remaining)) (past.length, fields)
            (past.length + current.length) = (past.length, fields) := by
          rw [splitTurn, if_neg]
          rw [here]
          simp [space]
        have next := inductionHypothesis past (current ++ [c])
          (by simpa [plain] using Ne.symm space) fields
        simp only [List.length_append, List.length_singleton, List.append_assoc,
          List.singleton_append] at next
        rw [turn, Nat.add_assoc, next]

/-- The hand-written split is the split at spaces, empty fields included. -/
theorem splitFields_eq (line : Text) : splitFields line = line.splitOn ' ' := by
  have loop := foldl_splitTurn [] [] line List.not_mem_nil []
  rw [splitFields, List.range_eq_range']
  exact loop

/-! ## Reading an item -/

theorem splitItem_text (delivery : Delivery) :
    splitItem delivery.text = (Decimal.ofNat delivery.src, Decimal.ofInt delivery.latencyUs) := by
  have plain : ∀ c ∈ Decimal.ofNat delivery.src, decide (c = ':') = false := fun c member => by
    rw [decide_eq_false_iff_not]
    rintro rfl
    exact Decimal.not_mem_ofNat _ (by decide) member
  have found : delivery.text.findIdx? (· = ':') = some (Decimal.ofNat delivery.src).length := by
    rw [Delivery.text, List.findIdx?_append, List.findIdx?_eq_none_iff.mpr plain,
      List.findIdx?_cons]
    simp
  rw [splitItem, found, Delivery.text]
  simp

/-- One delivery as receiver `j` of a table sees it: the source is a robot. -/
structure Report (n : Nat) where
  src : Fin n
  latencyUs : Int
deriving DecidableEq, Repr

/-- The delivery a report is printed as. -/
def Report.delivery (report : Report n) : Delivery := ⟨report.src, report.latencyUs⟩

/-- Whether the decoder can read the numbers of a report. -/
def Report.Fits (report : Report n) : Prop :=
  -(2 ^ 63) ≤ report.latencyUs ∧ report.latencyUs < 2 ^ 63

/-- The latency of a report counts as sent after the warm-up. -/
def Report.Counted (params : Params Coord) (simNs : Int) (report : Report n) : Prop :=
  params.warmupNs ≤ simNs - report.latencyUs * 1000

instance (params : Params Coord) (simNs : Int) (report : Report n) :
    Decidable (report.Counted params simNs) :=
  inferInstanceAs (Decidable (_ ≤ _))

/-- The node after the items of receiver `j` have been handled, apart from the
publication of the pose array. -/
def afterItems (params : Params Coord) (simNs : Int) (j : Fin n) (reports : List (Report n))
    (node : BridgeNode n Coord) : BridgeNode n Coord :=
  { node with
    latencyMs := node.latencyMs ++ reports.map fun report => (report.latencyUs : ℚ) / 1000
    csv := node.csv ++ reports.map fun report => ⟨simNs, report.src, j, report.latencyUs⟩
    latenciesUs := node.latenciesUs ++
      (reports.filter fun report => report.Counted params simNs).map Report.latencyUs }

/-- The poses pushed for the items of a receiver. -/
def sentPoses (node : BridgeNode n Coord) (reports : List (Report n)) : List (Pose Coord) :=
  reports.map fun report => (node.robots report.src).sentPose

theorem handleItem_report (params : Params Coord) (simNs : Int) (j : Fin n) (small : n < 2 ^ 31)
    {report : Report n} (fits : report.Fits) (node : BridgeNode n Coord)
    (neigh : List (Pose Coord)) :
    handleItem .unbounded params simNs j (node, neigh) report.delivery.text =
      .ok (afterItems params simNs j [report] node, neigh ++ sentPoses node [report]) := by
  have src : Decimal.stoi (Decimal.ofNat report.src) = .ok (report.src : Int) :=
    Decimal.stoi_ofNat (report.src.isLt.trans small)
  have latency := Decimal.stoll_ofInt fits.1 fits.2
  have inRange : 0 ≤ (report.src : Int) ∧ (report.src : Int) < n := by
    have below := report.src.isLt
    omega
  unfold handleItem
  rw [splitItem_text]
  simp only [Report.delivery, src, latency, SentTime.unbounded_sentNs, bind, Except.bind, pure,
    Except.pure]
  rw [dif_pos inRange]
  by_cases counted : report.Counted params simNs
  · have warm : params.warmupNs ≤ simNs - report.latencyUs * 1000 := counted
    simp [afterItems, sentPoses, counted, warm]
  · have cold : ¬ params.warmupNs ≤ simNs - report.latencyUs * 1000 := counted
    simp [afterItems, sentPoses, counted, cold]

theorem run_handleItem (params : Params Coord) (simNs : Int) (j : Fin n) (small : n < 2 ^ 31)
    {reports : List (Report n)} (fits : ∀ report ∈ reports, report.Fits)
    (node : BridgeNode n Coord) (neigh : List (Pose Coord)) :
    Run.run (handleItem .unbounded params simNs j) (node, neigh)
        (reports.map fun report => report.delivery.text) =
      .ok (afterItems params simNs j reports node, neigh ++ sentPoses node reports) := by
  induction reports generalizing node neigh with
  | nil => simp [afterItems, sentPoses]
  | cons report reports inductionHypothesis =>
      rw [List.map_cons, Run.run_cons (handleItem_report params simNs j small
        (fits report (by simp)) node neigh),
        inductionHypothesis fun other member => fits other (by simp [member])]
      by_cases counted : report.Counted params simNs <;> simp [afterItems, sentPoses, counted]

/-! ## The whole reply -/

/-- The field that the gateway's appends build for a receiver. -/
def encodeField (reports : List (Report n)) : Text :=
  reports.foldl (fun field report => Gateway.appendDelivery field report.delivery) []

/-- The reply line: the fields of the receivers, joined by single spaces. -/
def encodeReply (table : Fin n → List (Report n)) : Text :=
  [' '].intercalate ((List.finRange n).map fun j => encodeField (table j))

theorem encodeField_eq (reports : List (Report n)) :
    encodeField reports = fieldText (reports.map Report.delivery) := by
  rw [← foldl_appendItem_fieldText, List.foldl_map]
  rfl

/-- The node after a reply that reports `table`: the receivers in order. -/
def afterReply (params : Params Coord) (simNs : Int) (table : Fin n → List (Report n))
    (node : BridgeNode n Coord) : BridgeNode n Coord :=
  { node with
    neighbors := fun j => node.neighbors j ++
      if (table j).isEmpty then [] else [sentPoses node (table j)]
    latencyMs := node.latencyMs ++ (List.finRange n).flatMap fun j =>
      (table j).map fun report => (report.latencyUs : ℚ) / 1000
    csv := node.csv ++ (List.finRange n).flatMap fun j =>
      (table j).map fun report => ⟨simNs, report.src, j, report.latencyUs⟩
    latenciesUs := node.latenciesUs ++ (List.finRange n).flatMap fun j =>
      ((table j).filter fun report => report.Counted params simNs).map Report.latencyUs }

theorem splitFields_encodeReply (some : 0 < n) (table : Fin n → List (Report n)) :
    splitFields (encodeReply table) = (List.finRange n).map fun j => encodeField (table j) := by
  have nonempty : (List.finRange n).map (fun j => encodeField (table j)) ≠ [] := by
    rw [Ne, List.map_eq_nil_iff, List.finRange_eq_nil_iff]
    omega
  rw [splitFields_eq, encodeReply, List.splitOn_intercalate ' ' ?_ nonempty]
  intro field member
  obtain ⟨j, -, rfl⟩ := List.mem_map.mp member
  rw [encodeField_eq]
  exact not_mem_fieldText _ (by decide) (by decide) (by decide) (by decide)

/-- The node after the field of receiver `j`. -/
def afterField (params : Params Coord) (simNs : Int) (j : Fin n) (reports : List (Report n))
    (node : BridgeNode n Coord) : BridgeNode n Coord :=
  let next := afterItems params simNs j reports node
  { next with
    neighbors := Function.update next.neighbors j (next.neighbors j ++
      if reports.isEmpty then [] else [sentPoses node reports]) }

theorem handleField_report (params : Params Coord) (simNs : Int) (small : n < 2 ^ 31)
    {table : Fin n → List (Report n)} (fits : ∀ j, ∀ report ∈ table j, report.Fits) (j : Fin n)
    (node : BridgeNode n Coord) :
    handleField .unbounded params simNs ((List.finRange n).map fun j => encodeField (table j))
        node j =
      .ok (afterField params simNs j (table j) node) := by
  have field : ((List.finRange n).map fun j => encodeField (table j)).getD j [] =
      fieldText ((table j).map Report.delivery) := by
    rw [← encodeField_eq, List.getD_eq_getElem?_getD]
    simp
  have items : Delimited.getlines ';' (fieldText ((table j).map Report.delivery)) =
      (table j).map fun report => report.delivery.text := by
    rw [getlines_fieldText, List.map_map]
    rfl
  unfold handleField
  rw [field]
  by_cases none : table j = []
  · simp [none, afterField, afterItems, pure, Except.pure]
  · have started : fieldText ((table j).map Report.delivery) ≠ [] :=
      mt fieldText_eq_nil_iff.mp (by simpa using none)
    simp only [List.isEmpty_iff, started, if_false, items]
    rw [run_handleItem params simNs j small (fits j)]
    simp [bind, Except.bind, pure, Except.pure, afterField, none]

/-- The node once the loop has dealt with the receivers `done`. -/
def afterReceivers (params : Params Coord) (simNs : Int) (table : Fin n → List (Report n))
    (done : List (Fin n)) (node : BridgeNode n Coord) : BridgeNode n Coord :=
  { node with
    neighbors := fun j => node.neighbors j ++
      if done.contains j ∧ table j ≠ [] then [sentPoses node (table j)] else []
    latencyMs := node.latencyMs ++ done.flatMap fun j =>
      (table j).map fun report => (report.latencyUs : ℚ) / 1000
    csv := node.csv ++ done.flatMap fun j =>
      (table j).map fun report => ⟨simNs, report.src, j, report.latencyUs⟩
    latenciesUs := node.latenciesUs ++ done.flatMap fun j =>
      ((table j).filter fun report => report.Counted params simNs).map Report.latencyUs }

theorem run_handleField (params : Params Coord) (simNs : Int) (small : n < 2 ^ 31)
    {table : Fin n → List (Report n)} (fits : ∀ j, ∀ report ∈ table j, report.Fits)
    {receivers done : List (Fin n)} (distinct : (done ++ receivers).Nodup)
    (node : BridgeNode n Coord) :
    Run.run (handleField .unbounded params simNs
        ((List.finRange n).map fun j => encodeField (table j)))
        (afterReceivers params simNs table done node) receivers =
      .ok (afterReceivers params simNs table (done ++ receivers) node) := by
  induction receivers generalizing done with
  | nil => rw [Run.run_nil, List.append_nil]
  | cons j receivers inductionHypothesis =>
      have fresh : j ∉ done := fun again =>
        (List.nodup_append.mp distinct).2.2 j again j (by simp) rfl
      have stepped := handleField_report params simNs small fits j
        (afterReceivers params simNs table done node)
      have next : afterField params simNs j (table j)
          (afterReceivers params simNs table done node) =
            afterReceivers params simNs table (done ++ [j]) node := by
        have neighbors : Function.update (afterReceivers params simNs table done node).neighbors j
            ((afterReceivers params simNs table done node).neighbors j ++
              if (table j).isEmpty then [] else [sentPoses node (table j)]) =
            (afterReceivers params simNs table (done ++ [j]) node).neighbors := by
          funext other
          by_cases here : other = j
          · subst here
            by_cases none : table other = [] <;> simp [afterReceivers, fresh, none]
          · simp [afterReceivers, here]
        have poses : sentPoses (afterReceivers params simNs table done node) (table j) =
            sentPoses node (table j) := rfl
        simp only [afterField, afterItems, poses, neighbors]
        simp [afterReceivers]
      rw [next] at stepped
      rw [List.append_cons] at distinct ⊢
      rw [Run.run_cons stepped]
      exact inductionHypothesis distinct

/-- `handleReply` on the encoded table is the node after that table. -/
theorem handleReply_encodeReply (params : Params Coord) (simNs : Int) (some : 0 < n)
    (small : n < 2 ^ 31) {table : Fin n → List (Report n)}
    (fits : ∀ j, ∀ report ∈ table j, report.Fits) (node : BridgeNode n Coord) :
    handleReply params (encodeReply table) simNs node =
      .ok (afterReply params simNs table node) := by
  have start : node = afterReceivers params simNs table [] node := by simp [afterReceivers]
  have all : (List.finRange n).filter (fun j => j.val < n) = List.finRange n := by simp
  have ran : Run.run
      (handleField .unbounded params simNs ((List.finRange n).map fun j => encodeField (table j)))
      (afterReceivers params simNs table [] node) (List.finRange n) =
        .ok (afterReceivers params simNs table (List.finRange n) node) :=
    run_handleField params simNs small fits (List.nodup_finRange n) node
  rw [← start] at ran
  simp only [handleReply, handleReplyWith, splitFields_encodeReply some, List.length_map,
    List.length_finRange, if_true, all, ran]
  congr 1
  unfold afterReceivers afterReply
  congr 1
  funext j
  by_cases none : table j = [] <;> simp [none]

/-- A reply with a table of readable deliveries, for any number of robots, none
included: what it publishes and records. -/
theorem handleReply_table (params : Params Coord) (simNs : Int) (small : n < 2 ^ 31)
    {table : Fin n → List (Report n)} (fits : ∀ j, ∀ report ∈ table j, report.Fits)
    (node : BridgeNode n Coord) :
    ∃ next, handleReply params (encodeReply table) simNs node = .ok next ∧
      next.neighbors = (afterReply params simNs table node).neighbors ∧
      next.latenciesUs = (afterReply params simNs table node).latenciesUs := by
  rcases Nat.eq_zero_or_pos n with rfl | some
  · refine ⟨_, rfl, ?_, ?_⟩
    · funext j
      exact j.elim0
    · simp only [afterReply, List.finRange_zero, List.flatMap_nil, List.append_nil]
      split <;> rfl
  · exact ⟨_, handleReply_encodeReply params simNs some small fits node, rfl, rfl⟩

/-! ## Any reply -/

theorem handleItem_robots {sentTime : SentTime} {params : Params Coord} {simNs : Int} {j : Fin n}
    {state next : BridgeNode n Coord × List (Pose Coord)} {item : Text}
    (handled : handleItem sentTime params simNs j state item = .ok next) :
    next.1.robots = state.1.robots ∧ next.1.sent = state.1.sent := by
  unfold handleItem at handled
  simp only [bind, Except.bind, pure, Except.pure] at handled
  split at handled
  · cases handled
  · split at handled
    · cases handled
    · rw [Except.ok.injEq] at handled
      subst handled
      exact ⟨rfl, rfl⟩

theorem handleField_robots {sentTime : SentTime} {params : Params Coord} {simNs : Int}
    {fields : List Text}
    {node next : BridgeNode n Coord} {j : Fin n}
    (handled : handleField sentTime params simNs fields node j = .ok next) :
    next.robots = node.robots ∧ next.sent = node.sent := by
  unfold handleField at handled
  simp only [bind, Except.bind, pure, Except.pure] at handled
  split at handled
  · rw [Except.ok.injEq] at handled
    exact handled ▸ ⟨rfl, rfl⟩
  · split at handled
    · cases handled
    next after ran =>
      rw [Except.ok.injEq] at handled
      have kept := Run.history_induction
        (fun _ state => state.1.robots = node.robots ∧ state.1.sent = node.sent) ran ⟨rfl, rfl⟩
        fun _ _ _ _ _ _ _ same stepped =>
          ⟨(handleItem_robots stepped).1.trans same.1, (handleItem_robots stepped).2.trans same.2⟩
      exact handled ▸ kept

/-- No reply, whatever its text, touches the robots' poses or the send counter. -/
theorem handleReply_robots {params : Params Coord} {line : Text} {simNs : Int}
    {node next : BridgeNode n Coord} (handled : handleReply params line simNs node = .ok next) :
    next.robots = node.robots ∧ next.sent = node.sent := by
  refine Run.history_induction
    (fun _ state => state.robots = node.robots ∧ state.sent = node.sent) handled ?_
    fun _ _ _ _ _ _ _ same stepped =>
      ⟨(handleField_robots stepped).1.trans same.1, (handleField_robots stepped).2.trans same.2⟩
  split <;> exact ⟨rfl, rfl⟩

/-! ## The decoder inverts the encoder -/

theorem flatMap_single {ι α : Type} [DecidableEq ι] {all : List ι} (distinct : all.Nodup)
    {j : ι} (member : j ∈ all) (f : ι → List α) :
    (all.flatMap fun i => if i = j then f i else []) = f j := by
  induction all with
  | nil => exact absurd member List.not_mem_nil
  | cons i all inductionHypothesis =>
      rw [List.nodup_cons] at distinct
      rw [List.flatMap_cons]
      rcases List.mem_cons.mp member with rfl | later
      · have others : (all.flatMap fun i => if i = j then f i else []) = [] := by
          rw [List.flatMap_eq_nil_iff]
          intro i inAll
          rw [if_neg (ne_of_mem_of_not_mem inAll distinct.1)]
        rw [if_pos rfl, others, List.append_nil]
      · rw [if_neg (ne_of_mem_of_not_mem later distinct.1).symm, List.nil_append]
        exact inductionHypothesis distinct.2 later

/-- For every table of deliveries with sources among the robots, the reply built
by the gateway's appends and joined by spaces is split into exactly one field per
receiver and read back without an exception: the rows written are, receiver by
receiver, exactly the table's pairs of source and latency; each non-empty
receiver gets one pose per item and the others nothing. -/
theorem handleReply_inverts_encodeReply (params : Params Coord) (simNs : Int) (some : 0 < n)
    (small : n < 2 ^ 31) (table : Fin n → List (Report n))
    (fits : ∀ j, ∀ report ∈ table j, 0 ≤ report.latencyUs ∧ report.latencyUs < 2 ^ 63)
    (node : BridgeNode n Coord) :
    splitFields (encodeReply table) = (List.finRange n).map (fun j => encodeField (table j)) ∧
      (splitFields (encodeReply table)).length = n ∧
      ∃ next, handleReply params (encodeReply table) simNs node = .ok next ∧
        next.fieldWarning = node.fieldWarning ∧
        (∃ rows, next.csv = node.csv ++ rows ∧
          ∀ j : Fin n, rows.filter (fun row => row.dst = j.val) =
            (table j).map fun report => ⟨simNs, report.src, j, report.latencyUs⟩) ∧
        next.latencyMs = node.latencyMs ++ (List.finRange n).flatMap (fun j =>
          (table j).map fun report => (report.latencyUs : ℚ) / 1000) ∧
        ∀ j, next.neighbors j = node.neighbors j ++
          if (table j).isEmpty then []
          else [(table j).map fun report => (node.robots report.src).sentPose] := by
  have split := splitFields_encodeReply some table
  have readable : ∀ j, ∀ report ∈ table j, report.Fits := fun j report member =>
    ⟨by have nonneg := (fits j report member).1; omega, (fits j report member).2⟩
  refine ⟨split, by rw [split, List.length_map, List.length_finRange], _,
    handleReply_encodeReply params simNs some small readable node, rfl, ⟨_, rfl, ?_⟩, rfl,
    fun j => rfl⟩
  intro j
  have perReceiver : ∀ i : Fin n,
      ((table i).map fun report => (⟨simNs, report.src, i, report.latencyUs⟩ : CsvRow)).filter
          (fun row => row.dst = j.val) =
        if i = j then (table i).map fun report => ⟨simNs, report.src, i, report.latencyUs⟩
        else [] := by
    intro i
    by_cases here : i = j
    · simp [here]
    · simp [here, Fin.val_inj]
  rw [List.filter_flatMap]
  simp only [perReceiver]
  exact flatMap_single (List.nodup_finRange n) (List.mem_finRange j) _

/-- Whole-metre coordinates, steps of 10 ms and the default warm-up of 2.1 s. -/
def wholeMetres : Params Int := ⟨10, 2100000000, Decimal.ofInt⟩

/-- Two deliveries at the middle one of three robots. -/
def middleOnly (j : Fin 3) : List (Report 3) := if j = 1 then [⟨0, 12⟩, ⟨2, 7⟩] else []

theorem handleReply_inverts_encodeReply_middle :
    ∃ next, handleReply wholeMetres " 0:12;2:7 ".toList 0
        (BridgeNode.initial 3 ⟨0, 0, 0, 0, 0, 0, 1⟩) = .ok next ∧
      next.neighbors 0 = [] ∧
      next.neighbors 1 = [[⟨0, 0, 0, 0, 0, 0, 1⟩, ⟨0, 0, 0, 0, 0, 0, 1⟩]] ∧
      next.fieldWarning = none := by
  have line : encodeReply middleOnly = " 0:12;2:7 ".toList := by decide +kernel
  obtain ⟨-, -, next, handled, warning, -, -, neighbors⟩ :=
    handleReply_inverts_encodeReply wholeMetres 0 (by decide) (by decide) middleOnly
      (by decide) (BridgeNode.initial 3 ⟨0, 0, 0, 0, 0, 0, 1⟩)
  exact ⟨next, line ▸ handled, neighbors 0, neighbors 1, warning⟩

end Sidewalk.Bridge
