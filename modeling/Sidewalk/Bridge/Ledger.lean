import Sidewalk.Bridge.Loop

/-!
Owns what `handleReply` does with any line at all, and what follows for the files
and topics of a whole run: it fails exactly at the first item that `std::stoi` or
`std::stoll` rejects, and otherwise the CSV rows, the latencies published, those
recorded for the report and the poses pushed all tell of the same items.

Does not own replies that ns-3 writes: their deliveries are read back elsewhere.
What a failing reply leaves behind is not modelled.
-/

set_option autoImplicit false

namespace Sidewalk.Bridge

open Sidewalk.Foundation Sidewalk.Protocol

variable {n : Nat} {Coord : Type}

/-! ## Items -/

/-- The source and the latency read from an item. -/
def readItem (item : Text) : Except Decimal.ConversionError (Int × Int) :=
  match Decimal.stoi (splitItem item).1 with
  | .error error => .error error
  | .ok src =>
      match Decimal.stoll (splitItem item).2 with
      | .error error => .error error
      | .ok latUs => .ok (src, latUs)

/-- An item that no conversion rejects. -/
def Readable (item : Text) : Prop := ∃ read, readItem item = .ok read

/-- The rows that the items of receiver `j` are written as. -/
def rowsOf (simNs : Int) (j : Nat) (items : List Text) : List CsvRow :=
  items.filterMap fun item =>
    match readItem item with
    | .error _ => none
    | .ok (src, latUs) => some ⟨simNs, src, j, latUs⟩

/-- The bridge's arithmetic on the row's latency stays within an `int64_t`. -/
def CsvRow.Fits (row : CsvRow) : Prop :=
  InInt64 (row.latencyUs * 1000) ∧ InInt64 (row.simNs - row.latencyUs * 1000)

/-- A row whose message was sent from the warm-up on, as the bridge estimates it. -/
def CsvRow.Counts (sentTime : SentTime) (params : Params Coord) (row : CsvRow) : Prop :=
  params.warmupNs ≤ sentTime.sentNs row.simNs row.latencyUs

instance (sentTime : SentTime) (params : Params Coord) (row : CsvRow) :
    Decidable (row.Counts sentTime params) :=
  inferInstanceAs (Decidable (_ ≤ _))

theorem CsvRow.Fits.counts_iff {row : CsvRow} (fits : row.Fits) (sentTime : SentTime)
    (params : Params Coord) :
    row.Counts sentTime params ↔ params.warmupNs ≤ row.simNs - row.latencyUs * 1000 := by
  rw [CsvRow.Counts, sentTime.exact row.simNs row.latencyUs fits.1 fits.2]

/-- A row whose source is one of the robots. -/
def CsvRow.Known (n : Nat) (row : CsvRow) : Prop := 0 ≤ row.src ∧ row.src < n

instance (row : CsvRow) : Decidable (row.Known n) := inferInstanceAs (Decidable (_ ∧ _))

/-- The node once `rows` have been written, published and recorded. -/
def record (sentTime : SentTime) (params : Params Coord) (rows : List CsvRow)
    (node : BridgeNode n Coord) : BridgeNode n Coord :=
  { node with
    csv := node.csv ++ rows
    latencyMs := node.latencyMs ++ rows.map fun row => (row.latencyUs : ℚ) / 1000
    latenciesUs := node.latenciesUs ++
      (rows.filter fun row => row.Counts sentTime params).map CsvRow.latencyUs }

/-- The poses pushed for rows: the sent pose of each known source. -/
def posesOf (node : BridgeNode n Coord) (rows : List CsvRow) : List (Pose Coord) :=
  rows.filterMap fun row =>
    if known : row.Known n then
      some (node.robots ⟨row.src.toNat, by obtain ⟨low, high⟩ := known; omega⟩).sentPose
    else none

theorem record_append (sentTime : SentTime) (params : Params Coord) (first second : List CsvRow)
    (node : BridgeNode n Coord) :
    record sentTime params second (record sentTime params first node) =
      record sentTime params (first ++ second) node := by
  simp [record]

theorem posesOf_append (node : BridgeNode n Coord) (first second : List CsvRow) :
    posesOf node (first ++ second) = posesOf node first ++ posesOf node second :=
  List.filterMap_append

theorem posesOf_length (node : BridgeNode n Coord) (rows : List CsvRow) :
    (posesOf node rows).length = (rows.filter fun row => row.Known n).length := by
  induction rows with
  | nil => rfl
  | cons row rows inductionHypothesis =>
      rw [← List.singleton_append, posesOf_append, List.length_append, inductionHypothesis,
        List.filter_append, List.length_append]
      by_cases known : row.Known n <;> simp [posesOf, known]

/-- A row is written, published and recorded, and its pose is pushed if its source
is a robot. -/
theorem handleItem_eq (sentTime : SentTime) (params : Params Coord) (simNs : Int) (j : Fin n)
    (state : BridgeNode n Coord × List (Pose Coord)) (item : Text) :
    handleItem sentTime params simNs j state item =
      match readItem item with
      | .error error => .error error
      | .ok (src, latUs) => .ok (record sentTime params [⟨simNs, src, j, latUs⟩] state.1,
          state.2 ++ posesOf state.1 [⟨simNs, src, j, latUs⟩]) := by
  obtain ⟨node, neigh⟩ := state
  unfold handleItem readItem
  simp only [bind, Except.bind, pure, Except.pure]
  cases Decimal.stoi (splitItem item).1 with
  | error error => rfl
  | ok src =>
      dsimp only
      cases Decimal.stoll (splitItem item).2 with
      | error error => rfl
      | ok latUs =>
          have poses : posesOf node [⟨simNs, src, j, latUs⟩] =
              if known : 0 ≤ src ∧ src < n then
                [(node.robots ⟨src.toNat, by omega⟩).sentPose]
              else [] := by
            by_cases known : 0 ≤ src ∧ src < n
            · simp [posesOf, CsvRow.Known, known]
            · simp [posesOf, CsvRow.Known, known]
          have latencies : (([⟨simNs, src, j, latUs⟩] : List CsvRow).filter fun row =>
              row.Counts sentTime params).map CsvRow.latencyUs =
                if params.warmupNs ≤ sentTime.sentNs simNs latUs then [latUs] else [] := by
            by_cases counts : params.warmupNs ≤ sentTime.sentNs simNs latUs
            · simp [CsvRow.Counts, counts]
            · simp [CsvRow.Counts, counts]
          simp only [poses, record, latencies, List.map_singleton]
          by_cases known : 0 ≤ src ∧ src < n
          · by_cases counts : params.warmupNs ≤ sentTime.sentNs simNs latUs <;> simp [known, counts]
          · by_cases counts : params.warmupNs ≤ sentTime.sentNs simNs latUs <;> simp [known, counts]

theorem handleItem_ok {sentTime : SentTime} {params : Params Coord} {simNs : Int} {j : Fin n}
    {state next : BridgeNode n Coord × List (Pose Coord)} {item : Text}
    (handled : handleItem sentTime params simNs j state item = .ok next) :
    Readable item ∧ next = (record sentTime params (rowsOf simNs j [item]) state.1,
      state.2 ++ posesOf state.1 (rowsOf simNs j [item])) := by
  rw [handleItem_eq] at handled
  split at handled
  next => cases handled
  next src latUs read =>
    rw [Except.ok.injEq] at handled
    refine ⟨⟨(src, latUs), read⟩, ?_⟩
    rw [← handled]
    simp [rowsOf, read]

theorem handleItem_error {sentTime : SentTime} {params : Params Coord} {simNs : Int} {j : Fin n}
    {state : BridgeNode n Coord × List (Pose Coord)} {item : Text}
    {error : Decimal.ConversionError}
    (fails : handleItem sentTime params simNs j state item = .error error) :
    readItem item = .error error := by
  rw [handleItem_eq] at fails
  split at fails
  next other read =>
    rw [read]
    exact congrArg Except.error (Except.error.inj fails)
  next => cases fails

theorem rowsOf_append (simNs : Int) (j : Nat) (before after : List Text) :
    rowsOf simNs j (before ++ after) = rowsOf simNs j before ++ rowsOf simNs j after :=
  List.filterMap_append

/-- The items of a receiver, as far as they can be read. -/
theorem run_handleItem_ok {sentTime : SentTime} {params : Params Coord} {simNs : Int} {j : Fin n}
    {items : List Text}
    {node : BridgeNode n Coord} {next : BridgeNode n Coord × List (Pose Coord)}
    (ran : Run.run (handleItem sentTime params simNs j) (node, []) items = .ok next) :
    (∀ item ∈ items, Readable item) ∧
      next = (record sentTime params (rowsOf simNs j items) node,
        posesOf node (rowsOf simNs j items)) := by
  refine Run.history_induction (fun past state => (∀ item ∈ past, Readable item) ∧
    state = (record sentTime params (rowsOf simNs j past) node,
      posesOf node (rowsOf simNs j past))) ran ?_ ?_
  · refine ⟨by simp, ?_⟩
    simp [rowsOf, record, posesOf]
  · intro past item rest middle next _ _ earlier handled
    obtain ⟨readable, rfl⟩ := earlier
    obtain ⟨here, rfl⟩ := handleItem_ok handled
    constructor
    · intro other member
      rcases List.mem_append.mp member with before | last
      · exact readable other before
      · exact List.mem_singleton.mp last ▸ here
    · rw [rowsOf_append, record_append, posesOf_append]
      rfl

/-! ## Fields -/

/-- The text of receiver `j` in a reply; there is none beyond the last field. -/
def fieldOf (line : Text) (j : Nat) : Text := (splitFields line).getD j []

/-- The items of receiver `j` in a reply. -/
def itemsOf (line : Text) (j : Nat) : List Text := Delimited.getlines ';' (fieldOf line j)

theorem handleField_ok {sentTime : SentTime} {params : Params Coord} {simNs : Int}
    {line : Text} {j : Fin n}
    {node next : BridgeNode n Coord}
    (handled : handleField sentTime params simNs (splitFields line) node j = .ok next) :
    (∀ item ∈ itemsOf line j, Readable item) ∧
      next = { record sentTime params (rowsOf simNs j (itemsOf line j)) node with
        neighbors := Function.update node.neighbors j (node.neighbors j ++
          if fieldOf line j = [] then []
          else [posesOf node (rowsOf simNs j (itemsOf line j))]) } := by
  unfold handleField at handled
  simp only [bind, Except.bind, pure, Except.pure, List.isEmpty_iff] at handled
  split at handled
  next empty =>
    have noField : fieldOf line j = [] := empty
    have noItems : itemsOf line j = [] := by
      rw [itemsOf, noField]
      rfl
    rw [Except.ok.injEq] at handled
    subst handled
    simp [noItems, noField, rowsOf, record]
  next nonempty =>
    have field : fieldOf line j ≠ [] := nonempty
    split at handled
    next => cases handled
    next state ran =>
      obtain ⟨readable, rfl⟩ := run_handleItem_ok ran
      rw [Except.ok.injEq] at handled
      refine ⟨readable, ?_⟩
      rw [← handled, if_neg field]
      rfl

/-- The first item that cannot be read, and its receiver. -/
theorem handleField_error {sentTime : SentTime} {params : Params Coord} {simNs : Int}
    {line : Text} {j : Fin n}
    {node : BridgeNode n Coord} {error : Decimal.ConversionError}
    (fails : handleField sentTime params simNs (splitFields line) node j = .error error) :
    ∃ before item after, itemsOf line j = before ++ item :: after ∧
      (∀ earlier ∈ before, Readable earlier) ∧ readItem item = .error error := by
  unfold handleField at fails
  simp only [bind, Except.bind, pure, Except.pure] at fails
  split at fails
  next => cases fails
  next =>
    split at fails
    next other ran =>
      obtain ⟨before, item, after, middle, split, ranBefore, itemFails⟩ := Run.run_error_split ran
      rw [Except.error.injEq] at fails
      refine ⟨before, item, after, split, (run_handleItem_ok ranBefore).1, ?_⟩
      rw [← fails]
      exact handleItem_error itemFails
    next => cases fails

/-! ## Replies -/

/-- The receivers that a reply has a field for. -/
def receiversOf (n : Nat) (line : Text) : List (Fin n) :=
  (List.finRange n).filter fun j => j < (splitFields line).length

/-- All items of a reply, receiver by receiver. -/
def replyItems (n : Nat) (line : Text) : List Text :=
  (List.finRange n).flatMap fun j : Fin n => itemsOf line j

/-- The rows that a reply is written as. -/
def replyRows (n : Nat) (simNs : Int) (line : Text) : List CsvRow :=
  (List.finRange n).flatMap fun j : Fin n => rowsOf simNs j (itemsOf line j)

theorem mem_replyRows {simNs : Int} {line : Text} {row : CsvRow}
    (member : row ∈ replyRows n simNs line) : row.simNs = simNs ∧ row.dst < n := by
  obtain ⟨j, -, inReceiver⟩ := List.mem_flatMap.mp member
  obtain ⟨item, -, read⟩ := List.mem_filterMap.mp inReceiver
  split at read
  next => cases read
  next =>
    rw [Option.some.injEq] at read
    rw [← read]
    exact ⟨rfl, j.isLt⟩

/-- The node after a reply: its rows, a pose array for each receiver with a field
that is not empty, and the warning unless there are as many fields as robots. -/
def afterLine (sentTime : SentTime) (params : Params Coord) (simNs : Int) (line : Text)
    (node : BridgeNode n Coord) : BridgeNode n Coord :=
  { record sentTime params (replyRows n simNs line) node with
    neighbors := fun j => node.neighbors j ++
      if fieldOf line j = [] then [] else [posesOf node (rowsOf simNs j (itemsOf line j))]
    fieldWarning :=
      if (splitFields line).length = n then node.fieldWarning
      else node.fieldWarning.or (some (splitFields line).length) }

/-- Beyond the last field there is nothing to read. -/
theorem fieldOf_of_le {line : Text} {j : Nat} (beyond : (splitFields line).length ≤ j) :
    fieldOf line j = [] := by
  rw [fieldOf, List.getD_eq_getElem?_getD, List.getElem?_eq_none beyond]
  rfl

/-- What is empty beyond the last field may as well be collected from all receivers. -/
theorem flatMap_receiversOf {α : Type} (line : Text) (view : Fin n → List α)
    (nothing : ∀ j : Fin n, fieldOf line j = [] → view j = []) :
    (receiversOf n line).flatMap view = (List.finRange n).flatMap view := by
  rw [receiversOf]
  induction List.finRange n with
  | nil => rfl
  | cons j robots inductionHypothesis =>
      rw [List.filter_cons, List.flatMap_cons]
      by_cases present : j.val < (splitFields line).length
      · simp [present, inductionHypothesis]
      · have none := nothing j (fieldOf_of_le (Nat.not_lt.mp present))
        simp [present, none, inductionHypothesis]

theorem itemsOf_of_empty {line : Text} {j : Nat} (empty : fieldOf line j = []) :
    itemsOf line j = [] := by
  rw [itemsOf, empty]
  rfl

/-- The node once the loop has dealt with the receivers `done`. -/
def afterFields (sentTime : SentTime) (params : Params Coord) (simNs : Int) (line : Text)
    (done : List (Fin n)) (node : BridgeNode n Coord) : BridgeNode n Coord :=
  { record sentTime params (done.flatMap fun j : Fin n => rowsOf simNs j (itemsOf line j)) node with
    neighbors := fun j => node.neighbors j ++
      if done.contains j ∧ fieldOf line j ≠ [] then
        [posesOf node (rowsOf simNs j (itemsOf line j))]
      else [] }

theorem afterFields_concat (sentTime : SentTime) (params : Params Coord) (simNs : Int) (line : Text)
    {done : List (Fin n)} {j : Fin n} (fresh : j ∉ done) (node : BridgeNode n Coord) :
    let middle := afterFields sentTime params simNs line done node
    ({ record sentTime params (rowsOf simNs j (itemsOf line j)) middle with
        neighbors := Function.update middle.neighbors j (middle.neighbors j ++
          if fieldOf line j = [] then []
          else [posesOf middle (rowsOf simNs j (itemsOf line j))]) } : BridgeNode n Coord) =
      afterFields sentTime params simNs line (done ++ [j]) node := by
  intro middle
  have neighbors : Function.update middle.neighbors j (middle.neighbors j ++
      if fieldOf line j = [] then []
      else [posesOf middle (rowsOf simNs j (itemsOf line j))]) =
        (afterFields sentTime params simNs line (done ++ [j]) node).neighbors := by
    funext other
    by_cases here : other = j
    · subst here
      by_cases empty : fieldOf line other = []
      · simp [middle, afterFields, empty]
      · simp [middle, afterFields, empty, fresh]
        rfl
    · simp [middle, afterFields, here]
  rw [neighbors]
  simp [middle, afterFields, record]

/-- The loop over the receivers, as far as it has got. -/
theorem run_handleField_ok {sentTime : SentTime} {params : Params Coord} {simNs : Int} {line : Text}
    {receivers : List (Fin n)} (distinct : receivers.Nodup) {node next : BridgeNode n Coord}
    (ran : Run.run (handleField sentTime params simNs (splitFields line)) node receivers =
      .ok next) :
    (∀ j ∈ receivers, ∀ item ∈ itemsOf line j.val, Readable item) ∧
      next = afterFields sentTime params simNs line receivers node := by
  refine Run.history_induction (fun past state =>
    (∀ j : Fin n, j ∈ past → ∀ item ∈ itemsOf line j, Readable item) ∧
      state = afterFields sentTime params simNs line past node) ran ?_ ?_
  · refine ⟨by simp, ?_⟩
    simp [afterFields, record]
  · intro past j rest middle next split _ earlier handled
    obtain ⟨readable, rfl⟩ := earlier
    obtain ⟨here, rfl⟩ := handleField_ok handled
    have fresh : j ∉ past := by
      rw [split] at distinct
      exact fun again => (List.nodup_append.mp distinct).2.2 j again j (by simp) rfl
    constructor
    · intro other member
      rcases List.mem_append.mp member with before | last
      · exact readable other before
      · exact List.mem_singleton.mp last ▸ here
    · exact afterFields_concat sentTime params simNs line fresh node

theorem handleReply_ok {sentTime : SentTime} {params : Params Coord} {simNs : Int} {line : Text}
    {node next : BridgeNode n Coord}
    (handled : handleReplyWith sentTime params line simNs node = .ok next) :
    (∀ item ∈ replyItems n line, Readable item) ∧
      next = afterLine sentTime params simNs line node := by
  obtain ⟨readable, rfl⟩ := run_handleField_ok ((List.nodup_finRange n).filter _) handled
  constructor
  · intro item member
    rw [replyItems, ← flatMap_receiversOf line _ fun j empty => itemsOf_of_empty empty] at member
    obtain ⟨j, inReceivers, inItems⟩ := List.mem_flatMap.mp member
    exact readable j inReceivers item inItems
  · have rows := flatMap_receiversOf line (fun j : Fin n => rowsOf simNs j (itemsOf line j))
      fun j empty => by
        rw [itemsOf_of_empty empty]
        rfl
    rw [receiversOf] at rows
    have present : ∀ j : Fin n, fieldOf line j ≠ [] → j.val < (splitFields line).length := by
      intro j nonempty
      by_contra beyond
      exact nonempty (fieldOf_of_le (Nat.not_lt.mp beyond))
    have neighbors : ∀ j : Fin n, (((List.finRange n).filter fun j : Fin n =>
        j.val < (splitFields line).length).contains j = true ∧ fieldOf line j ≠ []) ↔
          fieldOf line j ≠ [] := by
      intro j
      rw [and_iff_right_iff_imp]
      intro nonempty
      simp [present j nonempty]
    unfold afterFields afterLine replyRows
    rw [rows]
    simp only [neighbors, ite_not]
    by_cases exact : (splitFields line).length = n
    · simp only [exact, if_true]
      rfl
    · simp only [exact, if_false]
      rfl

/-- A reply that is not handled: its first item that cannot be read. -/
theorem handleReply_error {sentTime : SentTime} {params : Params Coord} {simNs : Int} {line : Text}
    {node : BridgeNode n Coord} {error : Decimal.ConversionError}
    (fails : handleReplyWith sentTime params line simNs node = .error error) :
    ∃ before item after, replyItems n line = before ++ item :: after ∧
      (∀ earlier ∈ before, Readable earlier) ∧ readItem item = .error error := by
  obtain ⟨past, j, rest, middle, split, ranPast, fieldFails⟩ := Run.run_error_split fails
  have distinct : past.Nodup := by
    have all := (List.nodup_finRange n).filter fun j : Fin n => j.val < (splitFields line).length
    rw [split] at all
    exact (List.nodup_append.mp all).1
  obtain ⟨readable, -⟩ := run_handleField_ok distinct ranPast
  obtain ⟨before, item, after, items, readableBefore, itemFails⟩ := handleField_error fieldFails
  refine ⟨past.flatMap (fun j : Fin n => itemsOf line j) ++ before, item,
    after ++ rest.flatMap (fun j : Fin n => itemsOf line j), ?_, ?_, itemFails⟩
  · have all := flatMap_receiversOf line (fun j : Fin n => itemsOf line j)
      fun j empty => itemsOf_of_empty empty
    rw [replyItems, ← all, receiversOf, split, List.flatMap_append, List.flatMap_cons, items]
    simp
  · intro earlier member
    rcases List.mem_append.mp member with inPast | here
    · obtain ⟨other, inOther, inItems⟩ := List.mem_flatMap.mp inPast
      exact readable other inOther earlier inItems
    · exact readableBefore earlier here

/-- Every line either has only items that both conversions accept, and is handled
to the end with exactly these items; or it has a first item that one of them
rejects, and its exception is the one that leaves `handleReply`. The number of
fields, empty ones and unknown sources never make it fail. What an overflow leaves
decides at most whether a latency that does not fit is recorded for the report. -/
theorem handleReply_reads (sentTime : SentTime) (params : Params Coord) (line : Text)
    (simNs : Int) (node : BridgeNode n Coord) :
    (((∀ item ∈ replyItems n line, Readable item) ∧
        handleReplyWith sentTime params line simNs node =
          .ok (afterLine sentTime params simNs line node)) ∨
      ∃ before item after error, replyItems n line = before ++ item :: after ∧
        (∀ earlier ∈ before, Readable earlier) ∧ readItem item = .error error ∧
        handleReplyWith sentTime params line simNs node = .error error) ∧
      (∀ row ∈ replyRows n simNs line, row.Fits →
        (row.Counts sentTime params ↔ params.warmupNs ≤ simNs - row.latencyUs * 1000)) ∧
      ∃ latenciesUs, afterLine sentTime params simNs line node =
        { afterLine .unbounded params simNs line node with latenciesUs := latenciesUs } := by
  refine ⟨?_, ?_, _, rfl⟩
  · cases handled : handleReplyWith sentTime params line simNs node with
    | ok next =>
        obtain ⟨readable, rfl⟩ := handleReply_ok handled
        exact Or.inl ⟨readable, rfl⟩
    | error error =>
        obtain ⟨before, item, after, items, readable, fails⟩ := handleReply_error handled
        exact Or.inr ⟨before, item, after, error, items, readable, fails, rfl⟩
  · intro row member fits
    rw [fits.counts_iff, (mem_replyRows member).1]

/-! ## Whole runs -/

/-- What the node has written, published and recorded after `answered` replies: the
same latencies on the topic and in the file, in the same order, those recorded the
ones whose message counts, a pose pushed for each row with a known source, and every
row at the time of one of the steps so far, in order. -/
structure Ledger (params : LoopParams Coord) (answered : Nat) (node : BridgeNode n Coord) :
    Prop where
  published : node.latencyMs = node.csv.map fun row => (row.latencyUs : ℚ) / 1000
  recorded : node.latenciesUs =
    (node.csv.filter fun row => row.Counts params.sentTime params.toParams).map CsvRow.latencyUs
  fitting : ∀ row ∈ node.csv, row.Fits → (row.Counts params.sentTime params.toParams ↔
    params.warmupNs ≤ row.simNs - row.latencyUs * 1000)
  poses : ∀ j : Fin n, (node.neighbors j).flatten.length =
    (node.csv.filter fun row => row.dst = j.val ∧ row.Known n).length
  receivers : ∀ row ∈ node.csv, row.dst < n
  times : ∀ row ∈ node.csv, ∃ k < answered, row.simNs = messageTime params k
  ordered : node.csv.Pairwise fun earlier later => earlier.simNs ≤ later.simNs

theorem Ledger.congr {params : LoopParams Coord} {answered : Nat}
    {first second : BridgeNode n Coord} (ledger : Ledger params answered second)
    (same : SameOutputs first second) :
    Ledger params answered first := by
  unfold SameOutputs at same
  rw [← same] at ledger
  exact ⟨ledger.published, ledger.recorded, ledger.fitting, ledger.poses, ledger.receivers,
    ledger.times, ledger.ordered⟩

/-- The rows of a reply for receiver `j` are those of its own items. -/
theorem replyRows_filter (simNs : Int) (line : Text) (j : Fin n) (keep : CsvRow → Bool) :
    ((replyRows n simNs line).filter fun row => row.dst = j.val ∧ keep row) =
      (rowsOf simNs j (itemsOf line j)).filter keep := by
  have perReceiver : ∀ i : Fin n, ((rowsOf simNs i (itemsOf line i)).filter fun row =>
      row.dst = j.val ∧ keep row) =
        if i = j then (rowsOf simNs i (itemsOf line i)).filter keep else [] := by
    intro i
    have dst : ∀ row ∈ rowsOf simNs i (itemsOf line i), row.dst = i.val := by
      intro row member
      obtain ⟨item, -, read⟩ := List.mem_filterMap.mp member
      split at read
      next => cases read
      next =>
        rw [Option.some.injEq] at read
        rw [← read]
    by_cases here : i = j
    · rw [if_pos here]
      apply List.filter_congr
      intro row member
      simp [dst row member, here]
    · rw [if_neg here, List.filter_eq_nil_iff]
      intro row member
      simp [dst row member, here, Fin.val_inj]
  rw [replyRows, List.filter_flatMap]
  simp only [perReceiver]
  exact flatMap_single (List.nodup_finRange n) (List.mem_finRange j) _

/-- A reply that is handled keeps the ledger. -/
theorem ledger_afterLine {params : LoopParams Coord} {answered : Nat} {node : BridgeNode n Coord}
    (ledger : Ledger params answered node) (line : Text) :
    Ledger params (answered + 1)
      (afterLine params.sentTime params.toParams (messageTime params answered) line node) := by
  have csv :
      (afterLine params.sentTime params.toParams (messageTime params answered) line node).csv =
        node.csv ++ replyRows n (messageTime params answered) line := rfl
  constructor
  · rw [csv, List.map_append, ← ledger.published]
    rfl
  · rw [csv, List.filter_append, List.map_append, ← ledger.recorded]
    rfl
  · exact fun row _ fits => fits.counts_iff params.sentTime params.toParams
  · intro j
    have here := replyRows_filter (messageTime params answered) line j fun row =>
      decide (row.Known n)
    simp only [decide_eq_true_eq] at here
    rw [csv, List.filter_append, List.length_append, ← ledger.poses j, here, ← posesOf_length node]
    show (node.neighbors j ++ if fieldOf line j = [] then [] else
      [posesOf node (rowsOf (messageTime params answered) j (itemsOf line j))]).flatten.length = _
    by_cases empty : fieldOf line j = []
    · simp [empty, itemsOf_of_empty empty, rowsOf, posesOf]
    · simp [empty]
  · intro row member
    rw [csv] at member
    rcases List.mem_append.mp member with earlier | new
    · exact ledger.receivers row earlier
    · exact (mem_replyRows new).2
  · intro row member
    rw [csv] at member
    rcases List.mem_append.mp member with earlier | new
    · obtain ⟨k, below, time⟩ := ledger.times row earlier
      exact ⟨k, Nat.lt_succ_of_lt below, time⟩
    · exact ⟨answered, Nat.lt_succ_self answered, (mem_replyRows new).1⟩
  · rw [csv, List.pairwise_append]
    refine ⟨ledger.ordered, ?_, ?_⟩
    · apply List.pairwise_of_forall_mem_list
      intro first firstNew second secondNew
      rw [(mem_replyRows firstNew).1, (mem_replyRows secondNew).1]
    · intro first earlier second new
      obtain ⟨k, below, time⟩ := ledger.times first earlier
      rw [time, (mem_replyRows new).1]
      apply Int.mul_le_mul_of_nonneg_right
      · exact_mod_cast below.le
      · omega

theorem ledger_run {params : LoopParams Coord} {origin : Pose Coord} {turns : List (Turn n Coord)}
    {loop : Loop n Coord}
    (ran : Run.run (turn params) (Loop.initial n origin) turns = .ok loop) :
    Ledger params turns.length loop.node := by
  refine Run.history_induction (fun past loop => Ledger params past.length loop.node) ran ?_ ?_
  · exact ⟨rfl, rfl, fun row _ fits => fits.counts_iff params.sentTime params.toParams,
      fun _ => rfl, by simp [Loop.initial, BridgeNode.initial],
      by simp [Loop.initial, BridgeNode.initial], List.Pairwise.nil⟩
  · intro past now rest middle next _ ranPast ledger stepped
    obtain ⟨receiver, answered⟩ := turn_ok stepped
    have waiting := (sameOutputs_afterMessage params.toParams middle.simNs middle.node now.before
      now.during).1
    obtain ⟨-, handled⟩ := handleReply_ok answered.handled
    rw [handled, (transcript_run ranPast).simNs, List.length_append, List.length_singleton]
    apply ledger_afterLine
    exact ledger.congr waiting

/-- Over every run of the loop, whatever the socket brings: the file, the latency
topic, the recorded latencies and the pose arrays tell of the same deliveries,
until a reply that cannot be read ends the process. -/
theorem outputs_agree (params : LoopParams Coord) (origin : Pose Coord)
    (turns : List (Turn n Coord)) :
    (∃ loop, Run.run (turn params) (Loop.initial n origin) turns = .ok loop ∧
        Ledger params turns.length loop.node) ∨
      ∃ ending past, Run.run (turn params) (Loop.initial n origin) turns = .error ending ∧
        past <+: turns ∧
        ((∃ error, ending.cause = .exception error) ∨
          Ledger params past.length ending.loop.node) := by
  cases ran : Run.run (turn params) (Loop.initial n origin) turns with
  | ok loop => exact Or.inl ⟨loop, rfl, ledger_run ran⟩
  | error ending =>
      obtain ⟨past, now, rest, middle, split, ranPast, stepped⟩ := Run.run_error_split ran
      have ledger := ledger_run ranPast
      refine Or.inr ⟨ending, past, rfl, ⟨now :: rest, split.symm⟩, Or.inr ?_⟩
      obtain ⟨asked, left, -, ended⟩ := turn_error stepped
      exact ledger.congr ended.outputs

end Sidewalk.Bridge
