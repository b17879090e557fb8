import Mathlib.Data.List.Basic

/-!
Owns the abstract mailbox: items are received one by one and handed over in
batches. Its laws are the exactly-once law (the batches followed by what is
still waiting are the received items, in order, each once) and the batch law (a
batch holds what was received since the previous one).

Does not own how items or batches are represented.
-/

set_option autoImplicit false

namespace Sidewalk.Foundation

/-- What one receiver has been handed so far, and what waits for the next batch. -/
structure Mailbox (Item : Type) where
  delivered : List (List Item)
  pending : List Item

/-- An operation on a mailbox. -/
inductive MailboxOp (Item : Type) where
  | receive (item : Item)
  | flush

namespace Mailbox

variable {Item : Type}

def empty : Mailbox Item := ⟨[], []⟩

def step (box : Mailbox Item) : MailboxOp Item → Mailbox Item
  | .receive item => { box with pending := box.pending ++ [item] }
  | .flush => ⟨box.delivered ++ [box.pending], []⟩

def run (box : Mailbox Item) (ops : List (MailboxOp Item)) : Mailbox Item := ops.foldl step box

/-- The items an operation sequence receives. -/
def received (ops : List (MailboxOp Item)) : List Item :=
  ops.filterMap fun
    | .receive item => some item
    | .flush => none

/-- Every item a mailbox has ever held, in order. -/
def contents (box : Mailbox Item) : List Item := box.delivered.flatten ++ box.pending

theorem run_append (box : Mailbox Item) (before after : List (MailboxOp Item)) :
    box.run (before ++ after) = (box.run before).run after :=
  List.foldl_append

theorem run_receive (box : Mailbox Item) (item : Item) :
    box.run [.receive item] = { box with pending := box.pending ++ [item] } := rfl

theorem run_flush (box : Mailbox Item) : box.run [.flush] = ⟨box.delivered ++ [box.pending], []⟩ :=
  rfl

theorem contents_step (box : Mailbox Item) (op : MailboxOp Item) :
    (box.step op).contents = box.contents ++ received [op] := by
  cases op with
  | receive item => simp [step, contents, received]
  | flush => simp [step, contents, received]

/-- Exactly once: a mailbox ends with what it held and what it received since,
in order. -/
theorem contents_run (box : Mailbox Item) (ops : List (MailboxOp Item)) :
    (box.run ops).contents = box.contents ++ received ops := by
  induction ops generalizing box with
  | nil => simp [run, received]
  | cons op ops inductionHypothesis =>
      have later := inductionHypothesis (box.step op)
      rw [contents_step, List.append_assoc] at later
      rw [show box.run (op :: ops) = (box.step op).run ops from rfl, later]
      congr 1
      exact (List.filterMap_append (l := [op])).symm

/-- Without a flush, a mailbox hands nothing over and keeps all it receives. -/
theorem run_of_no_flush (box : Mailbox Item) {ops : List (MailboxOp Item)}
    (noFlush : MailboxOp.flush ∉ ops) :
    box.run ops = { box with pending := box.pending ++ received ops } := by
  induction ops generalizing box with
  | nil => simp [run, received]
  | cons op ops inductionHypothesis =>
      rw [List.mem_cons, not_or] at noFlush
      cases op with
      | flush => exact absurd rfl noFlush.1
      | receive item =>
          have later := inductionHypothesis (box.step (.receive item)) noFlush.2
          rw [show box.run (.receive item :: ops) = (box.step (.receive item)).run ops from rfl,
            later]
          simp [step, received]

end Mailbox

end Sidewalk.Foundation
