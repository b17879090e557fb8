import Mathlib.Data.List.Perm.Basic
import Mathlib.Data.Set.List
import Mathlib.Logic.Function.Basic
import Mathlib.Tactic.TypeStar

/-!
Owns publishing on named topics: subscriptions with queues of bounded depth, and a
network that hands every message to all subscriptions on its topic, keeps their
order, drops the oldest when a queue is full and may lose any that wait. Whatever is
published, taken and lost, a subscription takes messages of its own topic only, in
order and each at most once, and all others wait or are lost.

Does not own what messages are nor when callbacks run.
-/

set_option autoImplicit false

namespace Sidewalk.Foundation.Topics

variable {Topic Sub Msg : Type}

/-- The topic of each subscription and how many messages may wait for it. -/
structure Wiring (Topic Sub : Type) where
  topic : Sub → Topic
  depth : Sub → Nat

/-- What has become of the messages for a subscription: those that wait, those its
callback has taken, and those lost. -/
structure Inbox (Msg : Type) where
  waiting : List Msg
  handled : List Msg
  lost : List Msg
deriving DecidableEq, Repr

/-- A message joins the queue; the oldest are lost when there are too many. -/
def Inbox.arrive (depth : Nat) (message : Msg) (inbox : Inbox Msg) : Inbox Msg :=
  let waiting := inbox.waiting ++ [message]
  let surplus := waiting.length - depth
  { inbox with waiting := waiting.drop surplus, lost := inbox.lost ++ waiting.take surplus }

/-- The callback takes the first message. -/
def Inbox.take (message : Msg) (rest : List Msg) (inbox : Inbox Msg) : Inbox Msg :=
  { inbox with waiting := rest, handled := inbox.handled ++ [message] }

/-- The message at a place is lost. -/
def Inbox.lose (place : Nat) (inbox : Inbox Msg) : Inbox Msg :=
  { inbox with
    waiting := inbox.waiting.eraseIdx place
    lost := inbox.lost ++ (inbox.waiting[place]?).toList }

/-! ## Faithful inboxes -/

/-- An inbox tells of all messages of its topic: the ones taken and waiting in order,
each message once, and no more waiting than its depth allows. -/
structure Inbox.Faithful (depth : Nat) (published : List Msg) (inbox : Inbox Msg) : Prop where
  inOrder : (inbox.handled ++ inbox.waiting).Sublist published
  conserved : (inbox.handled ++ inbox.waiting ++ inbox.lost).Perm published
  bounded : inbox.waiting.length ≤ depth

namespace Inbox.Faithful

variable {depth : Nat} {published : List Msg} {inbox : Inbox Msg}

theorem arrive (faithful : inbox.Faithful depth published) (message : Msg) :
    (inbox.arrive depth message).Faithful depth (published ++ [message]) := by
  constructor
  · have grown := faithful.inOrder.append (List.Sublist.refl [message])
    rw [List.append_assoc] at grown
    apply List.Sublist.trans _ grown
    exact (List.Sublist.refl _).append (List.drop_sublist _ _)
  · classical
    apply List.perm_iff_count.mpr
    intro other
    have before := List.perm_iff_count.mp faithful.conserved other
    have whole := congrArg (List.count other) (List.take_append_drop
      ((inbox.waiting ++ [message]).length - depth) (inbox.waiting ++ [message]))
    simp only [Inbox.arrive, List.count_append] at before whole ⊢
    omega
  · show ((inbox.waiting ++ [message]).drop _).length ≤ depth
    rw [List.length_drop]
    omega

theorem take (faithful : inbox.Faithful depth published) {message : Msg} {rest : List Msg}
    (waits : inbox.waiting = message :: rest) :
    (inbox.take message rest).Faithful depth published := by
  obtain ⟨inOrder, conserved, bounded⟩ := faithful
  have same : inbox.handled ++ [message] ++ rest = inbox.handled ++ inbox.waiting := by
    rw [waits, List.append_assoc, List.singleton_append]
  constructor
  · show (inbox.handled ++ [message] ++ rest).Sublist published
    rwa [same]
  · show (inbox.handled ++ [message] ++ rest ++ inbox.lost).Perm published
    rwa [same]
  · show rest.length ≤ depth
    rw [waits, List.length_cons] at bounded
    omega

theorem lose (faithful : inbox.Faithful depth published) (place : Nat) :
    (inbox.lose place).Faithful depth published := by
  have fewer : (inbox.waiting.eraseIdx place).Sublist inbox.waiting := List.eraseIdx_sublist _ _
  constructor
  · exact ((List.Sublist.refl _).append fewer).trans faithful.inOrder
  · by_cases inside : place < inbox.waiting.length
    · have moved : (inbox.waiting.eraseIdx place ++ [inbox.waiting[place]]).Perm inbox.waiting :=
        (List.perm_append_comm).trans (List.getElem_cons_eraseIdx_perm inside)
      show (inbox.handled ++ inbox.waiting.eraseIdx place ++
        (inbox.lost ++ (inbox.waiting[place]?).toList)).Perm published
      rw [List.getElem?_eq_getElem inside]
      apply List.Perm.trans _ faithful.conserved
      classical
      apply List.perm_iff_count.mpr
      intro other
      have here := List.perm_iff_count.mp moved other
      simp only [Option.toList_some, List.count_append] at here ⊢
      omega
    · have outside : inbox.lose place = inbox := by
        unfold Inbox.lose
        rw [List.eraseIdx_of_length_le (Nat.not_lt.mp inside),
          List.getElem?_eq_none (Nat.not_lt.mp inside)]
        simp
      rw [outside]
      exact faithful.conserved
  · exact Nat.le_trans fewer.length_le faithful.bounded

/-- When nothing waits and nothing is lost, everything was taken, in order. -/
theorem handled_eq (faithful : inbox.Faithful depth published) (idle : inbox.waiting = [])
    (lossless : inbox.lost = []) : inbox.handled = published := by
  obtain ⟨inOrder, conserved, -⟩ := faithful
  rw [idle, List.append_nil] at inOrder conserved
  rw [lossless, List.append_nil] at conserved
  exact inOrder.eq_of_length conserved.length_eq

/-- On a topic whose messages all have one type, so have those in an inbox. -/
theorem typed {Typed : Type} {wrap : Typed → Msg} (injective : Function.Injective wrap)
    {sent : List Typed} (faithful : inbox.Faithful depth (sent.map wrap)) :
    ∃ source : Inbox Typed, source.Faithful depth sent ∧
      inbox = ⟨source.waiting.map wrap, source.handled.map wrap, source.lost.map wrap⟩ := by
  obtain ⟨inOrder, conserved, bounded⟩ := faithful
  obtain ⟨kept, keptInOrder, split⟩ := List.sublist_map_iff.mp inOrder
  obtain ⟨handled, waiting, rfl, handledEq, waitingEq⟩ := List.map_eq_append_iff.mp split.symm
  have typedLost : inbox.lost ∈ Set.range (List.map wrap) := by
    rw [Set.range_list_map]
    intro message member
    obtain ⟨source, -, same⟩ := List.mem_map.mp
      (conserved.subset (List.mem_append_right _ member))
    exact ⟨source, same⟩
  obtain ⟨lost, lostEq⟩ := typedLost
  refine ⟨⟨waiting, handled, lost⟩, ⟨keptInOrder, ?_, ?_⟩, ?_⟩
  · apply (List.map_perm_map_iff injective).mp
    rw [List.map_append, List.map_append, handledEq, waitingEq, lostEq]
    exact conserved
  · rw [← waitingEq, List.length_map] at bounded
    exact bounded
  · rw [handledEq, waitingEq, lostEq]

end Inbox.Faithful

/-! ## The network -/

/-- All messages published so far by topic, and the inboxes. -/
structure Net (Topic Sub Msg : Type) where
  published : Topic → List Msg
  inbox : Sub → Inbox Msg

/-- Nothing published yet. -/
def Net.initial (Topic Sub Msg : Type) : Net Topic Sub Msg where
  published _ := []
  inbox _ := ⟨[], [], []⟩

/-- Every inbox is faithful to its topic. -/
def Net.Faithful (wiring : Wiring Topic Sub) (net : Net Topic Sub Msg) : Prop :=
  ∀ sub, (net.inbox sub).Faithful (wiring.depth sub) (net.published (wiring.topic sub))

namespace Net

variable {wiring : Wiring Topic Sub} {net : Net Topic Sub Msg}

theorem faithful_initial (wiring : Wiring Topic Sub) :
    (Net.initial Topic Sub Msg).Faithful wiring := fun _ =>
  ⟨List.Sublist.refl [], List.Perm.refl [], Nat.zero_le _⟩

/-! ## One inbox -/

section Become

variable [DecidableEq Sub]

/-- What becomes of one inbox. -/
def become (net : Net Topic Sub Msg) (sub : Sub) (inbox : Inbox Msg) : Net Topic Sub Msg :=
  { net with inbox := Function.update net.inbox sub inbox }

theorem become_self (net : Net Topic Sub Msg) (sub : Sub) (inbox : Inbox Msg) :
    (net.become sub inbox).inbox sub = inbox := by
  unfold become
  exact Function.update_self ..

theorem become_of_ne (net : Net Topic Sub Msg) {sub other : Sub} (different : other ≠ sub)
    (inbox : Inbox Msg) : (net.become sub inbox).inbox other = net.inbox other := by
  unfold become
  exact Function.update_of_ne different ..

theorem Faithful.become (faithful : net.Faithful wiring) {sub : Sub} {inbox : Inbox Msg}
    (one : inbox.Faithful (wiring.depth sub) (net.published (wiring.topic sub))) :
    (net.become sub inbox).Faithful wiring := by
  intro other
  by_cases same : other = sub
  · subst same
    rw [become_self]
    exact one
  · rw [become_of_ne net same]
    exact faithful other

end Become

/-! ## Publishing -/

variable [DecidableEq Topic]

/-- A message goes to all subscriptions on its topic. -/
def publish (wiring : Wiring Topic Sub) (net : Net Topic Sub Msg) (topic : Topic)
    (message : Msg) : Net Topic Sub Msg where
  published := Function.update net.published topic (net.published topic ++ [message])
  inbox sub :=
    if wiring.topic sub = topic then (net.inbox sub).arrive (wiring.depth sub) message
    else net.inbox sub

/-- Messages published one after the other, each on its topic. -/
def publishAll (wiring : Wiring Topic Sub) (net : Net Topic Sub Msg)
    (messages : List (Topic × Msg)) : Net Topic Sub Msg :=
  messages.foldl (fun net message => net.publish wiring message.1 message.2) net

theorem Faithful.publish (faithful : net.Faithful wiring) (topic : Topic) (message : Msg) :
    (net.publish wiring topic message).Faithful wiring := by
  intro sub
  show (if wiring.topic sub = topic then _ else _ : Inbox Msg).Faithful _
    (Function.update net.published topic (net.published topic ++ [message]) (wiring.topic sub))
  by_cases mine : wiring.topic sub = topic
  · rw [if_pos mine, ← mine, Function.update_self]
    exact (faithful sub).arrive message
  · rw [if_neg mine, Function.update_of_ne mine]
    exact faithful sub

theorem Faithful.publishAll (faithful : net.Faithful wiring) (messages : List (Topic × Msg)) :
    (net.publishAll wiring messages).Faithful wiring := by
  induction messages generalizing net with
  | nil => exact faithful
  | cons message messages inductionHypothesis =>
      exact inductionHypothesis (faithful.publish message.1 message.2)

/-- The messages for one topic. -/
def onTopic (topic : Topic) (messages : List (Topic × Msg)) : List Msg :=
  (messages.filter fun message => message.1 = topic).map Prod.snd

theorem onTopic_flatMap {ι : Type} (topic : Topic) (all : List ι)
    (messages : ι → List (Topic × Msg)) :
    onTopic topic (all.flatMap messages) = all.flatMap fun i => onTopic topic (messages i) := by
  unfold onTopic
  rw [List.filter_flatMap, List.map_flatMap]

/-- Messages that are all for one topic. -/
theorem onTopic_same (topic other : Topic) (messages : List Msg) :
    onTopic other (messages.map fun message => (topic, message)) =
      if topic = other then messages else [] := by
  unfold onTopic
  rw [List.filter_map, List.map_map]
  by_cases same : topic = other
  · simp [same, Function.comp_def]
  · simp [same, Function.comp_def]

theorem publishAll_published (net : Net Topic Sub Msg) (messages : List (Topic × Msg))
    (topic : Topic) : (net.publishAll wiring messages).published topic =
      net.published topic ++ onTopic topic messages := by
  induction messages generalizing net with
  | nil => simp [publishAll, onTopic]
  | cons message messages inductionHypothesis =>
      have later := inductionHypothesis (net.publish wiring message.1 message.2)
      rw [show net.publishAll wiring (message :: messages) =
        (net.publish wiring message.1 message.2).publishAll wiring messages from rfl, later]
      by_cases same : message.1 = topic
      · subst same
        simp [publish, onTopic]
      · simp [publish, onTopic, same, Ne.symm same]

/-- Publishing takes nothing out of an inbox. -/
theorem publishAll_handled (net : Net Topic Sub Msg) (messages : List (Topic × Msg)) (sub : Sub) :
    ((net.publishAll wiring messages).inbox sub).handled = (net.inbox sub).handled := by
  induction messages generalizing net with
  | nil => rfl
  | cons message messages inductionHypothesis =>
      have later := inductionHypothesis (net.publish wiring message.1 message.2)
      apply later.trans
      unfold publish
      dsimp only
      split
      · rfl
      · rfl

end Net

end Sidewalk.Foundation.Topics
