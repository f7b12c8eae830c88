import AtomicCss.Connection.Recorder
import AtomicCss.Proofs.Connection.Watched
import AtomicCss.Proofs.Tracker.Step
import Mathlib.Control.Monad.Basic

/-!
# What Becomes of the Changes

The outbound side of a connection, accounted for list by list.

Flushing takes the subscriber's changes before it knows whether they can be handed
over, and what was taken cannot be put back. So every list that is taken has to
turn up somewhere else: there was nothing in it, or the host will get it as one
batch, or the caller is told of it. `Dispatch` has one case for each, and none of
them for a list that goes missing without a word.

What the host receives is what was sent, in the order of sending. It may take its
time, and it may close the channel first and receive the rest then. Only if it gives
up its receiving end, what still waits is never received.

A synchronisation that fails before it flushes takes nothing. The changes stay
with the subscriber, and they are in the next list that is taken, unless the
subscriber itself has thought better of them by then.

## Main definitions

* `Dispatch`: What became of a list of changes.
* `Delivered`: What became of the batches that were sent.
* `Handed`: The dispatches of a stretch of a history.
* `TakesUp`: A dispatch of what a subscriber has to tell by then.
* `Retains`: A subscriber that keeps its changes.
* `LastWord`: One that does not.

## Theorems

* `exists_dispatch`: What one flush does.
* `handed_perform`: What one call dispatches.
* `Handed.trans`, `handed_run`: What a history dispatches.
* `sync_unreached`: A synchronisation that fails before its flush.
* `next_dispatch`: The next list that is taken.
* `retains_tracker`: A tracker keeps its changes, if its sheet does.
* `outbound_accounted`: The books of a new connection.
* `changes_lost_to_full_channel`: Changes that no later flush delivers.
-/

namespace AtomicCss

namespace Connection

/-- What became of a list of changes that was taken: there was nothing to send, or it
    was sent, or it was not because the channel was full or the host took no more. -/
inductive Dispatch
  | nothing
  | sent (changes : List Update) (nonempty : changes ≠ [])
  | full (changes : List Update) (nonempty : changes ≠ [])
  | closed (changes : List Update) (nonempty : changes ≠ [])
  deriving DecidableEq, Repr

namespace Dispatch

/-- The list that was taken. -/
def changes : Dispatch → List Update
  | .nothing => []
  | .sent changes _ | .full changes _ | .closed changes _ => changes

/-- What the flush answers. -/
def outcome : Dispatch → Except Failure Unit
  | .nothing | .sent _ _ => .ok ()
  | .full changes _ => .error (.outboundFull changes.length)
  | .closed _ _ => .error .outboundClosed

/-- The batch that goes to the host, if one does. -/
def sent? : Dispatch → Option (List Update)
  | .sent changes _ => some changes
  | .nothing | .full _ _ | .closed _ _ => none

/-- No empty batch is sent. -/
theorem ne_nil_of_sent? (d : Dispatch) (batch : List Update) (h : d.sent? = some batch) :
    batch ≠ [] := by
  cases d with
  | sent changes nonempty =>
      rw [sent?, Option.some.injEq] at h
      rw [← h]
      exact nonempty
  | nothing | full | closed => exact absurd h (by simp only [sent?, reduceCtorEq, not_false_eq_true])

theorem changes_of_sent? (d : Dispatch) (batch : List Update) (h : d.sent? = some batch) :
    d.changes = batch ∧ d.outcome = .ok () := by
  cases d with
  | sent changes nonempty => exact ⟨Option.some.inj h, rfl⟩
  | nothing | full | closed => exact absurd h (by simp only [sent?, reduceCtorEq, not_false_eq_true])

/-- What is not empty is sent by a flush that succeeds. -/
theorem sent?_of_ok (d : Dispatch) (hok : d.outcome = .ok ()) (hsome : d.changes ≠ []) :
    d.sent? = some d.changes := by
  cases d with
  | nothing => exact absurd rfl hsome
  | sent => rfl
  | full | closed =>
      exact absurd hok (by simp only [outcome, reduceCtorEq, not_false_eq_true])

end Dispatch

/-- What a call says about the flush that it reached. A synchronisation that failed
    before did not reach one. -/
def Reply.flushed? : Reply → Option (Except Failure Unit)
  | .finished (.error (.rejected _)) | .finished (.error .inboundClosed) => none
  | .finished outcome => some outcome
  | .sent _ | .received _ | .closed => none

/-- The batch that the host received, if it did. -/
def Reply.received? : Reply → Option (List Update)
  | .received batch => batch
  | .sent _ | .closed | .finished _ => none

open LawfulBounded (waiting closed)

variable {σ β γ : Type} [Subscriber σ] [BroadcastChannel β (List Update)]
  [BoundedChannel γ (List Update)] [LawfulBounded γ (List Update)]

/-- A flush is a dispatch of what it took, and what is sent goes to the end of the
    queue. -/
theorem exists_dispatch (changes : List Update) (outbox : γ) :
    ∃ d : Dispatch, d.changes = changes ∧ (flushOutcome changes outbox).1 = d.outcome ∧
      waiting (flushOutcome changes outbox).2 = waiting outbox ++ d.sent?.toList ∧
      closed (flushOutcome changes outbox).2 = closed outbox ∧
      (closed outbox = true → d.sent? = none) := by
  unfold flushOutcome
  by_cases hnil : changes = []
  · rw [if_pos hnil]
    exact ⟨.nothing, hnil.symm, rfl, (List.append_nil _).symm, rfl, fun _ => rfl⟩
  rw [if_neg hnil]
  cases hoffer : (BoundedChannel.offer outbox changes).1 with
  | ok =>
      rcases LawfulBounded.offer_ok outbox changes hoffer with ⟨hopen, hwaiting, hclosed⟩
      refine ⟨.sent changes hnil, rfl, rfl, hwaiting, hclosed.trans hopen.symm, fun h => ?_⟩
      rw [hopen] at h
      exact absurd h Bool.false_ne_true
  | error refusal =>
      rcases LawfulBounded.offer_error outbox changes refusal hoffer with ⟨hitem, hwaiting, hclosed⟩
      have hkept : waiting (BoundedChannel.offer outbox changes).2 = waiting outbox ++ [] := by
        rw [hwaiting, List.append_nil]
      -- What comes back is what was offered, so the failure has its length.
      cases refusal with
      | full batch =>
          refine ⟨.full changes hnil, rfl, ?_, hkept, hclosed, fun _ => rfl⟩
          exact congrArg (fun b => Except.error (Failure.outboundFull b.length))
            (show batch = changes from hitem)
      | closed batch => exact ⟨.closed changes hnil, rfl, rfl, hkept, hclosed, fun _ => rfl⟩

/-- What became of the batches that were sent in a stretch of a history, and of those
    that already waited: the host received them, or they went away with its receiving
    end, or they wait. -/
structure Delivered (before after : γ) (calls : List Call)
    (sent received discarded : List (List Update)) : Prop where
  all_eq : waiting before ++ sent = received ++ discarded ++ waiting after
  /-- Nothing goes away unless the receiving end does. -/
  discarded_eq : .closeOutbound ∉ calls → discarded = []
  /-- And then nothing follows. -/
  gone : discarded ≠ [] → closed after = true ∧ waiting after = []

/-- What was dispatched between two moments of a history, with the answers that were
    given in between. -/
structure Handed (before : Connection (Watched σ) β γ) (calls : List Call)
    (after : Connection (Watched σ) β γ) (replies : List Reply) (dispatches : List Dispatch) :
    Prop where
  /-- Every list that was taken is accounted for. -/
  taken_eq : after.subscriber.taken = before.subscriber.taken ++ dispatches.map Dispatch.changes
  /-- The flushes answer accordingly. -/
  flushes_eq : replies.filterMap Reply.flushed? = dispatches.map Dispatch.outcome
  /-- The host receives what was sent, in order. -/
  delivered : ∃ discarded, Delivered before.outbox after.outbox calls
    (dispatches.filterMap Dispatch.sent?) (replies.filterMap Reply.received?) discarded
  /-- A host that takes no more goes on to take no more, and nothing is sent to it. -/
  closed_eq : closed before.outbox = true →
    closed after.outbox = true ∧ dispatches.filterMap Dispatch.sent? = []

omit [Subscriber σ] [BroadcastChannel β (List Update)] in
/-- What is received was sent, or it waited from the start, and nothing is received before
    its time. -/
theorem Handed.received_prefix (before after : Connection (Watched σ) β γ) (calls : List Call)
    (replies : List Reply) (dispatches : List Dispatch)
    (h : Handed before calls after replies dispatches) :
    replies.filterMap Reply.received? <+:
      waiting before.outbox ++ dispatches.filterMap Dispatch.sent? := by
  rcases h.delivered with ⟨discarded, hall, _, _⟩
  rw [hall, List.append_assoc]
  exact List.prefix_append _ _

omit [BoundedChannel γ (List Update)] [LawfulBounded γ (List Update)] in
/-- Giving updates takes no changes. -/
theorem taken_pull (c : Connection (Watched σ) β γ) :
    c.pull.value.2.subscriber.taken = c.subscriber.taken := by
  refine keeps_pull c (fun d => d.subscriber.taken = c.subscriber.taken) (fun _ h => h)
    (fun d batch h => ?_) rfl
  refine keeps_applyBatch (fun w : Watched σ => w.taken = c.subscriber.taken) ?_ _ batch h
  intro w update hw
  change List.filterMap _ (w.record ++ [_]) = _
  rw [List.filterMap_append, List.filterMap_cons, Dealing.changes?_ofAnswer]
  exact (List.append_nil _).trans hw

/-- Nothing goes away in a stretch after which what was sent is received or waits. -/
theorem delivered_of_eq (before after : γ) (calls : List Call)
    (sent received : List (List Update))
    (h : waiting before ++ sent = received ++ waiting after) :
    ∃ discarded, Delivered before after calls sent received discarded := by
  refine ⟨[], ?_, fun _ => rfl, fun hsome => absurd rfl hsome⟩
  rw [List.append_nil]
  exact h

omit [Subscriber σ] [BroadcastChannel β (List Update)] in
/-- A call that takes no changes and has nothing to do with what waits. -/
theorem handed_of_eq (before after : Connection (Watched σ) β γ) (calls : List Call)
    (replies : List Reply) (htaken : after.subscriber.taken = before.subscriber.taken)
    (hwaiting : waiting after.outbox = waiting before.outbox)
    (hclosed : closed before.outbox = true → closed after.outbox = true)
    (hflushed : replies.filterMap Reply.flushed? = [])
    (hreceived : replies.filterMap Reply.received? = []) :
    Handed before calls after replies [] := by
  refine ⟨?_, hflushed, delivered_of_eq _ _ _ _ _ ?_, fun h => ⟨hclosed h, rfl⟩⟩
  · rw [htaken, List.map_nil, List.append_nil]
  · rw [hreceived, hwaiting, List.filterMap_nil, List.append_nil, List.nil_append]

omit [Subscriber σ] [BroadcastChannel β (List Update)] in
/-- Giving updates first makes no difference to what is dispatched. -/
theorem Handed.of_before (first before after : Connection (Watched σ) β γ) (calls : List Call)
    (replies : List Reply) (dispatches : List Dispatch)
    (h : Handed before calls after replies dispatches)
    (htaken : before.subscriber.taken = first.subscriber.taken)
    (houtbox : before.outbox = first.outbox) : Handed first calls after replies dispatches := by
  rcases h with ⟨htakes, hflushes, hdelivered, hclosed⟩
  rw [htaken] at htakes
  rw [houtbox] at hdelivered hclosed
  exact ⟨htakes, hflushes, hdelivered, hclosed⟩

omit [BroadcastChannel β (List Update)] in
/-- A flush takes one list and dispatches it. -/
theorem handed_flush (c : Connection (Watched σ) β γ) (calls : List Call) :
    ∃ d : Dispatch, Handed c calls c.flush.2 [.finished c.flush.1] [d] := by
  rcases exists_dispatch (Subscriber.takeOutgoing c.subscriber).1 c.outbox with
    ⟨d, hchanges, houtcome, hwaiting, hclosed, hgone⟩
  have hflush := flush_eq c
  dsimp only at hflush
  rw [houtcome] at hflush
  have hreached : Reply.flushed? (.finished d.outcome) = some d.outcome := by
    cases d <;> rfl
  have hsent : [d].filterMap Dispatch.sent? = d.sent?.toList := by
    cases d <;> rfl
  refine ⟨d, ?_⟩
  rw [hflush]
  -- What was taken, what was answered, and what stands in the queue, open or closed.
  refine ⟨?_, ?_, delivered_of_eq _ _ _ _ _ ?_, fun h => ⟨hclosed.trans h, ?_⟩⟩
  · change List.filterMap _ (c.subscriber.record ++ [.taken _]) = _
    rw [List.filterMap_append, List.map_singleton, hchanges]
    rfl
  · rw [List.filterMap_cons, hreached]
    rfl
  · rw [hsent]
    exact hwaiting.symm
  · rw [hsent, hgone h]
    rfl

/-- A synchronisation dispatches what its flush does, if it reaches one. -/
theorem handed_sync (c : Connection (Watched σ) β γ) (calls : List Call) :
    ∃ dispatches, Handed c calls c.sync.value.2 [.finished c.sync.value.1] dispatches := by
  cases hanswer : c.pull.value.1 with
  | ok =>
      rw [sync_of_ok c hanswer]
      rcases handed_flush c.pull.value.2 calls with ⟨d, hd⟩
      exact ⟨[d], hd.of_before _ _ _ _ _ _ (taken_pull c) (outbox_pull c)⟩
  | error failure =>
      rw [sync_of_error c failure hanswer]
      -- The failure of a pull is told from that of a flush by its kind.
      have hunreached : Reply.flushed? (.finished (.error failure)) = none := by
        rcases pull_failure c failure hanswer with rfl | ⟨reason, rfl⟩ <;> rfl
      refine ⟨[], handed_of_eq c _ calls _ (taken_pull c) ?_ ?_ ?_ rfl⟩
      · rw [outbox_pull]
      · rw [outbox_pull]
        exact id
      · rw [List.filterMap_cons, hunreached]
        rfl

/-- What one call dispatches: one list, if it reaches a flush. -/
theorem handed_perform (c : Connection (Watched σ) β γ) (call : Call) :
    ∃ dispatches,
      Handed c [call] (c.perform call).value.2 [(c.perform call).value.1] dispatches := by
  cases call with
  | send batch =>
      refine ⟨[], ?_⟩
      rw [perform, send?]
      cases BroadcastChannel.send? c.inbox batch <;>
        exact handed_of_eq c _ _ _ rfl rfl id rfl rfl
  | receive =>
      refine ⟨[], (List.append_nil _).symm, rfl, delivered_of_eq _ _ _ _ _ ?_,
        fun h => ⟨(LawfulBounded.closed_receive c.outbox).trans h, rfl⟩⟩
      change waiting c.outbox ++ [] = [Reply.received c.receive.1].filterMap Reply.received? ++
        waiting (BoundedChannel.receive c.outbox).2
      rw [receive, List.append_nil]
      cases hwaiting : waiting c.outbox with
      | nil =>
          rcases LawfulBounded.receive_drained c.outbox hwaiting with ⟨hreceived, hleft⟩
          rw [hreceived, hleft]
          rfl
      | cons batch rest =>
          -- The oldest list leaves the queue, and the others move up.
          rcases LawfulBounded.receive_oldest c.outbox batch rest hwaiting with ⟨hreceived, hleft⟩
          rw [hreceived, hleft]
          rfl
  | closeInbound => exact ⟨[], handed_of_eq c _ _ _ rfl rfl id rfl rfl⟩
  | stopOutbound =>
      exact ⟨[], handed_of_eq c _ _ _ rfl (LawfulBounded.waiting_close c.outbox)
        (fun _ => LawfulBounded.closed_close c.outbox) rfl rfl⟩
  | closeOutbound =>
      have hclosed := LawfulBounded.closed_drop c.outbox
      have hwaiting := LawfulBounded.waiting_drop c.outbox
      refine ⟨[], (List.append_nil _).symm, rfl, ⟨waiting c.outbox, ?_, fun h => ?_,
        fun _ => ⟨hclosed, hwaiting⟩⟩, fun _ => ⟨hclosed, rfl⟩⟩
      · exact congrArg (waiting c.outbox ++ ·) hwaiting.symm
      · exact absurd List.mem_cons_self h
  | sync => exact handed_sync c _
  | flush =>
      rcases handed_flush c [.flush] with ⟨d, hd⟩
      exact ⟨[d], hd⟩

omit [BroadcastChannel β (List Update)] [Subscriber σ] in
/-- Two stretches of deliveries, one behind the other. -/
theorem Delivered.trans (first middle last : γ) (calls more : List Call)
    (sent others received later discarded lost : List (List Update))
    (h : Delivered first middle calls sent received discarded)
    (hmore : Delivered middle last more others later lost)
    (hclosed : closed middle = true → closed last = true ∧ others = []) :
    Delivered first last (calls ++ more) (sent ++ others) (received ++ later)
      (discarded ++ lost) := by
  have hall : waiting first ++ (sent ++ others) =
      received ++ discarded ++ (waiting middle ++ others) := by
    rw [← List.append_assoc, h.all_eq, List.append_assoc]
  rw [hmore.all_eq] at hall
  have hcalls : .closeOutbound ∉ calls ++ more → discarded ++ lost = [] := by
    intro hkept
    rw [List.mem_append, not_or] at hkept
    rw [h.discarded_eq hkept.1, hmore.discarded_eq hkept.2]
    rfl
  by_cases hnone : discarded = []
  · refine ⟨hall.trans ?_, hcalls, fun hsome => hmore.gone ?_⟩
    · rw [hnone, List.append_nil, List.nil_append, List.append_assoc, List.append_assoc,
        List.append_assoc]
    · rw [hnone] at hsome
      exact hsome
  · -- The receiving end is gone, so nothing is sent or received in the second stretch.
    rcases h.gone hnone with ⟨hmiddle, hwaiting⟩
    rcases hclosed hmiddle with ⟨hlast, hothers⟩
    have hempty := hmore.all_eq.symm
    rw [hwaiting, hothers, List.append_nil, List.append_eq_nil_iff,
      List.append_eq_nil_iff] at hempty
    rcases hempty with ⟨⟨hlater, hlost⟩, hleft⟩
    refine ⟨hall.trans ?_, hcalls, fun _ => ⟨hlast, hleft⟩⟩
    simp only [hlater, hlost, hleft, List.append_nil]

omit [Subscriber σ] [BroadcastChannel β (List Update)] in
/-- Two stretches of a history, one behind the other. -/
theorem Handed.trans (first middle last : Connection (Watched σ) β γ) (calls later : List Call)
    (replies more : List Reply) (dispatches others : List Dispatch)
    (h : Handed first calls middle replies dispatches)
    (hmore : Handed middle later last more others) :
    Handed first (calls ++ later) last (replies ++ more) (dispatches ++ others) := by
  rcases h.delivered with ⟨discarded, hdelivered⟩
  rcases hmore.delivered with ⟨lost, hrest⟩
  refine ⟨?_, ?_, ⟨discarded ++ lost, ?_⟩, fun hclosed => ?_⟩
  · rw [hmore.taken_eq, h.taken_eq, List.map_append, List.append_assoc]
  · rw [List.filterMap_append, h.flushes_eq, hmore.flushes_eq, List.map_append]
  · rw [List.filterMap_append, List.filterMap_append]
    exact hdelivered.trans _ _ _ _ _ _ _ _ _ _ _ hrest hmore.closed_eq
  · rcases h.closed_eq hclosed with ⟨hmiddle, hnone⟩
    rcases hmore.closed_eq hmiddle with ⟨hlast, hnone'⟩
    exact ⟨hlast, by rw [List.filterMap_append, hnone, hnone']; rfl⟩

/-- What a history dispatches. The step is `handed_perform`. -/
theorem handed_run (c : Connection (Watched σ) β γ) (calls : List Call) :
    ∃ dispatches, Handed c calls (c.run calls).value.2 (c.run calls).value.1 dispatches := by
  induction calls generalizing c with
  | nil => exact ⟨[], handed_of_eq c c [] [] rfl rfl id rfl rfl⟩
  | cons call rest ih =>
      rcases handed_perform c call with ⟨dispatches, hfirst⟩
      rcases ih (c.perform call).value.2 with ⟨others, hrest⟩
      exact ⟨dispatches ++ others, hfirst.trans _ _ _ _ _ _ _ _ _ hrest⟩

/-- A synchronisation that fails before its flush takes nothing and sends nothing. -/
theorem sync_unreached (c : Connection (Watched σ) β γ)
    (h : Reply.flushed? (.finished c.sync.value.1) = none) :
    c.sync.value.2.subscriber.taken = c.subscriber.taken ∧
      c.sync.value.2.outbox = c.outbox := by
  cases hanswer : c.pull.value.1 with
  | ok =>
      -- Its flush would have answered.
      rw [sync_of_ok c hanswer] at h
      rcases handed_flush c.pull.value.2 [] with ⟨d, hd⟩
      have hflushes := hd.flushes_eq
      rw [List.filterMap_cons, h] at hflushes
      exact absurd hflushes.symm (List.cons_ne_nil _ _)
  | error failure =>
      rw [sync_of_error c failure hanswer]
      exact ⟨taken_pull c, outbox_pull c⟩

/-- A dispatch of what the subscriber has to tell by then: it was given updates in the
    meantime, and nothing was taken from it. -/
def TakesUp (c : Connection (Watched σ) β γ) (d : Dispatch) : Prop :=
  ∃ given t, (∀ dealing ∈ given, dealing.changes? = none) ∧
    Leads c.subscriber.subscriber given t ∧ d.changes = (Subscriber.takeOutgoing t).1

/-- The next list that is taken is what the subscriber has to tell by then. -/
theorem next_dispatch (c : Connection (Watched σ) β γ) (calls : List Call) (replies : List Reply)
    (d : Dispatch) (rest : List Dispatch)
    (h : Handed c calls (c.run calls).value.2 replies (d :: rest)) : TakesUp c d := by
  rcases leads_run c calls with ⟨more, hrecord, hleads⟩
  have htaken := h.taken_eq
  unfold Watched.taken at htaken
  rw [hrecord, List.filterMap_append, List.append_cancel_left_eq, List.map_cons,
    List.filterMap_eq_cons_iff] at htaken
  rcases htaken with ⟨given, line, later, rfl, hgiven, hline, _⟩
  rcases (leads_append_iff _ _ _ _).1 hleads with ⟨t, hfirst, hlater⟩
  rcases hlater with _ | ⟨_, _, _, _, happens, _⟩
  refine ⟨given, t, hgiven, hfirst, ?_⟩
  -- The first line with changes is the one about this list.
  cases line with
  | taken changes =>
      rw [Dealing.changes?, Option.some.injEq] at hline
      rw [← hline]
      exact happens.symm
  | applied | rejected =>
      exact absurd hline (by simp only [Dealing.changes?, reduceCtorEq, not_false_eq_true])

/-- A subscriber that is given updates keeps the changes it has, and at most adds to
    them. -/
def Retains (σ : Type) [Subscriber σ] : Prop :=
  ∀ (s : σ) (update : Update),
    (Subscriber.takeOutgoing s).1.Sublist
      (Subscriber.takeOutgoing (Subscriber.apply s update).value.2).1

/-- As long as nothing is taken, such a subscriber has no fewer changes. -/
theorem Retains.sublist (h : Retains σ) (s t : σ) (given : List Dealing) (hleads : Leads s given t)
    (hgiven : ∀ dealing ∈ given, dealing.changes? = none) :
    (Subscriber.takeOutgoing s).1.Sublist (Subscriber.takeOutgoing t).1 := by
  induction hleads with
  | nil s => exact List.Sublist.refl _
  | cons s t line rest happens more ih =>
      have hrest := ih (fun dealing hmem => hgiven dealing (List.mem_cons_of_mem line hmem))
      cases line with
      | applied update => exact (h s update).trans hrest
      | rejected update reason => exact (h s update).trans hrest
      | taken changes =>
          exact absurd (hgiven _ List.mem_cons_self)
            (by simp only [Dealing.changes?, reduceCtorEq, not_false_eq_true])

/-- The books of a new connection, whatever its channels and its subscriber. Every list
    that is taken in a history is dispatched, the flushes answer accordingly, and what
    was sent is what the host receives, or else what waits for it or went away with its
    receiving end.

    A synchronisation that fails before its flush takes and sends nothing. Whatever
    happens then, the next list that is taken is what the subscriber has to tell by
    then, and it holds what the subscriber had to tell before, if it keeps its
    changes.

    The lists in the record are those that the subscriber gave away, and the history
    is that of the subscriber without a record. -/
theorem outbound_accounted (c : Connection σ β γ) (hnew : waiting c.outbox = [])
    (calls : List Call) :
    let start := c.map Watched.ofSubscriber
    let done := (start.run calls).value
    let synced := done.2.sync.value
    (∃ dispatches, Handed start calls done.2 done.1 dispatches ∧
      [] ∉ done.1.filterMap Reply.received?) ∧
    ((synced.1 = .error .inboundClosed ∨ ∃ reason, synced.1 = .error (.rejected reason)) →
      synced.2.subscriber.taken = done.2.subscriber.taken ∧
      synced.2.outbox = done.2.outbox ∧
      ∀ more, ∃ dispatches,
        Handed synced.2 more (synced.2.run more).value.2 (synced.2.run more).value.1 dispatches ∧
        ∀ d ∈ dispatches.head?, TakesUp synced.2 d ∧
          (Retains σ →
            (Subscriber.takeOutgoing synced.2.subscriber.subscriber).1.Sublist d.changes)) ∧
    Leads c.subscriber done.2.subscriber.record done.2.subscriber.subscriber ∧
    (fun done => (done.1, done.2.map Watched.subscriber)) <$> start.run calls = c.run calls := by
  intro start done synced
  rcases handed_run start calls with ⟨dispatches, hdone⟩
  rcases leads_run start calls with ⟨record, hrecord, hleads⟩
  refine ⟨⟨dispatches, hdone, fun hempty => ?_⟩, fun hfailed => ?_, hrecord ▸ hleads, ?_⟩
  · -- What is received was sent, and nothing empty is sent.
    have hsent := hdone.received_prefix.subset hempty
    rw [show waiting start.outbox = [] from hnew, List.nil_append] at hsent
    rcases List.mem_filterMap.1 hsent with ⟨d, _, hd⟩
    exact d.ne_nil_of_sent? [] hd rfl
  · have hunreached : Reply.flushed? (.finished synced.1) = none := by
      rcases hfailed with h | ⟨reason, h⟩ <;> rw [h] <;> rfl
    rcases sync_unreached done.2 hunreached with ⟨htaken, houtbox⟩
    refine ⟨htaken, houtbox, fun more => ?_⟩
    rcases handed_run synced.2 more with ⟨others, hmore⟩
    refine ⟨others, hmore, fun d hd => ?_⟩
    rcases List.head?_eq_some_iff.1 hd with ⟨rest, rfl⟩
    have htakes := next_dispatch synced.2 more _ d rest hmore
    refine ⟨htakes, fun hretains => ?_⟩
    rcases htakes with ⟨given, t, hgiven, hleads, hchanges⟩
    rw [hchanges]
    exact hretains.sublist _ t given hleads hgiven
  · rw [run_map Watched.subscriber Watched.follows_subscriber]
    rfl

section Tracker

variable {σ : Type} [Stylesheet σ]
  (happend : ∀ (sheet : σ) (rule : String), (Stylesheet.drain sheet).1.Sublist
    (Stylesheet.drain (Stylesheet.append sheet rule).value).1)
include happend

theorem sublist_appendAll (sheet : σ) (rules : List String) :
    (Stylesheet.drain sheet).1.Sublist
      (Stylesheet.drain (Stylesheet.appendAll sheet rules)).1 := by
  induction rules generalizing sheet with
  | nil => exact List.Sublist.refl _
  | cons rule rest ih => exact (happend sheet rule).trans (ih _)

/-- News adds to both queues of a tracker and takes nothing from them. -/
theorem sublist_handle (t : Tracker σ) (event : ClassEvent) :
    t.takeOutgoing.1.Sublist (t.handle event).value.2.takeOutgoing.1 := by
  have houtgoing : t.outgoing.Sublist (t.handle event).value.2.outgoing := by
    rw [Tracker.outgoing_handle]
    exact List.sublist_append_left _ _
  have hsheet : (Stylesheet.drain t.sheet).1.Sublist
      (Stylesheet.drain (t.handle event).value.2.sheet).1 := by
    by_cases hutility : isUtility event.attr = true
    · rw [Tracker.handle_of_utility t event hutility]
      exact sublist_appendAll happend t.sheet _
    · rw [Tracker.handle_of_plain t event (Bool.eq_false_iff.2 hutility)]
      exact List.Sublist.refl _
  exact hsheet.append houtgoing

/-- A tracker keeps its changes if its sheet does. -/
theorem retains_tracker : Retains (Tracker σ) := by
  intro t update
  change t.takeOutgoing.1.Sublist (t.follow update).value.takeOutgoing.1
  cases update with
  | setAttr node name value =>
      rw [Tracker.follow]
      by_cases hname : Text.sameCaseless name classAttribute = true
      · rw [if_pos hname]
        by_cases hecho : t.awaitedAt node = some value
        · rw [Tracker.report_of_isEcho t node value hecho]
          exact List.Sublist.refl _
        · rw [Tracker.report_of_not_isEcho t node value hecho]
          exact sublist_handle happend t _
      · rw [if_neg hname]
        exact List.Sublist.refl _
  | insertElement | insertText | removeNode | endOfDocument => exact List.Sublist.refl _

end Tracker

/-- A tracker with a sheet in a document keeps its changes. -/
theorem retains_tracker_style : Retains (Tracker StyleElement) := by
  refine retains_tracker fun sheet rule => ?_
  rcases sheet.pending_append rule with ⟨made, _, _, hpending⟩
  change sheet.pending.Sublist (Stylesheet.append sheet rule).value.pending
  rw [hpending]
  exact List.sublist_append_left _ _

/-- A tracker has compiled an attribute when it meets a closed channel. Its changes, the
    style element and a rule and the write that needs them, are in the next list. -/
theorem outbound_accounted_closed :
    let tracker := Tracker.new (StyleElement.new (KeySpace.ofEpoch 1) .root 0 {}).1 {}
    let c := new 4 1 tracker
    let calls : List Call := [.send [.setAttr ⟨1⟩ "class" "hover:color_red"], .closeInbound]
    let synced := ((c.map Watched.ofSubscriber).run calls).value.2.sync.value
    let done := (synced.2.run [.flush, .receive]).value
    waiting c.outbox = [] ∧ synced.1 = .error .inboundClosed ∧
      ∃ d rest, Handed synced.2 [.flush, .receive] done.2 done.1 (d :: rest) ∧
        [.insertElement .root (.pack 1 1 1) "style" 0, .setAttr (.pack 1 1 1) "id" "synxia-style",
          .insertText (.pack 1 1 1) (.pack 1 1 2) ".color_red:hover\x7bcolor:red\x7d" 0,
          .setAttr ⟨1⟩ "class" "color_red"].Sublist d.changes := by
  intro tracker c calls synced done
  have hclosed : synced.1 = .error .inboundClosed := by decide +kernel
  have hkept : (Subscriber.takeOutgoing synced.2.subscriber.subscriber).1 =
      [.insertElement .root (.pack 1 1 1) "style" 0, .setAttr (.pack 1 1 1) "id" "synxia-style",
        .insertText (.pack 1 1 1) (.pack 1 1 2) ".color_red:hover\x7bcolor:red\x7d" 0,
        .setAttr ⟨1⟩ "class" "color_red"] := by decide +kernel
  have hlength : done.2.subscriber.taken ≠ synced.2.subscriber.taken := by decide +kernel
  rcases (outbound_accounted c rfl calls).2.1 (.inl hclosed) with ⟨_, _, hnext⟩
  rcases hnext [.flush, .receive] with ⟨dispatches, hmore, hhead⟩
  refine ⟨rfl, hclosed, ?_⟩
  cases dispatches with
  | nil => exact absurd (hmore.taken_eq.trans (List.append_nil _)) hlength
  | cons d rest =>
      have hsublist := (hhead d rfl).2 retains_tracker_style
      rw [hkept] at hsublist
      exact ⟨d, rest, hmore, hsublist⟩

/-- A subscriber that has at most one thing to say, its answer to the last update. -/
structure LastWord where
  outgoing : List Update := []
  deriving DecidableEq

instance : Subscriber LastWord where
  apply w update :=
    match (({} : Recorder).record update) with
    | (.ok (), answered) => pure (.ok (), { outgoing := answered.outgoing })
    | (.error reason, _) => pure (.error reason, w)
  takeOutgoing w := (w.outgoing, {})

/-- Changes that stay with a subscriber when an update is rejected, and that no later
    flush delivers. Those of the first are in the list of the next flush, which meets a
    full channel. The second takes them back before there is a flush at all. -/
theorem changes_lost_to_full_channel :
    (let start := (new 4 1 ({} : Recorder)).map Watched.ofSubscriber
      let calls : List Call :=
        [.send [.setAttr ⟨1⟩ "title" ""], .sync,
          .send [.setAttr ⟨2⟩ "title" "", .setAttr ⟨3⟩ "reject" "it"]]
      let synced := (start.run calls).value.2.sync.value
      let done := (synced.2.run [.flush, .receive, .flush, .receive]).value
      synced.1 = .error (.rejected "rejected it") ∧
        (Subscriber.takeOutgoing synced.2.subscriber.subscriber).1 =
          [.setAttr ⟨2⟩ "data-seen" "1"] ∧
        done.1.filterMap Reply.flushed? = [.error (.outboundFull 1), .ok ()] ∧
        done.1.filterMap Reply.received? = [[.setAttr ⟨1⟩ "data-seen" "1"]] ∧
        done.2.outbox.queue = [] ∧
        (Subscriber.takeOutgoing done.2.subscriber.subscriber).1 = []) ∧
    (let start := (new 4 1 ({} : LastWord)).map Watched.ofSubscriber
      let calls : List Call := [.send [.setAttr ⟨2⟩ "title" "", .setAttr ⟨3⟩ "reject" "it"]]
      let synced := (start.run calls).value.2.sync.value
      let done := (synced.2.run [.send [.setAttr ⟨4⟩ "title" ""], .sync, .receive]).value
      synced.1 = .error (.rejected "rejected it") ∧
        (Subscriber.takeOutgoing synced.2.subscriber.subscriber).1 =
          [.setAttr ⟨2⟩ "data-seen" "1"] ∧
        done.1.filterMap Reply.flushed? = [.ok ()] ∧
        done.1.filterMap Reply.received? = [[.setAttr ⟨4⟩ "data-seen" "1"]] ∧
        done.2.outbox.queue = [] ∧
        (Subscriber.takeOutgoing done.2.subscriber.subscriber).1 = []) := by
  constructor <;> decide +kernel

end Connection

end AtomicCss
