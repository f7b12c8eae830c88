import AtomicCss.Proofs.Connection.Step

/-!
# Channels that Look Alike

Nothing but what can be observed of its channels matters to a connection.

The laws of channels leave open what a channel is made of. They say enough, though,
to know every answer: two channels of which the same can be observed answer alike,
and look alike again afterwards. So do two connections over such channels, call by
call and therefore over a whole history (`alike_run`). What is found out by running
a connection in memory is thereby found out about any other that looks like it
(`run_eq_new`).

## Main definitions

* `LooksLike`: Two bounded channels of which the same can be observed.
* `Connection.Alike`: Two connections over channels of which the same can be observed.

## Theorems

* `LooksLike.offer`: Such channels take the same items.
* `alike_perform`, `alike_run`: Such connections give the same answers.
* `run_eq_new`: A new connection answers as one in memory.
-/

namespace AtomicCss

open LawfulBroadcast (traffic)
open LawfulBounded (waiting closed)
open SizedBounded (capacity)

section Bounded

variable {γ δ α : Type} [BoundedChannel γ α] [SizedBounded γ α] [BoundedChannel δ α]
  [SizedBounded δ α]

/-- Two bounded channels of which the same can be observed. -/
structure LooksLike (c : γ) (d : δ) : Prop where
  waiting_eq : waiting c = waiting d
  closed_eq : closed c = closed d
  capacity_eq : capacity c = capacity d

/-- They take the same items, and refuse the others for the same reason. -/
theorem LooksLike.offer_eq (c : γ) (d : δ) (a : α) (h : LooksLike c d) :
    (BoundedChannel.offer c a).1 = (BoundedChannel.offer d a).1 := by
  by_cases hclosed : closed c = true
  · rw [SizedBounded.offer_closed c a hclosed,
      SizedBounded.offer_closed d a (h.closed_eq ▸ hclosed)]
  rw [Bool.not_eq_true] at hclosed
  have hopen := h.closed_eq ▸ hclosed
  rcases Nat.lt_or_ge (waiting c).length (capacity c) with hroom | hfull
  · rw [SizedBounded.offer_room c a hclosed hroom]
    rw [h.waiting_eq, h.capacity_eq] at hroom
    rw [SizedBounded.offer_room d a hopen hroom]
  · rw [SizedBounded.offer_full c a hclosed hfull]
    rw [h.waiting_eq, h.capacity_eq] at hfull
    rw [SizedBounded.offer_full d a hopen hfull]

theorem LooksLike.offer (c : γ) (d : δ) (a : α) (h : LooksLike c d) :
    LooksLike (BoundedChannel.offer c a).2 (BoundedChannel.offer d a).2 := by
  have hcapacity :
      capacity (BoundedChannel.offer c a).2 = capacity (BoundedChannel.offer d a).2 := by
    rw [SizedBounded.capacity_offer, SizedBounded.capacity_offer, h.capacity_eq]
  -- Once the answers are known to agree, each law speaks of both channels.
  have hanswer := h.offer_eq c d a
  cases hoffer : (BoundedChannel.offer c a).1 with
  | ok =>
      rw [hoffer] at hanswer
      rcases LawfulBounded.offer_ok c a hoffer with ⟨_, hwaiting, hopen⟩
      rcases LawfulBounded.offer_ok d a hanswer.symm with ⟨_, hwaiting', hopen'⟩
      exact ⟨by rw [hwaiting, hwaiting', h.waiting_eq], hopen.trans hopen'.symm, hcapacity⟩
  | error refusal =>
      rw [hoffer] at hanswer
      rcases LawfulBounded.offer_error c a refusal hoffer with ⟨_, hwaiting, hclosed⟩
      rcases LawfulBounded.offer_error d a refusal hanswer.symm with ⟨_, hwaiting', hclosed'⟩
      exact ⟨by rw [hwaiting, hwaiting', h.waiting_eq], by rw [hclosed, hclosed', h.closed_eq],
        hcapacity⟩

/-- The receiver gets the same item, and the channels look alike again. -/
theorem LooksLike.receive (c : γ) (d : δ) (h : LooksLike c d) :
    (BoundedChannel.receive c).1 = (BoundedChannel.receive d).1 ∧
      LooksLike (BoundedChannel.receive c).2 (BoundedChannel.receive d).2 := by
  have hclosed : closed (BoundedChannel.receive c).2 = closed (BoundedChannel.receive d).2 := by
    rw [LawfulBounded.closed_receive, LawfulBounded.closed_receive, h.closed_eq]
  have hcapacity :
      capacity (BoundedChannel.receive c).2 = capacity (BoundedChannel.receive d).2 := by
    rw [SizedBounded.capacity_receive, SizedBounded.capacity_receive, h.capacity_eq]
  cases hwaiting : waiting c with
  | nil =>
      rcases LawfulBounded.receive_drained c hwaiting with ⟨hreceived, hleft⟩
      rcases LawfulBounded.receive_drained d (h.waiting_eq ▸ hwaiting) with ⟨hreceived', hleft'⟩
      exact ⟨hreceived.trans hreceived'.symm, hleft.trans hleft'.symm, hclosed, hcapacity⟩
  | cons a rest =>
      rcases LawfulBounded.receive_oldest c a rest hwaiting with ⟨hreceived, hleft⟩
      rcases LawfulBounded.receive_oldest d a rest (h.waiting_eq ▸ hwaiting) with
        ⟨hreceived', hleft'⟩
      exact ⟨hreceived.trans hreceived'.symm, hleft.trans hleft'.symm, hclosed, hcapacity⟩

theorem LooksLike.close (c : γ) (d : δ) (h : LooksLike c d) :
    LooksLike (BoundedChannel.close c) (BoundedChannel.close d) := by
  refine ⟨?_, ?_, ?_⟩
  · rw [LawfulBounded.waiting_close, LawfulBounded.waiting_close, h.waiting_eq]
  · rw [LawfulBounded.closed_close, LawfulBounded.closed_close]
  · rw [SizedBounded.capacity_close, SizedBounded.capacity_close, h.capacity_eq]

theorem LooksLike.drop (c : γ) (d : δ) (h : LooksLike c d) :
    LooksLike (BoundedChannel.drop c) (BoundedChannel.drop d) := by
  refine ⟨?_, ?_, ?_⟩
  · rw [LawfulBounded.waiting_drop, LawfulBounded.waiting_drop]
  · rw [LawfulBounded.closed_drop, LawfulBounded.closed_drop]
  · rw [SizedBounded.capacity_drop, SizedBounded.capacity_drop, h.capacity_eq]

end Bounded

/-- Broadcast channels of which the same can be observed take the same items. -/
theorem send?_eq_of_traffic_eq {β ε α : Type} [BroadcastChannel β α] [LawfulBroadcast β α]
    [BroadcastChannel ε α] [LawfulBroadcast ε α] (c : β) (d : ε) (a : α)
    (h : traffic c = traffic d) :
    (BroadcastChannel.send? c a).map traffic = (BroadcastChannel.send? d a).map traffic := by
  by_cases hclosed : (traffic c).closed = true
  · rw [LawfulBroadcast.send?_closed c a hclosed, LawfulBroadcast.send?_closed d a (h ▸ hclosed)]
    rfl
  rw [Bool.not_eq_true] at hclosed
  rcases Nat.lt_or_ge (traffic c).pending.length (traffic c).capacity with hroom | hfull
  · rw [LawfulBroadcast.send?_room c a hclosed hroom]
    rw [h] at hclosed hroom ⊢
    rw [LawfulBroadcast.send?_room d a hclosed hroom]
  · rcases LawfulBroadcast.exists_oldest c hfull with ⟨oldest, rest, hpending⟩
    rw [LawfulBroadcast.send?_full c a oldest rest hclosed hfull hpending]
    rw [h] at hclosed hfull hpending ⊢
    rw [LawfulBroadcast.send?_full d a oldest rest hclosed hfull hpending]

namespace Connection

variable {σ β γ ε δ : Type} [Subscriber σ] [BroadcastChannel β (List Update)]
  [LawfulBroadcast β (List Update)] [BoundedChannel γ (List Update)]
  [SizedBounded γ (List Update)] [BroadcastChannel ε (List Update)]
  [LawfulBroadcast ε (List Update)] [BoundedChannel δ (List Update)]
  [SizedBounded δ (List Update)]

/-- Two connections with the same subscriber, over channels of which the same can be
    observed. -/
structure Alike (c : Connection σ β γ) (d : Connection σ ε δ) : Prop where
  traffic_eq : traffic c.inbox = traffic d.inbox
  looks_like : LooksLike c.outbox d.outbox
  subscriber_eq : c.subscriber = d.subscriber

omit [Subscriber σ] in
/-- A batch is sent over both connections, or over none. -/
theorem Alike.send? (c : Connection σ β γ) (d : Connection σ ε δ) (batch : List Update)
    (h : Alike c d) :
    (c.send? batch = none ∧ d.send? batch = none) ∨
      ∃ c' d', c.send? batch = some c' ∧ d.send? batch = some d' ∧ Alike c' d' := by
  have hsent := send?_eq_of_traffic_eq c.inbox d.inbox batch h.traffic_eq
  unfold Connection.send?
  cases hc : BroadcastChannel.send? c.inbox batch with
  | none =>
      rw [hc] at hsent
      rw [Option.map_eq_none_iff.1 hsent.symm]
      exact .inl ⟨rfl, rfl⟩
  | some inbox =>
      rw [hc] at hsent
      rcases Option.map_eq_some_iff.1 hsent.symm with ⟨inbox', hd, htraffic⟩
      rw [hd]
      exact .inr ⟨_, _, rfl, rfl, htraffic.symm, h.looks_like, h.subscriber_eq⟩

/-- Pulling gives both subscribers the same. -/
theorem Alike.pull (c : Connection σ β γ) (d : Connection σ ε δ) (h : Alike c d) :
    c.pull.value.1 = d.pull.value.1 ∧ c.pull.log = d.pull.log ∧
      Alike c.pull.value.2 d.pull.value.2 := by
  rcases pulled_pull c with ⟨hanswer, htraffic, hsubscriber, hlog⟩
  rcases pulled_pull d with ⟨hanswer', htraffic', hsubscriber', hlog'⟩
  -- Both closed forms are about the same row of batches and the same subscriber.
  rw [h.traffic_eq, h.subscriber_eq] at hanswer htraffic hsubscriber hlog
  refine ⟨hanswer.trans hanswer'.symm, hlog.trans hlog'.symm, htraffic.trans htraffic'.symm, ?_,
    hsubscriber.trans hsubscriber'.symm⟩
  rw [outbox_pull, outbox_pull]
  exact h.looks_like

omit [LawfulBroadcast β (List Update)] [LawfulBroadcast ε (List Update)] in
/-- Flushing offers the same batch to both outboxes. -/
theorem flushOutcome_alike (changes : List Update) (outbox : γ) (other : δ)
    (h : LooksLike outbox other) :
    (flushOutcome changes outbox).1 = (flushOutcome changes other).1 ∧
      LooksLike (flushOutcome changes outbox).2 (flushOutcome changes other).2 := by
  unfold flushOutcome
  by_cases hnil : changes = []
  · rw [if_pos hnil, if_pos hnil]
    exact ⟨rfl, h⟩
  · rw [if_neg hnil, if_neg hnil]
    exact ⟨congrArg (Except.mapError _) (h.offer_eq outbox other changes),
      h.offer outbox other changes⟩

theorem Alike.flush (c : Connection σ β γ) (d : Connection σ ε δ) (h : Alike c d) :
    c.flush.1 = d.flush.1 ∧ Alike c.flush.2 d.flush.2 := by
  rcases flushOutcome_alike (Subscriber.takeOutgoing c.subscriber).1 c.outbox d.outbox
    h.looks_like with ⟨hanswer, houtbox⟩
  rw [flush_eq, flush_eq]
  dsimp only
  rw [← h.subscriber_eq]
  exact ⟨hanswer, h.traffic_eq, houtbox, rfl⟩

theorem Alike.sync (c : Connection σ β γ) (d : Connection σ ε δ) (h : Alike c d) :
    c.sync.value.1 = d.sync.value.1 ∧ c.sync.log = d.sync.log ∧
      Alike c.sync.value.2 d.sync.value.2 := by
  rcases h.pull c d with ⟨hanswer, hlog, hnext⟩
  rw [log_sync, log_sync]
  cases hpull : c.pull.value.1 with
  | ok =>
      rw [sync_of_ok c hpull, sync_of_ok d (hanswer ▸ hpull)]
      rcases hnext.flush _ _ with ⟨hflush, hlast⟩
      exact ⟨hflush, hlog, hlast⟩
  | error failure =>
      rw [sync_of_error c failure hpull, sync_of_error d failure (hanswer ▸ hpull)]
      exact ⟨rfl, hlog, hnext⟩

/-- A call gets the same answer and writes the same records, and the connections are
    alike again. -/
theorem alike_perform (c : Connection σ β γ) (d : Connection σ ε δ) (call : Call)
    (h : Alike c d) :
    (c.perform call).value.1 = (d.perform call).value.1 ∧
      (c.perform call).log = (d.perform call).log ∧
      Alike (c.perform call).value.2 (d.perform call).value.2 := by
  cases call with
  | send batch =>
      simp only [perform]
      rcases h.send? c d batch with ⟨hc, hd⟩ | ⟨c', d', hc, hd, hnext⟩
      · rw [hc, hd]
        exact ⟨rfl, rfl, h⟩
      · rw [hc, hd]
        exact ⟨rfl, rfl, hnext⟩
  | receive =>
      rcases h.looks_like.receive c.outbox d.outbox with ⟨hreceived, houtbox⟩
      exact ⟨congrArg Reply.received hreceived, rfl, h.traffic_eq, houtbox, h.subscriber_eq⟩
  | closeInbound =>
      refine ⟨rfl, rfl, ?_, h.looks_like, h.subscriber_eq⟩
      change traffic (BroadcastChannel.close c.inbox) = traffic (BroadcastChannel.close d.inbox)
      rw [LawfulBroadcast.traffic_close, LawfulBroadcast.traffic_close, h.traffic_eq]
  | stopOutbound =>
      exact ⟨rfl, rfl, h.traffic_eq, h.looks_like.close c.outbox d.outbox, h.subscriber_eq⟩
  | closeOutbound =>
      exact ⟨rfl, rfl, h.traffic_eq, h.looks_like.drop c.outbox d.outbox, h.subscriber_eq⟩
  | sync =>
      rcases h.sync c d with ⟨hanswer, hlog, hnext⟩
      simp only [perform, Logged.value_map, Logged.log_map]
      exact ⟨congrArg Reply.finished hanswer, hlog, hnext⟩
  | flush =>
      rcases h.flush c d with ⟨hanswer, hnext⟩
      exact ⟨congrArg Reply.finished hanswer, rfl, hnext⟩

/-- So does a history of calls. The step is `alike_perform`. -/
theorem alike_run (c : Connection σ β γ) (d : Connection σ ε δ) (calls : List Call)
    (h : Alike c d) :
    (c.run calls).value.1 = (d.run calls).value.1 ∧ (c.run calls).log = (d.run calls).log ∧
      Alike (c.run calls).value.2 (d.run calls).value.2 := by
  induction calls generalizing c d with
  | nil => exact ⟨rfl, rfl, h⟩
  | cons call rest ih =>
      rcases alike_perform c d call h with ⟨hreply, hlog, hnext⟩
      rcases ih _ _ hnext with ⟨hreplies, hlogs, hlast⟩
      simp only [run, Logged.value_bind, Logged.value_pure, Logged.log_bind, Logged.log_pure]
      rw [hreply, hlog, hreplies, hlogs]
      exact ⟨rfl, rfl, hlast⟩

/-- A new connection over lawful channels answers as one in memory. -/
theorem run_eq_new (c : Connection σ β γ) (inRoom outRoom : Nat) (calls : List Call)
    (hinbox : LawfulBroadcast.IsNew inRoom c.inbox)
    (houtbox : SizedBounded.IsNew outRoom c.outbox) :
    (c.run calls).value.1 = ((new inRoom outRoom c.subscriber).run calls).value.1 ∧
      (c.run calls).log = ((new inRoom outRoom c.subscriber).run calls).log := by
  rcases houtbox with ⟨hcapacity, hwaiting, hclosed⟩
  have halike : Alike c (new inRoom outRoom c.subscriber) :=
    ⟨hinbox, ⟨hwaiting, hclosed, hcapacity⟩, rfl⟩
  rcases alike_run c _ calls halike with ⟨hreplies, hlog, _⟩
  exact ⟨hreplies, hlog⟩

end Connection

end AtomicCss
