import AtomicCss.Connection.Call
import AtomicCss.Proofs.Channel.Laws

/-!
# Single Calls on a Connection

What each call does to the two channels and to the subscriber.

Only two calls do more than move a batch in or out of a channel. Pulling goes round
a loop that looks at the channel before each round; one lemma for each thing that
the channel may answer says how the loop goes on, whatever the channel is
(`pull_of_item` and the others). If the channel is lawful, the loop has a closed
form: while it runs nobody else touches the channel, so what it will meet is known
when it begins, first the number of the batches that were missed, if there are any,
and then the pending batches in order, until the subscriber rejects an update or
there are none left (`pulled_pull`). Flushing takes the subscriber's changes and
offers them, and a synchronisation is the one and then the other, unless pulling
failed.

## Main definitions

* `Connection.map`: A connection with another subscriber.
* `Connection.applyAll`: A row of batches, without the channel they come by.
* `Connection.lagWarning`: The warning about missed batches.
* `Connection.pullOutcome`: What pulling answers.
* `Connection.Pulled`: Pulling in closed form.

## Theorems

* `pull_of_empty`, `pull_of_closed`, `pull_of_lagged`, `pull_of_item`: One round of pulling.
* `keeps_pull`, `pull_failure`: All rounds, over any channel.
* `pulled_pull`: All rounds, over a lawful channel.
* `sync_of_error`, `sync_of_ok`: The two kinds of synchronisation.
* `flush_eq`: Flushing in closed form.
* `perform_send_cases`: Sending, over a lawful channel.
-/

namespace AtomicCss

namespace Connection

variable {σ τ β γ : Type}

/-- The connection with another subscriber in the place of its own. -/
def map (f : σ → τ) (c : Connection σ β γ) : Connection τ β γ :=
  { inbox := c.inbox, outbox := c.outbox, subscriber := f c.subscriber }

variable [Subscriber σ] [BroadcastChannel β (List Update)]

/-- The subscriber after a row of batches, up to the first update it rejects, and
    the batches behind the one with that update. -/
def applyAll (s : σ) : List (List Update) → Logged (Except String Unit × σ × List (List Update))
  | [] => pure (.ok (), s, [])
  | batch :: rest => do
    let applied ← applyBatch s batch
    match applied.1 with
    | .ok () => applyAll applied.2 rest
    | .error reason => return (.error reason, applied.2, rest)

/-- The warning about batches that were missed, if there are any. -/
def lagWarning (missed : Nat) : Logged Unit :=
  if missed = 0 then pure ()
  else note .warn "dom"
    ("DOMMirror lagged behind the host; " ++ toString missed ++ " batches were dropped")

/-- What pulling answers, once the subscriber has been given what is pending. -/
def pullOutcome (closed : Bool) : Except String Unit → Except Failure Unit
  | .ok () => if closed then .error .inboundClosed else .ok ()
  | .error reason => .error (.rejected reason)

section Pull

variable (c : Connection σ β γ)

/-- Nothing is there any more, and pulling ends. -/
theorem pull_of_empty (h : (BroadcastChannel.receive c.inbox).1 = .empty) :
    c.pull = pure (.ok (), c.received) := by
  rw [pull]
  split <;> simp_all only [reduceCtorEq]

/-- Nothing will be there any more, and pulling fails. -/
theorem pull_of_closed (h : (BroadcastChannel.receive c.inbox).1 = .closed) :
    c.pull = pure (.error .inboundClosed, c.received) := by
  rw [pull]
  split <;> simp_all only [reduceCtorEq]

/-- Missed batches are worth a warning, and pulling goes on. -/
theorem pull_of_lagged (missed : Nat) (h : (BroadcastChannel.receive c.inbox).1 = .lagged missed) :
    c.pull = note .warn "dom"
      ("DOMMirror lagged behind the host; " ++ toString missed ++ " batches were dropped") >>=
        fun _ => c.received.pull := by
  rw [pull]
  split <;> simp_all only [reduceCtorEq, Reception.lagged.injEq]

/-- A batch is applied, and pulling goes on unless the subscriber rejects it. -/
theorem pull_of_item (batch : List Update)
    (h : (BroadcastChannel.receive c.inbox).1 = .item batch) :
    c.pull = applyBatch c.subscriber batch >>= fun applied =>
      match applied.1 with
      | .ok () => pull { c.received with subscriber := applied.2 }
      | .error reason =>
        pure (.error (.rejected reason), { c.received with subscriber := applied.2 }) := by
  rw [pull]
  split
  case h_4 other hother =>
      cases Reception.item.inj (h.symm.trans hother)
      rfl
  all_goals simp_all only [reduceCtorEq]

/-- The two cases of it, once the answer of the subscriber is known. -/
theorem pull_of_item_ok (batch : List Update)
    (h : (BroadcastChannel.receive c.inbox).1 = .item batch)
    (hok : (applyBatch c.subscriber batch).value.1 = .ok ()) :
    c.pull = applyBatch c.subscriber batch >>= fun applied =>
      pull { c.received with subscriber := applied.2 } := by
  rw [pull_of_item c batch h]
  refine Logged.bind_congr_value _ _ _ ?_
  rw [hok]

theorem pull_of_item_error (batch : List Update) (reason : String)
    (h : (BroadcastChannel.receive c.inbox).1 = .item batch)
    (herror : (applyBatch c.subscriber batch).value.1 = .error reason) :
    c.pull = applyBatch c.subscriber batch >>= fun applied =>
      pure (.error (.rejected reason), { c.received with subscriber := applied.2 }) := by
  rw [pull_of_item c batch h]
  refine Logged.bind_congr_value _ _ _ ?_
  rw [herror]

/-- What holds of a connection goes on to hold while it is pulled, if receptions and
    batches do not change it. The induction is on the rounds. -/
theorem keeps_pull (P : Connection σ β γ → Prop) (hreceived : ∀ c, P c → P c.received)
    (hbatch : ∀ c : Connection σ β γ, ∀ batch, P c →
      P { c with subscriber := (applyBatch c.subscriber batch).value.2 })
    (h : P c) : P c.pull.value.2 := by
  induction c using pull.induct with
  | case1 c hempty =>
      rw [pull_of_empty c hempty]
      exact hreceived c h
  | case2 c hclosed =>
      rw [pull_of_closed c hclosed]
      exact hreceived c h
  | case3 c missed hlagged ih =>
      rw [pull_of_lagged c missed hlagged]
      exact ih (hreceived c h)
  | case4 c batch hitem ih =>
      have hnext := hbatch c.received batch (hreceived c h)
      cases hanswer : (applyBatch c.subscriber batch).value.1 with
      | ok =>
          rw [pull_of_item_ok c batch hitem hanswer]
          exact ih _ hnext
      | error reason =>
          rw [pull_of_item_error c batch reason hitem hanswer]
          exact hnext

/-- Pulling does not touch the outbox. -/
theorem outbox_pull : c.pull.value.2.outbox = c.outbox :=
  keeps_pull c (fun d => d.outbox = c.outbox) (fun _ h => h) (fun _ _ h => h) rfl

/-- Pulling fails in one of two ways, neither of which a flush has. -/
theorem pull_failure (failure : Failure) (h : c.pull.value.1 = .error failure) :
    failure = .inboundClosed ∨ ∃ reason, failure = .rejected reason := by
  induction c using pull.induct with
  | case1 c hempty =>
      rw [pull_of_empty c hempty] at h
      exact absurd h (by simp only [Logged.value_pure, reduceCtorEq, not_false_eq_true])
  | case2 c hclosed =>
      rw [pull_of_closed c hclosed] at h
      exact .inl (Except.error.inj h).symm
  | case3 c missed hlagged ih =>
      rw [pull_of_lagged c missed hlagged] at h
      exact ih h
  | case4 c batch hitem ih =>
      cases hanswer : (applyBatch c.subscriber batch).value.1 with
      | ok =>
          rw [pull_of_item_ok c batch hitem hanswer] at h
          exact ih _ h
      | error reason =>
          rw [pull_of_item_error c batch reason hitem hanswer] at h
          exact .inr ⟨reason, (Except.error.inj h).symm⟩

end Pull

theorem applyAll_cons_ok (s : σ) (batch : List Update) (rest : List (List Update))
    (hok : (applyBatch s batch).value.1 = .ok ()) :
    applyAll s (batch :: rest) = applyBatch s batch >>= fun applied => applyAll applied.2 rest := by
  refine Logged.bind_congr_value _ _ _ ?_
  rw [hok]

theorem applyAll_cons_error (s : σ) (batch : List Update) (rest : List (List Update))
    (reason : String) (herror : (applyBatch s batch).value.1 = .error reason) :
    applyAll s (batch :: rest) =
      applyBatch s batch >>= fun applied => pure (.error reason, applied.2, rest) := by
  refine Logged.bind_congr_value _ _ _ ?_
  rw [herror]

section Sync

variable [BoundedChannel γ (List Update)] (c : Connection σ β γ)

/-- A synchronisation whose pulling fails ends there. -/
theorem sync_of_error (failure : Failure) (h : c.pull.value.1 = .error failure) :
    c.sync.value = (.error failure, c.pull.value.2) := by
  unfold sync
  rw [Logged.value_bind, h]
  rfl

/-- Any other synchronisation flushes. -/
theorem sync_of_ok (h : c.pull.value.1 = .ok ()) : c.sync.value = c.pull.value.2.flush := by
  unfold sync
  rw [Logged.value_bind, h]
  rfl

/-- Only pulling writes records. -/
theorem log_sync : c.sync.log = c.pull.log := by
  unfold sync
  rw [Logged.log_bind]
  split <;> exact List.append_nil _

end Sync

/-- What flushing answers, given what there is to send. -/
def flushOutcome [BoundedChannel γ (List Update)] (changes : List Update) (outbox : γ) :
    Except Failure Unit × γ :=
  if changes = [] then (.ok (), outbox)
  else
    ((BoundedChannel.offer outbox changes).1.mapError Failure.ofRefusal,
      (BoundedChannel.offer outbox changes).2)

omit [BroadcastChannel β (List Update)] in
/-- Flushing takes the subscriber's changes in any case. -/
theorem flush_eq [BoundedChannel γ (List Update)] (c : Connection σ β γ) :
    let taken := Subscriber.takeOutgoing c.subscriber
    c.flush = ((flushOutcome taken.1 c.outbox).1, { c with
      outbox := (flushOutcome taken.1 c.outbox).2
      subscriber := taken.2 }) := by
  intro taken
  unfold flush flushOutcome
  by_cases hnil : taken.1 = []
  · rw [if_pos hnil, if_pos (List.isEmpty_iff.2 hnil)]
  · rw [if_neg hnil, if_neg (fun h => hnil (List.isEmpty_iff.1 h))]

open LawfulBroadcast (traffic)

variable [LawfulBroadcast β (List Update)]

/-- Pulling in closed form: what it answers, and what becomes of the inbox, of the
    subscriber and of the log, if the subscriber is given a row of batches. -/
structure Pulled (c : Connection σ β γ)
    (done : Logged (Except Failure Unit × Connection σ β γ))
    (given : Logged (Except String Unit × σ × List (List Update))) : Prop where
  answer_eq : done.value.1 = pullOutcome (traffic c.inbox).closed given.value.1
  traffic_eq : traffic done.value.2.inbox =
    { traffic c.inbox with pending := given.value.2.2, missed := 0 }
  subscriber_eq : done.value.2.subscriber = given.value.2.1
  log_eq : done.log = (lagWarning (traffic c.inbox).missed).log ++ given.log

/-- Without missed batches, pulling gives the subscriber what is pending. The
    induction is on the pending batches, with the connection free to change. -/
theorem pulled_of_missed_eq_zero (c : Connection σ β γ) (h : (traffic c.inbox).missed = 0) :
    Pulled c c.pull (applyAll c.subscriber (traffic c.inbox).pending) := by
  have hlog : (lagWarning (traffic c.inbox).missed).log = [] := by rw [h]; rfl
  generalize hpending : (traffic c.inbox).pending = pending
  induction pending generalizing c with
  | nil =>
      rcases LawfulBroadcast.receive_drained c.inbox h hpending with ⟨hreceive, htraffic⟩
      have hdrained : traffic c.received.inbox =
          { traffic c.inbox with pending := [], missed := 0 } := by
        rw [← hpending, ← h]
        exact htraffic
      -- Nothing waits, and whether anything will decides how the loop ends.
      cases hclosed : (traffic c.inbox).closed with
      | true =>
          rw [hclosed, if_pos rfl] at hreceive
          rw [pull_of_closed c hreceive]
          exact ⟨by rw [hclosed]; rfl, hdrained, rfl, by rw [hlog]; rfl⟩
      | false =>
          rw [hclosed, if_neg Bool.false_ne_true] at hreceive
          rw [pull_of_empty c hreceive]
          exact ⟨by rw [hclosed]; rfl, hdrained, rfl, by rw [hlog]; rfl⟩
  | cons batch rest ih =>
      rcases LawfulBroadcast.receive_oldest c.inbox batch rest h hpending with
        ⟨hreceive, htraffic⟩
      cases hanswer : (applyBatch c.subscriber batch).value.1 with
      | ok =>
          rw [pull_of_item_ok c batch hreceive hanswer, applyAll_cons_ok _ _ _ hanswer]
          -- The next round meets the rest of the row, and the subscriber as it is then.
          let after := { c.received with subscriber := (applyBatch c.subscriber batch).value.2 }
          have hnext : traffic after.inbox = { traffic c.inbox with pending := rest } := htraffic
          rcases ih after (by rw [hnext]; exact h) (by rw [hnext]; exact hlog) (by rw [hnext]) with
            ⟨hanswered, hleft, hsubscriber, hlogged⟩
          rw [hnext] at hanswered hleft hlogged
          refine ⟨hanswered, hleft, hsubscriber, ?_⟩
          rw [hlog, List.nil_append] at hlogged ⊢
          exact congrArg _ hlogged
      | error reason =>
          rw [pull_of_item_error c batch reason hreceive hanswer,
            applyAll_cons_error _ _ _ reason hanswer]
          -- The batches behind the rejected one stay in the channel.
          refine ⟨rfl, ?_, rfl, by rw [hlog]; rfl⟩
          rw [← h]
          exact htraffic

/-- Pulling is a warning, if there is something to warn of, and then the subscriber
    is given what is pending. -/
theorem pulled_pull (c : Connection σ β γ) :
    Pulled c c.pull (applyAll c.subscriber (traffic c.inbox).pending) := by
  by_cases hmissed : (traffic c.inbox).missed = 0
  · exact pulled_of_missed_eq_zero c hmissed
  -- The first reception brings the number, and then it is as if none were missed.
  rcases LawfulBroadcast.receive_missed c.inbox hmissed with ⟨hreceive, htraffic⟩
  have hnext : traffic c.received.inbox = { traffic c.inbox with missed := 0 } := htraffic
  rcases pulled_of_missed_eq_zero c.received (by rw [hnext]) with
    ⟨hanswer, hleft, hsubscriber, hlog⟩
  rw [hnext] at hanswer hleft hsubscriber hlog
  rw [pull_of_lagged c _ hreceive]
  refine ⟨hanswer, hleft, hsubscriber, ?_⟩
  rw [lagWarning, if_neg hmissed]
  exact congrArg _ hlog

variable [BoundedChannel γ (List Update)]

/-- A batch goes to the inbox, if the inbox takes it. -/
theorem perform_send_of_traffic (c : Connection σ β γ) (batch : List Update)
    (t : Traffic (List Update)) (h : (BroadcastChannel.send? c.inbox batch).map traffic = some t) :
    ∃ inbox, c.perform (.send batch) = pure (.sent true, { c with inbox }) ∧ traffic inbox = t := by
  rcases Option.map_eq_some_iff.1 h with ⟨inbox, hinbox, ht⟩
  exact ⟨inbox, by rw [perform, send?, hinbox]; rfl, ht⟩

/-- A batch is refused, or it waits behind the others, or it does so in the place of the
    oldest. -/
theorem perform_send_cases (c : Connection σ β γ) (batch : List Update) :
    ((traffic c.inbox).closed = true ∧ c.perform (.send batch) = pure (.sent false, c)) ∨
      ∃ inbox, c.perform (.send batch) = pure (.sent true, { c with inbox }) ∧
        (traffic c.inbox).closed = false ∧
        ((traffic c.inbox).pending.length < (traffic c.inbox).capacity ∧
            traffic inbox =
              { traffic c.inbox with pending := (traffic c.inbox).pending ++ [batch] } ∨
          (traffic c.inbox).capacity ≤ (traffic c.inbox).pending.length ∧
            ∃ oldest rest, (traffic c.inbox).pending = oldest :: rest ∧
              traffic inbox = { traffic c.inbox with
                pending := rest ++ [batch]
                missed := (traffic c.inbox).missed + 1 }) := by
  by_cases hclosed : (traffic c.inbox).closed = true
  · refine .inl ⟨hclosed, ?_⟩
    rw [perform, send?, LawfulBroadcast.send?_closed c.inbox batch hclosed]
    rfl
  rw [Bool.not_eq_true] at hclosed
  rcases Nat.lt_or_ge (traffic c.inbox).pending.length (traffic c.inbox).capacity with
    hfree | hfull
  · rcases perform_send_of_traffic c batch _
      (LawfulBroadcast.send?_room c.inbox batch hclosed hfree) with ⟨inbox, hsent, hinbox⟩
    exact .inr ⟨inbox, hsent, hclosed, .inl ⟨hfree, hinbox⟩⟩
  · rcases LawfulBroadcast.exists_oldest c.inbox hfull with ⟨oldest, rest, hpending⟩
    rcases perform_send_of_traffic c batch _
      (LawfulBroadcast.send?_full c.inbox batch oldest rest hclosed hfull hpending) with
      ⟨inbox, hsent, hinbox⟩
    exact .inr ⟨inbox, hsent, hclosed, .inr ⟨hfull, oldest, rest, hpending, hinbox⟩⟩

end Connection

end AtomicCss
