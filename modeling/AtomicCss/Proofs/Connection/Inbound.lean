import AtomicCss.Connection.Recorder
import AtomicCss.Proofs.Connection.Watched

/-!
# What Becomes of a Batch

The inbound side of a connection, accounted for batch by batch.

The host sends whenever it wants to, the connection pulls when it is called, and
either may happen any number of times in between. So the books are kept from the
outside: a ledger has every batch that was sent, in the order of sending, and for
each what became of it. The older ones have a fate, those behind them gave way
while they waited and nobody was told yet, and the newest are still pending.

`Turn` is the rule book, one rule for each thing that a call can do to a ledger.
What has a fate keeps it, since every rule only adds behind `settled`. The other
half is that the ledger agrees with the connection at any time (`Accounts`): what
it has as pending is pending, the number it has for the next warning is the one
the warning will name, and what it says about the settled batches is exactly what
the subscriber was given, update by update.

## Main definitions

* `Fate`: What became of a batch, `dealings` for what that means to the subscriber.
* `Ledger`: The batches of a history and their fates.
* `Turn`: What a call does to a ledger.
* `sent`: The batches that are sent in a history.
* `Accounts`: A ledger that agrees with a connection.
* `Booked`: A ledger kept along a history.

## Theorems

* `record_applyBatch`, `record_applyAll`: What the subscriber is given in one go.
* `turn_sync`, `turn_send`, `turn_perform`: One call follows the rule book.
* `booked_run`: So does a history.
* `batches_of_booked`: No batch is missing from the books.
* `inbound_accounted`: The books of a new connection.
-/

namespace AtomicCss

namespace Connection

/-- What became of a batch: it was applied completely, or up to an update that the
    subscriber rejected, or it gave way to newer ones before it was received. -/
inductive Fate
  | applied
  | cut (kept : Nat) (reason : String)
  | lost
  deriving DecidableEq, Repr

/-- What the subscriber is given of a batch with its fate. -/
def dealings : List Update × Fate → List Dealing
  | (batch, .applied) => batch.map .applied
  | (batch, .cut kept reason) =>
    (batch.take kept).map .applied ++ batch[kept]?.toList.map (.rejected · reason)
  | (_, .lost) => []

/-- The batches that were sent, oldest first: those with a fate, those that gave way
    since the last reception, and those that wait. -/
structure Ledger where
  settled : List (List Update × Fate) := []
  overwritten : List (List Update) := []
  pending : List (List Update) := []

namespace Ledger

/-- All batches, in the order of sending. -/
def batches (l : Ledger) : List (List Update) :=
  l.settled.map Prod.fst ++ l.overwritten ++ l.pending

/-- The batches with a fate, once the receiver is told of those that gave way. -/
def told (l : Ledger) : List (List Update × Fate) :=
  l.settled ++ l.overwritten.map fun batch => (batch, .lost)

end Ledger

/-- What a call with its answer does to a ledger, with so much room and the channel
    open or closed. -/
inductive Turn (room : Nat) (closed : Bool) : Ledger → Call → Reply → Ledger → Prop
  /-- There is room for a batch. -/
  | accepted (l : Ledger) (batch : List Update) (hopen : closed = false)
      (hroom : l.pending.length < room) :
      Turn room closed l (.send batch) (.sent true) { l with pending := l.pending ++ [batch] }
  /-- There is none, and the oldest batch that waits gives way. -/
  | overwrote (l : Ledger) (oldest batch : List Update) (rest : List (List Update))
      (hopen : closed = false) (hfull : room ≤ l.pending.length)
      (hpending : l.pending = oldest :: rest) :
      Turn room closed l (.send batch) (.sent true)
        { l with overwritten := l.overwritten ++ [oldest], pending := rest ++ [batch] }
  /-- The host has stopped sending. -/
  | refused (l : Ledger) (batch : List Update) (hclosed : closed = true) :
      Turn room closed l (.send batch) (.sent false) l
  /-- No update is rejected, and everything that waits is applied. -/
  | drained (l : Ledger) (outcome : Except Failure Unit)
      (hgood : ∀ reason, outcome ≠ .error (.rejected reason)) :
      Turn room closed l .sync (.finished outcome)
        { settled := l.told ++ l.pending.map fun batch => (batch, .applied) }
  /-- An update is rejected, and the batches behind its own go on waiting. -/
  | rejected (l : Ledger) (done rest : List (List Update)) (batch : List Update) (kept : Nat)
      (reason : String) (hpending : l.pending = done ++ batch :: rest)
      (hkept : kept < batch.length) :
      Turn room closed l .sync (.finished (.error (.rejected reason)))
        { settled := l.told ++ (done.map fun b => (b, .applied)) ++ [(batch, .cut kept reason)]
          pending := rest }
  /-- No other call touches the batches. -/
  | idle (l : Ledger) (call : Call) (reply : Reply) (hsend : ∀ batch, call ≠ .send batch)
      (hsync : call ≠ .sync) : Turn room closed l call reply l

/-- The batch that a call sends. -/
def Call.batch? : Call → Option (List Update)
  | .send batch => some batch
  | _ => none

/-- The batches that are sent before the host stops sending. -/
def sent (calls : List Call) : List (List Update) :=
  (calls.takeWhile (· ≠ .closeInbound)).filterMap Call.batch?

/-- The only thing that a ledger gains is the batch that is sent, at the end, and it
    loses nothing. -/
theorem Turn.batches_eq (room : Nat) (closed : Bool) (l next : Ledger) (call : Call)
    (reply : Reply) (h : Turn room closed l call reply next) :
    next.batches = l.batches ++ if closed then [] else call.batch?.toList := by
  -- What a synchronisation or any other call than a send adds is nothing.
  have hnone : call.batch? = none → (if closed then [] else call.batch?.toList) = [] := by
    intro hcall
    rw [hcall, Option.toList_none, ite_self]
  cases h with
  | accepted batch hopen _ =>
      rw [hopen, if_neg Bool.false_ne_true, Ledger.batches, Ledger.batches]
      simp only [Call.batch?, Option.toList_some, List.append_assoc]
  | overwrote oldest batch rest hopen _ hpending =>
      rw [hopen, if_neg Bool.false_ne_true, Ledger.batches, Ledger.batches, hpending]
      simp only [Call.batch?, Option.toList_some, List.append_assoc, List.cons_append,
        List.nil_append]
  | refused batch hclosed => rw [hclosed, if_pos rfl, List.append_nil]
  | drained outcome _ =>
      rw [hnone rfl]
      simp only [Ledger.batches, Ledger.told, List.map_append, List.map_map, Function.comp_def,
        List.map_id', List.append_nil]
  | rejected done rest batch kept reason hpending _ =>
      rw [hnone rfl]
      simp only [Ledger.batches, Ledger.told, hpending, List.map_append, List.map_map,
        Function.comp_def, List.map_id', List.append_nil, List.map_cons, List.map_nil,
        List.append_assoc, List.cons_append, List.nil_append]
  | idle _ _ hsend _ =>
      cases call with
      | send batch => exact absurd rfl (hsend batch)
      | receive | closeInbound | stopOutbound | closeOutbound | sync | flush =>
          rw [hnone rfl, List.append_nil]

open LawfulBroadcast (traffic)

variable {σ β γ : Type} [Subscriber σ] [BroadcastChannel β (List Update)]
  [LawfulBroadcast β (List Update)] [BoundedChannel γ (List Update)]

/-- A ledger that agrees with a connection of the given room. -/
structure Accounts (room : Nat) (c : Connection (Watched σ) β γ) (l : Ledger) : Prop where
  capacity_eq : (traffic c.inbox).capacity = room
  pending_eq : (traffic c.inbox).pending = l.pending
  missed_eq : (traffic c.inbox).missed = l.overwritten.length
  given_eq : c.subscriber.given = l.settled.flatMap dealings
  /-- What the next synchronisation will write: a warning with the number of the
      batches that gave way since the last one, if any did, and what the subscriber
      writes about those that wait. -/
  log_eq : c.sync.log =
    (lagWarning l.overwritten.length).log ++ (applyAll c.subscriber l.pending).log

/-- What the next synchronisation will write follows from the rest. -/
theorem accounts_of (room : Nat) (c : Connection (Watched σ) β γ) (l : Ledger)
    (hcapacity : (traffic c.inbox).capacity = room)
    (hpending : (traffic c.inbox).pending = l.pending)
    (hmissed : (traffic c.inbox).missed = l.overwritten.length)
    (hgiven : c.subscriber.given = l.settled.flatMap dealings) : Accounts room c l :=
  ⟨hcapacity, hpending, hmissed, hgiven,
    by rw [log_sync, (pulled_pull c).log_eq, hmissed, hpending]⟩

/-- The books stay as they are if no batch moves in the inbox and the subscriber is
    given nothing. -/
theorem Accounts.of_eq (room : Nat) (c d : Connection (Watched σ) β γ) (l : Ledger)
    (h : Accounts room c l) (hcapacity : (traffic d.inbox).capacity = (traffic c.inbox).capacity)
    (hpending : (traffic d.inbox).pending = (traffic c.inbox).pending)
    (hmissed : (traffic d.inbox).missed = (traffic c.inbox).missed)
    (hgiven : d.subscriber.given = c.subscriber.given) : Accounts room d l :=
  accounts_of room d l (hcapacity.trans h.capacity_eq) (hpending.trans h.pending_eq)
    (hmissed.trans h.missed_eq) (hgiven.trans h.given_eq)

omit [BroadcastChannel β (List Update)] [LawfulBroadcast β (List Update)] in
/-- Taking the changes gives the subscriber nothing. -/
theorem given_flush (c : Connection (Watched σ) β γ) :
    c.flush.2.subscriber.given = c.subscriber.given := by
  rw [flush_eq]
  change List.filter _ (c.subscriber.record ++ [_]) = _
  rw [List.filter_append]
  exact List.append_nil _

/-- A batch is applied completely, or up to the update that is rejected. The induction
    is on the batch, with the subscriber free to change. -/
theorem record_applyBatch (w : Watched σ) (batch : List Update) :
    let given := (applyBatch w batch).value
    (given.1 = .ok () ∧ given.2.record = w.record ++ dealings (batch, .applied)) ∨
      ∃ kept reason, kept < batch.length ∧ given.1 = .error reason ∧
        given.2.record = w.record ++ dealings (batch, .cut kept reason) := by
  induction batch generalizing w with
  | nil => exact .inl ⟨rfl, (List.append_nil _).symm⟩
  | cons update rest ih =>
      rw [applyBatch, Logged.value_bind]
      have hvalue : (Subscriber.apply w update).value =
          ((Subscriber.apply w.subscriber update).value.1,
            w.write (Subscriber.apply w.subscriber update).value.2
              (Dealing.ofAnswer update (Subscriber.apply w.subscriber update).value.1)) := rfl
      rw [hvalue]
      -- An accepted update goes into the record, and the rest of the batch behind it.
      cases (Subscriber.apply w.subscriber update).value.1 with
      | ok =>
          rcases ih (w.write (Subscriber.apply w.subscriber update).value.2 (.applied update)) with
            ⟨hanswer, hrecord⟩ | ⟨kept, reason, hkept, hanswer, hrecord⟩
          · refine .inl ⟨hanswer, hrecord.trans ?_⟩
            exact List.append_assoc _ _ _
          · refine .inr ⟨kept + 1, reason, Nat.succ_lt_succ hkept, hanswer, hrecord.trans ?_⟩
            exact List.append_assoc _ _ _
      | error reason => exact .inr ⟨0, reason, Nat.succ_pos _, rfl, rfl⟩

/-- Of a row of batches all are applied, or those in front of one that is cut off, and
    then the rest is left. -/
theorem record_applyAll (w : Watched σ) (batches : List (List Update)) :
    let given := (applyAll w batches).value
    (given.1 = .ok () ∧ given.2.2 = [] ∧
        given.2.1.record = w.record ++ (batches.map fun b => (b, Fate.applied)).flatMap dealings) ∨
      ∃ done batch rest kept reason, batches = done ++ batch :: rest ∧ kept < batch.length ∧
        given.1 = .error reason ∧ given.2.2 = rest ∧
        given.2.1.record = w.record ++
          ((done.map fun b => (b, Fate.applied)) ++ [(batch, .cut kept reason)]).flatMap dealings := by
  induction batches generalizing w with
  | nil => exact .inl ⟨rfl, rfl, (List.append_nil _).symm⟩
  | cons batch rest ih =>
      rw [applyAll, Logged.value_bind]
      rcases record_applyBatch w batch with ⟨hok, hfirst⟩ | ⟨kept, reason, hkept, herror, hfirst⟩
      · -- The whole batch was applied, so the cut, if there is one, is in the rest.
        rw [hok]
        rcases ih (applyBatch w batch).value.2 with ⟨hanswer, hleft, hrecord⟩ |
          ⟨done, cut, behind, kept, reason, hbatches, hkept, hanswer, hleft, hrecord⟩
        · refine .inl ⟨hanswer, hleft, hrecord.trans ?_⟩
          rw [hfirst, List.append_assoc]
          rfl
        · refine .inr ⟨batch :: done, cut, behind, kept, reason, by rw [hbatches]; rfl, hkept,
            hanswer, hleft, hrecord.trans ?_⟩
          rw [hfirst, List.append_assoc]
          rfl
      · rw [herror]
        refine .inr ⟨[], batch, rest, kept, reason, rfl, hkept, rfl, rfl, hfirst.trans ?_⟩
        rw [List.map_nil, List.nil_append, List.flatMap_singleton]

/-- Everything in the record that is about batches is about giving updates. -/
theorem filter_flatMap_dealings (told : List (List Update × Fate)) :
    (told.flatMap dealings).filter (fun d => d.changes?.isNone) = told.flatMap dealings := by
  refine List.filter_eq_self.2 fun d hd => ?_
  rcases List.mem_flatMap.1 hd with ⟨⟨batch, fate⟩, _, hdealing⟩
  cases fate with
  | applied =>
      rcases List.mem_map.1 hdealing with ⟨update, _, rfl⟩
      rfl
  | cut kept reason =>
      rcases List.mem_append.1 hdealing with h | h
      · rcases List.mem_map.1 h with ⟨update, _, rfl⟩
        rfl
      · rcases List.mem_map.1 h with ⟨update, _, rfl⟩
        rfl
  | lost => exact absurd hdealing List.not_mem_nil

omit [Subscriber σ] in
/-- What a subscriber was given, once a row of batches is settled. -/
theorem given_of_record (before after : Watched σ) (told : List (List Update × Fate))
    (h : after.record = before.record ++ told.flatMap dealings) :
    after.given = before.given ++ told.flatMap dealings := by
  rw [Watched.given, h, List.filter_append, filter_flatMap_dealings]
  rfl

/-- A batch that is lost says nothing to the subscriber. -/
theorem flatMap_told (l : Ledger) : l.told.flatMap dealings = l.settled.flatMap dealings := by
  have hlost : (l.overwritten.map fun batch => (batch, Fate.lost)).flatMap dealings = [] := by
    rw [List.flatMap_map]
    exact List.flatMap_eq_nil_iff.2 fun _ _ => rfl
  rw [Ledger.told, List.flatMap_append, hlost, List.append_nil]

/-- The books after pulling, when the subscriber was given a row of batches and others
    are left. -/
theorem accounts_pull (room : Nat) (c : Connection (Watched σ) β γ) (l : Ledger)
    (told : List (List Update × Fate)) (h : Accounts room c l)
    (hrecord : (applyAll c.subscriber (traffic c.inbox).pending).value.2.1.record =
      c.subscriber.record ++ told.flatMap dealings) :
    Accounts room c.pull.value.2 {
      settled := l.told ++ told
      pending := (applyAll c.subscriber (traffic c.inbox).pending).value.2.2 } := by
  rcases pulled_pull c with ⟨_, htraffic, hsubscriber, _⟩
  refine accounts_of _ _ _ ?_ ?_ ?_ ?_
  · rw [htraffic]
    exact h.capacity_eq
  · rw [htraffic]
  · rw [htraffic]
    rfl
  · rw [hsubscriber, given_of_record _ _ told hrecord, h.given_eq, List.flatMap_append,
      flatMap_told]

omit [BroadcastChannel β (List Update)] [LawfulBroadcast β (List Update)] in
/-- Flushing never says that an update was rejected. -/
theorem flush_ne_rejected (c : Connection σ β γ) (reason : String) :
    c.flush.1 ≠ .error (.rejected reason) := by
  rw [flush_eq]
  dsimp only
  unfold flushOutcome
  split
  · simp only [ne_eq, reduceCtorEq, not_false_eq_true]
  · intro h
    cases hoffer : (BoundedChannel.offer c.outbox (Subscriber.takeOutgoing c.subscriber).1).1 with
    | ok =>
        rw [hoffer] at h
        have hok : (Except.ok () : Except Failure Unit) = .error (.rejected reason) := h
        exact absurd hok (by simp only [reduceCtorEq, not_false_eq_true])
    | error refusal =>
        -- The failure of a refused batch is another one.
        rw [hoffer] at h
        have herror : Failure.ofRefusal refusal = .rejected reason := Except.error.inj h
        cases refusal <;>
          exact absurd herror (by simp only [Failure.ofRefusal, reduceCtorEq, not_false_eq_true])

/-- Flushing is nothing to the books. -/
theorem accounts_flush (room : Nat) (c : Connection (Watched σ) β γ) (l : Ledger)
    (h : Accounts room c l) : Accounts room c.flush.2 l := by
  have hinbox : c.flush.2.inbox = c.inbox := by rw [flush_eq]
  refine Accounts.of_eq room c _ l h ?_ ?_ ?_ (given_flush c) <;> rw [hinbox]

/-- A synchronisation follows the rule book. -/
theorem turn_sync (room : Nat) (c : Connection (Watched σ) β γ) (l : Ledger)
    (h : Accounts room c l) :
    ∃ next, Turn room (traffic c.inbox).closed l .sync (.finished c.sync.value.1) next ∧
      Accounts room c.sync.value.2 next := by
  have hpull := (pulled_pull c).answer_eq
  rcases record_applyAll c.subscriber (traffic c.inbox).pending with ⟨hanswer, hleft, hrecord⟩ |
    ⟨done, batch, rest, kept, reason, hbatches, hkept, hanswer, hleft, hrecord⟩
  · have hpulled := accounts_pull room c l _ h hrecord
    rw [hleft, h.pending_eq] at hpulled
    rw [hanswer] at hpull
    cases hclosed : (traffic c.inbox).closed with
    | true =>
        -- A closed channel is reported, when everything that waited was applied.
        rw [hclosed] at hpull
        rw [sync_of_error c .inboundClosed hpull]
        refine ⟨_, Turn.drained l _ fun reason => ?_, hpulled⟩
        simp only [ne_eq, Except.error.injEq, reduceCtorEq, not_false_eq_true]
    | false =>
        rw [hclosed] at hpull
        rw [sync_of_ok c hpull]
        exact ⟨_, Turn.drained l _ fun reason => flush_ne_rejected _ reason,
          accounts_flush room _ _ hpulled⟩
  · -- A rejection ends the call, and what is behind the batch was not received.
    have hpulled := accounts_pull room c l _ h hrecord
    rw [hleft, ← List.append_assoc] at hpulled
    rw [hanswer] at hpull
    rw [sync_of_error c _ hpull]
    rw [h.pending_eq] at hbatches
    exact ⟨_, Turn.rejected l done rest batch kept reason hbatches hkept, hpulled⟩

/-- Sending follows the rule book. -/
theorem turn_send (room : Nat) (c : Connection (Watched σ) β γ) (l : Ledger)
    (batch : List Update) (h : Accounts room c l) :
    ∃ next, Turn room (traffic c.inbox).closed l (.send batch)
        (c.perform (.send batch)).value.1 next ∧
      Accounts room (c.perform (.send batch)).value.2 next := by
  -- The channel compares the same two numbers as the ledger.
  have hcases := perform_send_cases c batch
  rw [h.pending_eq, h.capacity_eq] at hcases
  rcases hcases with ⟨hclosed, hsent⟩ | ⟨inbox, hsent, hopen, hinbox⟩
  · rw [hsent, hclosed]
    exact ⟨l, Turn.refused l batch rfl, h⟩
  rw [hsent, hopen]
  rcases hinbox with ⟨hfree, hinbox⟩ | ⟨hfull, oldest, rest, hpending, hinbox⟩
  · refine ⟨_, Turn.accepted l batch rfl hfree, accounts_of _ _ _ ?_ ?_ ?_ h.given_eq⟩
    · exact (congrArg Traffic.capacity hinbox).trans h.capacity_eq
    · exact congrArg Traffic.pending hinbox
    · exact (congrArg Traffic.missed hinbox).trans h.missed_eq
  · refine ⟨_, Turn.overwrote l oldest batch rest rfl hfull hpending,
      accounts_of _ _ _ ?_ (congrArg Traffic.pending hinbox) ?_ h.given_eq⟩
    · exact (congrArg Traffic.capacity hinbox).trans h.capacity_eq
    · rw [List.length_append]
      exact (congrArg Traffic.missed hinbox).trans (congrArg (· + 1) h.missed_eq)

/-- One call follows the rule book. -/
theorem turn_perform (room : Nat) (c : Connection (Watched σ) β γ) (l : Ledger)
    (call : Call) (h : Accounts room c l) :
    ∃ next, Turn room (traffic c.inbox).closed l call (c.perform call).value.1 next ∧
      Accounts room (c.perform call).value.2 next := by
  cases call with
  | send batch => exact turn_send room c l batch h
  | sync => exact turn_sync room c l h
  | closeInbound =>
      have hclosed : Accounts room c.closeInbound l := by
        have htraffic : traffic c.closeInbound.inbox = { traffic c.inbox with closed := true } :=
          LawfulBroadcast.traffic_close c.inbox
        refine Accounts.of_eq room c _ l h ?_ ?_ ?_ rfl <;> rw [htraffic]
      refine ⟨l, Turn.idle l _ _ (fun _ => ?_) ?_, hclosed⟩ <;>
        simp only [ne_eq, reduceCtorEq, not_false_eq_true]
  | receive | stopOutbound | closeOutbound =>
      refine ⟨l, Turn.idle l _ _ (fun _ => ?_) ?_, Accounts.of_eq room c _ l h rfl rfl rfl rfl⟩ <;>
        simp only [ne_eq, reduceCtorEq, not_false_eq_true]
  | flush =>
      refine ⟨l, Turn.idle l _ _ (fun _ => ?_) ?_, accounts_flush room c l h⟩ <;>
        simp only [ne_eq, reduceCtorEq, not_false_eq_true]

/-- A ledger is kept along a history: it agrees with the connection at any time, and
    every call follows the rule book. -/
def Booked (room : Nat) (c : Connection (Watched σ) β γ) (l : Ledger) : List Call → Ledger → Prop
  | [], last => Accounts room c l ∧ l = last
  | call :: rest, last => Accounts room c l ∧
    ∃ next, Turn room (traffic c.inbox).closed l call (c.perform call).value.1 next ∧
      Booked room (c.perform call).value.2 next rest last

/-- A ledger can be kept along any history. The step is `turn_perform`. -/
theorem booked_run (room : Nat) (c : Connection (Watched σ) β γ) (l : Ledger)
    (calls : List Call) (h : Accounts room c l) :
    ∃ last, Booked room c l calls last := by
  induction calls generalizing c l with
  | nil => exact ⟨l, h, rfl⟩
  | cons call rest ih =>
      rcases turn_perform room c l call h with ⟨next, hturn, hnext⟩
      rcases ih _ next hnext with ⟨last, hbooked⟩
      exact ⟨last, h, next, hturn, hbooked⟩

/-- The inbox is closed by one call only, and for good. -/
theorem closed_perform (c : Connection σ β γ) (call : Call) :
    (traffic (c.perform call).value.2.inbox).closed =
      ((traffic c.inbox).closed || decide (call = .closeInbound)) := by
  -- A call that leaves the inbox alone does not close it.
  have hkept : ∀ d : Connection σ β γ, d.inbox = c.inbox →
      (traffic d.inbox).closed = ((traffic c.inbox).closed || false) := by
    intro d hd
    rw [hd, Bool.or_false]
  have hpulled : (traffic c.pull.value.2.inbox).closed = ((traffic c.inbox).closed || false) := by
    rw [(pulled_pull c).traffic_eq, Bool.or_false]
  cases call with
  | send batch =>
      -- Refused or not, a batch does not close the inbox.
      rcases perform_send_cases c batch with ⟨_, hsent⟩ | ⟨inbox, hsent, _, hinbox⟩
      · rw [hsent]
        exact hkept c rfl
      rw [hsent]
      rcases hinbox with ⟨_, hinbox⟩ | ⟨_, _, _, _, hinbox⟩ <;>
        exact (congrArg Traffic.closed hinbox).trans (Bool.or_false _).symm
  | closeInbound =>
      rw [decide_eq_true rfl, Bool.or_true]
      exact congrArg Traffic.closed (LawfulBroadcast.traffic_close c.inbox)
  | receive | stopOutbound | closeOutbound => exact hkept _ rfl
  | sync =>
      change (traffic c.sync.value.2.inbox).closed = _
      cases hanswer : c.pull.value.1 with
      | ok =>
          rw [sync_of_ok c hanswer, flush_eq]
          exact hpulled
      | error failure =>
          rw [sync_of_error c failure hanswer]
          exact hpulled
  | flush =>
      refine hkept _ ?_
      change c.flush.2.inbox = _
      rw [flush_eq]

/-- What is sent in a history, by its first call. -/
theorem sent_cons (closed : Bool) (call : Call) (rest : List Call) :
    (if closed then [] else sent (call :: rest)) =
      (if closed then [] else call.batch?.toList) ++
        if closed || decide (call = .closeInbound) then [] else sent rest := by
  cases closed with
  | true => rfl
  | false => cases call <;> rfl

/-- A ledger has the batches that it had before and all that were sent since, in
    order. -/
theorem batches_of_booked (room : Nat) (c : Connection (Watched σ) β γ) (l last : Ledger)
    (calls : List Call) (h : Booked room c l calls last) :
    last.batches = l.batches ++ if (traffic c.inbox).closed then [] else sent calls := by
  induction calls generalizing c l with
  | nil =>
      rcases h with ⟨_, rfl⟩
      rw [show sent [] = [] from rfl, ite_self, List.append_nil]
  | cons call rest ih =>
      rcases h with ⟨_, next, hturn, hbooked⟩
      rw [ih _ _ hbooked, Turn.batches_eq _ _ _ _ _ _ hturn, closed_perform, sent_cons,
        List.append_assoc]

/-- The books of a new connection, whatever its channels and its subscriber. At any time
    of any history the batches that were sent are in the ledger in their order, and it
    says of each what became of it. The answers of the subscriber in the record are its
    true ones, and the history is that of the subscriber without a record. -/
theorem inbound_accounted (c : Connection σ β γ) (room : Nat)
    (hnew : LawfulBroadcast.IsNew room c.inbox) (calls : List Call) :
    let start := c.map Watched.ofSubscriber
    let last := (start.run calls).value.2.subscriber
    ∃ l : Ledger,
      Booked room.nextPowerOfTwo start {} calls l ∧
      l.batches = sent calls ∧
      Leads c.subscriber last.record last.subscriber ∧
      (fun done => (done.1, done.2.map Watched.subscriber)) <$> start.run calls = c.run calls := by
  intro start last
  have htraffic : traffic start.inbox = { capacity := room.nextPowerOfTwo } := hnew
  have hstart : Accounts room.nextPowerOfTwo start {} := by
    refine accounts_of _ _ _ ?_ ?_ ?_ rfl <;> rw [htraffic]
    rfl
  rcases booked_run _ start {} calls hstart with ⟨l, hbooked⟩
  rcases leads_run start calls with ⟨record, hrecord, hleads⟩
  have hbatches := batches_of_booked _ _ _ _ _ hbooked
  rw [htraffic] at hbatches
  refine ⟨l, hbooked, hbatches, hrecord ▸ hleads, ?_⟩
  rw [run_map Watched.subscriber Watched.follows_subscriber]
  rfl

/-- With room for two batches in memory, the first of three gives way, an update of the
    second is rejected, and the third goes on waiting. -/
theorem inbound_accounted_lagged :
    let c := new 2 1 ({} : Recorder)
    let first : List Update := [.setAttr ⟨1⟩ "title" ""]
    let second : List Update :=
      [.setAttr ⟨2⟩ "title" "", .setAttr ⟨3⟩ "reject" "it", .endOfDocument]
    let third : List Update := [.removeNode ⟨1⟩]
    let calls : List Call := [.send first, .send second, .send third, .sync]
    let done := (c.map Watched.ofSubscriber).run calls
    LawfulBroadcast.IsNew 2 c.inbox ∧
      (∃ l : Ledger, Booked 2 (c.map Watched.ofSubscriber) {} calls l ∧
        l.batches = [first, second, third]) ∧
      done.value.2.subscriber.record =
        [.applied (.setAttr ⟨2⟩ "title" ""), .rejected (.setAttr ⟨3⟩ "reject" "it") "rejected it"] ∧
      done.value.2.inbox.pending = [third] ∧
      done.log = [⟨.warn, "dom", "DOMMirror lagged behind the host; 1 batches were dropped"⟩] := by
  intro c first second third calls done
  have hnew : LawfulBroadcast.IsNew 2 c.inbox := Broadcast.isNew_new 2
  have htwo : Nat.nextPowerOfTwo 2 = 2 := by decide +kernel
  rcases inbound_accounted c 2 hnew calls with ⟨l, hbooked, hbatches, _, _⟩
  rw [htwo] at hbooked
  exact ⟨hnew, ⟨l, hbooked, hbatches⟩, by decide +kernel, by decide +kernel, by decide +kernel⟩

end Connection

end AtomicCss
