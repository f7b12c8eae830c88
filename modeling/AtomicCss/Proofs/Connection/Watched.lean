import AtomicCss.Proofs.Connection.Step

/-!
# Watching a Subscriber

A record of everything that a connection does with its subscriber.

What becomes of a batch shows in the subscriber: which updates it was given, in
which order, and when its own changes were taken. A subscriber may be of any type
and need not remember any of it. So it is put into one that does: `Watched` passes
every update on and writes down the update and the answer.

Nothing is changed by that. A connection cannot look into its subscriber, so two
subscribers that answer alike are driven alike, and leaving out the record gives
the run of the subscriber that was put in (`run_map`, `follows_subscriber`). What
is said about the record of a watched run is therefore said about the run without
it.

The record is also true: each line in it is what the subscriber answers in the
state that the lines before have led to (`Leads`).

## Main definitions

* `Dealing`: Something that is done with a subscriber.
* `Watched`: A subscriber with a record.
* `Subscriber.Follows`: A map between subscribers that answer alike.
* `Dealing.Happens`, `Dealing.after`: What a line of the record says.
* `Leads`: A record that is true.

## Theorems

* `Connection.run_map`: Subscribers that answer alike are driven alike.
* `Connection.keeps_run`: What giving updates and taking changes keep is kept.
* `Watched.follows_subscriber`: Watching changes nothing.
* `Leads.concat`, `leads_append_iff`: Records can be joined and cut.
* `Connection.leads_run`: The record of a run is true.
-/

namespace AtomicCss

/-- Something that is done with a subscriber: it takes an update, it rejects one, or
    its own changes are taken. -/
inductive Dealing
  | applied (update : Update)
  | rejected (update : Update) (reason : String)
  | taken (changes : List Update)
  deriving DecidableEq, Repr

/-- A subscriber with a record of everything that was done with it, oldest first. -/
structure Watched (σ : Type) where
  subscriber : σ
  record : List Dealing

namespace Dealing

/-- The line about an update with the given answer. -/
def ofAnswer (update : Update) : Except String Unit → Dealing
  | .ok () => .applied update
  | .error reason => .rejected update reason

/-- The changes that were taken, if that is what was done. -/
def changes? : Dealing → Option (List Update)
  | .taken changes => some changes
  | .applied _ | .rejected _ _ => none

variable {σ : Type} [Subscriber σ]

/-- The subscriber answers as the line says. -/
def Happens (s : σ) : Dealing → Prop
  | .applied update => (Subscriber.apply s update).value.1 = .ok ()
  | .rejected update reason => (Subscriber.apply s update).value.1 = .error reason
  | .taken changes => (Subscriber.takeOutgoing s).1 = changes

/-- The subscriber after the thing was done. -/
def after (s : σ) : Dealing → σ
  | .applied update | .rejected update _ => (Subscriber.apply s update).value.2
  | .taken _ => (Subscriber.takeOutgoing s).2

theorem happens_ofAnswer (s : σ) (update : Update) :
    (ofAnswer update (Subscriber.apply s update).value.1).Happens s := by
  cases h : (Subscriber.apply s update).value.1 with
  | ok => exact h
  | error reason => exact h

theorem after_ofAnswer (s : σ) (update : Update) (answer : Except String Unit) :
    (ofAnswer update answer).after s = (Subscriber.apply s update).value.2 := by
  cases answer <;> rfl

theorem changes?_ofAnswer (update : Update) (answer : Except String Unit) :
    (ofAnswer update answer).changes? = none := by
  cases answer <;> rfl

end Dealing

/-- A record that is true of a subscriber, and the subscriber it leads to. -/
inductive Leads {σ : Type} [Subscriber σ] : σ → List Dealing → σ → Prop
  | nil (s : σ) : Leads s [] s
  | cons (s t : σ) (d : Dealing) (rest : List Dealing) (happens : d.Happens s)
      (more : Leads (d.after s) rest t) : Leads s (d :: rest) t

/-- A record can be cut anywhere. -/
theorem leads_append_iff {σ : Type} [Subscriber σ] (s t : σ) (record more : List Dealing) :
    Leads s (record ++ more) t ↔ ∃ m, Leads s record m ∧ Leads m more t := by
  induction record generalizing s with
  | nil =>
      constructor
      · exact fun h => ⟨s, Leads.nil s, h⟩
      · rintro ⟨m, hnil, hmore⟩
        cases hnil
        exact hmore
  | cons d rest ih =>
      constructor
      · intro h
        rcases h with _ | ⟨_, _, _, _, hd, hrest⟩
        rcases (ih _).1 hrest with ⟨m, hm, hmore⟩
        exact ⟨m, Leads.cons s m d rest hd hm, hmore⟩
      · rintro ⟨m, hrecord, hmore⟩
        rcases hrecord with _ | ⟨_, _, _, _, hd, hrest⟩
        exact Leads.cons s t d (rest ++ more) hd ((ih _).2 ⟨m, hrest, hmore⟩)

/-- A line that is true can be added. -/
theorem Leads.concat {σ : Type} [Subscriber σ] (s t : σ) (record : List Dealing) (d : Dealing)
    (h : Leads s record t) (hd : d.Happens t) : Leads s (record ++ [d]) (d.after t) :=
  (leads_append_iff _ _ _ _).2 ⟨t, h, Leads.cons t _ d [] hd (Leads.nil _)⟩

namespace Watched

/-- A subscriber with which nothing was done yet. -/
def ofSubscriber {σ : Type} (s : σ) : Watched σ :=
  { subscriber := s, record := [] }

variable {σ : Type}

/-- All changes that were taken, in order. -/
def taken (w : Watched σ) : List (List Update) :=
  w.record.filterMap Dealing.changes?

/-- All updates that were given, in order, with the answers. -/
def given (w : Watched σ) : List Dealing :=
  w.record.filter fun d => d.changes?.isNone

/-- The subscriber as it is now, with one more line in the record. -/
def write (w : Watched σ) (s : σ) (d : Dealing) : Watched σ :=
  { subscriber := s, record := w.record ++ [d] }

variable [Subscriber σ]

instance : Subscriber (Watched σ) where
  apply w update :=
    (fun applied => (applied.1, w.write applied.2 (Dealing.ofAnswer update applied.1))) <$>
      Subscriber.apply w.subscriber update
  takeOutgoing w :=
    let taken := Subscriber.takeOutgoing w.subscriber
    (taken.1, w.write taken.2 (.taken taken.1))

end Watched

/-- A map between subscribers that answer alike. -/
structure Subscriber.Follows {σ τ : Type} [Subscriber σ] [Subscriber τ] (f : σ → τ) : Prop where
  apply_eq : ∀ s update,
    (fun applied => (applied.1, f applied.2)) <$> Subscriber.apply s update =
      Subscriber.apply (f s) update
  take_eq : ∀ s, ((Subscriber.takeOutgoing s).1, f (Subscriber.takeOutgoing s).2) =
    Subscriber.takeOutgoing (f s)

/-- Watching changes nothing: without its record, a watched subscriber answers as the
    one that was put in. -/
theorem Watched.follows_subscriber {σ : Type} [Subscriber σ] :
    Subscriber.Follows (Watched.subscriber : Watched σ → σ) where
  apply_eq w update := by
    change _ <$> (_ <$> Subscriber.apply w.subscriber update) = _
    rw [Functor.map_map]
    exact id_map _
  take_eq _ := rfl

namespace Connection

section Map

variable {σ τ β γ : Type} [Subscriber σ] [Subscriber τ] [BroadcastChannel β (List Update)]
  [BoundedChannel γ (List Update)] (f : σ → τ) (hf : Subscriber.Follows f)
include hf

theorem applyBatch_map (s : σ) (batch : List Update) :
    (fun applied => (applied.1, f applied.2)) <$> applyBatch s batch = applyBatch (f s) batch := by
  induction batch generalizing s with
  | nil => rfl
  | cons update rest ih =>
      simp only [applyBatch, map_bind]
      -- Both sides ask their subscriber the same, and go on with the same answer.
      rw [← hf.apply_eq, bind_map_left]
      refine bind_congr fun applied => ?_
      rcases applied with ⟨answer, next⟩
      cases answer with
      | ok => exact ih next
      | error reason => rfl

omit [BoundedChannel γ (List Update)] in
theorem pull_map (c : Connection σ β γ) :
    (fun pulled => (pulled.1, pulled.2.map f)) <$> c.pull = (c.map f).pull := by
  -- Both connections have the same inbox, so they go round together.
  induction c using pull.induct with
  | case1 c hempty =>
      rw [pull_of_empty c hempty, pull_of_empty (c.map f) hempty]
      rfl
  | case2 c hclosed =>
      rw [pull_of_closed c hclosed, pull_of_closed (c.map f) hclosed]
      rfl
  | case3 c missed hlagged ih =>
      rw [pull_of_lagged c missed hlagged, pull_of_lagged (c.map f) missed hlagged, map_bind]
      exact bind_congr fun _ => ih
  | case4 c batch hitem ih =>
      rw [pull_of_item c batch hitem, pull_of_item (c.map f) batch hitem, map_bind,
        show (c.map f).subscriber = f c.subscriber from rfl, ← applyBatch_map f hf, bind_map_left]
      refine bind_congr fun applied => ?_
      rcases applied with ⟨answer, next⟩
      cases answer with
      | ok => exact ih (.ok (), next)
      | error reason => rfl

omit [BroadcastChannel β (List Update)] in
theorem flush_map (c : Connection σ β γ) :
    (c.flush.1, c.flush.2.map f) = (c.map f).flush := by
  rw [flush_eq, flush_eq]
  dsimp only
  rw [show (c.map f).subscriber = f c.subscriber from rfl, ← hf.take_eq]
  rfl

theorem sync_map (c : Connection σ β γ) :
    (fun synced => (synced.1, synced.2.map f)) <$> c.sync = (c.map f).sync := by
  unfold sync
  rw [← pull_map f hf, map_bind, bind_map_left]
  refine bind_congr fun pulled => ?_
  rcases pulled with ⟨answer, next⟩
  cases answer with
  | ok => exact congrArg pure (flush_map f hf next)
  | error failure => rfl

theorem perform_map (c : Connection σ β γ) (call : Call) :
    (fun done => (done.1, done.2.map f)) <$> c.perform call = (c.map f).perform call := by
  cases call with
  | send batch =>
      simp only [perform, send?, map]
      cases BroadcastChannel.send? c.inbox batch <;> rfl
  | receive | closeInbound | stopOutbound | closeOutbound => rfl
  | sync =>
      simp only [perform]
      rw [← sync_map f hf, Functor.map_map, Functor.map_map]
  | flush =>
      simp only [perform]
      rw [← flush_map f hf]
      rfl

/-- Subscribers that answer alike are driven alike: the answers to a history and the
    records in the log are the same, and so is the connection after it. -/
theorem run_map (c : Connection σ β γ) (calls : List Call) :
    (fun done => (done.1, done.2.map f)) <$> c.run calls = (c.map f).run calls := by
  induction calls generalizing c with
  | nil => rfl
  | cons call rest ih =>
      simp only [run, map_bind]
      rw [← perform_map f hf, bind_map_left]
      refine bind_congr fun done => ?_
      rw [← ih done.2, bind_map_left]
      rfl

end Map

section Keeps

variable {σ β γ : Type} [Subscriber σ] [BroadcastChannel β (List Update)]
  [BoundedChannel γ (List Update)] (P : σ → Prop)
  (happly : ∀ s update, P s → P (Subscriber.apply s update).value.2)
  (htake : ∀ s, P s → P (Subscriber.takeOutgoing s).2)
include happly

theorem keeps_applyBatch (s : σ) (batch : List Update) (h : P s) :
    P (applyBatch s batch).value.2 := by
  induction batch generalizing s with
  | nil => exact h
  | cons update rest ih =>
      have hnext := happly s update h
      rw [applyBatch, Logged.value_bind]
      split
      · exact ih _ hnext
      · exact hnext

include htake

/-- A call only gives updates to the subscriber and takes its changes, so what both
    keep is kept. -/
theorem keeps_perform (c : Connection σ β γ) (call : Call) (h : P c.subscriber) :
    P (c.perform call).value.2.subscriber := by
  have hflush : ∀ d : Connection σ β γ, P d.subscriber → P d.flush.2.subscriber := by
    intro d hd
    rw [flush_eq]
    exact htake _ hd
  have hpull : P c.pull.value.2.subscriber :=
    keeps_pull c (fun d => P d.subscriber) (fun _ hd => hd)
      (fun d batch hd => keeps_applyBatch P happly d.subscriber batch hd) h
  -- Every call is made of these two, or leaves the subscriber alone.
  cases call with
  | send batch =>
      rw [perform, send?]
      cases BroadcastChannel.send? c.inbox batch <;> exact h
  | receive | closeInbound | stopOutbound | closeOutbound => exact h
  | sync =>
      change P c.sync.value.2.subscriber
      cases hanswer : c.pull.value.1 with
      | ok =>
          rw [sync_of_ok c hanswer]
          exact hflush _ hpull
      | error failure =>
          rw [sync_of_error c failure hanswer]
          exact hpull
  | flush => exact hflush c h

theorem keeps_run (c : Connection σ β γ) (calls : List Call) (h : P c.subscriber) :
    P (c.run calls).value.2.subscriber := by
  induction calls generalizing c with
  | nil => exact h
  | cons call rest ih => exact ih _ (keeps_perform P happly htake c call h)

end Keeps

variable {σ β γ : Type} [Subscriber σ] [BroadcastChannel β (List Update)]
  [BoundedChannel γ (List Update)]

/-- A run adds to the record, and what it adds is true. -/
theorem leads_run (c : Connection (Watched σ) β γ) (calls : List Call) :
    ∃ more, (c.run calls).value.2.subscriber.record = c.subscriber.record ++ more ∧
      Leads c.subscriber.subscriber more (c.run calls).value.2.subscriber.subscriber := by
  refine keeps_run (fun w : Watched σ => ∃ more, w.record = c.subscriber.record ++ more ∧
    Leads c.subscriber.subscriber more w.subscriber) ?_ ?_ c calls
    ⟨[], (List.append_nil _).symm, .nil _⟩
  · rintro w update ⟨more, hrecord, hleads⟩
    have hnext := hleads.concat _ _ _ _ (Dealing.happens_ofAnswer w.subscriber update)
    rw [Dealing.after_ofAnswer] at hnext
    refine ⟨_, ?_, hnext⟩
    change w.record ++ [_] = _
    rw [hrecord, List.append_assoc]
  · rintro w ⟨more, hrecord, hleads⟩
    refine ⟨_, ?_, hleads.concat _ _ _ (.taken (Subscriber.takeOutgoing w.subscriber).1) rfl⟩
    change w.record ++ [_] = _
    rw [hrecord, List.append_assoc]

end Connection

end AtomicCss
