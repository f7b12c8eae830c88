import AtomicCss.Proofs.Connection.Alike
import AtomicCss.Proofs.Connection.Outbound
import AtomicCss.Proofs.Tracker.Batches

/-!
# Rules before Class Names

When a host has the rules of all class names that it is asked to write.

A tracker with a sheet in a document puts the rules of a batch in front of the
writes that need them, and makes the style element in front of its first rule. A
host that receives every batch therefore never meets a text without its element,
nor a name without its rule (`InOrder`).

But a batch can be lost on the way: a flush takes it, and then finds the channel
full or closed. For most batches this does no harm to the order. Their rules and
their names are lost together, and any later write brings its own rules along. There
is one batch on which all others depend, the one with the element. The sheet made
the element when that batch was taken and never makes it again, so if it is lost,
each rule that still arrives is under an element that the host does not have. These
are all cases: the host's stream is in order exactly if that batch was not lost,
or no rule arrived at all (`inOrder_received_iff`).

## Main definitions

* `Allowed`: What a host must have received in front of an update.
* `InOrder`: A stream in which all of it is there in time.
* `lossyCalls`: A history in which a batch is lost.

## Theorems

* `inOrder_makes`, `inOrder_batch`: A batch is in order behind the element.
* `exists_run_of_leads`: A tracker that is driven by a connection has a history.
* `inOrder_iff_of_batches`: The cases.
* `inOrder_received_iff`: When the stream of a run is in order.
* `not_inOrder_lossyCalls`, `text_without_element`: A run in which it is not.
-/

namespace AtomicCss

open Text

/-- What a host must have received in front of an update: for a text the style element
    that it goes under, and for a class attribute with names a style element with a
    rule for each of them. -/
def Allowed (received : List Update) : Update → Prop
  | .insertText parent _ _ _ => ∃ root pos, .insertElement root parent "style" pos ∈ received
  | .setAttr _ name attr => sameCaseless name classAttribute = true → words attr ≠ [] →
    ∃ root style place, .insertElement root style "style" place ∈ received ∧
      ∀ word ∈ words attr, ∃ d : Directive, d.className = word ∧
        ∃ node pos, .insertText style node d.ruleText pos ∈ received
  | .insertElement _ _ _ _ | .removeNode _ | .endOfDocument => True

/-- Each update of a stream comes when it is allowed, behind what was received
    before. -/
def InOrder (received : List Update) : List Update → Prop
  | [] => True
  | u :: rest => Allowed received u ∧ InOrder (received ++ [u]) rest

theorem Allowed.mono (received more : List Update) (u : Update) (h : Allowed received u)
    (hsub : received ⊆ more) : Allowed more u := by
  cases u with
  | insertText parent node text pos =>
      rcases h with ⟨root, place, hmem⟩
      exact ⟨root, place, hsub hmem⟩
  | setAttr node name attr =>
      intro hname hsome
      rcases h hname hsome with ⟨root, style, place, helement, hrules⟩
      refine ⟨root, style, place, hsub helement, fun word hword => ?_⟩
      rcases hrules word hword with ⟨d, hd, key, pos, htext⟩
      exact ⟨d, hd, key, pos, hsub htext⟩
  | insertElement | removeNode | endOfDocument => trivial

/-- What is allowed from the start is allowed in any order. -/
theorem inOrder_of_forall (received stream : List Update)
    (h : ∀ u ∈ stream, Allowed received u) : InOrder received stream := by
  induction stream generalizing received with
  | nil => trivial
  | cons u rest ih =>
      rw [List.forall_mem_cons] at h
      refine ⟨h.1, ih _ fun v hv => ?_⟩
      exact (h.2 v hv).mono _ _ _ (List.subset_append_left _ _)

theorem inOrder_append_iff (received stream more : List Update) :
    InOrder received (stream ++ more) ↔
      InOrder received stream ∧ InOrder (received ++ stream) more := by
  induction stream generalizing received with
  | nil =>
      rw [List.nil_append, List.append_nil]
      exact (and_iff_right trivial).symm
  | cons u rest ih =>
      rw [List.cons_append, InOrder, ih, InOrder, and_assoc, List.append_assoc,
        List.singleton_append]

/-- What is in a stream was allowed by all that was received. -/
theorem allowed_of_mem (received stream : List Update) (u : Update) (h : InOrder received stream)
    (hu : u ∈ stream) : Allowed (received ++ stream) u := by
  rcases List.append_of_mem hu with ⟨before, after, rfl⟩
  have hallowed := ((inOrder_append_iff _ _ _).1 h).2.1
  refine hallowed.mono _ _ _ ?_
  rw [← List.append_assoc]
  exact List.subset_append_left _ _

/-- Writes without names need nothing. -/
theorem allowed_of_quiet (received batch : List Update) (h : Quiet batch) :
    ∀ u ∈ batch, Allowed received u := by
  intro u hu
  rcases h u hu with ⟨node, attr, rfl, hwords⟩
  exact fun _ hsome => absurd hwords hsome

/-- Behind the style element a batch is in order. -/
theorem inOrder_batch (style : NodeKey) (received batch : List Update) (h : IsBatch style batch)
    (helement : ∃ root pos, .insertElement root style "style" pos ∈ received) :
    InOrder received batch := by
  rcases h with ⟨texts, writes, rfl, hpaired⟩
  rcases helement with ⟨root, place, helement⟩
  rw [inOrder_append_iff]
  constructor
  · refine inOrder_of_forall _ _ fun u hu => ?_
    rcases hpaired.texts_under u hu with ⟨node, text, pos, rfl⟩
    exact ⟨root, place, helement⟩
  · refine inOrder_of_forall _ _ fun u hu => ?_
    rcases hpaired.writes_named u hu with ⟨node, attr, rfl, hnamed⟩
    intro _ _
    refine ⟨root, style, place, List.mem_append_left _ helement, fun word hword => ?_⟩
    -- The rules come with the batch, whatever the host had before.
    rcases hnamed word hword with ⟨d, hd, key, pos, htext⟩
    exact ⟨d, hd, key, pos, List.mem_append_right _ htext⟩

/-- The batch that makes the element is in order by itself. -/
theorem inOrder_makes (style : NodeKey) (received batch : List Update) (h : Makes style batch) :
    InOrder received batch := by
  rcases h with ⟨lead, rest, rfl, ⟨root, pos, id, rfl⟩, hbatch⟩
  have hid : sameCaseless "id" classAttribute = false := by decide
  rw [inOrder_append_iff]
  refine ⟨⟨trivial, fun hname => ?_, trivial⟩, inOrder_batch style _ rest hbatch ⟨root, pos, ?_⟩⟩
  · rw [hid] at hname
    exact absurd hname Bool.false_ne_true
  · exact List.mem_append_right _ List.mem_cons_self

/-- Behind the style element a row of batches is in order. -/
theorem inOrder_batches (style : NodeKey) (received : List Update) (batches : List (List Update))
    (h : ∀ batch ∈ batches, IsBatch style batch)
    (helement : ∃ root pos, .insertElement root style "style" pos ∈ received) :
    InOrder received batches.flatten := by
  induction batches generalizing received with
  | nil => trivial
  | cons batch rest ih =>
      rw [List.forall_mem_cons] at h
      rcases helement with ⟨root, pos, hmem⟩
      rw [List.flatten_cons, inOrder_append_iff]
      refine ⟨inOrder_batch style received batch h.1 ⟨root, pos, hmem⟩, ih _ h.2 ⟨root, pos, ?_⟩⟩
      exact List.mem_append_left _ hmem

/-- A batch behind the one that makes the element does not make one. -/
theorem not_mem_batch (style : NodeKey) (batch : List Update) (h : IsBatch style batch)
    (root node : NodeKey) (tag : String) (pos : Nat) : .insertElement root node tag pos ∉ batch := by
  intro hmem
  have hnone := (isElement_of_isBatch style batch h _ hmem).1
  rw [Update.isElement] at hnone
  exact absurd hnone (by decide)

/-- A batch without a text is quiet. -/
theorem quiet_of_no_text (style : NodeKey) (batch : List Update) (h : IsBatch style batch)
    (hnone : ∀ parent node text pos, .insertText parent node text pos ∉ batch) : Quiet batch := by
  rcases h with ⟨texts, writes, rfl, hpaired⟩
  have htexts : texts = [] := by
    refine List.eq_nil_iff_forall_not_mem.2 fun u hu => ?_
    rcases hpaired.texts_under u hu with ⟨node, text, pos, rfl⟩
    exact hnone _ _ _ _ (List.mem_append_left _ hu)
  rw [htexts] at hpaired ⊢
  exact (quiet_iff style writes).2 hpaired

namespace Connection

/-- What the host received was sent by a flush. -/
theorem exists_dispatch_of_received (dispatches : List Dispatch) (received : List (List Update))
    (h : received <+: dispatches.filterMap Dispatch.sent?) (batch : List Update)
    (hbatch : batch ∈ received) :
    ∃ d ∈ dispatches, d.changes = batch ∧ d.outcome = .ok () := by
  rcases List.mem_filterMap.1 (h.subset hbatch) with ⟨d, hd, hsent⟩
  exact ⟨d, hd, d.changes_of_sent? batch hsent⟩

/-- Before there is a rule, everything is in order. -/
theorem inOrder_of_quiet (batches : List (List Update)) (h : ∀ batch ∈ batches, Quiet batch) :
    InOrder [] batches.flatten := by
  refine inOrder_of_forall _ _ fun u hu => ?_
  rcases List.mem_flatten.1 hu with ⟨batch, hbatch, hmem⟩
  exact allowed_of_quiet [] batch (h batch hbatch) u hmem

/-- The start of a stream that is in order is in order. -/
theorem inOrder_of_prefix (batches more : List (List Update)) (h : batches <+: more)
    (horder : InOrder [] more.flatten) : InOrder [] batches.flatten := by
  rcases h with ⟨rest, rfl⟩
  rw [List.flatten_append, inOrder_append_iff] at horder
  exact horder.1

section Made

variable (style : NodeKey) (before after : List Dispatch) (maker : Dispatch)
  (hbefore : ∀ d ∈ before, Quiet d.changes) (hmaker : Makes style maker.changes)
  (hafter : ∀ d ∈ after, IsBatch style d.changes)
include hbefore hmaker hafter

/-- If the element is sent, so that all other batches come behind it, everything is in
    order. -/
theorem inOrder_of_sent (received : List (List Update)) (hok : maker.outcome = .ok ())
    (h : received <+: (before ++ maker :: after).filterMap Dispatch.sent?) :
    InOrder [] received.flatten := by
  -- What holds of the batches that were taken holds of those that were sent.
  have hchanges : ∀ (dispatches : List Dispatch) (P : List Update → Prop),
      (∀ d ∈ dispatches, P d.changes) → ∀ batch ∈ dispatches.filterMap Dispatch.sent?, P batch := by
    intro dispatches P hall batch hbatch
    rcases List.mem_filterMap.1 hbatch with ⟨d, hd, hsent⟩
    rw [← (d.changes_of_sent? batch hsent).1]
    exact hall d hd
  rcases hmaker with ⟨lead, rest, hmade, hlead, hbatch⟩
  have hmember : ∃ root pos, .insertElement root style "style" pos ∈ maker.changes := by
    rcases hlead with ⟨root, pos, id, rfl⟩
    rw [hmade]
    exact ⟨root, pos, List.mem_append_left _ List.mem_cons_self⟩
  have hsent : maker.sent? = some maker.changes := by
    refine maker.sent?_of_ok hok fun hnil => ?_
    rcases hmember with ⟨root, pos, hmem⟩
    rw [hnil] at hmem
    exact List.not_mem_nil hmem
  refine inOrder_of_prefix _ _ h ?_
  rw [List.filterMap_append, List.filterMap_cons, hsent, List.flatten_append, List.flatten_cons,
    inOrder_append_iff, inOrder_append_iff]
  refine ⟨inOrder_of_quiet _ (hchanges before Quiet hbefore),
    inOrder_makes style _ _ ⟨lead, rest, hmade, hlead, hbatch⟩,
    inOrder_batches style _ _ (hchanges after (IsBatch style) hafter) ?_⟩
  rcases hmember with ⟨root, pos, hmem⟩
  exact ⟨root, pos, List.mem_append_right _ hmem⟩

/-- If the element is lost, nothing is in order unless no text arrives. -/
theorem inOrder_iff_of_lost (received : List (List Update)) (hlost : maker.outcome ≠ .ok ())
    (h : received <+: (before ++ maker :: after).filterMap Dispatch.sent?) :
    InOrder [] received.flatten ↔
      ∀ parent node text pos, .insertText parent node text pos ∉ received.flatten := by
  -- What arrives is quiet, or it is a batch that takes the element for granted.
  have hkinds : ∀ batch ∈ received, Quiet batch ∨ IsBatch style batch := by
    intro batch hbatch
    rcases exists_dispatch_of_received _ received h batch hbatch with ⟨d, hd, rfl, hok⟩
    rcases List.mem_append.1 hd with hd | hd
    · exact .inl (hbefore d hd)
    · rcases List.mem_cons.1 hd with rfl | hd
      · exact absurd hok hlost
      · exact .inr (hafter d hd)
  constructor
  · intro horder parent node text pos hmem
    rcases allowed_of_mem _ _ _ horder hmem with ⟨root, place, helement⟩
    rw [List.nil_append] at helement
    rcases List.mem_flatten.1 helement with ⟨batch, hbatch, hin⟩
    rcases hkinds batch hbatch with hquiet | hpaired
    · rcases hquiet _ hin with ⟨_, _, heq, _⟩
      exact absurd heq (by simp only [reduceCtorEq, not_false_eq_true])
    · exact not_mem_batch style batch hpaired root parent "style" place hin
  · intro hnone
    refine inOrder_of_quiet _ fun batch hbatch => ?_
    rcases hkinds batch hbatch with hquiet | hpaired
    · exact hquiet
    · refine quiet_of_no_text style batch hpaired fun parent node text pos hmem => ?_
      exact hnone parent node text pos (List.mem_flatten.2 ⟨batch, hbatch, hmem⟩)

end Made

/-- The cases: with the batches of a tracker, a stream is in order exactly if no batch
    with a style element was lost, or if no text arrived. -/
theorem inOrder_iff_of_batches (dispatches : List Dispatch) (received : List (List Update))
    (h : received <+: dispatches.filterMap Dispatch.sent?)
    (hphase : (∀ batch ∈ dispatches.map Dispatch.changes, Quiet batch) ∨
      ∃ style before made after, dispatches.map Dispatch.changes = before ++ made :: after ∧
        (∀ batch ∈ before, Quiet batch) ∧ Makes style made ∧
        ∀ batch ∈ after, IsBatch style batch) :
    InOrder [] received.flatten ↔
      (∀ d ∈ dispatches, (∃ root node pos, .insertElement root node "style" pos ∈ d.changes) →
        d.outcome = .ok ()) ∨
      ∀ parent node text pos, .insertText parent node text pos ∉ received.flatten := by
  rcases hphase with hquiet | ⟨style, before, made, after, hmap, hbefore, hmakes, hafter⟩
  · -- Without an element no text was ever sent, and both sides hold.
    have hreceived : ∀ batch ∈ received, Quiet batch := by
      intro batch hbatch
      rcases exists_dispatch_of_received _ received h batch hbatch with ⟨d, hd, rfl, _⟩
      exact hquiet _ (List.mem_map_of_mem hd)
    refine iff_of_true (inOrder_of_quiet received hreceived) (.inr fun parent node text pos hmem => ?_)
    rcases List.mem_flatten.1 hmem with ⟨batch, hbatch, hin⟩
    rcases hreceived batch hbatch _ hin with ⟨_, _, heq, _⟩
    exact absurd heq (by simp only [reduceCtorEq, not_false_eq_true])
  · rcases List.map_eq_append_iff.1 hmap with ⟨first, others, rfl, rfl, hothers⟩
    rcases List.map_eq_cons_iff.1 hothers with ⟨maker, last, rfl, rfl, rfl⟩
    rw [List.forall_mem_map] at hbefore hafter
    -- One batch makes the element, and everything depends on whether it got through.
    by_cases hok : maker.outcome = .ok ()
    · refine iff_of_true
        (inOrder_of_sent style first last maker hbefore hmakes hafter received hok h)
        (.inl fun d hd helement => ?_)
      rcases helement with ⟨root, node, pos, hmem⟩
      rcases List.mem_append.1 hd with hd | hd
      · rcases hbefore d hd _ hmem with ⟨_, _, heq, _⟩
        exact absurd heq (by simp only [reduceCtorEq, not_false_eq_true])
      · rcases List.mem_cons.1 hd with rfl | hd
        · exact hok
        · exact absurd hmem (not_mem_batch style _ (hafter d hd) root node "style" pos)
    · rw [inOrder_iff_of_lost style first last maker hbefore hmakes hafter received hok h]
      constructor
      · exact .inr
      · rintro (hsent | hnone)
        · rcases hmakes with ⟨lead, rest, hmade, ⟨root, pos, id, rfl⟩, _⟩
          refine absurd (hsent maker (List.mem_append_right _ List.mem_cons_self) ?_) hok
          rw [hmade]
          exact ⟨root, style, pos, List.mem_append_left _ List.mem_cons_self⟩
        · exact hnone

/-- What is done with a tracker is a history of it: it is given updates, none of which
    it rejects, and its batches are taken. -/
theorem exists_run_of_leads {σ : Type} [Stylesheet σ] (s t : Tracker σ) (record : List Dealing)
    (h : Leads s record t) :
    ∃ calls, (s.run calls).value.2 = t ∧
      (s.run calls).value.1.filterMap Tracker.Reply.taken? = record.filterMap Dealing.changes? := by
  induction h with
  | nil s => exact ⟨[], rfl, rfl⟩
  | cons s t line rest happens more ih =>
      rcases ih with ⟨calls, hlast, htaken⟩
      cases line with
      | applied update => exact ⟨.update update :: calls, hlast, htaken⟩
      | rejected update reason =>
          have hanswer : (Except.ok () : Except String Unit) = .error reason := happens
          exact absurd hanswer (by simp only [reduceCtorEq, not_false_eq_true])
      | taken changes =>
          have hchanges : s.takeOutgoing.1 = changes := happens
          exact ⟨.take :: calls, hlast, congrArg₂ List.cons hchanges htaken⟩

section Received

open LawfulBounded (waiting)

variable {β γ : Type} [BroadcastChannel β (List Update)] [BoundedChannel γ (List Update)]

/-- When the host's stream is in order, for a tracker with a sheet in a document, over any
    channels: in every run, exactly if no batch that makes the style element is lost, or
    if no text arrives. -/
theorem inOrder_received_iff [LawfulBounded γ (List Update)] (space : KeySpace) (head : NodeKey)
    (pos : Nat) (sheetConfig config : Config) (inbox : β) (outbox : γ)
    (hnew : waiting outbox = []) (calls : List Call) :
    let tracker := Tracker.new (StyleElement.new space head pos sheetConfig).1 config
    let start : Connection (Tracker StyleElement) β γ := { inbox, outbox, subscriber := tracker }
    let watched := start.map Watched.ofSubscriber
    let replies := (start.run calls).value.1
    let received := (replies.filterMap Reply.received?).flatten
    ∃ dispatches, Handed watched calls (watched.run calls).value.2 replies dispatches ∧
      (InOrder [] received ↔
        (∀ d ∈ dispatches, (∃ root node place,
          .insertElement root node "style" place ∈ d.changes) → d.outcome = .ok ()) ∨
        ∀ parent node text place, .insertText parent node text place ∉ received) := by
  intro tracker start watched replies received
  have hreplies : replies = (watched.run calls).value.1 := by
    have hmap := run_map Watched.subscriber Watched.follows_subscriber watched calls
    exact (congrArg (fun done => done.value.1) hmap).symm
  rcases handed_run watched calls with ⟨dispatches, hhanded⟩
  rw [← hreplies] at hhanded
  rcases leads_run watched calls with ⟨record, hrecord, hleads⟩
  rcases exists_run_of_leads _ _ record hleads with ⟨history, _, htaken⟩
  -- The lists that were dispatched are the batches of the tracker's history.
  have hchanges : dispatches.map Dispatch.changes =
      (tracker.run history).value.1.filterMap Tracker.Reply.taken? := by
    have hall := hhanded.taken_eq
    unfold Watched.taken at hall
    rw [hrecord, List.filterMap_append, List.append_cancel_left_eq] at hall
    exact hall.symm.trans htaken.symm
  have hphase := Tracker.batches_of_phase _ _ (Tracker.phase_run [] tracker history
    (Tracker.phase_new space head pos sheetConfig config))
  rw [List.nil_append, ← hchanges] at hphase
  have hprefix := hhanded.received_prefix
  rw [show waiting watched.outbox = [] from hnew, List.nil_append] at hprefix
  exact ⟨dispatches, hhanded, inOrder_iff_of_batches dispatches _ hprefix hphase⟩

/-- A batch with the element gets through, over channels in memory, and what the host
    receives is in order. -/
theorem inOrder_received_iff_sent :
    let tracker := Tracker.new (StyleElement.new (KeySpace.ofEpoch 1) .root 0 {}).1 {}
    let calls : List Call := [.send [.setAttr ⟨1⟩ "class" "hover:color_red"], .sync, .receive]
    let replies := ((new 16 1 tracker).run calls).value.1
    let received := (replies.filterMap Reply.received?).flatten
    waiting (new 16 1 tracker).outbox = [] ∧
      received =
        [.insertElement .root (.pack 1 1 1) "style" 0, .setAttr (.pack 1 1 1) "id" "synxia-style",
          .insertText (.pack 1 1 1) (.pack 1 1 2) ".color_red:hover\x7bcolor:red\x7d" 0,
          .setAttr ⟨1⟩ "class" "color_red"] ∧
      InOrder [] received := by
  intro tracker calls replies received
  have hflushes : replies.filterMap Reply.flushed? = [.ok ()] := by decide +kernel
  rcases inOrder_received_iff (KeySpace.ofEpoch 1) .root 0 {} {} (new 16 1 tracker).inbox
    (new 16 1 tracker).outbox rfl calls with ⟨dispatches, hhanded, hiff⟩
  refine ⟨rfl, by decide +kernel, hiff.2 (.inl fun d hd _ => ?_)⟩
  -- Every list that was dispatched is one that a flush has answered for.
  have houtcome : d.outcome ∈ dispatches.map Dispatch.outcome := List.mem_map_of_mem hd
  rw [← hhanded.flushes_eq] at houtcome
  change d.outcome ∈ replies.filterMap Reply.flushed? at houtcome
  rw [hflushes, List.mem_singleton] at houtcome
  exact houtcome

/-- A run in which the batch with the element is lost. -/
def lossyCalls : List Call :=
  [.send [.setAttr ⟨1⟩ "class" "_x"], .sync,
    .send [.setAttr ⟨1⟩ "class" "color_red"], .sync, .receive,
    .send [.setAttr ⟨2⟩ "class" "hover:margin_0"], .sync, .receive]

/-- A write without names fills the channel, and the batch with the element is lost.
    The next rule arrives under an element that the host was never told of. This is so
    over all channels that have no room for a second batch. -/
theorem not_inOrder_lossyCalls [LawfulBroadcast β (List Update)] [SizedBounded γ (List Update)]
    (inbox : β) (outbox : γ) (hinbox : LawfulBroadcast.IsNew 16 inbox)
    (houtbox : SizedBounded.IsNew 1 outbox) :
    let tracker := Tracker.new (StyleElement.new (KeySpace.ofEpoch 1) .root 0 {}).1 {}
    let start : Connection (Tracker StyleElement) β γ := { inbox, outbox, subscriber := tracker }
    let replies := (start.run lossyCalls).value.1
    let received := (replies.filterMap Reply.received?).flatten
    replies.filterMap Reply.flushed? = [.ok (), .error (.outboundFull 3), .ok ()] ∧
      received =
        [.setAttr ⟨1⟩ "class" "",
          .insertText (.pack 1 1 1) (.pack 1 1 3) ".margin_0:hover\x7bmargin:0\x7d" 1,
          .setAttr ⟨2⟩ "class" "margin_0"] ∧
      ¬ InOrder [] received := by
  intro tracker start replies received
  have hreplies : replies = ((new 16 1 tracker).run lossyCalls).value.1 :=
    (run_eq_new start 16 1 lossyCalls hinbox houtbox).1
  have hflushes : replies.filterMap Reply.flushed? =
      [.ok (), .error (.outboundFull 3), .ok ()] := by
    rw [hreplies]
    decide +kernel
  have hreceived : received =
      [.setAttr ⟨1⟩ "class" "",
        .insertText (.pack 1 1 1) (.pack 1 1 3) ".margin_0:hover\x7bmargin:0\x7d" 1,
        .setAttr ⟨2⟩ "class" "margin_0"] := by
    change (replies.filterMap Reply.received?).flatten = _
    rw [hreplies]
    decide +kernel
  refine ⟨hflushes, hreceived, fun horder => ?_⟩
  rw [hreceived] at horder
  rcases horder with ⟨_, ⟨root, pos, hmem⟩, _⟩
  exact absurd hmem (by simp only [List.nil_append, List.mem_singleton, reduceCtorEq,
    not_false_eq_true])

/-- Over channels in memory, for one. -/
theorem text_without_element :
    let tracker := Tracker.new (StyleElement.new (KeySpace.ofEpoch 1) .root 0 {}).1 {}
    let replies := ((new 16 1 tracker).run lossyCalls).value.1
    let received := (replies.filterMap Reply.received?).flatten
    replies.filterMap Reply.flushed? = [.ok (), .error (.outboundFull 3), .ok ()] ∧
      received =
        [.setAttr ⟨1⟩ "class" "",
          .insertText (.pack 1 1 1) (.pack 1 1 3) ".margin_0:hover\x7bmargin:0\x7d" 1,
          .setAttr ⟨2⟩ "class" "margin_0"] ∧
      ¬ InOrder [] received :=
  not_inOrder_lossyCalls _ _ (Broadcast.isNew_new 16) (Bounded.isNew_new 1)

end Received

end Connection

end AtomicCss
