import AtomicCss.Proofs.Document.NodeKey
import Mathlib.Data.Set.Card
import Mathlib.Logic.Function.Basic

/-!
# Producers of One Session

When the producers of a session hand out the same key, and when they do not.

A session registers producers one after the other, and each is asked for the keys
of its own things. What one producer does is known: its keys are a fixed sequence,
and the things get them in the order in which they are first named. So all keys of
a session are known from three things: the epoch, which is shared, the shard of the
producer, and the place of the thing among the things of its producer.

One producer never repeats itself, as long as the counter's field suffices. Two
producers differ in their shards, and there the care ends: a shard has eight bits,
it moves by one with each registration, and nothing stops it from coming round. The
producer registered 256 places after another one has the same shard, and so it has
the very same sequence of keys. That the two meet is then a matter of their being
used at all: the first key of the one is the first key of the other.

The things of a session are pairs of a producer's number and what the thing is to
that producer. Each producer may name things of a type of its own.

## Main definitions

* `KeySpace.Call`, `KeySpace.Session`: What happens in a session, and its state.
* `KeySpace.run`: All keys that a session hands out.
* `KeySpace.asked`: The things that a producer was asked for.
* `KeySpace.shardOf`: The shard of a producer, by its number.
* `KeySpace.Given`, `KeySpace.Agrees`: What holds of a session at any time.

## Theorems

* `shardOf_eq_iff`: The shard comes round after 256 registrations.
* `agrees_register`, `agrees_ask`: What one call keeps.
* `agrees_run`: What holds at the end of a session.
* `key_eq_of_thing_eq`, `thing_eq_of_key_eq`: A producer gives each thing one key,
  and no other thing the same.
* `exists_key_eq`: Producers with one shard meet.
* `keys_tell_apart_iff`: When the keys of a session tell its things apart.
* `keys_meet_after_256`: Two producers whose keys do not.
-/

namespace AtomicCss

namespace KeySpace

/-- What happens in a session. Producers are numbered from zero as they are
    registered, and a thing is its producer's number and what it is there. -/
inductive Call (ι : Nat → Type)
  | register
  | ask (thing : Σ i, ι i)

/-- A session: the space that the next producer is registered with, and the
    producers so far. -/
structure Session (ι : Nat → Type) [∀ i, Ord (ι i)] where
  space : KeySpace
  count : Nat
  producer : ∀ i, Option (KeyManager (ι i))

variable {ι : Nat → Type} [∀ i, Ord (ι i)]

/-- A new producer, with the next number. -/
def Session.register (s : Session ι) : Session ι :=
  let made : KeyManager (ι s.count) × KeySpace := s.space.register
  { space := made.2
    count := s.count + 1
    producer := Function.update s.producer s.count (some made.1) }

/-- The key of a thing, if its producer is registered, and the session after. -/
def Session.ask (s : Session ι) (thing : Σ i, ι i) : Option NodeKey × Session ι :=
  match s.producer thing.1 with
  | none => (none, s)
  | some m => (some (m.keyOf thing.2).1, { s with
      producer := Function.update s.producer thing.1 (some (m.keyOf thing.2).2) })

/-- One call, behind the keys that were handed out before. -/
def call (done : List ((Σ i, ι i) × NodeKey) × Session ι) :
    Call ι → List ((Σ i, ι i) × NodeKey) × Session ι
  | .register => (done.1, done.2.register)
  | .ask thing =>
    (done.1 ++ (done.2.ask thing).1.toList.map fun key => (thing, key), (done.2.ask thing).2)

/-- All keys that a session hands out, each with the thing it is for, in order, and
    the session after its calls. -/
def run (space : KeySpace) (calls : List (Call ι)) : List ((Σ i, ι i) × NodeKey) × Session ι :=
  calls.foldl call ([], { space, count := 0, producer := fun _ => none })

/-- The things that a producer was asked for. -/
def asked (answers : List ((Σ i, ι i) × NodeKey)) (i : Nat) : Set (ι i) :=
  {id | ∃ key, (⟨i, id⟩, key) ∈ answers}

omit [∀ i, Ord (ι i)] in
/-- No producer was asked for more things than keys were handed out. -/
theorem ncard_asked_le_length (answers : List ((Σ i, ι i) × NodeKey)) (i : Nat) :
    (asked answers i).ncard ≤ answers.length := by
  classical
  have hsub : Set.image (Sigma.mk i) (asked answers i) ⊆ ↑(answers.map Prod.fst).toFinset := by
    rintro thing ⟨id, ⟨key, hkey⟩, rfl⟩
    exact List.mem_toFinset.2 (List.mem_map_of_mem hkey)
  calc (asked answers i).ncard
      = (Set.image (Sigma.mk i) (asked answers i)).ncard :=
        (Set.ncard_image_of_injective _ sigma_mk_injective).symm
    _ ≤ (↑(answers.map Prod.fst).toFinset : Set (Σ i, ι i)).ncard :=
        Set.ncard_le_ncard hsub (Finset.finite_toSet _)
    _ = (answers.map Prod.fst).toFinset.card := Set.ncard_coe_finset _
    _ ≤ (answers.map Prod.fst).length := List.toFinset_card_le _
    _ = answers.length := List.length_map _

/-- The shard of a producer, by its number. -/
def shardOf (space : KeySpace) (i : Nat) : UInt8 :=
  space.nextShard + UInt8.ofNat i

theorem shardOf_zero (space : KeySpace) : space.shardOf 0 = space.nextShard := by
  rw [← UInt8.toNat_inj, shardOf, UInt8.toNat_add, UInt8.toNat_ofNat']
  have := space.nextShard.toNat_lt
  omega

theorem shardOf_succ (space : KeySpace) (i : Nat) :
    space.shardOf (i + 1) = space.shardOf i + 1 := by
  rw [shardOf, shardOf, UInt8.ofNat_add, ← UInt8.add_assoc]
  rfl

/-- Two producers have the same shard if a multiple of the number of shards lies
    between their registrations. -/
theorem shardOf_eq_iff (space : KeySpace) (i j : Nat) :
    space.shardOf i = space.shardOf j ↔ i % UInt8.size = j % UInt8.size := by
  rw [← UInt8.toNat_inj, shardOf, shardOf, UInt8.toNat_add, UInt8.toNat_add, UInt8.toNat_ofNat',
    UInt8.toNat_ofNat', show UInt8.size = 256 from rfl]
  omega

/-- A producer has given the first keys of its shard to the given things, in this
    order, and these are its keys among those that were handed out. Before it is
    registered there are none. -/
structure Given (space : KeySpace) (done : List ((Σ i, ι i) × NodeKey) × Session ι) (i : Nat)
    (ids : List (ι i)) : Prop where
  nodup : ids.Nodup
  answers_iff : ∀ id key, ((⟨i, id⟩ : Σ i, ι i), key) ∈ done.1 ↔
    ∃ p, ids[p]? = some id ∧ key = KeyManager.keyAt space.epoch (space.shardOf i) p
  absent : done.2.producer i = none → ids = []
  present : ∀ m, done.2.producer i = some m → m.HandedOut space.epoch (space.shardOf i) ids

/-- What holds of a session at any time. -/
structure Agrees (space : KeySpace) (done : List ((Σ i, ι i) × NodeKey) × Session ι) : Prop where
  epoch_eq : done.2.space.epoch = space.epoch
  nextShard_eq : done.2.space.nextShard = space.shardOf done.2.count
  unregistered : ∀ i, done.2.count ≤ i → done.2.producer i = none
  given : ∀ i, ∃ ids, Given space done i ids

theorem agrees_start (space : KeySpace) :
    Agrees (ι := ι) space ([], { space, count := 0, producer := fun _ => none }) := by
  refine ⟨rfl, space.shardOf_zero.symm, fun _ _ => rfl, fun i => ⟨[], List.nodup_nil, ?_, ?_, ?_⟩⟩
  · simp only [List.not_mem_nil, List.getElem?_nil, reduceCtorEq, false_and, exists_false,
      implies_true]
  · exact fun _ => rfl
  · exact fun _ h => absurd h (by simp only [reduceCtorEq, not_false_eq_true])

/-- A producer that is not registered yet cannot be asked. -/
theorem call_ask_of_none (done : List ((Σ i, ι i) × NodeKey) × Session ι) (thing : Σ i, ι i)
    (h : done.2.producer thing.1 = none) : call done (.ask thing) = done := by
  have hask : done.2.ask thing = (none, done.2) := by
    unfold Session.ask
    rw [h]
  rw [call, hask]
  exact Prod.ext (List.append_nil _) rfl

theorem call_ask_of_some (done : List ((Σ i, ι i) × NodeKey) × Session ι) (thing : Σ i, ι i)
    (m : KeyManager (ι thing.1)) (h : done.2.producer thing.1 = some m) :
    call done (.ask thing) = (done.1 ++ [(thing, (m.keyOf thing.2).1)], { done.2 with
      producer := Function.update done.2.producer thing.1 (some (m.keyOf thing.2).2) }) := by
  have hask : done.2.ask thing = (some (m.keyOf thing.2).1, { done.2 with
      producer := Function.update done.2.producer thing.1 (some (m.keyOf thing.2).2) }) := by
    unfold Session.ask
    rw [h]
  rw [call, hask]
  rfl

/-- A producer has given as many keys as there are things that it was asked for. -/
theorem length_eq_ncard_asked (space : KeySpace)
    (done : List ((Σ i, ι i) × NodeKey) × Session ι) (i : Nat) (ids : List (ι i))
    (h : Given space done i ids) : ids.length = (asked done.1 i).ncard := by
  classical
  have hset : asked done.1 i = ↑ids.toFinset := by
    ext id
    rw [Finset.mem_coe, List.mem_toFinset, List.mem_iff_getElem?]
    constructor
    · rintro ⟨key, hkey⟩
      rcases (h.answers_iff id key).1 hkey with ⟨p, hp, _⟩
      exact ⟨p, hp⟩
    · rintro ⟨p, hp⟩
      exact ⟨_, (h.answers_iff id _).2 ⟨p, hp, rfl⟩⟩
  rw [hset, Set.ncard_coe_finset, List.toFinset_card_of_nodup h.nodup]

/-- The other producers notice nothing: the new key is for a thing of another one. -/
theorem given_ask_other (space : KeySpace) (done : List ((Σ i, ι i) × NodeKey) × Session ι)
    (i j : Nat) (id : ι j) (m : KeyManager (ι j)) (ids : List (ι i)) (hij : i ≠ j)
    (hproducer : done.2.producer j = some m) (h : Given space done i ids) :
    Given space (call done (.ask ⟨j, id⟩)) i ids := by
  have hother : (call done (.ask ⟨j, id⟩)).2.producer i = done.2.producer i := by
    rw [call_ask_of_some done ⟨j, id⟩ m hproducer]
    exact Function.update_of_ne hij _ _
  refine ⟨h.nodup, fun other key => ?_, ?_, ?_⟩
  · have hne : (⟨i, other⟩ : Σ i, ι i) ≠ ⟨j, id⟩ := fun heq => hij (congrArg Sigma.fst heq)
    rw [call_ask_of_some done ⟨j, id⟩ m hproducer, List.mem_append, List.mem_singleton,
      ← h.answers_iff, Prod.mk.injEq]
    simp only [hne, false_and, or_false]
  · rw [hother]
    exact h.absent
  · rw [hother]
    exact h.present

variable [∀ i, Std.TransOrd (ι i)]

/-- The new producer has given nothing, and the others are as they were. -/
theorem agrees_register (space : KeySpace) (done : List ((Σ i, ι i) × NodeKey) × Session ι)
    (h : Agrees space done) : Agrees space (call done .register) := by
  have hother : ∀ i, i ≠ done.2.count →
      (call done .register).2.producer i = done.2.producer i :=
    fun i hi => Function.update_of_ne hi _ _
  have hthis : (call done .register).2.producer done.2.count =
      some (KeyManager.new done.2.space.epoch done.2.space.nextShard) :=
    Function.update_self _ _ _
  refine ⟨h.epoch_eq, ?_, fun i hi => ?_, fun i => ?_⟩
  · change done.2.space.nextShard + 1 = space.shardOf (done.2.count + 1)
    rw [h.nextShard_eq, shardOf_succ]
  · rw [hother i (Nat.ne_of_gt hi)]
    exact h.unregistered i (Nat.le_of_lt hi)
  · rcases h.given i with ⟨ids, hids⟩
    by_cases hi : i = done.2.count
    · subst hi
      -- Nothing was handed out under this number so far.
      have hnil : ids = [] := hids.absent (h.unregistered _ (Nat.le_refl _))
      refine ⟨ids, hids.nodup, hids.answers_iff, fun _ => hnil, fun m hm => ?_⟩
      rw [hthis, Option.some.injEq, h.epoch_eq, h.nextShard_eq] at hm
      rw [← hm, hnil]
      exact KeyManager.handedOut_new _ _
    · refine ⟨ids, hids.nodup, hids.answers_iff, ?_, ?_⟩
      · rw [hother i hi]
        exact hids.absent
      · rw [hother i hi]
        exact hids.present

variable [∀ i, Std.LawfulEqOrd (ι i)]

/-- The producer that is asked has given one thing a key, be it for the first time
    or again. -/
theorem given_ask_self (space : KeySpace) (done : List ((Σ i, ι i) × NodeKey) × Session ι)
    (i : Nat) (id : ι i) (m : KeyManager (ι i)) (ids : List (ι i))
    (hproducer : done.2.producer i = some m) (h : Given space done i ids) :
    ∃ more, Given space (call done (.ask ⟨i, id⟩)) i more := by
  rcases m.handedOut_keyOf _ _ ids id (h.present m hproducer) h.nodup with
    ⟨more, hnodup, hout, hmore⟩
  have hthis : (call done (.ask ⟨i, id⟩)).2.producer i = some (m.keyOf id).2 := by
    rw [call_ask_of_some done ⟨i, id⟩ m hproducer]
    exact Function.update_self _ _ _
  refine ⟨more, hnodup, fun other key => ?_, ?_, ?_⟩
  · rw [hmore, call_ask_of_some done ⟨i, id⟩ m hproducer, List.mem_append, List.mem_singleton,
      h.answers_iff, Prod.mk.injEq, Sigma.mk.injEq, heq_eq_eq]
    simp only [true_and]
  · rw [hthis]
    exact fun hnone => absurd hnone (by simp only [reduceCtorEq, not_false_eq_true])
  · rw [hthis]
    intro after hafter
    rw [← Option.some.inj hafter]
    exact hout

/-- One producer hands out a key, and the others are as they were. -/
theorem agrees_ask (space : KeySpace) (done : List ((Σ i, ι i) × NodeKey) × Session ι)
    (thing : Σ i, ι i) (h : Agrees space done) : Agrees space (call done (.ask thing)) := by
  rcases thing with ⟨j, id⟩
  cases hproducer : done.2.producer j with
  | none =>
      rw [call_ask_of_none done ⟨j, id⟩ hproducer]
      exact h
  | some m =>
      have hcall := call_ask_of_some done ⟨j, id⟩ m hproducer
      refine ⟨?_, ?_, fun i hi => ?_, fun i => ?_⟩
      · rw [hcall]
        exact h.epoch_eq
      · rw [hcall]
        exact h.nextShard_eq
      · rw [hcall] at hi ⊢
        -- The one that was asked is registered, so its number is below the count.
        have hij : i ≠ j := by
          rintro rfl
          rw [h.unregistered i hi] at hproducer
          exact absurd hproducer (by simp only [reduceCtorEq, not_false_eq_true])
        exact (Function.update_of_ne hij _ _).trans (h.unregistered i hi)
      · rcases h.given i with ⟨ids, hids⟩
        by_cases hij : i = j
        · subst hij
          exact given_ask_self space done i id m ids hproducer hids
        · exact ⟨ids, given_ask_other space done i j id m ids hij hproducer hids⟩

/-- What holds at the end of a session, by induction along its calls. -/
theorem agrees_run (space : KeySpace) (calls : List (Call ι)) : Agrees space (run space calls) := by
  unfold run
  have hfold : ∀ done : List ((Σ i, ι i) × NodeKey) × Session ι, Agrees space done →
      Agrees space (calls.foldl call done) := by
    induction calls with
    | nil => exact fun _ h => h
    | cons first rest ih =>
        intro done h
        cases first with
        | register => exact ih _ (agrees_register space done h)
        | ask thing => exact ih _ (agrees_ask space done thing h)
  exact hfold _ (agrees_start space)

/-- A thing gets the same key whenever it is asked for. -/
theorem key_eq_of_thing_eq (space : KeySpace) (calls : List (Call ι))
    (a b : (Σ i, ι i) × NodeKey) (ha : a ∈ (run space calls).1) (hb : b ∈ (run space calls).1)
    (h : a.1 = b.1) : a.2 = b.2 := by
  rcases a with ⟨⟨i, id⟩, key⟩
  rcases b with ⟨⟨j, other⟩, key'⟩
  cases h
  rcases (agrees_run space calls).given i with ⟨ids, hids⟩
  rcases (hids.answers_iff id key).1 ha with ⟨p, hp, hkey⟩
  rcases (hids.answers_iff id key').1 hb with ⟨q, hq, hkey'⟩
  -- A thing stands at one place only.
  have hplace : p = q := (List.getElem?_inj (List.getElem?_eq_some_iff.1 hp).1 hids.nodup).1
    (hp.trans hq.symm)
  exact hkey.trans ((congrArg _ hplace).trans hkey'.symm)

/-- Equal keys come from producers with the same shard. -/
theorem shard_eq_of_key_eq (space : KeySpace) (calls : List (Call ι))
    (a b : (Σ i, ι i) × NodeKey) (ha : a ∈ (run space calls).1) (hb : b ∈ (run space calls).1)
    (h : a.2 = b.2) : a.1.1 % UInt8.size = b.1.1 % UInt8.size := by
  rcases (agrees_run space calls).given a.1.1 with ⟨ids, hids⟩
  rcases (agrees_run space calls).given b.1.1 with ⟨others, hothers⟩
  rcases (hids.answers_iff a.1.2 a.2).1 ha with ⟨p, _, hkey⟩
  rcases (hothers.answers_iff b.1.2 b.2).1 hb with ⟨q, _, hkey'⟩
  rw [hkey, hkey'] at h
  exact (space.shardOf_eq_iff _ _).1 ((NodeKey.pack_eq_iff _ _ _ _ _ _).1 h).2.1

/-- No producer repeats itself as long as the counter's field suffices. -/
theorem thing_eq_of_key_eq (space : KeySpace) (calls : List (Call ι))
    (hroom : ∀ i, (asked (run space calls).1 i).ncard < NodeKey.counterSpan)
    (a b : (Σ i, ι i) × NodeKey) (ha : a ∈ (run space calls).1) (hb : b ∈ (run space calls).1)
    (h : a.2 = b.2) (hproducer : a.1.1 = b.1.1) : a.1 = b.1 := by
  rcases a with ⟨⟨i, id⟩, key⟩
  rcases b with ⟨⟨j, other⟩, key'⟩
  dsimp only at h hproducer
  subst h hproducer
  rcases (agrees_run space calls).given i with ⟨ids, hids⟩
  rcases (hids.answers_iff id key).1 ha with ⟨p, hp, hkey⟩
  rcases (hids.answers_iff other key).1 hb with ⟨q, hq, hkey'⟩
  have hspan := hroom i
  rw [← length_eq_ncard_asked space _ i ids hids] at hspan
  have hpq : p = q := KeyManager.keyAt_inj _ _ p q
    (Nat.lt_trans (List.getElem?_eq_some_iff.1 hp).1 hspan)
    (Nat.lt_trans (List.getElem?_eq_some_iff.1 hq).1 hspan) (hkey.symm.trans hkey')
  rw [hpq, hq, Option.some.injEq] at hp
  rw [hp]

/-- Two producers with the same shard meet in their first keys, once both were asked
    for something. -/
theorem exists_key_eq (space : KeySpace) (calls : List (Call ι))
    (a b : (Σ i, ι i) × NodeKey) (ha : a ∈ (run space calls).1) (hb : b ∈ (run space calls).1)
    (h : a.1.1 % UInt8.size = b.1.1 % UInt8.size) :
    ∃ c ∈ (run space calls).1, ∃ d ∈ (run space calls).1,
      c.1.1 = a.1.1 ∧ d.1.1 = b.1.1 ∧ c.2 = d.2 := by
  -- Whoever handed out anything handed out the first key of the shard.
  have hfirst : ∀ e ∈ (run space calls).1, ∃ id,
      ((⟨e.1.1, id⟩ : Σ i, ι i), KeyManager.keyAt space.epoch (space.shardOf e.1.1) 0)
        ∈ (run space calls).1 := by
    intro e he
    rcases (agrees_run space calls).given e.1.1 with ⟨ids, hids⟩
    rcases (hids.answers_iff e.1.2 e.2).1 he with ⟨p, hp, _⟩
    have hlength : 0 < ids.length :=
      Nat.lt_of_le_of_lt (Nat.zero_le p) (List.getElem?_eq_some_iff.1 hp).1
    exact ⟨ids[0], (hids.answers_iff _ _).2 ⟨0, List.getElem?_eq_getElem hlength, rfl⟩⟩
  rcases hfirst a ha with ⟨id, hid⟩
  rcases hfirst b hb with ⟨other, hother⟩
  refine ⟨_, hid, _, hother, rfl, rfl, ?_⟩
  rw [(space.shardOf_eq_iff _ _).2 h]

/-- The keys of a session tell its things apart, equal keys being for the same thing
    of the same producer, exactly if no two producers that were asked for something
    are a multiple of 256 registrations apart. -/
theorem keys_tell_apart_iff (space : KeySpace) (calls : List (Call ι))
    (h : ∀ i, (asked (run space calls).1 i).ncard < NodeKey.counterSpan) :
    let answers := (run space calls).1
    (∀ a ∈ answers, ∀ b ∈ answers, a.2 = b.2 ↔ a.1 = b.1) ↔
      ∀ a ∈ answers, ∀ b ∈ answers, a.1.1 % 256 = b.1.1 % 256 → a.1.1 = b.1.1 := by
  intro answers
  constructor
  · intro happart a ha b hb hshard
    rcases exists_key_eq space calls a b ha hb hshard with ⟨c, hc, d, hd, hca, hdb, hkey⟩
    rw [← hca, ← hdb, (happart c hc d hd).1 hkey]
  · intro hfar a ha b hb
    constructor
    · intro hkey
      have hproducer := hfar a ha b hb (shard_eq_of_key_eq space calls a b ha hb hkey)
      exact thing_eq_of_key_eq space calls h a b ha hb hkey hproducer
    · exact key_eq_of_thing_eq space calls a b ha hb

/-- Two producers that are asked in turn, for the same number and again. -/
theorem keys_tell_apart_iff_two_producers :
    let calls : List (Call fun _ => Nat) :=
      [.register, .ask ⟨0, 7⟩, .register, .ask ⟨1, 7⟩, .ask ⟨0, 8⟩, .ask ⟨0, 7⟩]
    let answers := (run (ofEpoch 3) calls).1
    (∀ i, (asked answers i).ncard < NodeKey.counterSpan) ∧ answers.length = 4 ∧
      ∀ a ∈ answers, ∀ b ∈ answers, a.2 = b.2 ↔ a.1 = b.1 := by
  intro calls answers
  have hlength : answers.length = 4 := by decide +kernel
  have hroom : ∀ i, (asked answers i).ncard < NodeKey.counterSpan := fun i =>
    Nat.lt_of_le_of_lt (ncard_asked_le_length answers i) (by rw [hlength]; decide)
  exact ⟨hroom, hlength, (keys_tell_apart_iff (ofEpoch 3) calls hroom).2 (by decide +kernel)⟩

/-- The producer registered 256 places after the first one hands out its keys again. -/
theorem keys_meet_after_256 :
    let calls : List (Call fun _ => Nat) :=
      List.replicate 257 .register ++ [.ask ⟨0, 1⟩, .ask ⟨256, 1⟩]
    let answers := (run (ofEpoch 3) calls).1
    (∀ i, (asked answers i).ncard < NodeKey.counterSpan) ∧
      answers = [(⟨0, 1⟩, NodeKey.pack 3 1 1), (⟨256, 1⟩, NodeKey.pack 3 1 1)] ∧
      ¬ ∀ a ∈ answers, ∀ b ∈ answers, a.2 = b.2 ↔ a.1 = b.1 := by
  intro calls answers
  have hanswers : answers = [(⟨0, 1⟩, NodeKey.pack 3 1 1), (⟨256, 1⟩, NodeKey.pack 3 1 1)] := by
    decide +kernel
  refine ⟨fun i => Nat.lt_of_le_of_lt (ncard_asked_le_length answers i) ?_, hanswers, ?_⟩
  · rw [hanswers]
    decide
  · rw [hanswers]
    decide +kernel

end KeySpace

end AtomicCss
