import AtomicCss.Proofs.Document.NodeKey
import Mathlib.Data.Set.Card

/-!
# The Answers of One Producer

What a producer answers when it is asked for the keys of many things, some of them
more than once.

Two things move when a producer is asked: its memory and its counter. As long as it
is only asked, they stay in step. The memory holds the things that have a key, and
the counter has moved once for each of them. So the answers are explained by a list
of things without repetitions, in the order in which they were first asked for:
the first of them has the first key of the producer, the second the second, and all
that was ever answered about a thing is the key at its place (`Explains`). One call
adds at most one thing at the end of the list, which changes no place in front of it.

What is promised of keys follows from that. A thing has one place, so it has one key.
Different things have different places, and different places have different keys up
to the span of the counter's field. Counting starts at one, so up to there no key is
that of the root, not even with both of the other fields zero. And keys with different
fields differ at any place, be the counter wrapped or not.

## Main definitions

* `KeyManager.answers`: The keys of things that are asked for one after the other.
* `KeyManager.Explains`: The things that got keys, in order.

## Theorems

* `keyAt_ne_root`, `keyAt_ne_keyAt`: Keys stay clear of the root and of other producers.
* `explains_keyOf`: What one call adds.
* `explains_answers`: The answers of a row of calls.
* `answers_of_new`: What is promised of keys.
-/

namespace AtomicCss

namespace KeyManager

variable {ι κ : Type}

/-- The keys of things that are asked for one after the other, each with the thing it
    is for. -/
def answers [Ord ι] (m : KeyManager ι) : List ι → List (ι × NodeKey)
  | [] => []
  | id :: rest => (id, (m.keyOf id).1) :: (m.keyOf id).2.answers rest

/-- Everything that is asked for gets a key. -/
theorem map_fst_answers [Ord ι] (m : KeyManager ι) (ids : List ι) :
    (m.answers ids).map Prod.fst = ids := by
  induction ids generalizing m with
  | nil => rfl
  | cons id rest ih => rw [answers, List.map_cons, ih]

/-- Counting starts at one, so the first keys stay clear of the root. -/
theorem keyAt_ne_root (epoch : UInt16) (shard : UInt8) (i : Nat)
    (h : i + 1 < NodeKey.counterSpan) : keyAt epoch shard i ≠ .root := by
  intro hroot
  have hword := congrArg (fun key => key.word.toNat) hroot
  simp only [keyAt, NodeKey.toNat_word_pack, NodeKey.root, UInt64.toNat_ofNat',
    UInt64.toNat_zero] at hword
  rw [NodeKey.counterSpan_eq] at h
  omega

/-- Producers that differ in a field have no key in common. -/
theorem keyAt_ne_keyAt (epoch epoch' : UInt16) (shard shard' : UInt8) (i j : Nat)
    (h : epoch ≠ epoch' ∨ shard ≠ shard') : keyAt epoch shard i ≠ keyAt epoch' shard' j := by
  intro hkey
  rcases (NodeKey.pack_eq_iff _ _ _ _ _ _).1 hkey with ⟨hepoch, hshard, _⟩
  exact h.elim (fun hne => hne hepoch) (fun hne => hne hshard)

/-- The given things got the first keys of a producer, in this order, and all answers
    come from that. -/
structure Explains (epoch : UInt16) (shard : UInt8) (given : List ι)
    (done : List (ι × NodeKey)) : Prop where
  nodup : given.Nodup
  mem_iff : ∀ id key, (id, key) ∈ done ↔ ∃ i, given[i]? = some id ∧ key = keyAt epoch shard i

namespace Explains

variable {epoch : UInt16} {shard : UInt8} {given : List ι} {done : List (ι × NodeKey)}

/-- There is one key for one thing. -/
theorem key_eq (h : Explains epoch shard given done) (id : ι) (key key' : NodeKey)
    (hkey : (id, key) ∈ done) (hkey' : (id, key') ∈ done) : key = key' := by
  rcases (h.mem_iff id key).1 hkey with ⟨i, hi, rfl⟩
  rcases (h.mem_iff id key').1 hkey' with ⟨j, hj, rfl⟩
  -- A thing stands at one place only.
  have hplace : i = j :=
    (List.getElem?_inj (List.getElem?_eq_some_iff.1 hi).1 h.nodup).1 (hi.trans hj.symm)
  rw [hplace]

/-- There are as many keys as things that were asked for, however often. -/
theorem ncard_eq (h : Explains epoch shard given done) :
    {id | id ∈ done.map Prod.fst}.ncard = given.length := by
  classical
  have hset : {id | id ∈ done.map Prod.fst} = ↑given.toFinset := by
    ext id
    have hasked : id ∈ done.map Prod.fst ↔ ∃ key, (id, key) ∈ done := by
      simp only [List.mem_map, Prod.exists, exists_and_right, exists_eq_right]
    rw [Finset.mem_coe, List.mem_toFinset, List.mem_iff_getElem?]
    refine hasked.trans ⟨?_, ?_⟩
    · rintro ⟨key, hkey⟩
      rcases (h.mem_iff id key).1 hkey with ⟨i, hi, _⟩
      exact ⟨i, hi⟩
    · rintro ⟨i, hi⟩
      exact ⟨_, (h.mem_iff id _).2 ⟨i, hi, rfl⟩⟩
  rw [hset, Set.ncard_coe_finset, List.toFinset_card_of_nodup h.nodup]

/-- As long as the counter's field suffices, no key is given to two things. -/
theorem id_eq (h : Explains epoch shard given done) (hroom : given.length < NodeKey.counterSpan)
    (id other : ι) (key : NodeKey) (hid : (id, key) ∈ done) (hother : (other, key) ∈ done) :
    id = other := by
  rcases (h.mem_iff id key).1 hid with ⟨i, hi, hkey⟩
  rcases (h.mem_iff other key).1 hother with ⟨j, hj, hkey'⟩
  have hplace : i = j := keyAt_inj epoch shard i j
    (Nat.lt_trans (List.getElem?_eq_some_iff.1 hi).1 hroom)
    (Nat.lt_trans (List.getElem?_eq_some_iff.1 hj).1 hroom) (hkey.symm.trans hkey')
  rw [hplace, hj, Option.some.injEq] at hi
  exact hi.symm

/-- Nor is the key of the root. -/
theorem ne_root (h : Explains epoch shard given done) (hroom : given.length < NodeKey.counterSpan)
    (id : ι) (key : NodeKey) (hkey : (id, key) ∈ done) : key ≠ .root := by
  rcases (h.mem_iff id key).1 hkey with ⟨i, hi, rfl⟩
  have hlt := (List.getElem?_eq_some_iff.1 hi).1
  exact keyAt_ne_root epoch shard i (by omega)

end Explains

section Calls

variable [Ord ι] [Std.TransOrd ι] [Std.LawfulEqOrd ι]
variable [Ord κ] [Std.TransOrd κ] [Std.LawfulEqOrd κ]

/-- One call adds a thing at the end, or none if it has a key already. -/
theorem explains_keyOf (m : KeyManager ι) (epoch : UInt16) (shard : UInt8) (given : List ι)
    (done : List (ι × NodeKey)) (id : ι) (h : Explains epoch shard given done)
    (hout : m.HandedOut epoch shard given) :
    ∃ more, Explains epoch shard more (done ++ [(id, (m.keyOf id).1)]) ∧
      (m.keyOf id).2.HandedOut epoch shard more := by
  rcases m.handedOut_keyOf epoch shard given id hout h.nodup with ⟨more, hnodup, hmore, hadded⟩
  refine ⟨more, ⟨hnodup, fun other key => ?_⟩, hmore⟩
  rw [hadded, ← h.mem_iff, List.mem_append, List.mem_singleton, Prod.mk.injEq]

/-- The answers of a row of calls, behind those that were given before. -/
theorem explains_answers (m : KeyManager ι) (epoch : UInt16) (shard : UInt8) (given ids : List ι)
    (done : List (ι × NodeKey)) (h : Explains epoch shard given done)
    (hout : m.HandedOut epoch shard given) :
    ∃ more, Explains epoch shard more (done ++ m.answers ids) := by
  induction ids generalizing m given done with
  | nil =>
      refine ⟨given, ?_⟩
      rw [answers, List.append_nil]
      exact h
  | cons id rest ih =>
      rcases explains_keyOf m epoch shard given done id h hout with ⟨now, hnow, hhanded⟩
      rcases ih _ now _ hnow hhanded with ⟨more, hmore⟩
      refine ⟨more, ?_⟩
      rw [answers, List.append_cons]
      exact hmore

/-- A new producer has nothing to explain. -/
theorem explains_answers_new (epoch : UInt16) (shard : UInt8) (ids : List ι) :
    ∃ given, Explains epoch shard given ((new epoch shard).answers ids) := by
  have hnothing : Explains epoch shard ([] : List ι) [] := by
    refine ⟨List.nodup_nil, fun id key => ?_⟩
    simp only [List.not_mem_nil, List.getElem?_nil, reduceCtorEq, false_and, exists_false]
  exact explains_answers _ epoch shard [] ids [] hnothing (handedOut_new epoch shard)

/-- What is promised of keys. The fields lie side by side in the word, so two keys are
    equal exactly if their epochs and shards are and their counters agree up to the span
    of the field. A producer that is asked for a row of things answers each time, and
    about one thing always the same. As long as the things are fewer than the span, it
    gives no key twice and never that of the root. With a producer that has another
    epoch or shard it shares no key, however many both of them give. -/
theorem answers_of_new (epoch epoch' : UInt16) (shard shard' : UInt8) (ids : List ι)
    (others : List κ) :
    let given := (new epoch shard).answers ids
    (∀ counter counter',
      (NodeKey.pack epoch shard counter).word =
        (epoch.toUInt64 <<< 48) ||| (shard.toUInt64 <<< 40) |||
          (counter &&& ((1 : UInt64) <<< 40 - 1)) ∧
      (NodeKey.pack epoch shard counter = NodeKey.pack epoch' shard' counter' ↔
        epoch = epoch' ∧ shard = shard' ∧
          counter.toNat % 2 ^ 40 = counter'.toNat % 2 ^ 40)) ∧
    given.map Prod.fst = ids ∧
    (∀ a ∈ given, ∀ b ∈ given, a.1 = b.1 → a.2 = b.2) ∧
    ({id | id ∈ ids}.ncard < 2 ^ 40 →
      (∀ a ∈ given, ∀ b ∈ given, a.2 = b.2 → a.1 = b.1) ∧ ∀ a ∈ given, a.2 ≠ .root) ∧
    (epoch ≠ epoch' ∨ shard ≠ shard' →
      ∀ a ∈ given, ∀ b ∈ (new epoch' shard').answers others, a.2 ≠ b.2) := by
  intro given
  have hspan : NodeKey.counterSpan = 2 ^ 40 := by decide
  rcases explains_answers_new epoch shard ids with ⟨first, hfirst⟩
  refine ⟨fun counter counter' => ⟨NodeKey.word_pack epoch shard counter, ?_⟩,
    map_fst_answers _ ids, ?_, fun hfew => ?_, fun hfields => ?_⟩
  · rw [← hspan]
    exact NodeKey.pack_eq_iff epoch epoch' shard shard' counter counter'
  · rintro ⟨id, key⟩ ha ⟨other, key'⟩ hb rfl
    exact hfirst.key_eq id key key' ha hb
  · -- The things that were asked for are those that got a key.
    have hcount := hfirst.ncard_eq
    rw [map_fst_answers] at hcount
    rw [hcount, ← hspan] at hfew
    constructor
    · rintro ⟨id, key⟩ ha ⟨other, key'⟩ hb rfl
      exact hfirst.id_eq hfew id other key ha hb
    · rintro ⟨id, key⟩ ha
      exact hfirst.ne_root hfew id key ha
  · rcases explains_answers_new epoch' shard' others with ⟨second, hsecond⟩
    rintro ⟨id, key⟩ ha ⟨other, key'⟩ hb
    rcases (hfirst.mem_iff id key).1 ha with ⟨i, _, rfl⟩
    rcases (hsecond.mem_iff other key').1 hb with ⟨j, _, rfl⟩
    exact keyAt_ne_keyAt epoch epoch' shard shard' i j hfields

end Calls

/-- A producer with both fields zero is asked for one number twice, and beside it one
    with another shard. -/
theorem answers_of_new_zero_fields :
    let given := (new 0 0).answers [7, -8, 7]
    let others := (new 0 1).answers ["7"]
    given = [(7, ⟨1⟩), (-8, ⟨2⟩), (7, ⟨1⟩)] ∧ {id : Int | id ∈ [7, -8, 7]}.ncard < 2 ^ 40 ∧
      (∀ a ∈ given, ∀ b ∈ given, a.2 = b.2 ↔ a.1 = b.1) ∧ (∀ a ∈ given, a.2 ≠ .root) ∧
      ∀ a ∈ given, ∀ b ∈ others, a.2 ≠ b.2 := by
  intro given others
  have hfew : {id : Int | id ∈ [7, -8, 7]}.ncard < 2 ^ 40 := by
    rw [show {id : Int | id ∈ [7, -8, 7]} = ↑([7, -8, 7] : List Int).toFinset from
      (List.coe_toFinset _).symm, Set.ncard_coe_finset]
    decide
  rcases answers_of_new 0 0 0 1 [(7 : Int), -8, 7] ["7"] with ⟨_, _, hsame, hfresh, hapart⟩
  rcases hfresh hfew with ⟨hother, hroot⟩
  exact ⟨by decide +kernel, hfew, fun a ha b hb => ⟨hother a ha b hb, hsame a ha b hb⟩, hroot,
    hapart (.inr (by decide))⟩

end KeyManager

end AtomicCss
