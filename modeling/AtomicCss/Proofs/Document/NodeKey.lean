import AtomicCss.Document.NodeKey

/-!
# Keys That Were Handed Out

Which keys a producer of keys gives away, and which of them are equal.

The fields of a key lie in the word one beside the other, so a key is known by its
epoch, its shard and what the counter leaves when it is cut to its field
(`NodeKey.pack_eq_iff`). A producer never changes its epoch and its shard, and its
counter moves by one with each new thing. So the keys of a producer are a fixed
sequence, whatever the things are: the thing that comes first gets the first key,
the next one that is not among the things before gets the second
(`KeyManager.HandedOut`). The sequence comes round after as many keys as the
counter's field can tell apart, and before that no two of its keys are equal.

## Main definitions

* `KeyManager.keyAt`: The keys of a producer, in order.
* `KeyManager.HandedOut`: The producer has given keys to these things, in order.

## Theorems

* `NodeKey.word_pack`: The fields, shifted to their places in the word.
* `NodeKey.pack_eq_iff`: When two keys are equal.
* `KeyManager.keyAt_inj`: The first keys of a producer differ.
* `KeyManager.keyOf_of_not_mem`: A new thing gets the next key.
* `KeyManager.keyOf_of_getElem?`: A thing that has a key gets it again.
* `KeyManager.handedOut_keyOf`: What asking adds.
-/

namespace AtomicCss

/-- What stands in a list with one more at its end. -/
theorem getElem?_concat_eq_some_iff {α : Type} (l : List α) (last a : α) (i : Nat) :
    (l ++ [last])[i]? = some a ↔ l[i]? = some a ∨ (i = l.length ∧ a = last) := by
  rcases Nat.lt_trichotomy i l.length with hlt | heq | hgt
  · rw [List.getElem?_append_left hlt]
    exact ⟨Or.inl, fun h => h.elim id (fun hend => absurd hend.1 (Nat.ne_of_lt hlt))⟩
  · rw [heq, List.getElem?_concat_length, List.getElem?_eq_none (Nat.le_refl _), Option.some.injEq]
    simp only [reduceCtorEq, true_and, false_or, eq_comm]
  · have hlength : (l ++ [last]).length ≤ i := by
      rw [List.length_append, List.length_singleton]
      omega
    rw [List.getElem?_eq_none hlength, List.getElem?_eq_none (Nat.le_of_lt hgt)]
    simp only [reduceCtorEq, false_or, false_iff, not_and]
    exact fun heq => absurd heq (Nat.ne_of_gt hgt)

namespace NodeKey

theorem counterSpan_eq : counterSpan = 1099511627776 := by decide

theorem toNat_word_pack (epoch : UInt16) (shard : UInt8) (counter : UInt64) :
    (pack epoch shard counter).word.toNat =
      (epoch.toNat * 256 + shard.toNat) * 1099511627776 + counter.toNat % 1099511627776 := by
  have hepoch := epoch.toNat_lt
  have hshard := shard.toNat_lt
  have hcounter := Nat.mod_lt counter.toNat (show 0 < 1099511627776 by decide)
  rw [pack, counterSpan_eq, UInt64.toNat_ofNat', show UInt8.size = 256 from rfl]
  -- The widths of the fields add up to that of the word, so nothing is cut off.
  exact Nat.mod_eq_of_lt (by omega)

/-- The fields of a key are shifted to their places in the word, and the counter is cut
    to its field by a mask. No two of them have a bit in common. -/
theorem word_pack (epoch : UInt16) (shard : UInt8) (counter : UInt64) :
    (pack epoch shard counter).word =
      (epoch.toUInt64 <<< 48) ||| (shard.toUInt64 <<< 40) |||
        (counter &&& ((1 : UInt64) <<< 40 - 1)) := by
  have hepoch := epoch.toNat_lt
  have hshard := shard.toNat_lt
  have hcounter := Nat.mod_lt counter.toNat (show 0 < 2 ^ 40 by decide)
  have hmask : ((1 : UInt64) <<< 40 - 1).toNat = 2 ^ 40 - 1 := by decide
  -- Nothing is shifted out of the word.
  have hhigh : (epoch.toUInt64 <<< 48).toNat = epoch.toNat <<< 48 := by
    rw [UInt64.toNat_shiftLeft, UInt16.toNat_toUInt64, Nat.shiftLeft_eq, Nat.shiftLeft_eq]
    exact Nat.mod_eq_of_lt (by simp only [UInt64.reduceToNat, Nat.reduceMod]; omega)
  have hmiddle : (shard.toUInt64 <<< 40).toNat = shard.toNat <<< 40 := by
    rw [UInt64.toNat_shiftLeft, UInt8.toNat_toUInt64, Nat.shiftLeft_eq, Nat.shiftLeft_eq]
    exact Nat.mod_eq_of_lt (by simp only [UInt64.reduceToNat, Nat.reduceMod]; omega)
  have hlow : shard.toNat <<< 40 + counter.toNat % 2 ^ 40 < 2 ^ 48 := by
    rw [Nat.shiftLeft_eq]
    omega
  rw [← UInt64.toNat_inj, UInt64.toNat_or, UInt64.toNat_or, UInt64.toNat_and, hhigh, hmiddle, hmask,
    Nat.and_two_pow_sub_one_eq_mod, Nat.or_assoc]
  -- Where no bit is shared, joining the bits is adding the numbers.
  rw [← Nat.shiftLeft_add_eq_or_of_lt hcounter, ← Nat.shiftLeft_add_eq_or_of_lt hlow,
    toNat_word_pack, Nat.shiftLeft_eq, Nat.shiftLeft_eq]
  omega

/-- Two keys are equal if their epochs and their shards are, and their counters up
    to the span of the field. -/
theorem pack_eq_iff (epoch epoch' : UInt16) (shard shard' : UInt8) (counter counter' : UInt64) :
    pack epoch shard counter = pack epoch' shard' counter' ↔
      epoch = epoch' ∧ shard = shard' ∧
      counter.toNat % counterSpan = counter'.toNat % counterSpan := by
  constructor
  · intro h
    -- Each field is smaller than the unit of the next one, so the sum tells them apart.
    have hword := congrArg (fun key => key.word.toNat) h
    simp only [toNat_word_pack] at hword
    have hshard := shard.toNat_lt
    have hshard' := shard'.toNat_lt
    rw [counterSpan_eq, ← UInt16.toNat_inj, ← UInt8.toNat_inj]
    omega
  · rintro ⟨rfl, rfl, h⟩
    rw [pack, pack, h]

end NodeKey

namespace KeyManager

variable {ι : Type} [Ord ι]

/-- The keys of a producer, in the order in which it hands them out. -/
def keyAt (epoch : UInt16) (shard : UInt8) (i : Nat) : NodeKey :=
  NodeKey.pack epoch shard (UInt64.ofNat (i + 1))

/-- No two keys are equal before the counter's field comes round. -/
theorem keyAt_inj (epoch : UInt16) (shard : UInt8) (i j : Nat) (hi : i < NodeKey.counterSpan)
    (hj : j < NodeKey.counterSpan) (h : keyAt epoch shard i = keyAt epoch shard j) : i = j := by
  have hcounter := ((NodeKey.pack_eq_iff _ _ _ _ _ _).1 h).2.2
  rw [UInt64.toNat_ofNat', UInt64.toNat_ofNat', NodeKey.counterSpan_eq] at hcounter
  rw [NodeKey.counterSpan_eq] at hi hj
  omega

/-- The producer has given the first keys to the given things, in this order, and
    none to any other thing. -/
structure HandedOut (m : KeyManager ι) (epoch : UInt16) (shard : UInt8) (ids : List ι) : Prop where
  epoch_eq : m.epoch = epoch
  shard_eq : m.shard = shard
  counter_eq : m.counter = UInt64.ofNat (ids.length + 1)
  minted_iff : ∀ id key, m.minted[id]? = some key ↔
    ∃ i, ids[i]? = some id ∧ key = keyAt epoch shard i

/-- A thing that has a key gets it again, and the producer stays as it is. -/
theorem keyOf_of_getElem? (m : KeyManager ι) (id : ι) (key : NodeKey)
    (h : m.minted[id]? = some key) : m.keyOf id = (key, m) := by
  unfold keyOf
  rw [h]

variable [Std.TransOrd ι]

theorem handedOut_new (epoch : UInt16) (shard : UInt8) :
    (new epoch shard : KeyManager ι).HandedOut epoch shard [] := by
  refine ⟨rfl, rfl, rfl, fun id key => ?_⟩
  rw [show (new epoch shard : KeyManager ι).minted[id]? = none from Std.TreeMap.getElem?_emptyc]
  simp only [List.getElem?_nil, reduceCtorEq, false_and, exists_false]

/-- A new thing gets the next key. -/
theorem keyOf_of_not_mem [Std.LawfulEqOrd ι] (m : KeyManager ι) (epoch : UInt16) (shard : UInt8)
    (ids : List ι) (id : ι) (h : m.HandedOut epoch shard ids) (hid : id ∉ ids) :
    (m.keyOf id).1 = keyAt epoch shard ids.length ∧
      (m.keyOf id).2.HandedOut epoch shard (ids ++ [id]) := by
  have hnone : m.minted[id]? = none := by
    rw [Option.eq_none_iff_forall_ne_some]
    intro key hkey
    rcases (h.minted_iff id key).1 hkey with ⟨i, hi, _⟩
    exact hid (List.mem_of_getElem? hi)
  have hkey : NodeKey.pack m.epoch m.shard m.counter = keyAt epoch shard ids.length := by
    rw [h.epoch_eq, h.shard_eq, h.counter_eq, keyAt]
  have hmade : m.keyOf id = (keyAt epoch shard ids.length,
      { m with
        counter := m.counter + 1
        minted := m.minted.insert id (keyAt epoch shard ids.length) }) := by
    unfold keyOf
    rw [hnone]
    dsimp only
    rw [hkey]
  rw [hmade]
  refine ⟨rfl, h.epoch_eq, h.shard_eq, ?_, fun other key => ?_⟩
  · rw [List.length_append, List.length_singleton, UInt64.ofNat_add, ← h.counter_eq]
    rfl
  · rw [Std.TreeMap.getElem?_insert]
    simp only [getElem?_concat_eq_some_iff]
    by_cases hsame : compare id other = .eq
    · -- The new thing stands at the end and nowhere else.
      rw [if_pos hsame, ← Std.LawfulEqOrd.eq_of_compare hsame, Option.some.injEq]
      constructor
      · exact fun hlast => ⟨ids.length, Or.inr ⟨rfl, rfl⟩, hlast.symm⟩
      · rintro ⟨i, hi | ⟨rfl, _⟩, hkeyi⟩
        · exact absurd (List.mem_of_getElem? hi) hid
        · exact hkeyi.symm
    · have hne : other ≠ id := fun heq => hsame (by rw [heq]; exact Std.ReflCmp.compare_self)
      rw [if_neg hsame, h.minted_iff other key]
      simp only [hne, and_false, or_false]

/-- Asking adds one thing with its key to those that have one, be it new among them
    or not. -/
theorem handedOut_keyOf [Std.LawfulEqOrd ι] (m : KeyManager ι) (epoch : UInt16) (shard : UInt8)
    (ids : List ι) (id : ι) (h : m.HandedOut epoch shard ids) (hnodup : ids.Nodup) :
    ∃ more, more.Nodup ∧ (m.keyOf id).2.HandedOut epoch shard more ∧
      ∀ other key, (∃ i, more[i]? = some other ∧ key = keyAt epoch shard i) ↔
        (∃ i, ids[i]? = some other ∧ key = keyAt epoch shard i) ∨
        (other = id ∧ key = (m.keyOf id).1) := by
  by_cases hid : id ∈ ids
  · rcases List.getElem?_of_mem hid with ⟨i, hi⟩
    have hkey : m.minted[id]? = some (keyAt epoch shard i) := (h.minted_iff id _).2 ⟨i, hi, rfl⟩
    rw [m.keyOf_of_getElem? id _ hkey]
    refine ⟨ids, hnodup, h, fun other key => ?_⟩
    rw [iff_self_or]
    rintro ⟨rfl, rfl⟩
    exact ⟨i, hi, rfl⟩
  · rcases keyOf_of_not_mem m epoch shard ids id h hid with ⟨hkey, hout⟩
    refine ⟨ids ++ [id], ?_, hout, fun other key => ?_⟩
    · rw [List.nodup_append]
      refine ⟨hnodup, List.pairwise_singleton _ id, fun a ha b hb heq => hid ?_⟩
      rwa [← List.mem_singleton.1 hb, ← heq]
    · simp only [getElem?_concat_eq_some_iff, or_and_right, exists_or]
      refine or_congr_right ?_
      -- Only the last place is new, and its key is the one that was handed out.
      rw [hkey]
      constructor
      · rintro ⟨i, ⟨rfl, rfl⟩, rfl⟩
        exact ⟨rfl, rfl⟩
      · rintro ⟨rfl, rfl⟩
        exact ⟨ids.length, ⟨rfl, rfl⟩, rfl⟩

end KeyManager

end AtomicCss
