import Std.Data.TreeMap

/-!
# Node Keys

The names by which two sides of a connection speak of the nodes of a document.

A key is one 64-bit word. Keys are handed out on both sides and by several
producers, and nobody asks anybody before using one, so the word is divided: an
epoch of 16 bits tells the sessions apart, a shard of 8 bits the producers of a
session, and a counter of 40 bits the keys of a producer. Key zero is the root
of every document; shards and counters both start at one to stay clear of it.

A producer gives one key to one thing. It remembers what it gave, and asking
again gives the same key. What the things are is left to the producer.

Epoch, shard and counter have the width of their field or more and wrap around.
A shard that has wrapped and a counter beyond its field make keys that were
handed out before; both are far off in practice, and the laws say how far.

## Main definitions

* `NodeKey`: A key, `NodeKey.pack` to make one from its fields.
* `KeySpace`: The producers of one session, `KeySpace.register` for a new one.
* `KeyManager`: One producer, `KeyManager.keyOf` for the key of a thing.
-/

namespace AtomicCss

/-- The name of a node. -/
structure NodeKey where
  word : UInt64
  deriving DecidableEq, Repr

namespace NodeKey

/-- Keys are ordered as the numbers they are. -/
instance : Ord NodeKey := ⟨fun a b => compare a.word b.word⟩

instance : Std.TransOrd NodeKey :=
  inferInstanceAs (Std.TransCmp (compareOn NodeKey.word))

instance : Std.LawfulEqOrd NodeKey where
  eq_of_compare {a b} h := by
    cases a
    cases b
    simp only [NodeKey.mk.injEq]
    exact Std.LawfulEqOrd.eq_of_compare h

/-- The key of the root of every document. -/
def root : NodeKey := ⟨0⟩

/-- The number of counter values a key can tell apart. -/
def counterSpan : Nat := Nat.pow 2 40

/-- The key with the given fields. Of the counter only the bits that fit are
    used. -/
def pack (epoch : UInt16) (shard : UInt8) (counter : UInt64) : NodeKey :=
  ⟨UInt64.ofNat
    ((epoch.toNat * UInt8.size + shard.toNat) * counterSpan + counter.toNat % counterSpan)⟩

/-- The key in a log record. -/
def label (key : NodeKey) : String :=
  "NodeKey(" ++ toString key.word.toNat ++ ")"

end NodeKey

/-- One producer of keys for things of type `ι`: its fields, the counter of its
    next key, and the keys it has handed out. -/
structure KeyManager (ι : Type) [Ord ι] where
  epoch : UInt16
  shard : UInt8
  counter : UInt64
  minted : Std.TreeMap ι NodeKey

namespace KeyManager

variable {ι : Type} [Ord ι]

/-- A producer that has handed out nothing yet. -/
def new (epoch : UInt16) (shard : UInt8) : KeyManager ι :=
  { epoch, shard, counter := 1, minted := {} }

/-- The key of a thing, a new one if it has none yet, and the producer after. -/
def keyOf (m : KeyManager ι) (id : ι) : NodeKey × KeyManager ι :=
  match m.minted[id]? with
  | some key => (key, m)
  | none =>
    let key := NodeKey.pack m.epoch m.shard m.counter
    (key, { m with counter := m.counter + 1, minted := m.minted.insert id key })

end KeyManager

/-- The producers of one session: the epoch, and the shard of the next one. -/
structure KeySpace where
  epoch : UInt16
  nextShard : UInt8
  deriving DecidableEq, Repr

namespace KeySpace

/-- A session without producers. Its first producer gets shard one. -/
def ofEpoch (epoch : UInt16) : KeySpace :=
  { epoch, nextShard := 1 }

/-- A new producer, and the session after. -/
def register {ι : Type} [Ord ι] (space : KeySpace) : KeyManager ι × KeySpace :=
  (KeyManager.new space.epoch space.nextShard,
    { space with nextShard := space.nextShard + 1 })

end KeySpace

end AtomicCss
