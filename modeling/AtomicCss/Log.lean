/-!
# Log Records

What the library has to say about its own work, as data beside the result.

Dropped tokens, emitted rules and the traffic with a host document are worth a
record, but none of them may change an answer. `Logged` keeps the two apart: a
computation has a `value` and the `log` it wrote on the way, and chaining two
computations appends their logs. A caller that wants the answer reads `value`
and can forget that a log exists, which is what `value_bind` says.

## Main definitions

* `Level`: How loud a record is.
* `Entry`: One record.
* `Logged`: A value together with the records written while it was computed.
* `note`: Writing one record.

## Theorems

* `value_bind`, `log_bind`: Chaining passes the value on and appends the logs.
* `bind_congr_value`: It depends on the second computation at that value only.
-/

namespace AtomicCss

/-- How loud a record is, from the chattiest. -/
inductive Level
  | trace
  | debug
  | warn
  deriving DecidableEq, Repr

/-- One record: its level, the part of the library that speaks, and the text. -/
structure Entry where
  level : Level
  target : String
  message : String
  deriving DecidableEq, Repr

/-- A value together with the records written while it was computed, oldest
    first. -/
@[ext]
structure Logged (α : Type u) where
  value : α
  log : List Entry

namespace Logged

instance : Monad Logged where
  pure a := ⟨a, []⟩
  bind x f :=
    -- The second computation is run once and gives both parts.
    let y := f x.value
    ⟨y.value, x.log ++ y.log⟩

@[simp]
theorem value_pure (a : α) : (pure a : Logged α).value = a := rfl

@[simp]
theorem log_pure (a : α) : (pure a : Logged α).log = [] := rfl

@[simp]
theorem value_bind (x : Logged α) (f : α → Logged β) : (x >>= f).value = (f x.value).value := rfl

@[simp]
theorem log_bind (x : Logged α) (f : α → Logged β) :
    (x >>= f).log = x.log ++ (f x.value).log := rfl

@[simp]
theorem value_map (f : α → β) (x : Logged α) : (f <$> x).value = f x.value := rfl

@[simp]
theorem log_map (f : α → β) (x : Logged α) : (f <$> x).log = x.log :=
  List.append_nil x.log

/-- The second computation starts from one value only. -/
theorem bind_congr_value (x : Logged α) (f g : α → Logged β) (h : f x.value = g x.value) :
    x >>= f = x >>= g :=
  Logged.ext (by rw [value_bind, value_bind, h]) (by rw [log_bind, log_bind, h])

/-- Chaining is associative and `pure` does nothing, because appending lists
    does so. -/
instance : LawfulMonad Logged := LawfulMonad.mk' Logged
  (fun _ => Logged.ext rfl (List.append_nil _))
  (fun _ _ => rfl)
  (fun _ _ _ => Logged.ext rfl (List.append_assoc _ _ _))

end Logged

/-- Writing one record. -/
def note (level : Level) (target message : String) : Logged Unit :=
  ⟨(), [⟨level, target, message⟩]⟩

@[simp]
theorem value_note (level : Level) (target message : String) :
    (note level target message).value = () := rfl

@[simp]
theorem log_note (level : Level) (target message : String) :
    (note level target message).log = [⟨level, target, message⟩] := rfl

end AtomicCss
