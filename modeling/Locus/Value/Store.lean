import Locus.Value.Basic

/-!
# Named values

A store keeps values under names. An entity that is named becomes known: it
receives a mark that no other entity of the store has, so that it can be
recognised wherever it turns up again. Entities that have a mark keep it.
-/

namespace Locus

namespace Value

mutual

/-- Give a fresh mark to every entity of the value that has none. The state is
the next mark. -/
def enroll : Value → StateM Nat Value
  | .sequence shape guise items =>
      return .sequence shape guise (← enrollAll items)
  | .dictionary entries => return .dictionary (← enrollEntries entries)
  | .node kind handle parts => return .node kind handle (← enrollAll parts)
  | .entity kind handle none => do
      let mark ← get
      set (mark + 1)
      return .entity kind handle (some mark)
  | other => return other

/-- Give fresh marks to the entities of several values. -/
def enrollAll : List Value → StateM Nat (List Value)
  | [] => return []
  | value :: rest => return (← value.enroll) :: (← enrollAll rest)

/-- Give fresh marks to the entities of a dictionary. -/
def enrollEntries :
    List (String × Value) → StateM Nat (List (String × Value))
  | [] => return []
  | (key, value) :: rest =>
      return (key, ← value.enroll) :: (← enrollEntries rest)

end

end Value

/-- Values under names. -/
structure Store where
  /-- The named values, the latest first. -/
  bindings : List (String × Value)
  /-- The mark of the next entity; all marks in use are smaller. -/
  nextMark : Nat

namespace Store

/-- The store without names. -/
def empty : Store := ⟨[], 0⟩

instance : EmptyCollection Store := ⟨empty⟩

/-- Name a value. A name that is in use is given to the new value. -/
def bind (store : Store) (name : String) (value : Value) : Store :=
  let enrolled := value.enroll.run store.nextMark
  ⟨(name, enrolled.1) :: store.bindings, enrolled.2⟩

/-- The value of a name, if there is one. -/
def get? (store : Store) (name : String) : Option Value :=
  store.bindings.lookup name

@[simp] theorem get?_empty (name : String) : (∅ : Store).get? name = none := rfl

/-- A name has the value that it was last given. -/
@[simp] theorem get?_bind (store : Store) (name : String) (value : Value) :
    (store.bind name value).get? name =
      some (value.enroll.run store.nextMark).1 := by
  simp [bind, get?]

/-- Naming a value leaves the other names alone. -/
theorem get?_bind_of_ne
    (store : Store)
    {name other : String}
    (value : Value)
    (different : other ≠ name) :
    (store.bind name value).get? other = store.get? other := by
  simp [bind, get?, List.lookup_cons, beq_false_of_ne different]

end Store

end Locus
