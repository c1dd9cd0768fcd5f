import CodeClones.Numeric.Binary64

/-!
# Values of settings

Settings come from several sources, each of which gives a value. Values are laid over one
another: a table is merged with the table below it key by key, anything else replaces what it
is laid over. A path leads to a part of a value, through keys of tables and positions of lists,
and a value can be laid over that part alone.
-/

namespace CodeClones.Settings

/-- A value that a source gives. -/
inductive Value where
  /-- Nothing. -/
  | absent
  /-- A truth value. -/
  | flag (value : Bool)
  /-- A whole number. -/
  | integer (value : Int)
  /-- A floating-point number. -/
  | real (value : Binary64)
  /-- A text. -/
  | text (value : String)
  /-- A list of values. -/
  | list (items : List Value)
  /-- Values by their keys; a key stands once. -/
  | table (fields : List (String × Value))
deriving Inhabited

/-- The fields of a record: values by their names. -/
abbrev Fields := List (String × Value)

/-- Put a value under a key, instead of what stood there. -/
def Fields.put (fields : Fields) (key : String) (value : Value) : Fields :=
  if (fields.lookup key).isSome then
    fields.map fun field => if field.1 = key then (key, value) else field
  else fields ++ [(key, value)]

/-- The fields of a table; anything else has none. -/
def Value.fields : Value → Fields
  | .table fields => fields
  | _ => []

/-- The items of a list; anything else has none. -/
def Value.items : Value → List Value
  | .list items => items
  | _ => []

mutual

/-- Lay a value over another. -/
def Value.over (below : Value) : Value → Value
  | .table fields => .table (overFields below.fields fields)
  | value => value

/-- Lay fields over others, one after the other. -/
def overFields (below : Fields) : List (String × Value) → Fields
  | [] => below
  | (key, value) :: others =>
    overFields (below.put key (Value.over ((below.lookup key).getD .absent) value)) others

end

/-! ## Parts of a value -/

/-- One step of a path into a value. -/
inductive Step where
  /-- To the value under a key. -/
  | key (name : String)
  /-- To the item at a position; a negative position counts from the end. -/
  | position (index : Int)
deriving DecidableEq, Repr

/-- Items that reach up to a position, and how many of them stand in front of it: absent items
are added at the end, or at the front when the position lies before the first item. -/
def stretched (items : List Value) (index : Int) : List Value × Nat :=
  if 0 ≤ index then
    (items ++ List.replicate (index.toNat + 1 - items.length) .absent, index.toNat)
  else if index.natAbs ≤ items.length then (items, items.length - index.natAbs)
  else (List.replicate (index.natAbs - items.length) .absent ++ items, 0)

/-- Lay a value over the part of another that a path leads to. What is not there yet is created
on the way, in place of anything that has no such part. -/
def Value.layAt (value : Value) : List Step → Value → Value
  | [], below => below.over value
  | .key name :: path, below =>
    .table (below.fields.put name
      (value.layAt path ((below.fields.lookup name).getD .absent)))
  | .position index :: path, below =>
    let (items, place) := stretched below.items index
    .list (items.set place (value.layAt path (items.getD place .absent)))

/-! ## Records -/

/-- The values of a record: those of a table, or those of a list in the order of the names. A
list that is longer than the names is refused when the form is exact. -/
def Value.record? (names : List String) (exact : Bool) : Value → Option Fields
  | .table fields => some fields
  | .list items =>
    if exact && names.length < items.length then none else some (names.zip items)
  | _ => none

/-- Read a field of a record, which has a value of its own when it is not there. -/
def Fields.read? {α : Type} (fields : Fields) (name : String) (read : Value → Option α)
    (default : α) : Option α :=
  match fields.lookup name with
  | some value => read value
  | none => some default

end CodeClones.Settings
