import CodeClones.Settings.Toml.Scalar

/-!
# TOML: values, tables and documents

A document is read in two steps. Its lines become statements: a header opens a table, and a pair
puts a value into the table that was opened last. Carrying out the statements gives the value of
the document, unless a table or a key is defined twice.
-/

namespace CodeClones.Settings.Toml

open CodeClones.Text (Reader)

/-! ## Tables under construction -/

/-- How a table has come to be. -/
inductive Origin where
  /-- It has a header of its own. -/
  | header
  /-- It is named in front of a dot in the key of a pair. -/
  | dotted
  /-- It is named in front of a dot in the header of another table. -/
  | implied
deriving DecidableEq, Repr

/-- What stands under a key. -/
inductive Item where
  /-- A value, to which nothing can be added. -/
  | value (value : Value)
  /-- A table that is being filled. -/
  | table (origin : Origin) (fields : List (String × Item))
  /-- Tables under one key, the last of which is being filled. -/
  | tables (elements : List (List (String × Item)))

/-- What stands under the keys of a table. -/
abbrev Items := List (String × Item)

/-- Put an item under a key, instead of what stood there. -/
def Items.put (items : Items) (key : String) (item : Item) : Items :=
  if (items.lookup key).isSome then
    items.map fun entry => if entry.1 = key then (key, item) else entry
  else items ++ [(key, item)]

/-- Put a value at a path of keys, if the table may be given one. No key is given a value twice.
A table with a header of its own is not extended from outside; one that is only implied by
other headers, and the last of several tables under one key, hold no value of a dotted key
themselves but lead to tables that do. -/
def Items.assign? (items : Items) (fits : Bool) (value : Value) : List String → Option Items
  | [] => none
  | [key] =>
    if !fits || (items.lookup key).isSome then none else some (items.put key (.value value))
  | key :: path =>
    match items.lookup key with
    | none =>
      (Items.assign? [] true value path).map fun inner => items.put key (.table .dotted inner)
    | some (.table origin fields) =>
      if origin = .header then none
      else (Items.assign? fields (origin = .dotted) value path).map fun inner =>
        items.put key (.table origin inner)
    | some (.tables elements) =>
      (Items.assign? (elements.getLast?.getD []) false value path).map fun inner =>
        items.put key (.tables (elements.dropLast ++ [inner]))
    | some (.value _) => none

/-- Open the table of a header, given how to open what its last key names. Tables on the way
are created as needed; of several tables under one key, the last is meant. -/
def Items.openWith? (items : Items) (last : Option Item → Option Item) :
    List String → Option Items
  | [] => none
  | [key] => (last (items.lookup key)).map (items.put key)
  | key :: path =>
    match items.lookup key with
    | none =>
      (Items.openWith? [] last path).map fun inner => items.put key (.table .implied inner)
    | some (.table origin fields) =>
      (Items.openWith? fields last path).map fun inner => items.put key (.table origin inner)
    | some (.tables elements) =>
      (Items.openWith? (elements.getLast?.getD []) last path).map fun inner =>
        items.put key (.tables (elements.dropLast ++ [inner]))
    | some (.value _) => none

/-- Open a table that has no header yet. -/
def openTable : Option Item → Option Item
  | none => some (.table .header [])
  | some (.table .implied fields) => some (.table .header fields)
  | some _ => none

/-- Add a table to those under one key. -/
def openElement : Option Item → Option Item
  | none => some (.tables [[]])
  | some (.tables elements) => some (.tables (elements ++ [[]]))
  | some _ => none

/-- Put a value into the table that a path of keys has opened. -/
def Items.assignWithin? (items : Items) (value : Value) (key : List String) :
    List String → Option Items
  | [] => items.assign? true value key
  | name :: path =>
    match items.lookup name with
    | some (.table origin fields) =>
      (Items.assignWithin? fields value key path).map fun inner =>
        items.put name (.table origin inner)
    | some (.tables elements) =>
      (Items.assignWithin? (elements.getLast?.getD []) value key path).map fun inner =>
        items.put name (.tables (elements.dropLast ++ [inner]))
    | _ => none

mutual

/-- The value of an item. -/
def Item.toValue : Item → Value
  | .value value => value
  | .table _ fields => .table (toFields fields)
  | .tables elements => .list (toTables elements)

/-- The values of items. -/
def toFields : List (String × Item) → Fields
  | [] => []
  | (key, item) :: others => (key, item.toValue) :: toFields others

/-- The values of tables. -/
def toTables : List (List (String × Item)) → List Value
  | [] => []
  | fields :: others => .table (toFields fields) :: toTables others

end

/-! ## Values -/

/-- The table that pairs of keys and values make up. -/
def tableOf? (pairs : List (List String × Value)) : Option Value := do
  let items ← pairs.foldlM (fun (items : Items) pair => items.assign? true pair.2 pair.1) []
  some (.table (toFields items))

mutual

/-- A value, within which lists and tables may be nested as deep as said; the fuel bounds the
number of steps. -/
def value (fuel depth : Nat) : Reader Value := fun characters =>
  match fuel with
  | 0 => none
  | fuel + 1 =>
    match characters, depth with
    | '"' :: _, _ | '\'' :: _, _ =>
      (text characters).map fun found => (.text found.1, found.2)
    | '[' :: _, 0 | '{' :: _, 0 => none
    | '[' :: rest, depth + 1 =>
      (items fuel depth rest).map fun found => (.list found.1, found.2)
    | '{' :: rest, depth + 1 => do
      let (pairs, rest) ← pairs fuel depth rest
      (tableOf? pairs).map fun value => (value, rest)
    | _, _ => scalar characters

/-- The items of a list up to its closing bracket; a comma may stand behind the last. -/
def items (fuel depth : Nat) : Reader (List Value) := fun characters =>
  match fuel with
  | 0 => none
  | fuel + 1 => do
    match ← skipLines? characters with
    | ']' :: rest => some ([], rest)
    | characters =>
      let (first, rest) ← value fuel depth characters
      match ← skipLines? rest with
      | ']' :: rest => some ([first], rest)
      | ',' :: rest =>
        let (others, rest) ← items fuel depth rest
        some (first :: others, rest)
      | _ => none

/-- The pairs of a table up to its closing brace; a comma may stand behind the last. -/
def pairs (fuel depth : Nat) : Reader (List (List String × Value)) := fun characters =>
  match fuel with
  | 0 => none
  | fuel + 1 => do
    match ← skipLines? characters with
    | '}' :: rest => some ([], rest)
    | characters =>
      let (first, rest) ← pair fuel depth skipLines? characters
      match ← skipLines? rest with
      | '}' :: rest => some ([first], rest)
      | ',' :: rest =>
        let (others, rest) ← pairs fuel depth rest
        some (first :: others, rest)
      | _ => none

/-- A key and its value, given what may stand around the equals sign. -/
def pair (fuel depth : Nat) (skip? : List Char → Option (List Char)) :
    Reader (List String × Value) := fun characters =>
  match fuel with
  | 0 => none
  | fuel + 1 => do
    let (path, rest) ← keyPath characters
    match ← skip? rest with
    | '=' :: rest =>
      let (found, rest) ← value fuel depth (← skip? rest)
      some ((path, found), rest)
    | _ => none

end

/-! ## Documents -/

/-- One statement of a document. -/
inductive Statement where
  /-- Open a table. -/
  | table (path : List String)
  /-- Open one more table under a key. -/
  | element (path : List String)
  /-- Put a value into the open table. -/
  | pair (path : List String) (value : Value)

/-- The statement at the front. -/
def statement (fuel : Nat) : Reader Statement
  | '[' :: '[' :: rest => do
    let (path, rest) ← keyPath (rest.dropWhile isBlank)
    match rest with
    | ']' :: ']' :: rest => some (.element path, rest)
    | _ => none
  | '[' :: rest => do
    let (path, rest) ← keyPath (rest.dropWhile isBlank)
    match rest with
    | ']' :: rest => some (.table path, rest)
    | _ => none
  | characters => do
    let (found, rest) ← pair fuel nestingLimit (some <| ·.dropWhile isBlank) characters
    some (.pair found.1 found.2, rest)

/-- The statements of a text, one on a line; as many as there is fuel. -/
def statements? : (fuel : Nat) → List Char → Option (List Statement)
  | 0, _ => none
  | fuel + 1, characters => do
    match ← skipLines? characters with
    | [] => some []
    | characters =>
      let (first, rest) ← statement (fuel + 1) characters
      let others ← statements? fuel (← endLine? rest)
      some (first :: others)

/-- A document in the middle of its statements. -/
structure Progress where
  /-- What stands under the keys of the document. -/
  items : Items
  /-- The path of the table that is open. -/
  opened : List String

/-- Carry out a statement. -/
def Progress.step? (progress : Progress) : Statement → Option Progress
  | .table path => (progress.items.openWith? openTable path).map fun items => ⟨items, path⟩
  | .element path => (progress.items.openWith? openElement path).map fun items => ⟨items, path⟩
  | .pair path value =>
    (progress.items.assignWithin? value path progress.opened).map fun items =>
      ⟨items, progress.opened⟩

/-- The characters without the byte order mark in front. -/
def withoutMark (characters : List Char) : List Char :=
  if characters.head? = some (Char.ofNat 0xFEFF) then characters.tail else characters

/-- The fields of the document that a text writes, in front of which a byte order mark may
stand. Every statement and every level of nesting takes at least one character, so the length
of the text is fuel enough. -/
def parse? (source : String) : Option Fields := do
  let characters := withoutMark source.toList
  let statements ← statements? (characters.length + 2) characters
  let progress ← statements.foldlM (fun (progress : Progress) => progress.step?) ⟨[], []⟩
  some (toFields progress.items)

end CodeClones.Settings.Toml
