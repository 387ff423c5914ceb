/-! # Tables of a settings file

A settings file holds nested tables. Values are put into a table by a path of keys; tables on the
way are made as they are needed. A value is never overwritten.

* **`Toml`** — the values of a settings file.
* **`Toml.Table.put?`** — a table with one more value.
* **`Toml.Table.openTable?`**, **`Toml.Table.pushTable?`** — a table in which a table is made. -/

namespace DocGrammar

/-- A value of a settings file. -/
inductive Toml where
  /-- A text. -/
  | string (text : String)
  /-- A whole number. -/
  | integer (value : Int)
  /-- Any other number, as it is written. -/
  | float (digits : String)
  /-- A truth value. -/
  | boolean (value : Bool)
  /-- A list of values. -/
  | array (items : List Toml)
  /-- Values by their keys, in the order in which they were put. -/
  | table (entries : List (String × Toml))
  deriving Repr

namespace Toml

/-- The entries of a table. -/
abbrev Table : Type := List (String × Toml)

/-- A path of keys. -/
abbrev Path : Type := List String

namespace Table

/-- The table with the value of a key replaced. -/
def replace (key : String) (value : Toml) (entries : Table) : Table :=
  entries.map fun (name, old) => if name = key then (name, value) else (name, old)

/-- The table with a change applied to the table at a path. Tables on the way are made if they are
missing. With `intoArrays`, the last table of an array stands for the array. -/
def update? (intoArrays : Bool) (change : Table → Option Table) :
    Path → Table → Option Table
  | [], entries => change entries
  | key :: path, entries =>
    match entries.lookup key with
    | none =>
      (update? intoArrays change path []).map fun inner => entries ++ [(key, .table inner)]
    | some (.table inner) =>
      (update? intoArrays change path inner).map fun changed =>
        replace key (.table changed) entries
    | some (.array items) =>
      match intoArrays, items.getLast? with
      | true, some (.table inner) =>
        (update? intoArrays change path inner).map fun changed =>
          replace key (.array (items.dropLast ++ [.table changed])) entries
      | _, _ => none
    | some _ => none

/-- The table with a value under a new key. -/
def add? (key : String) (value : Toml) (entries : Table) : Option Table :=
  if (entries.lookup key).isSome then none else some (entries ++ [(key, value)])

/-- The table with a value under a new key of the table at a path. -/
def put? (intoArrays : Bool) (path : Path) (key : String) (value : Toml) (entries : Table) :
    Option Table :=
  update? intoArrays (add? key value) path entries

/-- The table with a table at a path. -/
def openTable? (path : Path) (entries : Table) : Option Table :=
  update? true some path entries

/-- The table with one more table in the array under a key of the table at a path. -/
def pushTable? (path : Path) (key : String) (entries : Table) : Option Table :=
  update? true
    (fun inner =>
      match inner.lookup key with
      | none => some (inner ++ [(key, .array [.table []])])
      | some (.array items) => some (replace key (.array (items ++ [.table []])) inner)
      | some _ => none)
    path entries

/-- The value at a key. -/
def value? (entries : Table) (key : String) : Option Toml := entries.lookup key

end Table

end Toml

end DocGrammar
