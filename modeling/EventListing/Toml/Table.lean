-- How tables come about. A table is named by a header, comes about because a
-- header names a table inside it, or comes about because a dotted key names
-- something inside it. No table is defined twice, and a value is final.
import EventListing.Toml.Value

namespace EventListing.Toml

/-- How a table came about. -/
inductive TableKind where
  /-- By a header of its own. -/
  | named
  /-- By the header of a table inside it. -/
  | implied
  /-- By a dotted key. -/
  | dotted
deriving DecidableEq

/-- A part of a document that is still being read. -/
inductive Node where
  | value (v : Value)
  | table (kind : TableKind) (entries : List (String × Node))
  /-- A list of tables, each with a header of its own. -/
  | tables (items : List (List (String × Node)))

abbrev Entries := List (String × Node)

/-- A change of the entries of a table, or `none` when the document must not
make it. -/
abbrev Change := Entries → Option Entries

/-- The change of one entry. A new one goes to the end. -/
def changeEntry (key : String) (f : Option Node → Option Node) : Change
  | [] => (f none).map fun node => [(key, node)]
  | (k, node) :: rest =>
    if k = key then (f (some node)).map fun node => (k, node) :: rest
    else (changeEntry key f rest).map ((k, node) :: ·)

/-- The change of the last of a list of tables. -/
def changeLast (change : Change) : List Entries → Option (List Entries)
  | [] => none
  | [entries] => (change entries).map ([·])
  | entries :: rest => (changeLast change rest).map (entries :: ·)

/-! ## Headers -/

/-- The change of the table that the keys of a header lead to. A list of
tables stands for its last one. -/
def atPath : List String → Change → Change
  | [], change => change
  | key :: path, change => changeEntry key fun
    | none => (atPath path change []).map (.table .implied)
    | some (.table kind entries) => (atPath path change entries).map (.table kind)
    | some (.tables items) => (changeLast (atPath path change) items).map .tables
    | some (.value _) => none

/-- A header names a table that is not there, or that was only implied. -/
def nameTable (key : String) : Change := changeEntry key fun
  | none => some (.table .named [])
  | some (.table .implied entries) => some (.table .named entries)
  | some _ => none

/-- A header in double brackets adds a table to a list of tables. -/
def addTable (key : String) : Change := changeEntry key fun
  | none => some (.tables [[]])
  | some (.tables items) => some (.tables (items ++ [[]]))
  | some _ => none

/-! ## Pairs -/

/-- A pair puts a value under its key. A dotted key leads through tables
without a header, and ends in one that dotted keys made: `here` says that the
pair may end in this table. -/
def putPair (here : Bool) : List String → Value → Change
  | [], _ => fun _ => none
  | [key], v =>
    if here then changeEntry key fun
      | none => some (.value v)
      | some _ => none
    else fun _ => none
  | key :: path, v => changeEntry key fun
    | none => (putPair true path v []).map (.table .dotted)
    | some (.table .named _) => none
    | some (.table kind entries) =>
      (putPair (kind = .dotted) path v entries).map (.table kind)
    | some (.tables items) => (changeLast (putPair false path v) items).map .tables
    | some (.value _) => none

/-! ## The finished table -/

mutual

def Node.toValue : Node → Value
  | .value v => v
  | .table _ entries => .table (entriesToValues entries)
  | .tables items => .list (itemsToValues items)

/-- The entries of a table with their values. -/
def entriesToValues : List (String × Node) → List (String × Value)
  | [] => []
  | (key, node) :: rest => (key, node.toValue) :: entriesToValues rest

def itemsToValues : List (List (String × Node)) → List Value
  | [] => []
  | entries :: rest => .table (entriesToValues entries) :: itemsToValues rest

end

/-- The table that a list of pairs makes. -/
def tableOfPairs (pairs : List (List String × Value)) : Option Value :=
  (pairs.foldlM (fun entries (path, v) => putPair true path v entries) []).map
    fun entries => .table (entriesToValues entries)

end EventListing.Toml
