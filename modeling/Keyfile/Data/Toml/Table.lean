import Keyfile.Data.Basic

/-! Tables under construction, and which statements may add to them. -/
namespace Keyfile.Toml

/-- What a table holds under a key. -/
inductive Item where
  | value (d : Data)
  /-- A table. It is `implied` as long as only names below it were mentioned, and `dotted` when it was
  the keys of an assignment that mentioned them. -/
  | table (implied dotted : Bool) (entries : List (String × Item))
  /-- Tables in a row, the last one apart. -/
  | tables (earlier : List (List (String × Item))) (last : List (String × Item))

abbrev Entries := List (String × Item)

namespace Entries

def get? (entries : Entries) (key : String) : Option Item := (entries.find? (·.1 == key)).map (·.2)

/-- Puts an item under a key, in the place of an older one. -/
def put (entries : Entries) (key : String) (item : Item) : Entries :=
  if entries.any (·.1 == key) then entries.map fun e => if e.1 == key then (key, item) else e
  else entries ++ [(key, item)]

end Entries

/-- A change to a table that may be refused; it is told whether the table is a dotted one. -/
abbrev Change := Bool → Entries → Option Entries

/-- Changes the table at a path below a table. Missing tables are made on the way. A plain value
cannot be entered, and an assignment does not reach into tables that have a header of their own. -/
def changeAt (assignment : Bool) (change : Change) : List String → Change
  | [], dotted, entries => change dotted entries
  | key :: path, _, entries =>
    match entries.get? key with
    | none =>
      (changeAt assignment change path assignment []).map fun inner =>
        entries.put key (.table true assignment inner)
    | some (.value _) => none
    | some (.table implied dotted inner) =>
      if assignment && !implied then none
      else
        (changeAt assignment change path dotted inner).map fun inner =>
          entries.put key (.table implied dotted inner)
    | some (.tables earlier last) =>
      (changeAt assignment change path false last).map fun last =>
        entries.put key (.tables earlier last)

/-- Adds a value under a dotted key to a table. A key is assigned once, and one table is not filled
both by dotted keys and under a header. -/
def assign (path : List String) (key : String) (d : Data) : Change :=
  changeAt (!path.isEmpty)
    (fun dotted entries =>
      if dotted == path.isEmpty then none
      else
        match Entries.get? entries key with
        | none => some (entries ++ [(key, .value d)])
        | some _ => none)
    path

/-- Opens a table with a header: a new one, or one that is only implied by names below it. -/
def openTable (path : List String) (key : String) : Change :=
  changeAt false
    (fun _ entries =>
      match Entries.get? entries key with
      | none => some (entries ++ [(key, .table false false [])])
      | some (.table true false inner) => some (Entries.put entries key (.table false false inner))
      | some _ => none)
    path

/-- Opens the next of a row of tables. -/
def openNext (path : List String) (key : String) : Change :=
  changeAt false
    (fun _ entries =>
      match Entries.get? entries key with
      | none => some (entries ++ [(key, .tables [] [])])
      | some (.tables earlier last) => some (Entries.put entries key (.tables (earlier ++ [last]) []))
      | some _ => none)
    path

mutual
/-- A finished item as data. -/
def Item.toData : Item → Data
  | .value d => d
  | .table _ _ entries => .record (Item.fieldsOf entries)
  | .tables earlier last => .list (Item.rowsOf earlier ++ [.record (Item.fieldsOf last)])
def Item.fieldsOf : List (String × Item) → List (Option String × Data)
  | [] => []
  | (key, item) :: entries => (some key, item.toData) :: Item.fieldsOf entries
def Item.rowsOf : List (List (String × Item)) → List Data
  | [] => []
  | entries :: rest => .record (Item.fieldsOf entries) :: Item.rowsOf rest
end

end Keyfile.Toml
