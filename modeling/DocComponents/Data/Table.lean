import DocComponents.Data.Basic

/-!
# Tables

A table maps keys to data, and tables inside tables make a tree whose values stand at key paths.
Tables are laid over each other: where both have a table the two are merged, and everywhere else the
upper one wins.
-/

set_option autoImplicit false

namespace DocComponents

abbrev Table := List (Text × Data)

namespace Table

/-- The table with the value of a key set. A new key comes last. -/
def set (key : Text) (value : Data) : Table → Table
  | [] => [(key, value)]
  | (other, old) :: rest =>
    if other = key then (other, value) :: rest else (other, old) :: set key value rest

/-- The value at a key path. The whole table stands at the empty path. -/
def at? (table : Table) : (path : List Text) → Option Data
  | [] => some (.table table)
  | key :: path =>
    match table.lookup key with
    | none => none
    | some (.table inner) => at? inner path
    | some value => if path.isEmpty then some value else none

mutual

def overlayValue (lower? : Option Data) : Data → Data
  | .table upper =>
    match lower? with
    | some (.table lower) => .table (overlay lower upper)
    | _ => .table upper
  | value => value

def overlay (lower : Table) : Table → Table
  | [] => lower
  | entry :: rest => overlay (overlayEntry lower entry) rest

def overlayEntry (lower : Table) : Text × Data → Table
  | (key, value) => set key (overlayValue (lower.lookup key) value) lower

end

def merge (layers : List Table) : Table :=
  layers.foldl overlay []

end Table

end DocComponents
