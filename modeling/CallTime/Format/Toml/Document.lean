import CallTime.OrderedMap
import CallTime.Value.Basic

/-!
A TOML document while it is read: its tables, and what the headers and dotted keys so far forbid.
-/

namespace CallTime.TomlText

abbrev Key := List Text

abbrev Table := OrderedMap Text Value

inductive Mark where
  /-- The table was opened and no header may open it again. -/
  | opened
  /-- An array or a table in braces: nothing at or below it may change. -/
  | closed
  deriving DecidableEq

abbrev Marks := List (Key × Mark)

def Marks.isOpened (marks : Marks) (key : Key) : Bool := marks.contains (key, .opened)

def Marks.isClosed (marks : Marks) (key : Key) : Bool :=
  marks.any fun (k, m) => m = .closed && k.isPrefixOf key

/-- Forgets a key and all below it. -/
def Marks.forget (marks : Marks) (key : Key) : Marks := marks.filter fun e => !key.isPrefixOf e.1

def isContainer : Value → Bool
  | .list _ | .table _ => true
  | _ => false

/-- Changes the table at a key and creates the tables missing on the way. `throughLists` steps into
the last table of a list. -/
def change (throughLists : Bool) (f : Table → Option Table) : Key → Table → Option Table
  | [], t => f t
  | k :: ks, t => match t.get? k with
    | none => do return t.insert k (.table (← change throughLists f ks {}).entries)
    | some (.table inner) => do
      return t.insert k (.table (← change throughLists f ks ⟨inner⟩).entries)
    | some (.list items) => match throughLists, items.getLast? with
      | true, some (.table inner) => do
        let last := Value.table (← change throughLists f ks ⟨inner⟩).entries
        return t.insert k (.list (items.dropLast ++ [last]))
      | _, _ => none
    | some _ => none

def addNew (name : Text) (v : Value) (t : Table) : Option Table :=
  if t.contains name then none else some (t.insert name v)

def addItem (name : Text) (t : Table) : Option Table :=
  match t.get? name with
  | none => some (t.insert name (.list [.table []]))
  | some (.list items) => some (t.insert name (.list (items ++ [.table []])))
  | some _ => none

def place (throughLists : Bool) (key : Key) (v : Value) (t : Table) : Option Table := do
  change throughLists (addNew (← key.getLast?) v) key.dropLast t

structure Document where
  content : Table := {}
  /-- The table that the following pairs belong to. -/
  header : Key := []
  marks : Marks := []
  /-- The tables made by dotted keys since the last header. -/
  pending : List Key := []

namespace Document

/-- The tables of dotted keys count as opened from the next header on. -/
def settle (d : Document) : Document :=
  { d with marks := d.pending.map (·, .opened) ++ d.marks, pending := [] }

def openTable (d : Document) (key : Key) : Option Document := do
  let d := d.settle
  if d.marks.isOpened key || d.marks.isClosed key then none
  let content ← change true some key d.content
  return { d with content, header := key, marks := (key, .opened) :: d.marks }

def openItem (d : Document) (key : Key) : Option Document := do
  let d := d.settle
  if d.marks.isClosed key then none
  let content ← change true (addItem (← key.getLast?)) key.dropLast d.content
  return { d with content, header := key, marks := (key, .opened) :: d.marks.forget key }

def assign (d : Document) (key : Key) (v : Value) : Option Document := do
  let tables := ((List.range key.length).drop 1).map (d.header ++ key.take ·)
  if tables.any d.marks.isOpened || d.marks.isClosed (d.header ++ key.dropLast) then none
  let content ← place true (d.header ++ key) v d.content
  let marks := if isContainer v then (d.header ++ key, .closed) :: d.marks else d.marks
  return { d with content, marks, pending := tables ++ d.pending }

end Document

end CallTime.TomlText
