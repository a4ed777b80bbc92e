import Nomenclature.Value.Equality

/-!
# Tables

A table lists entries under keys that are values. Keys count as the same when the values do, so a
table finds an entry under any form of its key. Entries keep the order in which they were first set.
-/

namespace Nomenclature

abbrev Table (α : Type) := List (Value × α)

namespace Table

variable {α : Type}

def lookup? (table : Table α) (key : Value) : Option α :=
  (table.find? fun entry => entry.1.sameAs key).map (·.2)

def hasKey (table : Table α) (key : Value) : Bool :=
  table.any fun entry => entry.1.sameAs key

/-- Sets the entry under a key; a key that is there already keeps its place and its form. -/
def put (key : Value) (item : α) : Table α → Table α
  | [] => [(key, item)]
  | (k, old) :: rest => if k.sameAs key then (k, item) :: rest else (k, old) :: put key item rest

/-- The table of some entries, with the last item of each key. -/
def ofEntries (entries : List (Value × α)) : Table α :=
  entries.foldl (fun known entry => put entry.1 entry.2 known) []

def drop (table : Table α) (key : Value) : Table α :=
  table.filter fun entry => !entry.1.sameAs key

end Table

namespace Entries

/-- The value under a name, another one where the name is missing. -/
def getD (entries : Entries) (name : String) (otherwise : Value) : Value :=
  (Table.lookup? entries (.text name)).getD otherwise

/-- The value under a name, null where the name is missing. -/
def named (entries : Entries) (name : String) : Value :=
  getD entries name .null

/-- The first value that is set under one of two names, else another one. -/
def either (entries : Entries) (name other : String) (otherwise : Value) : Value :=
  (named entries name).orElse ((named entries other).orElse otherwise)

end Entries

namespace Value

/-- The set of some values, the first of equal ones. -/
def setOf (items : List Value) : Value :=
  .set false (items.foldl
    (fun known item => if known.any (·.sameAs item) then known else known ++ [item]) [])

def mappingOf (entries : List (Value × Value)) : Value :=
  .mapping false (Table.ofEntries entries)

end Value

end Nomenclature
