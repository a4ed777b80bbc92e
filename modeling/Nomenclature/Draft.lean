import Nomenclature.Fault
import Nomenclature.Value.Key
import Nomenclature.Value.Table

/-!
# Drafts

A draft is a value that is still being edited. Its lists and mappings carry numbers, so that a
container can be told from another one with the same contents: an edit names the container that it
changes, and every draft that shares the container changes with it.
-/

namespace Nomenclature

inductive Draft where
  | atom (value : Value)
  | tuple (items : List Draft)
  | list (number : Nat) (items : List Draft)
  | mapping (number : Nat) (entries : List (Value × Draft))

/-- A change of one container. -/
inductive Edit where
  | put (key : Value) (item : Draft)
  | append (item : Draft)
  | delete (key : Value)

namespace Draft

mutual

/-- The value as a draft, its containers numbered from a number on, and the next number. -/
def ofValue (next : Nat) : Value → Draft × Nat
  | .tuple items =>
    let (items, next) := ofItems next items
    (.tuple items, next)
  | .list items =>
    let (items, rest) := ofItems (next + 1) items
    (.list next items, rest)
  | .mapping false entries =>
    let (entries, rest) := ofEntries (next + 1) entries
    (.mapping next entries, rest)
  | value => (.atom value, next)

def ofItems (next : Nat) : List Value → List Draft × Nat
  | [] => ([], next)
  | item :: rest =>
    let (first, next) := ofValue next item
    let (others, next) := ofItems next rest
    (first :: others, next)

def ofEntries (next : Nat) : List (Value × Value) → List (Value × Draft) × Nat
  | [] => ([], next)
  | (key, value) :: rest =>
    let (first, next) := ofValue next value
    let (others, next) := ofEntries next rest
    ((key, first) :: others, next)

end

mutual

def toValue : Draft → Value
  | .atom value => value
  | .tuple items => .tuple (toItems items)
  | .list _ items => .list (toItems items)
  | .mapping _ entries => .mapping false (toEntries entries)

def toItems : List Draft → List Value
  | [] => []
  | item :: rest => item.toValue :: toItems rest

def toEntries : List (Value × Draft) → List (Value × Value)
  | [] => []
  | (key, item) :: rest => (key, item.toValue) :: toEntries rest

end

/-- The place that an index points to, counted from the end if it is negative. -/
def place? (length : Nat) (key : Value) : Except Fault Nat :=
  let found (n : Int) : Except Fault Nat :=
    let n := if n < 0 then n + length else n
    if 0 ≤ n && n < length then .ok n.toNat else .error .indexOutOfRange
  match key with
  | .integer n => found n
  | .boolean b => found (if b then 1 else 0)
  | _ => .error .notContainer

def item? (items : List Draft) (key : Value) : Except Fault Draft := do
  let n ← place? items.length key
  match items[n]? with
  | some item => return item
  | none => throw .indexOutOfRange

/-- A key that a mapping may have. -/
def checkKey (key : Value) : Except Fault Unit :=
  if key.isKey then .ok () else .error .unusableKey

/-- What stands under a key in a draft, or what stands in the place that the key points to. -/
def child (draft : Draft) (key : Value) : Except Fault Draft :=
  match draft with
  | .tuple items => item? items key
  | .list _ items => item? items key
  | .mapping _ entries => do
    checkKey key
    match Table.lookup? entries key with
    | some item => return item
    | none => throw (.missingKey key)
  | .atom value =>
    match value.parts? with
    | some parts => item? (parts.map atom) key
    | none => .error .notContainer

/-- What stands at the end of a path. -/
def descendant (draft : Draft) : List Value → Except Fault Draft
  | [] => .ok draft
  | key :: rest => do
    let inner ← draft.child key
    inner.descendant rest

/-- A list after an edit. -/
def editItems (items : List Draft) : Edit → Except Fault (List Draft)
  | .append item => .ok (items ++ [item])
  | .put key item => do
    let n ← place? items.length key
    return items.set n item
  | .delete key => do
    let n ← place? items.length key
    return items.eraseIdx n

/-- The entries of a mapping after an edit. -/
def editEntries (entries : Table Draft) : Edit → Except Fault (Table Draft)
  | .append _ => .error .notList
  | .put key item => do
    checkKey key
    return Table.put key item entries
  | .delete key => do
    checkKey key
    if Table.hasKey entries key then return Table.drop entries key
    else throw (.missingKey key)

/-- The largest place that an index can point to. -/
def lastPlace : Nat :=
  Nat.pow 2 63 - 1

/-- Whether an index points beyond every place that there can be, counted from either end. -/
def pointsNowhere : Value → Bool
  | .integer n => lastPlace < n || n < -lastPlace - 1
  | _ => false

def isPlain : Draft → Bool
  | atom value => value.isPlain
  | _ => false

/-- Why nothing can be put or deleted under a key in what is no container. An index that points
nowhere is reported first, unless it is asked of a plain value. -/
def refusal (draft : Draft) (key : Value) : Fault :=
  if pointsNowhere key && !draft.isPlain then .indexOutOfRange else .notContainer

/-- The number of a container that an edit has been applied to, and the container after the edit.
Only lists and mappings can be edited. -/
def edited (draft : Draft) (edit : Edit) : Except Fault (Nat × Draft) :=
  match draft, edit with
  | .list number items, edit => do
    let items ← editItems items edit
    return (number, .list number items)
  | .mapping number entries, edit => do
    let entries ← editEntries entries edit
    return (number, .mapping number entries)
  | _, .append _ => .error .notList
  | draft, .put key _ => .error (draft.refusal key)
  | draft, .delete key => .error (draft.refusal key)

mutual

/-- Puts a changed container in every place where the container with its number stands. -/
def replace (number : Nat) (changed : Draft) : Draft → Draft
  | .atom value => .atom value
  | .tuple items => .tuple (replaceItems number changed items)
  | .list n items => if n = number then changed else .list n (replaceItems number changed items)
  | .mapping n entries =>
    if n = number then changed else .mapping n (replaceEntries number changed entries)

def replaceItems (number : Nat) (changed : Draft) : List Draft → List Draft
  | [] => []
  | item :: rest => replace number changed item :: replaceItems number changed rest

def replaceEntries (number : Nat) (changed : Draft) :
    List (Value × Draft) → List (Value × Draft)
  | [] => []
  | (key, item) :: rest => (key, replace number changed item) :: replaceEntries number changed rest

end

end Draft

end Nomenclature
