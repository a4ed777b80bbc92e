import Nomenclature.Draft
import Nomenclature.Namer
import Nomenclature.SyntaxLibrary

/-!
# Workspaces

A workspace holds raw configurations that are edited and resolved time and again, under names of the
caller's choice, with what was made of them: configurations, policies and namers. Resolution copies
what it reads, with two exceptions: the definition of an external fragment and the module it is
imported from are shared with the raw configuration. A configuration is therefore held together with
these two, and an edit reaches them too.
-/

namespace Nomenclature

/-- The parts of an external fragment that are shared with the raw configuration. -/
structure SharedParts where
  definition : Draft
  importFrom : Draft

namespace SharedParts

def draftNamed (entries : List (Value × Draft)) (name : String) : Draft :=
  (Table.lookup? entries (.text name)).getD (.atom .null)

def isNull (draft : Draft) : Bool :=
  draft.toValue.isNull

/-- The shared parts of a fragment as it stands in a raw configuration. -/
def ofDraft (draft : Draft) (fragment : ExternalFragment) : SharedParts :=
  match draft with
  | .mapping _ entries =>
    let importFrom := draftNamed entries "importFrom"
    ⟨draftNamed entries "node",
      if isNull importFrom then draftNamed entries "import_from" else importFrom⟩
  | _ => ⟨.atom fragment.definition, .atom fragment.importFrom⟩

def replace (number : Nat) (changed : Draft) (parts : SharedParts) : SharedParts :=
  ⟨.replace number changed parts.definition, .replace number changed parts.importFrom⟩

/-- A fragment with its shared parts as they are now. -/
def update (parts : SharedParts) (fragment : ExternalFragment) : ExternalFragment :=
  { fragment with
    definition := parts.definition.toValue
    importFrom := parts.importFrom.toValue }

end SharedParts

/-- A configuration with what it shares. -/
structure HeldConfiguration where
  resolved : Configuration
  shared : List SharedParts

namespace HeldConfiguration

/-- The configuration as it is now. -/
def current (held : HeldConfiguration) : Configuration :=
  { held.resolved with
    externalFragments :=
      List.zipWith SharedParts.update held.shared held.resolved.externalFragments }

def replace (number : Nat) (changed : Draft) (held : HeldConfiguration) : HeldConfiguration :=
  { held with shared := held.shared.map (SharedParts.replace number changed) }

/-- The items that a layer lists as external fragments, if it sets them. -/
def fragmentDrafts? : Draft → Option (List Draft)
  | .mapping _ entries =>
    match SharedParts.draftNamed entries "externalFragments" with
    | .tuple items => some items
    | .list _ items => some items
    | _ => none
  | _ => none

/-- Holds a configuration that was resolved from two drafts. -/
def ofDrafts (raw overrides : Draft) (c : Configuration) : HeldConfiguration :=
  let drafts := ((fragmentDrafts? overrides).orElse fun _ => fragmentDrafts? raw).getD []
  ⟨c, List.zipWith SharedParts.ofDraft drafts c.externalFragments⟩

end HeldConfiguration

/-- What a workspace holds under a name. -/
inductive Holding where
  | raw (draft : Draft)
  | configuration (held : HeldConfiguration)
  | policy (policy : ScalarPolicy)
  | namer (held : HeldConfiguration) (namer : Namer)

namespace Holding

def replace (number : Nat) (changed : Draft) : Holding → Holding
  | raw draft => raw (.replace number changed draft)
  | configuration held => configuration (held.replace number changed)
  | policy r => policy r
  | namer held v => namer (held.replace number changed) v

/-- The name of the kind of a holding, as a message shows it. -/
def kindName : Holding → String
  | raw draft => draft.toValue.kindName
  | configuration _ => "ResolvedConfiguration"
  | policy _ => "ScalarRegistry"
  | namer _ _ => "NamingVisitor"

/-- The holding of no name at all. -/
def absent : Holding :=
  raw (.atom .null)

/-- The draft behind a holding. Only a raw configuration can be looked into and edited. Any other
holding is like an empty set that is frozen: nothing is found in it, and nothing can be changed. -/
def draft : Holding → Draft
  | raw draft => draft
  | _ => .atom (.set true [])

/-- A holding as a layer of configuration, which only a raw one can be. -/
def layer (holding : Holding) : Except Fault Entries :=
  match holding with
  | raw draft => Layers.entries (Layers.orEmpty draft.toValue)
  | _ => .error (.config (.layerNotMapping holding.kindName))

/-- A setting of a configuration. A namer answers for its scalars in the same way, and a policy for
its table and for being strict. -/
def setting (holding : Holding) (name : String) : Except Fault Value :=
  match holding, name with
  | configuration held, name => held.current.setting name
  | namer _ v, "scalars" => .ok (.mapping true v.scalars)
  | policy r, "table" => .ok (.mapping true r.table)
  | policy r, "strict" => .ok (.boolean r.strict)
  | _, _ => .error .unknownSetting

def asConfiguration : Holding → Except Fault HeldConfiguration
  | configuration held => .ok held
  | _ => .error .unsuitableHolding

def asPolicy : Holding → Except Fault ScalarPolicy
  | policy r => .ok r
  | _ => .error .unsuitableHolding

/-- A policy to share, if there is a holding at all. -/
def asShared : Holding → Except Fault (Option ScalarPolicy)
  | raw (.atom .null) => .ok none
  | holding => some <$> holding.asPolicy

/-- A namer, its configuration as it is now. -/
def asNamer : Holding → Except Fault Namer
  | namer held v => .ok { v with configuration := held.current }
  | _ => .error .unsuitableHolding

end Holding

structure Workspace where
  next : Nat
  holdings : List (String × Holding)

/-- How two configurations compare: by value, by fingerprint, and as members of one set. -/
structure Comparison where
  equal : Bool
  sameFingerprint : Bool
  distinct : Nat

namespace Workspace

def empty : Workspace :=
  ⟨0, []⟩

def find (w : Workspace) (name : String) : Except Fault Holding :=
  match w.holdings.lookup name with
  | some holding => .ok holding
  | none => .error (.missingKey (.text name))

def hold (w : Workspace) (name : String) (holding : Holding) : Workspace :=
  { w with holdings := (name, holding) :: w.holdings.filter fun entry => entry.1 != name }

/-- Holds a raw configuration. -/
def store (w : Workspace) (name : String) (value : Value) : Workspace :=
  let (draft, next) := Draft.ofValue w.next value
  { w with next := next }.hold name (.raw draft)

/-- The holding under a name that may not be given. -/
def findGiven (w : Workspace) : Option String → Except Fault Holding
  | none => .ok .absent
  | some name => w.find name

def configuration (w : Workspace) (name : String) : Except Fault HeldConfiguration := do
  (← w.find name).asConfiguration

def setting (w : Workspace) (name field : String) : Except Fault Value := do
  (← w.find name).setting field

def policy (w : Workspace) (name : String) : Except Fault ScalarPolicy := do
  (← w.find name).asPolicy

def namer (w : Workspace) (name : String) : Except Fault Namer := do
  (← w.find name).asNamer

/-- A change of one container, its new contents given as a value. -/
inductive Change where
  | put (key value : Value)
  | append (value : Value)
  | delete (key : Value)

def Change.toEdit (next : Nat) : Change → Edit × Nat
  | put key value =>
    let (item, next) := Draft.ofValue next value
    (.put key item, next)
  | append value =>
    let (item, next) := Draft.ofValue next value
    (.append item, next)
  | delete key => (.delete key, next)

/-- What stands at the end of a path into a raw configuration. -/
def target (w : Workspace) (name : String) (path : List Value) : Except Fault Draft := do
  (← w.find name).draft.descendant path

/-- Changes the container at the end of a path, wherever it is shared, and yields the whole raw
configuration. -/
def change (w : Workspace) (name : String) (path : List Value) (c : Change) :
    Except Fault (Workspace × Value) := do
  let root := (← w.find name).draft
  let target ← w.target name path
  let (edit, next) := c.toEdit w.next
  let (number, changed) ← target.edited edit
  let holdings := w.holdings.map fun entry => (entry.1, entry.2.replace number changed)
  return (⟨next, holdings⟩, (Draft.replace number changed root).toValue)

/-- Resolves raw configurations and holds the result. -/
def resolve (host : Host) (w : Workspace) (name : String) (raw overrides : Option String) :
    Except Fault (Workspace × String) := do
  let raw ← w.findGiven raw
  let overrides ← w.findGiven overrides
  let _ ← overrides.layer
  let _ ← raw.layer
  let c ← (Configuration.resolve host raw.draft.toValue overrides.draft.toValue).outcome
  let held := HeldConfiguration.ofDrafts raw.draft overrides.draft c
  return (w.hold name (.configuration held), held.current.fingerprint)

/-- Compares two configurations; both names are looked up before what they stand for matters. -/
def compare (w : Workspace) (a b : String) : Except Fault Comparison := do
  let first ← w.find a
  let second ← w.find b
  let c := (← first.asConfiguration).current
  let d := (← second.asConfiguration).current
  let equal := c.sameAs d
  let sameFingerprint := c.fingerprint == d.fingerprint
  return ⟨equal, sameFingerprint, if a == b || (equal && sameFingerprint) then 1 else 2⟩

def makePolicy (w : Workspace) (name source : String) : Except Fault (Workspace × Entries) := do
  let held ← w.configuration source
  let r := ScalarPolicy.ofConfiguration held.current
  return (w.hold name (.policy r), r.table)

/-- Makes a namer that shares a policy, or has its own where none is given. Both names are looked up
before what they stand for matters, and the policy matters last. -/
def makeNamer (host : Host) (w : Workspace) (name source : String) (shared : Option String) :
    Except Fault (Workspace × Entries) := do
  let shared ← w.findGiven shared
  let source ← w.find source
  let held ← source.asConfiguration
  let own ← Namer.ofConfiguration host held.current
  let v := own.sharing (← shared.asShared)
  return (w.hold name (.namer held v), v.scalars)

end Workspace

end Nomenclature
