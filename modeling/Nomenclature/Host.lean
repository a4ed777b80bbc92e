import Nomenclature.Fault

/-!
# The host of strategy modules

A strategy may name a function of a module that the host program provides. What the host offers is a
parameter of everything that resolves or applies strategies: which modules there are, what happens
when one is loaded, and what its functions compute.
-/

namespace Nomenclature

/-- What loading a module leads to. -/
inductive Loading where
  | missing
  | failing (reason : String)
  | raising (kind : String)
  | loaded (isPackage : Bool) (members : List (String × Value))

structure Host where
  modules : List (String × Loading)
  call : HostFunction → String → Except Fault Value

namespace Host

def loading (host : Host) (name : String) : Loading :=
  (host.modules.lookup name).getD .missing

/-- Loads a module within a package that is loaded already, and then the rest of a dotted name. -/
def loadWithin (host : Host) (target parent : String) (isPackage : Bool)
    (members : List (String × Value)) : List (List Char) → Except Fault (List (String × Value))
  | [] => .ok members
  | part :: rest =>
    let name := parent ++ "." ++ String.ofList part
    let unloadable (reason : String) := Fault.config (.unloadableModule target reason)
    if isPackage then
      match host.loading name with
      | .missing => .error (unloadable ("No module named " ++ Text.quoted name))
      | .failing reason => .error (unloadable reason)
      | .raising kind => .error (.host kind)
      | .loaded isPackage members => host.loadWithin target name isPackage members rest
    else
      .error (unloadable ("No module named " ++ Text.quoted name ++ "; " ++ Text.quoted parent ++
        " is not a package"))

/-- The members of a module, loaded with the packages that its dotted name goes through. The packages
are asked first, so a module that a host has registered by itself under a dotted name is not found
if what stands before the dot is no package. -/
def load (host : Host) (target : String) : Except Fault (List (String × Value)) :=
  let unloadable (reason : String) := Fault.config (.unloadableModule target reason)
  match target.toList.splitOn '.' with
  | [] => .ok []
  | [] :: _ => .error .relativeModule
  | first :: rest =>
    let name := String.ofList first
    match host.loading name with
    | .missing => .error (unloadable ("No module named " ++ Text.quoted name))
    | .failing reason => .error (unloadable reason)
    | .raising kind => .error (.host kind)
    | .loaded isPackage members => host.loadWithin target name isPackage members rest

/-- The function that a module offers under a name. A module lists its members, so one that works a
member out when it is asked for, and may fail at that, is left out. -/
def function (host : Host) (home member : String) : Except Fault Callable := do
  let members ← host.load home
  let reference := home ++ "#" ++ member
  match (members.lookup member).getD .null with
  | .null => .error (.config (.missingMember reference))
  | .callable f => .ok f
  | _ => .error (.config (.memberNotCallable reference))

end Host

end Nomenclature
