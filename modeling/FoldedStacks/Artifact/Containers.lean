-- SUMMARY: Sources of container names, and the fixed table of names that the program uses.
import FoldedStacks.Pid
import FoldedStacks.SortedMap

/-!
# Container names

Where a pass asks for the names of the containers that processes run in. The program's own source
is a fixed table, which remembers the names that have been asked for since the last reset.
-/

namespace FoldedStacks

/-- A source of container names. Asking it may change its state, since look-ups may be cached. -/
class ContainerClient (σ : Type) where
  /-- Asks for the name of a process's container, empty when the process is in none. -/
  resolve : σ → Pid → String × σ
  /-- The names that are not empty and have been asked for since the last reset. -/
  resolvedNames : σ → List String
  reset : σ → σ

structure Containers where
  names : SortedMap Pid String
  resolved : SortedMap String Unit
  deriving DecidableEq

/-- Known names, none of which has been asked for. -/
def Containers.ofNames (names : SortedMap Pid String) : Containers :=
  ⟨names, SortedMap.empty⟩

/-- The name of a process's container, empty when it is not known. -/
def Containers.nameOf (c : Containers) (pid : Pid) : String :=
  (c.names.get? pid).getD ""

/-- Asks for the name of a process's container. Names that are not empty are remembered. -/
def Containers.resolve (c : Containers) (pid : Pid) : String × Containers :=
  let name := c.nameOf pid
  (name, if name.isEmpty then c else { c with resolved := c.resolved.insert name () })

/-- The names that have been asked for, in order. -/
def Containers.resolvedNames (c : Containers) : List String :=
  c.resolved.keys

/-- Forgets which names have been asked for. -/
def Containers.reset (c : Containers) : Containers :=
  { c with resolved := SortedMap.empty }

instance : ContainerClient Containers :=
  ⟨Containers.resolve, Containers.resolvedNames, Containers.reset⟩

end FoldedStacks
