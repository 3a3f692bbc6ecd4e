-- SUMMARY: The samples of a process with what is known about its application, the profiles of all processes, and their JSON form.
import FoldedStacks.Json.Record
import FoldedStacks.Pid
import FoldedStacks.Stack.Counts

/-!
# Profiles

The samples of one process together with what is known about the application that runs in it, and
the profiles of all processes.
-/

namespace FoldedStacks

@[ext] structure Profile where
  counts : StackCounts
  appid : Option String
  appMetadata : Option Document

/-- Samples of a process about which nothing more is known. -/
def Profile.ofCounts (s : StackCounts) : Profile :=
  ⟨s, none, none⟩

instance : Inhabited Profile := ⟨Profile.ofCounts SortedMap.empty⟩

/-- The profiles of all processes. -/
abbrev Profiles := SortedMap Pid Profile

/-- Samples of processes about which nothing more is known. -/
def Profiles.ofCounts (m : SortedMap Pid StackCounts) : Profiles :=
  m.filterMap fun e => some (.ofCounts e.2)

def StackCounts.render (s : StackCounts) : List Char :=
  Json.renderRecord (s.entries.map fun e => (e.1, Text.numeral e.2.val))

def StackCounts.reader (levels : Nat) : Json.Reader StackCounts :=
  Json.readMap levels Json.readKey fun _ => do
    return .ofNat (← Json.readNatural Count.limit)

def Profile.render (p : Profile) : List Char :=
  Json.renderRecord <|
    ("stacks", p.counts.render) ::
      (p.appid.map fun a => ("appid", Json.renderString a)).toList ++
      (p.appMetadata.map fun d => ("app_metadata", d.render)).toList

def Profile.fields : List (Json.Field Profile) :=
  [.of "stacks" .required StackCounts.reader fun p s => { p with counts := s },
    .of "appid" .optional (fun _ => Json.readOption Json.readStringValue)
      fun p a => { p with appid := a },
    .of "app_metadata" .optional (fun levels => Json.readOption (Json.readDocument levels))
      fun p d => { p with appMetadata := d }]

def Profile.reader : Nat → Json.Reader Profile :=
  Json.readRecord Profile.fields default

/-- The processes are written in the order of their numbers. -/
def Profiles.render (ps : Profiles) : List Char :=
  Json.renderRecord
    (ps.entries.map fun e => (Pid.numeral e.1, e.2.render))

def Profiles.reader (levels : Nat) : Json.Reader Profiles :=
  Json.readMap levels
    (do return UInt32.ofNat (← Json.readNaturalKey (2 ^ 32 - 1))) Profile.reader

end FoldedStacks
