-- SUMMARY: How busy the machine was, and the JSON form of that.
import FoldedStacks.Json.Record

/-!
# Metrics

How busy the machine was while the profile was taken.
-/

namespace FoldedStacks

/-- Averages over the run; those that were not measured are missing. -/
@[ext] structure Metrics where
  cpuAverage : Option Binary64
  memoryAverage : Option Binary64
  deriving DecidableEq

def Metrics.none : Metrics :=
  ⟨.none, .none⟩

instance : Inhabited Metrics := ⟨Metrics.none⟩

/-- A measured value. JSON has no text for the numbers that are not finite. -/
def Metrics.renderValue : Binary64 → List Char
  | .finite x => x.render
  | _ => Json.render .null

def Metrics.render (m : Metrics) : List Char :=
  Json.renderRecord [
    ("cpu_avg", Json.renderOption Metrics.renderValue m.cpuAverage),
    ("mem_avg", Json.renderOption Metrics.renderValue m.memoryAverage)]

def Metrics.fields : List (Json.Field Metrics) :=
  let value (_ : Nat) := Json.readOption Json.readDouble
  [.of "cpu_avg" .requiredInArray value fun m a => { m with cpuAverage := a },
    .of "mem_avg" .requiredInArray value fun m a => { m with memoryAverage := a }]

def Metrics.reader : Nat → Json.Reader Metrics :=
  Json.readRecord Metrics.fields Metrics.none

end FoldedStacks
