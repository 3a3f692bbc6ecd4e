-- SUMMARY: The settings of a configuration file.
import FoldedStacks.Settings.Options

/-!
# Configuration

The settings that may be given in a configuration file.
-/

namespace FoldedStacks

structure Config where
  enrichment : Options
  /-- The seed of the draws that round scaled counts. -/
  scaleSeed : Option UInt64
  deriving DecidableEq

/-- What holds where nothing is set. -/
def Config.standard : Config :=
  ⟨.all, none⟩

instance : Inhabited Config := ⟨Config.standard⟩

def Config.render (c : Config) : List Char :=
  Json.renderRecord [
    ("enrichment", c.enrichment.render),
    ("scale_seed", Json.renderOption (fun n : UInt64 => Text.numeral n.toNat) c.scaleSeed)]

def Config.fields : List (Json.Field Config) :=
  [.of "enrichment" .optional Options.reader fun c o => { c with enrichment := o },
    .of "scale_seed" .optional
      (fun _ => Json.readOption (UInt64.ofNat <$> Json.readNatural (2 ^ 64 - 1)))
      fun c n => { c with scaleSeed := n }]

def Config.reader : Nat → Json.Reader Config :=
  Json.readRecord Config.fields Config.standard

end FoldedStacks
