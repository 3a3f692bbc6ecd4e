-- SUMMARY: One reading of powers, with and without further libraries.
/-!
# Powers

A power of a natural number or an integer is the one of the core library in every module, also
where a library with powers of its own is imported.
-/

namespace FoldedStacks

@[default_instance 20000]
instance (priority := 20000) natPow : Pow Nat Nat := instPowNat

@[default_instance 20000]
instance (priority := 20000) intPow : Pow Int Nat := instPowNat

end FoldedStacks
