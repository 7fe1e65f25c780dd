/-!
# Powers of natural numbers

A power of natural numbers is the one the language comes with, also where an import brings a second instance along.
A literal exponent has its type written out where the definitions and proofs do without Mathlib: which instance stands
for a bare one is up to the imports.
-/

namespace LayeredConfig

attribute [scoped instance (1100)] instPowNat

end LayeredConfig
