/-!
# Powers and sums

In every module powers of numbers, and the zero at which a sum begins, are those of the core
library, whatever else the module imports.
-/

attribute [instance (2000)] instPowNat Zero.ofOfNat0

attribute [default_instance 20000] instPowNat
