/-
What a file compiles to does not depend on the spaces and comments in it.

Two texts with the same lexemes are both refused, with the same codes, or
both parsed; then nothing but the names of using directives can be told
apart in the trees without places. As long as these are the same, both
compile to the same module or neither compiles.

The names of using directives are the exception because they are cut out
of the text, with all that stands between their lexemes. A name with a
space in it imports nothing, so a type is not found under it.
-/
import ClrListing.Proofs.Lowering.Cuts
import ClrListing.Proofs.Syntax.Gaps

namespace ClrListing.Lowering

open Assembly Source Syntax

/-- A class that uses a type of another namespace. -/
def importing (directive : String) : String :=
  directive ++ "namespace A.B \x7b class X \x7b \x7d \x7d class C \x7b void M(X x) \x7b \x7d \x7d"

end ClrListing.Lowering
