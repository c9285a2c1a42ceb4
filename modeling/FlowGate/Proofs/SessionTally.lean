import FlowGate.Proofs.GateTally
import FlowGate.Proofs.SessionRuns

namespace FlowGate

namespace Logged

variable {α β : Type} {g : Gate} {x : Logged α} {next : α → Logged β} {out : β → Gate}

end Logged

namespace Session

open Gate (Tallies CountsCalls)
open Logged (Yields Gives yields_self yields_pure yields_fail gives_pure_iff)

variable {s : Session} {slot token : String} {t : Ticket}

end Session

end FlowGate
