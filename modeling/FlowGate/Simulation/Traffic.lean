import FlowGate.Simulation.Options
import FlowGate.Ticket

namespace FlowGate.Simulation

def flow (n : Nat) : Flow :=
  let remote := "10.0." ++ Text.Numeral.text (n / 256) ++ "." ++ Text.Numeral.text (n % 256)
  if n % 2 = 0 then ⟨"udp", "192.168.1.10:5353", remote ++ ":53"⟩
  else ⟨"tcp", "192.168.1.10:0", remote ++ ":443"⟩

def reason (client : Nat) : String :=
  if client % 3 = 0 then "dns" else if client % 3 = 1 then "dial" else "ping"

/-- Clients take turns in their priorities, from -1 to 1. -/
def priority (client : Nat) : Priority :=
  ⟨(client % 3 : Nat) - 1, by omega⟩

def Options.request (o : Options) (client round : Nat) : Request :=
  ⟨flow ((client * 7 + round * 3) % o.flows), reason client, priority client⟩

end FlowGate.Simulation
