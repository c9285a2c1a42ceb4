import FlowGate.Proofs.GateRefill
import FlowGate.Proofs.GracePeriod
import FlowGate.Proofs.QuotedReading
import FlowGate.Proofs.SimulationRuns
import FlowGate.Proofs.SimulationSteps

namespace FlowGate

/-- The flow that a caller will ask for, waits for or holds a ticket for. -/
def Slot.flow : Slot → Flow
  | .prepared _ request => request.flow
  | .waiting _ ticket => ticket.flow
  | .holding ticket => ticket.flow
  | .stranded ticket => ticket.flow

namespace Gate

/-- The flows that are active, and those that are waited for. -/
def flows (g : Gate) : List Flow := g.active.keys ++ g.waiting.dueFlows

theorem Consistent.flows_nodup {g : Gate} (h : g.Consistent) : g.flows.Nodup := by
  refine List.nodup_append.mpr ⟨g.active.keys_nodup, g.waiting.dueFlows_nodup, ?_⟩
  rintro flow hactive _ hwaited rfl
  obtain ⟨party, hparty⟩ := Catalog.contains_iff.mp (Catalog.mem_keys_iff.mp hactive)
  rw [apart_of_mem_dueFlows h.agree h.apart hwaited] at hparty
  cases hparty

end Gate

namespace Session

open Logged (Yields gives_pure_iff yields_pure)

variable {P : Flow → Prop} {s s' : Session} {slot token : String} {content : Slot} {answer : Answer}
  {t : Ticket} {st : Step}

def SeatsOnly (P : Flow → Prop) (s : Session) : Prop :=
  ∀ slot content, s.slots.get? slot = some content → P content.flow

theorem SeatsOnly.putSlot (h : s.SeatsOnly P) (slot : String) (hcontent : P content.flow) :
    (s.putSlot slot content).SeatsOnly P := by
  intro other seated hother
  rcases Catalog.get?_insert_eq_some_iff.mp hother with ⟨-, rfl⟩ | ⟨-, hold⟩
  · exact hcontent
  · exact h other seated hold

theorem SeatsOnly.clearSlot (h : s.SeatsOnly P) (slot : String) : (s.clearSlot slot).SeatsOnly P :=
  fun other seated hother => h other seated (Catalog.get?_erase_eq_some_iff.mp hother).2

/-- A session between two steps, at a gate that its owner keeps, in which everybody came for a flow of some kind. -/
structure Confined (P : Flow → Prop) (s : Session) : Prop where
  sound : s.Sound []
  kept : s.kept = true
  seats : s.SeatsOnly P
  expiries : ∀ e ∈ s.expiries, P e.ticket.flow

theorem confined_new (P : Flow → Prop) (settings : Settings) (clock : Clock) (timer : Bool) :
    (new settings clock timer).Confined P := by
  refine ⟨sound_new settings clock timer, rfl, ?_, ?_⟩
  · intro slot content hslot
    cases hslot
  · intro e he
    cases he

theorem Confined.accounts (h : s.Confined P) : s.Accounts [] :=
  h.sound.accounts (alive_iff.mpr (.inl h.kept))

theorem Confined.of_waits (h : s.Confined P) (ht : s.gate.Waits t) : P t.flow := by
  obtain ⟨slot, token, hslot⟩ := awaited_mem_stakes_iff.mp ((h.accounts.waits_iff t).mp ht).1
  exact h.seats slot _ hslot

theorem Confined.of_inside (h : s.Confined P) (ht : s.gate.Inside t) : P t.flow := by
  obtain ⟨a, ha⟩ := h.accounts.exists_stake ht
  cases a with
  | awaited =>
      obtain ⟨slot, token, hslot⟩ := awaited_mem_stakes_iff.mp ha
      exact h.seats slot _ hslot
  | held =>
      obtain ⟨slot, hslot | hslot⟩ := held_mem_stakes_iff.mp ha <;> exact h.seats slot _ hslot
  | leaving expiresAt =>
      obtain ⟨e, he, rfl, -⟩ := leaving_mem_stakes_iff.mp ha
      exact h.expiries e he

theorem Confined.of_mem_flows (h : s.Confined P) {flow : Flow} (hflow : flow ∈ s.gate.flows) :
    P flow := by
  rcases List.mem_append.mp hflow with hactive | hwaited
  · obtain ⟨t, ht, rfl⟩ := (h.sound.gate.active_iff flow).mp (Catalog.mem_keys_iff.mp hactive)
    exact h.of_inside ht
  · obtain ⟨t, ht, rfl⟩ := h.sound.gate.agree.mem_dueFlows_iff.mp hwaited
    exact h.of_waits ht

theorem Confined.step (h : s.Confined P)
    (hstep : (s.step st).Yields fun r _ => r.2.kept = true ∧ r.2.SeatsOnly P) :
    (s.step st).Yields fun r _ => r.2.Confined P := by
  intro r events hok
  obtain ⟨hkept, hseats⟩ := hstep r events hok
  refine ⟨((step_gives h.sound st).of_eq_ok hok).sound, hkept, hseats, fun e he => ?_⟩
  rcases (step_ticks s st r events hok).starts e he with hold | ⟨slot, -, hslot, -⟩
  · exact h.expiries e hold
  · exact h.seats slot _ hslot

theorem Asked.seatsOnly {request : Request} (h : s.SeatsOnly P) (hflow : P request.flow)
    (hasked : s.Asked slot token (s.nextTicket request) answer s') :
    s'.kept = s.kept ∧ s'.SeatsOnly P := by
  cases hasked with
  | entered hroom => exact ⟨rfl, SeatsOnly.putSlot h slot hflow⟩
  | refused hinactive hfull hcancelled => exact ⟨rfl, SeatsOnly.clearSlot h slot⟩
  | pending hinactive hfull hcancelled waiting hwaits => exact ⟨rfl, SeatsOnly.putSlot h slot hflow⟩

theorem AskedAgain.seatsOnly (h : s.SeatsOnly P) (hflow : P t.flow)
    (hasked : s.AskedAgain slot token t answer s') : s'.kept = s.kept ∧ s'.SeatsOnly P := by
  cases hasked with
  | entered hcalling => exact ⟨rfl, SeatsOnly.putSlot h slot hflow⟩
  | pending hwaiting hcancelled => exact ⟨rfl, h⟩
  | refused hwaiting hcancelled waiting hwaits => exact ⟨rfl, SeatsOnly.clearSlot h slot⟩

theorem Polled.seatsOnly (h : s.SeatsOnly P) (hpolled : s.Polled slot answer s') :
    s'.kept = s.kept ∧ s'.SeatsOnly P := by
  cases hpolled with
  | first hslot hasked => exact hasked.seatsOnly h (h slot _ hslot)
  | again hslot hasked => exact hasked.seatsOnly h (h slot _ hslot)

theorem Leaves.seatsOnly {r : Reply × Session} (h : s.SeatsOnly P) (hleaves : s.Leaves slot r) :
    r.2.SeatsOnly P := by
  cases hleaves with
  | gone hslot hslots =>
      intro other content hother
      rw [hslots] at hother
      exact h.clearSlot slot other content hother
  | strands hslot hbreaks =>
      have hflow := h slot _ hslot
      exact h.putSlot slot hflow
  | nobody hslot => exact h

end Session

namespace Simulation

open Session (Confined SeatsOnly)
open Logged (Gives Yields gives_pure_iff yields_pure)
open Text (decimal_append_inj)

variable {o : Options} {P : Flow → Prop} {s : Session} {m n : Nat}

theorem keeps_confined (hasks : ∀ client round, P (o.request client round).flow) :
    o.Keeps (Confined P) := by
  refine ⟨fun s st h htakes => h.step ?_, fun s nanos h => ?_⟩
  · cases htakes with
    | wait slot token client round =>
        refine (Session.withEmptySlot_gives (fun _ => ⟨h.kept, h.seats⟩) fun hslot hkept => ?_).yields
        apply (Session.ask_gives h.sound.gate h.accounts).bind
        rintro ⟨answer, s'⟩ first ⟨-, -, hasked⟩
        obtain ⟨hsame, hseats⟩ := hasked.seatsOnly h.seats (hasks client round)
        exact gives_pure_iff.mpr ⟨hsame.trans h.kept, hseats⟩
    | poll slot =>
        refine ((Session.poll?_gives h.sound slot).bind ?_).yields
        rintro (_ | ⟨answer, s'⟩) first ⟨-, -, hsome⟩
        · exact gives_pure_iff.mpr ⟨h.kept, h.seats⟩
        · obtain ⟨hsame, hseats⟩ := (hsome answer s' rfl).2.seatsOnly h.seats
          exact gives_pure_iff.mpr ⟨hsame.trans h.kept, hseats⟩
    | done slot =>
        refine (Session.withTicket_gives (fun _ => ⟨h.kept, h.seats⟩) fun t hslot => ?_).yields
        refine (Session.release_gives h.sound hslot).mono ?_
        rintro r events ⟨-, -, -, hleaves, hsame⟩
        exact ⟨hsame.trans h.kept, hleaves.seatsOnly h.seats⟩
    | cancel token => exact yields_pure ⟨h.kept, h.seats⟩
    | expire =>
        refine ((Session.advance_gives h.sound 0).bind ?_).yields
        rintro s' first ⟨-, -, -, hslots, hsame, -⟩
        refine gives_pure_iff.mpr ⟨hsame.trans h.kept, fun other content hother => ?_⟩
        rw [hslots] at hother
        exact h.seats other content hother
  · exact ⟨⟨h.sound.gate, h.sound.accounts⟩, h.kept, h.seats, h.expiries⟩

theorem remote_inj {port port' : String} (hport : ∀ c ∈ port.toList.head?, c.isDigit = false)
    (hport' : ∀ c ∈ port'.toList.head?, c.isDigit = false)
    (h : "10.0." ++ Text.Numeral.text (m / 256) ++ "." ++ Text.Numeral.text (m % 256) ++ port =
      "10.0." ++ Text.Numeral.text (n / 256) ++ "." ++ Text.Numeral.text (n % 256) ++ port') :
    m = n := by
  have hchars := congrArg String.toList h
  simp only [String.toList_append, Text.Numeral.text, String.toList_ofList, List.append_assoc] at hchars
  have hquotient := List.append_cancel_left hchars
  obtain ⟨hdiv, hrest⟩ := decimal_append_inj (by simp) (by simp) hquotient
  obtain ⟨hmod, -⟩ := decimal_append_inj hport hport' (List.append_cancel_left hrest)
  rw [← Nat.div_add_mod m 256, hdiv, hmod, Nat.div_add_mod]

theorem flow_injective (h : flow m = flow n) : m = n := by
  have hremote := congrArg Flow.remoteAddr h
  unfold flow at hremote
  split at hremote <;> split at hremote <;> exact remote_inj (by simp) (by simp) hremote

/-- The flows that clients can ask for. -/
def Options.pool (o : Options) : List Flow := (List.range o.flows).map flow

theorem pool_nodup (o : Options) : o.pool.Nodup :=
  List.nodup_range.map fun _ _ heq => flow_injective heq

theorem length_pool (o : Options) : o.pool.length = o.flows := by
  rw [Options.pool, List.length_map, List.length_range]

theorem request_mem_pool (ho : 0 < o.flows) (client round : Nat) :
    (o.request client round).flow ∈ o.pool :=
  List.mem_map_of_mem (List.mem_range.mpr (Nat.mod_lt _ ho))

theorem request_flow_eq_iff {client round client' round' : Nat} :
    (o.request client round).flow = (o.request client' round').flow ↔
      (client * 7 + round * 3) % o.flows = (client' * 7 + round' * 3) % o.flows :=
  ⟨flow_injective, congrArg flow⟩

/-- Only flows of the pool are ever active or waited for. -/
theorem run_flows (ho : 0 < o.flows) (settings : Settings) (clock : Clock) (schedule : Schedule)
    (cancelAt : Option Int) (millis : Nat) :
    (run o settings clock schedule cancelAt millis).Gives fun st _ =>
      st.session.gate.flows.Nodup ∧ st.session.gate.flows ⊆ o.pool := by
  obtain ⟨st, events, hok, horderly⟩ := run_orderly o settings clock schedule cancelAt millis
  have hconfined : st.session.Confined (· ∈ o.pool) :=
    run_yields (keeps_confined (request_mem_pool ho)) (Session.confined_new _ settings clock true)
      schedule cancelAt millis st events hok
  exact ⟨st, events, hok, horderly.sound.gate.flows_nodup, fun flow => hconfined.of_mem_flows⟩

/--
Flows with different numbers differ, however large the numbers. The clients of a simulation ask for no other
flows than those of a pool, which are as many as the options say; two of them ask for the same flow exactly if
their numbers leave the same remainder; and whenever a run is looked at, the flows that are active and those
that are waited for are at most so many together.
-/
theorem clients_share_numbered_flows :
    (∀ m n, flow m = flow n → m = n) ∧
      ∀ o : Options, 0 < o.flows →
        (o.pool.Nodup ∧ o.pool.length = o.flows ∧
          ∀ client round, (o.request client round).flow ∈ o.pool) ∧
        (∀ client round client' round',
          (o.request client round).flow = (o.request client' round').flow ↔
            (client * 7 + round * 3) % o.flows = (client' * 7 + round' * 3) % o.flows) ∧
        ∀ settings clock schedule cancelAt millis,
          (run o settings clock schedule cancelAt millis).Gives fun st _ =>
            st.session.gate.flows ⊆ o.pool ∧ st.session.gate.flows.length ≤ o.flows := by
  refine ⟨fun _ _ => flow_injective, fun o ho => ⟨⟨pool_nodup o, length_pool o, request_mem_pool ho⟩,
    fun _ _ _ _ => request_flow_eq_iff, ?_⟩⟩
  intro settings clock schedule cancelAt millis
  refine (run_flows ho settings clock schedule cancelAt millis).mono ?_
  rintro st events ⟨hnodup, hsub⟩
  have hle := (List.subperm_of_subset hnodup hsub).length_le
  exact ⟨hsub, length_pool o ▸ hle⟩

theorem default_clients_share_eight_flows :
    0 < Options.default.flows ∧
      (Options.default.request 1 3).flow = (Options.default.request 0 0).flow ∧
      (Options.default.request 1 0).flow ≠ (Options.default.request 0 0).flow ∧
      (run Options.default Settings.default (.starting 0) .inOrder none 300).Gives fun st _ =>
        st.session.gate.flows.length ≤ 8 := by
  obtain ⟨-, hsame, hruns⟩ := clients_share_numbered_flows.2 Options.default (by decide)
  refine ⟨by decide, (hsame 1 3 0 0).mpr rfl, fun heq => ?_, ?_⟩
  · exact absurd ((hsame 1 0 0 0).mp heq) (by decide)
  · exact (hruns Settings.default (.starting 0) .inOrder none 300).mono fun st events h => h.2

end Simulation

end FlowGate
