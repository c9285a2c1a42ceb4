import FlowGate.Proofs.DemotedTicket
import FlowGate.Proofs.Ownership

namespace FlowGate

namespace Slot

variable {c : Slot} {q : Priority}

def request : Slot → Request
  | .prepared _ request => request
  | .waiting _ ticket => ticket.toRequest
  | .holding ticket => ticket.toRequest
  | .stranded ticket => ticket.toRequest

def withPriority (q : Priority) : Slot → Slot
  | .prepared token request => .prepared token { request with priority := q }
  | .waiting token ticket => .waiting token { ticket with priority := q }
  | .holding ticket => .holding { ticket with priority := q }
  | .stranded ticket => .stranded { ticket with priority := q }

theorem isOpen_withPriority : (c.withPriority q).isOpen = c.isOpen := by
  cases c <;> rfl

theorem withPriority_self : c.withPriority c.request.priority = c := by
  cases c <;> rfl

theorem held?_of_isOpen (h : c.isOpen = true) : c.held? = none := by
  cases c with
  | holding ticket => cases h
  | _ => rfl

end Slot

namespace Session

variable {n : Option Nat} {q : Priority} {slot name token : String} {c content : Slot}
  {s s' a b : Session} {g g' : Gate} {t u : Ticket} {request : Request} {answer answer' : Answer}
  {events events' : List Event}

/--
The caller of a slot asks with the priority `q` in one of two sessions, and with no lower one in the other.
It waits with a ticket of number `n`, or is yet to ask.
-/
structure Demotes (n : Option Nat) (q : Priority) (slot : String) (c : Slot) (s s' : Session) :
    Prop where
  isOpen : c.isOpen = true
  here : s.slots.get? slot = some c
  there : s'.slots.get? slot = some (c.withPriority q)
  others : ∀ name, name ≠ slot → s'.slots.get? name = s.slots.get? name
  number : ∀ id, n = some id → ∃ token t, c = .waiting token t ∧ t.id = id
  gate : s.gate.Demotes n q s'.gate
  rest : s' = { s with gate := s'.gate, slots := s'.slots }

theorem Demotes.alive (h : s.Demotes n q slot c s') : s.alive = true := alive_of_open h.here h.isOpen

theorem Demotes.alive' (h : s.Demotes n q slot c s') : s'.alive = true :=
  alive_of_open h.there (Slot.isOpen_withPriority.trans h.isOpen)

theorem Demotes.exists_eq (h : s.Demotes n q slot c s') :
    ∃ g' slots', s' = { s with gate := g', slots := slots' } := ⟨_, _, h.rest⟩

theorem Demotes.contains_eq (h : s.Demotes n q slot c s') (name : String) :
    s'.slots.contains name = s.slots.contains name := by
  rcases Classical.em (name = slot) with rfl | hname
  · rw [Catalog.contains_iff.mpr ⟨_, h.here⟩, Catalog.contains_iff.mpr ⟨_, h.there⟩]
  · rw [Catalog.contains, Catalog.contains, h.others name hname]

theorem Demotes.held?_self (h : s.Demotes n q slot c s') : s.held? slot = none := by
  rw [held?, h.here, Option.bind_some, Slot.held?_of_isOpen h.isOpen]

theorem Demotes.held?_eq (h : s.Demotes n q slot c s') (name : String) :
    s'.held? name = s.held? name := by
  rcases Classical.em (name = slot) with rfl | hname
  · rw [h.held?_self, held?, h.there, Option.bind_some,
      Slot.held?_of_isOpen (Slot.isOpen_withPriority.trans h.isOpen)]
  · rw [held?, held?, h.others name hname]

theorem Demotes.isCancelled_eq (h : s.Demotes n q slot c s') (token : String) :
    s'.isCancelled token = s.isCancelled token := by
  rw [h.rest]
  rfl

theorem Demotes.nextTicket_eq (h : s.Demotes n q slot c s') (request : Request) :
    s'.nextTicket request = s.nextTicket request := by
  rw [h.rest]
  rfl

theorem Demotes.change (h : s.Demotes n q slot c s') (hslots : a.slots = s.slots)
    (hslots' : b.slots = s'.slots) (hgate : a.gate.Demotes n q b.gate)
    (hrest : b = { a with gate := b.gate, slots := b.slots }) : a.Demotes n q slot c b := by
  refine ⟨h.isOpen, ?_, ?_, ?_, h.number, hgate, hrest⟩
  · rw [hslots, h.here]
  · rw [hslots', h.there]
  · rw [hslots, hslots']
    exact h.others

theorem Demotes.withGate (h : s.Demotes n q slot c s') (hgate : g.Demotes n q g') :
    Demotes n q slot c { s with gate := g } { s' with gate := g' } :=
  h.change rfl rfl hgate (by rw [h.rest])

theorem Demotes.issued (h : s.Demotes n q slot c s') (hgate : g.Demotes n q g') :
    Demotes n q slot c { s with nextId := s.nextId + 1, gate := g }
      { s' with nextId := s'.nextId + 1, gate := g' } :=
  h.change rfl rfl hgate (by rw [h.rest])

theorem Demotes.withTimes (h : s.Demotes n q slot c s') (now : Nat) (timer : Bool) (timed : Nat)
    (expiries : List Expiry) : Demotes n q slot c { s with now, timer, timed, expiries }
      { s' with now, timer, timed, expiries } :=
  h.change rfl rfl h.gate (by rw [h.rest])

theorem Demotes.putSlot (h : s.Demotes n q slot c s') (hname : name ≠ slot) (content : Slot) :
    (s.putSlot name content).Demotes n q slot c (s'.putSlot name content) := by
  refine ⟨h.isOpen, ?_, ?_, ?_, h.number, h.gate, ?_⟩
  · exact (Catalog.get?_insert_of_ne _ _ hname.symm).trans h.here
  · exact (Catalog.get?_insert_of_ne _ _ hname.symm).trans h.there
  · intro other hother
    rw [Session.putSlot, Session.putSlot, Catalog.get?_insert, Catalog.get?_insert,
      h.others other hother]
  · rw [h.rest]
    rfl

theorem Demotes.clearSlot (h : s.Demotes n q slot c s') (hname : name ≠ slot) :
    (s.clearSlot name).Demotes n q slot c (s'.clearSlot name) := by
  refine ⟨h.isOpen, ?_, ?_, ?_, h.number, h.gate, ?_⟩
  · exact (Catalog.get?_erase_of_ne _ hname.symm).trans h.here
  · exact (Catalog.get?_erase_of_ne _ hname.symm).trans h.there
  · intro other hother
    rw [Session.clearSlot, Session.clearSlot, Catalog.get?_erase, Catalog.get?_erase,
      h.others other hother]
  · rw [h.rest]
    rfl

theorem Demotes.ne_nextId (h : s.Demotes n q slot c s') (haccounts : s.Accounts []) :
    n ≠ some s.nextId := by
  intro hn
  obtain ⟨token, t, rfl, hid⟩ := h.number _ hn
  have hlt := haccounts.issued (t, .awaited) (awaited_mem_stakes_iff.mpr ⟨slot, token, h.here⟩)
  exact Nat.ne_of_lt hlt hid

theorem Demotes.ne_id (h : s.Demotes n q slot c s') (haccounts : s.Accounts []) (hname : name ≠ slot)
    (hget : s.slots.get? name = some (.waiting token u)) : n ≠ some u.id := by
  intro hn
  obtain ⟨token', t, rfl, hid⟩ := h.number _ hn
  exact hname (slot_eq_of_id_eq haccounts h.here hget hid).symm

theorem Asked.same_answer (hactive : s'.gate.active = s.gate.active)
    (hspace : s'.gate.hasSpace = s.gate.hasSpace)
    (hcancelled : s'.isCancelled token = s.isCancelled token) (hflow : u.flow = t.flow)
    (hid : u.id = t.id) (h : s.Asked slot token t answer a)
    (h' : s'.Asked slot token u answer' b) : answer' = answer := by
  have hroom : s'.gate.active.contains u.flow = true ∨ s'.gate.hasSpace = true ↔
      s.gate.active.contains t.flow = true ∨ s.gate.hasSpace = true := by
    rw [hactive, hspace, hflow]
  cases h with
  | entered hin =>
      cases h' with
      | entered => rw [hid]
      | refused hinactive hfull => exact absurd (hroom.mpr hin) (no_room hinactive hfull)
      | pending hinactive hfull => exact absurd (hroom.mpr hin) (no_room hinactive hfull)
  | refused hinactive hfull htold =>
      cases h' with
      | entered hin => exact absurd (hroom.mp hin) (no_room hinactive hfull)
      | refused => rfl
      | pending _ _ hsilent =>
          rw [hcancelled, htold] at hsilent
          cases hsilent
  | pending hinactive hfull hsilent =>
      cases h' with
      | entered hin => exact absurd (hroom.mp hin) (no_room hinactive hfull)
      | refused _ _ htold =>
          rw [hcancelled, hsilent] at htold
          cases htold
      | pending => rfl

theorem AskedAgain.same_answer (haccounts : s.Accounts []) (haccounts' : s'.Accounts [])
    (hcalled : s'.gate.called = s.gate.called)
    (hcancelled : s'.isCancelled token = s.isCancelled token) (hid : u.id = t.id)
    (h : s.AskedAgain slot token t answer a) (h' : s'.AskedAgain slot token u answer' b) :
    answer' = answer := by
  have hcalling : s'.gate.Calling u ↔ s.gate.Calling t := by
    rw [Gate.Calling, Gate.Calling, hcalled, hid]
  have hsilent : s.gate.Waits t → ¬s'.gate.Calling u := fun hwaits =>
    mt hcalling.mp ((haccounts.waits_iff t).mp hwaits).2
  have hsilent' : s'.gate.Waits u → ¬s.gate.Calling t := fun hwaits =>
    mt hcalling.mpr ((haccounts'.waits_iff u).mp hwaits).2
  cases h with
  | entered hcall =>
      cases h' with
      | entered => rw [hid]
      | pending hwaits => exact absurd hcall (hsilent' hwaits)
      | refused hwaits => exact absurd hcall (hsilent' hwaits)
  | pending hwaits hgoes =>
      cases h' with
      | entered hcall => exact absurd hcall (hsilent hwaits)
      | pending => rfl
      | refused _ htold =>
          rw [hcancelled, hgoes] at htold
          cases htold
  | refused hwaits htold =>
      cases h' with
      | entered hcall => exact absurd hcall (hsilent hwaits)
      | pending _ hgoes =>
          rw [hcancelled, htold] at hgoes
          cases hgoes
      | refused => rfl

theorem Demotes.ask (h : s.Demotes n q slot c s') (hsound : s.Sound []) (hsound' : s'.Sound [])
    (hname : name ≠ slot) {r r' : Answer × Session} (hok : s.ask name token request = .ok r events)
    (hok' : s'.ask name token request = .ok r' events') :
    r'.1 = r.1 ∧ r.2.Demotes n q slot c r'.2 := by
  have haccounts := hsound.accounts h.alive
  obtain ⟨-, -, hasked⟩ := (ask_gives hsound.gate haccounts).of_eq_ok hok
  obtain ⟨-, hgate', hasked'⟩ :=
    (ask_gives hsound'.gate (hsound'.accounts h.alive')).of_eq_ok hok'
  rw [h.nextTicket_eq] at hasked'
  have hsame := hasked.same_answer h.gate.active_eq h.gate.hasSpace_eq (h.isCancelled_eq token) rfl
    rfl hasked'
  obtain ⟨answer, a⟩ := r
  obtain ⟨answer', b⟩ := r'
  obtain rfl : answer' = answer := hsame
  refine ⟨rfl, ?_⟩
  cases hasked with
  | entered =>
      cases hasked'
      exact (h.issued (h.gate.file _ none)).putSlot hname _
  | refused =>
      cases hasked'
      exact (h.issued h.gate).clearSlot hname
  | pending _ _ _ waiting hwaits =>
      cases hasked' with
      | pending _ _ _ waiting' hwaits' =>
          have hqueued := h.gate.queue (h.ne_nextId haccounts) hgate'.agree hwaits hwaits'
          exact (h.issued hqueued).putSlot hname _

theorem Demotes.askAgain (h : s.Demotes n q slot c s') (hsound : s.Sound []) (hsound' : s'.Sound [])
    (hname : name ≠ slot) (hget : s.slots.get? name = some (.waiting token u))
    {r r' : Answer × Session} (hok : s.askAgain name token u = .ok r events)
    (hok' : s'.askAgain name token u = .ok r' events') :
    r'.1 = r.1 ∧ r.2.Demotes n q slot c r'.2 := by
  have haccounts := hsound.accounts h.alive
  have haccounts' := hsound'.accounts h.alive'
  have hget' := (h.others name hname).trans hget
  obtain ⟨-, -, hasked⟩ := (askAgain_gives hsound.gate haccounts hget).of_eq_ok hok
  obtain ⟨-, hgate', hasked'⟩ := (askAgain_gives hsound'.gate haccounts' hget').of_eq_ok hok'
  have hsame := hasked.same_answer haccounts haccounts' h.gate.called_eq (h.isCancelled_eq token)
    rfl hasked'
  obtain ⟨answer, a⟩ := r
  obtain ⟨answer', b⟩ := r'
  obtain rfl : answer' = answer := hsame
  refine ⟨rfl, ?_⟩
  cases hasked with
  | entered =>
      cases hasked'
      exact (h.withGate (h.gate.hear u)).putSlot hname _
  | pending =>
      cases hasked'
      exact h
  | refused _ _ waiting hwaits =>
      cases hasked' with
      | refused _ _ waiting' hwaits' =>
          have hgone := h.gate.withdraw (h.ne_id haccounts hname hget) hgate'.agree hwaits hwaits'
          exact (h.withGate hgone).clearSlot hname

theorem Demotes.letGo (h : s.Demotes n q slot c s') (hsound : s.gate.Sound)
    (hok : s.letGo u = .ok a events) (hok' : s'.letGo u = .ok b events')
    (hkeeps : s.gate.Keeps n a.gate) : a.Demotes n q slot c b := by
  have halive' := h.alive'
  obtain ⟨g', slots', rfl⟩ := h.exists_eq
  unfold Session.letGo at hok hok'
  simp only [h.alive, Bool.not_true, Bool.false_eq_true, if_false] at hok
  simp only [halive', Bool.not_true, Bool.false_eq_true, if_false] at hok'
  split at hok
  · rename_i hgrace
    rw [if_pos hgrace] at hok'
    obtain ⟨gate, hremove, rfl⟩ := Logged.bind_pure_eq_ok hok
    obtain ⟨gate', hremove', rfl⟩ := Logged.bind_pure_eq_ok hok'
    exact h.withGate (h.gate.remove hsound hremove hremove' hkeeps)
  · rename_i hgrace
    rw [if_neg hgrace] at hok'
    obtain ⟨_, _, _, -, hpure, -⟩ := Logged.bind_eq_ok_iff.mp hok
    obtain ⟨_, _, _, -, hpure', -⟩ := Logged.bind_eq_ok_iff.mp hok'
    cases hpure
    cases hpure'
    have hgate := h.withGate (h.gate.setExpiry u (s.now + s.grace.span u.flow))
    exact hgate.withTimes s.now s.timer _ _

/-- Two steps have the same reply, and lead to sessions in which one caller's priority differs. -/
structure InStep (n : Option Nat) (q : Priority) (slot : String) (c : Slot) (r r' : Reply × Session) :
    Prop where
  reply_eq : r'.1 = r.1
  demotes : r.2.Demotes n q slot c r'.2

theorem Demotes.inStep {reply : Reply} (h : a.Demotes n q slot c b) :
    InStep n q slot c (reply, a) (reply, b) := ⟨rfl, h⟩

variable {r r' : Reply × Session}

theorem Demotes.breaksOff_eq (h : s.Demotes n q slot c s') (u : Ticket) :
    s'.breaksOff u = s.breaksOff u := by
  have halive : s'.alive = s.alive := h.alive'.trans h.alive.symm
  rw [breaksOff, breaksOff, halive, h.rest]

theorem Demotes.release (h : s.Demotes n q slot c s') (hsound : s.gate.Sound) (hname : name ≠ slot)
    (hok : s.release name u = .ok r events) (hok' : s'.release name u = .ok r' events')
    (hkeeps : s.gate.Keeps n r.2.gate) : InStep n q slot c r r' := by
  unfold Session.release at hok hok'
  rw [h.breaksOff_eq] at hok'
  split at hok
  · rename_i hbreaks
    rw [if_pos hbreaks] at hok'
    cases hok
    cases hok'
    exact (h.putSlot hname _).inStep
  · rename_i hwhole
    rw [if_neg hwhole] at hok'
    obtain ⟨_, hletGo, rfl⟩ := Logged.bind_pure_eq_ok hok
    obtain ⟨_, hletGo', rfl⟩ := Logged.bind_pure_eq_ok hok'
    exact ((h.clearSlot hname).letGo hsound hletGo hletGo' hkeeps).inStep

theorem Demotes.expireEach (h : s.Demotes n q slot c s') (hsound : s.gate.Sound)
    {ended : List Expiry} (hok : s.expireEach ended = .ok a events)
    (hok' : s'.expireEach ended = .ok b events') (hkeeps : s.gate.Keeps n a.gate) :
    a.Demotes n q slot c b := by
  induction ended generalizing s s' events events' with
  | nil =>
      cases hok
      cases hok'
      exact h
  | cons e rest ih =>
      obtain ⟨_, _, later, hexpire, hrest, -⟩ := Logged.bind_eq_ok_iff.mp hok
      obtain ⟨_, _, later', hexpire', hrest', -⟩ := Logged.bind_eq_ok_iff.mp hok'
      obtain ⟨gate, _, hremove, rfl⟩ := expire_eq_ok h.alive hexpire
      obtain ⟨gate', _, hremove', rfl⟩ := expire_eq_ok h.alive' hexpire'
      obtain ⟨hgate, hwaits⟩ := (Gate.remove_sound hsound e.ticket).of_eq_ok hremove
      have hbefore : s.gate.Keeps n gate := fun t ht hid =>
        waits_of_expireEach (s := { s with gate }) h.alive hgate hrest t (hkeeps t ht hid)
      have hafter : gate.Keeps n a.gate := fun t ht hid => hkeeps t (hwaits t ht) hid
      exact ih (h.withGate (h.gate.remove hsound hremove hremove' hbefore)) hgate hrest hrest' hafter

theorem Demotes.abandon (h : s.Demotes n q slot c s') (hsound : s.Sound []) (hsound' : s'.Sound [])
    (hname : name ≠ slot) (hget : s.slots.get? name = some (.waiting token u))
    (hok : s.abandon u = .ok a events) (hok' : s'.abandon u = .ok b events')
    (hkeeps : s.gate.Keeps n a.gate) : a.Demotes n q slot c b := by
  have haccounts := hsound.accounts h.alive
  have hne := h.ne_id haccounts hname hget
  obtain ⟨r, _, _, hwithdraw, hrest, -⟩ := Logged.bind_eq_ok_iff.mp hok
  obtain ⟨r', _, _, hwithdraw', hrest', -⟩ := Logged.bind_eq_ok_iff.mp hok'
  rcases waits_or_calling haccounts hget with hwaits | hcalling
  · have hwaits' := (h.gate.waits_iff_of_ne hne).mpr hwaits
    obtain ⟨-, waiting, rfl, -, hgone⟩ := (Gate.withdraw?_gives hsound.gate hwaits).of_eq_ok hwithdraw
    obtain ⟨-, waiting', rfl, hgate', hgone'⟩ :=
      (Gate.withdraw?_gives hsound'.gate hwaits').of_eq_ok hwithdraw'
    cases hrest
    cases hrest'
    exact h.withGate (h.gate.withdraw hne hgate'.agree hgone hgone')
  · have hcalling' : s'.gate.Calling u := by rwa [Gate.Calling, h.gate.called_eq]
    have hnone := haccounts.get?_eq_none_of_calling hsound.gate hcalling
    have hnone' := (hsound'.accounts h.alive').get?_eq_none_of_calling hsound'.gate hcalling'
    obtain ⟨rfl, -⟩ := (Gate.withdraw?_gives_none hnone).of_eq_ok hwithdraw
    obtain ⟨rfl, -⟩ := (Gate.withdraw?_gives_none hnone').of_eq_ok hwithdraw'
    obtain ⟨_, _, _, -, hmore, -⟩ := Logged.bind_eq_ok_iff.mp hrest
    obtain ⟨_, _, _, -, hmore', -⟩ := Logged.bind_eq_ok_iff.mp hrest'
    obtain ⟨gate, hremove, rfl⟩ := Logged.bind_pure_eq_ok hmore
    obtain ⟨gate', hremove', rfl⟩ := Logged.bind_pure_eq_ok hmore'
    exact h.withGate ((h.gate.hear u).remove (hsound.gate.hear u) hremove hremove' hkeeps)

theorem Demotes.leave (h : s.Demotes n q slot c s') (hsound : s.Sound []) (hsound' : s'.Sound [])
    (hname : name ≠ slot) (hget : s.slots.get? name = some content)
    (hok : s.leave name content = .ok r events) (hok' : s'.leave name content = .ok r' events')
    (hkeeps : s.gate.Keeps n r.2.gate) : InStep n q slot c r r' := by
  cases content with
  | prepared token request =>
      cases hok
      cases hok'
      exact (h.clearSlot hname).inStep
  | waiting token u =>
      obtain ⟨_, habandon, rfl⟩ := Logged.bind_pure_eq_ok hok
      obtain ⟨_, habandon', rfl⟩ := Logged.bind_pure_eq_ok hok'
      exact ((h.abandon hsound hsound' hname hget habandon habandon' hkeeps).clearSlot hname).inStep
  | holding u =>
      obtain ⟨_, _, _, -, hrelease, -⟩ := Logged.bind_eq_ok_iff.mp hok
      obtain ⟨_, _, _, -, hrelease', -⟩ := Logged.bind_eq_ok_iff.mp hok'
      exact h.release hsound.gate hname hrelease hrelease' hkeeps
  | stranded u =>
      cases hok
      cases hok'
      exact h.inStep

end Session

end FlowGate
