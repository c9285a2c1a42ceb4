import FlowGate.Proofs.GateRefill
import FlowGate.Proofs.SessionRuns

namespace FlowGate

namespace Gate

open Logged (Gives gives_pure_iff)

variable {g g' : Gate} {t u : Ticket} {ts us : List Ticket}

def strikeEach (g : Gate) (ts : List Ticket) : Gate := ts.foldl strike g

def removeEach (g : Gate) (ts : List Ticket) : Logged Gate := ts.foldlM remove g

theorem party_strike_self : (g.strike t).party t.flow = (g.party t.flow).erase t.id := by
  rw [party, get?_strike_self]
  split
  · rename_i hempty
    exact (Catalog.isEmpty_iff.mp hempty).symm
  · rfl

theorem party_strike_of_ne {flow : Flow} (h : flow ≠ t.flow) :
    (g.strike t).party flow = g.party flow := by
  rw [party, party, get?_strike_of_ne h]

theorem strike_comm (g : Gate) (t u : Ticket) : (g.strike t).strike u = (g.strike u).strike t := by
  have hactive : ((g.strike t).strike u).active = ((g.strike u).strike t).active := by
    apply Catalog.ext_get?
    intro flow
    rcases Classical.em (t.flow = u.flow) with heq | hne
    · rcases Classical.em (flow = u.flow) with rfl | hflow
      · rw [get?_strike_self, ← heq, party_strike_self, get?_strike_self, heq, party_strike_self,
          Catalog.erase_comm]
      · have hflow' : flow ≠ t.flow := heq ▸ hflow
        rw [get?_strike_of_ne hflow, get?_strike_of_ne hflow', get?_strike_of_ne hflow',
          get?_strike_of_ne hflow]
    · rcases Classical.em (flow = u.flow) with rfl | hflow
      · rw [get?_strike_self, party_strike_of_ne (Ne.symm hne), get?_strike_of_ne (Ne.symm hne),
          get?_strike_self]
      · rw [get?_strike_of_ne hflow]
        rcases Classical.em (flow = t.flow) with rfl | hflow'
        · rw [get?_strike_self, get?_strike_self, party_strike_of_ne hne]
        · rw [get?_strike_of_ne hflow', get?_strike_of_ne hflow', get?_strike_of_ne hflow]
  exact congrArg (fun active => { g with active }) hactive

theorem contains_of_strike {flow : Flow} (hflow : (g.strike t).active.contains flow = true) :
    g.active.contains flow = true := by
  obtain ⟨party, hparty⟩ := Catalog.contains_iff.mp hflow
  rcases Classical.em (flow = t.flow) with rfl | hne
  · obtain ⟨hsome, rfl⟩ := get?_strike_self_eq_some_iff.mp hparty
    obtain ⟨id, a, hget⟩ := Catalog.exists_get? hsome
    obtain ⟨party, hparty, -⟩ := get?_party_iff.mp (Catalog.get?_erase_eq_some_iff.mp hget).2
    exact Catalog.contains_iff.mpr ⟨party, hparty⟩
  · rw [get?_strike_of_ne hne] at hparty
    exact Catalog.contains_iff.mpr ⟨party, hparty⟩

theorem strikeEach_perm (g : Gate) (h : ts.Perm us) : g.strikeEach ts = g.strikeEach us :=
  h.foldl_eq' (fun t _ u _ g => strike_comm g t u) g

theorem waiting_strikeEach (g : Gate) (ts : List Ticket) : (g.strikeEach ts).waiting = g.waiting := by
  induction ts generalizing g with
  | nil => rfl
  | cons t ts ih => exact ih (g.strike t)

theorem Consistent.strikeEach (h : g.Consistent) (ts : List Ticket) : (g.strikeEach ts).Consistent := by
  induction ts generalizing g with
  | nil => exact h
  | cons t ts ih => exact ih h.strike

theorem LetsIn.strikeEach {flows : List Flow} (h : g.LetsIn flows g')
    (hnot : ∀ t ∈ ts, t.flow ∉ flows) : (g.strikeEach ts).LetsIn flows (g'.strikeEach ts) := by
  induction ts generalizing g g' with
  | nil => exact h
  | cons t ts ih =>
      apply ih (h.strike (hnot t List.mem_cons_self))
      exact fun u hu => hnot u (List.mem_cons_of_mem t hu)

theorem capacity_strikeEach (g : Gate) (ts : List Ticket) :
    (g.strikeEach ts).capacity = g.capacity := by
  induction ts generalizing g with
  | nil => rfl
  | cons t ts ih => exact ih (g.strike t)

theorem size_strikeEach_le (g : Gate) (ts : List Ticket) :
    (g.strikeEach ts).active.size ≤ g.active.size := by
  induction ts generalizing g with
  | nil => exact Nat.le_refl _
  | cons t ts ih => exact Nat.le_trans (ih _) (Catalog.size_le_of_contains fun _ => contains_of_strike)

theorem callable_strikeEach_le (g : Gate) (ts : List Ticket) (limit : Nat) :
    g.callable limit ≤ (g.strikeEach ts).callable limit := by
  have hsize := g.size_strikeEach_le ts
  unfold callable
  rw [capacity_strikeEach, waiting_strikeEach]
  cases g.capacity <;> simp only [] <;> omega

/--
Active tickets that are removed one after the other are gone, and the flows that have been called in on
the way are those that there is room for without them.
-/
theorem removeEach_settles (h : g.Sound) (hnodup : ts.Nodup)
    (hts : ∀ t ∈ ts, ∃ e, g.Admits t e) :
    (g.removeEach ts).Gives fun g' events =>
      calledFlows events = (g.strikeEach ts).admissible ∧ (g.strikeEach ts).Settles g' := by
  induction ts generalizing g with
  | nil =>
      obtain ⟨hnil, hsettles⟩ := h.settles_self
      exact gives_pure_iff.mpr ⟨hnil.symm, hsettles⟩
  | cons t ts ih =>
      obtain ⟨hnot, hnodup⟩ := List.nodup_cons.mp hnodup
      obtain ⟨e, ht⟩ := hts t List.mem_cons_self
      obtain ⟨g₁, first, hok, hcalled, hfirst⟩ := remove_settles h ht
      have h₁ : g₁.Sound := ((remove_sound h t).of_eq_ok hok).1
      have hstrike : (g.strike t).Consistent := h.toConsistent.strike
      -- The tickets still to be removed are of active flows, so the first call lets in none of these.
      have hothers : ∀ u ∈ ts, ∃ e, (g.strike t).Admits u e := by
        intro u hu
        obtain ⟨e', hadmits⟩ := hts u (List.mem_cons_of_mem t hu)
        exact ⟨e', (admits_strike_iff ht).mpr ⟨fun heq => hnot (heq ▸ hu), hadmits⟩⟩
      have hapart : ∀ u ∈ ts, u.flow ∉ (g.strike t).admissible := by
        intro u hu
        obtain ⟨e', hadmits⟩ := hothers u hu
        exact hstrike.not_mem_admissible hadmits
      obtain ⟨g₂, later, hok', hcalled', hlater⟩ := ih h₁ hnodup fun u hu =>
        (hothers u hu).imp fun e' => (hfirst.admits_iff (hapart u hu)).mpr
      refine ⟨g₂, first ++ later, ?_, ?_⟩
      · rw [removeEach, List.foldlM_cons]
        exact Logged.bind_eq_ok_iff.mpr ⟨g₁, first, later, hok, hok', rfl⟩
      · have hstruck : ((g.strike t).strikeEach ts).Consistent := hstrike.strikeEach ts
        have hlets : ((g.strike t).strikeEach ts).LetsIn _ (g₁.strikeEach ts) :=
          hfirst.strikeEach hapart
        rw [admissible, ← waiting_strikeEach (g.strike t) ts] at hlets
        obtain ⟨hadmissible, hsettles⟩ :=
          hlets.settles hstruck.agree hstruck.apart (callable_strikeEach_le _ ts _) hlater
        refine ⟨?_, hsettles⟩
        rw [calledFlows_append, hcalled, hcalled', admissible, ← waiting_strikeEach (g.strike t) ts]
        exact hadmissible.symm

/-- Active tickets may be removed in any order. -/
theorem removeEach_perm (h : g.Sound) (hnodup : ts.Nodup) (hts : ∀ t ∈ ts, ∃ e, g.Admits t e)
    (hperm : ts.Perm us) :
    ∃ g' first later, g.removeEach ts = .ok g' first ∧ g.removeEach us = .ok g' later ∧
      calledFlows first = calledFlows later ∧ (g.strikeEach ts).Settles g' := by
  obtain ⟨g₁, first, hok, hcalled, hsettles⟩ := removeEach_settles h hnodup hts
  obtain ⟨g₂, later, hok', hcalled', hsettles'⟩ :=
    removeEach_settles h (hperm.nodup_iff.mp hnodup) fun t ht => hts t (hperm.mem_iff.mpr ht)
  rw [← strikeEach_perm g hperm] at hcalled' hsettles'
  obtain rfl := hsettles.unique hsettles'
  exact ⟨g₁, first, later, hok, hok', hcalled.trans hcalled'.symm, hsettles⟩

theorem removeEach_append {g₁ g₂ : Gate} {first later : List Event}
    (h : g.removeEach ts = .ok g₁ first) (h' : g₁.removeEach us = .ok g₂ later) :
    g.removeEach (ts ++ us) = .ok g₂ (first ++ later) := by
  rw [removeEach, List.foldlM_append]
  exact Logged.bind_eq_ok_iff.mpr ⟨g₁, first, later, h, h', rfl⟩

end Gate

namespace Session

open Logged (Gives gives_pure_iff)

variable {s s' : Session} {gate gate' : Gate} {ended ended' running rest : List Expiry}

/-- Grace periods that end take their tickets out, one after the other, if the gate lives. -/
def TakesOut (s : Session) (ended : List Expiry) (gate : Gate) : Prop :=
  (s.alive = true → ∃ events, s.gate.removeEach (ended.map fun e => e.ticket) = .ok gate events) ∧
    (s.alive = false → gate = s.gate)

theorem removeEach_of_expireEach (halive : s.alive = true) {events : List Event}
    (hok : s.expireEach ended = .ok s' events) :
    ∃ removed, s.gate.removeEach (ended.map fun e => e.ticket) = .ok s'.gate removed := by
  induction ended generalizing s events with
  | nil =>
      cases hok
      exact ⟨[], rfl⟩
  | cons e ended ih =>
      obtain ⟨_, first, later, hexpire, hrest, -⟩ := Logged.bind_eq_ok_iff.mp hok
      obtain ⟨gate, first, hremove, rfl⟩ := expire_eq_ok halive hexpire
      obtain ⟨removed, hremoved⟩ := ih (s := { s with gate }) halive hrest
      exact ⟨first ++ removed, Logged.bind_eq_ok_iff.mpr ⟨gate, first, removed, hremove, hremoved, rfl⟩⟩

/-- Some of the running grace periods end, and nothing else changes but the gate. -/
theorem Sound.expireEach_takesOut (h : s.Sound []) (hperm : s.expiries.Perm (ended ++ running)) :
    (expireEach { s with expiries := running } ended).Gives fun s' _ =>
      s'.Sound [] ∧ ∃ gate, s' = { s with expiries := running, gate } ∧ s.TakesOut ended gate := by
  obtain ⟨_, events, hok, -, hsound, hevolves, gate, rfl⟩ := expireEach_gives _ (h.endExpiries hperm)
  refine ⟨_, events, hok, hsound, gate, rfl, ?_, ?_⟩
  · intro halive
    exact removeEach_of_expireEach (s := { s with expiries := running }) halive hok
  · intro hgone
    exact hevolves.frozen hgone

theorem TakesOut.append (h : s.TakesOut ended gate) (h' : s'.TakesOut rest gate')
    (halive : s'.alive = s.alive) (hgate : s'.gate = gate) : s.TakesOut (ended ++ rest) gate' := by
  subst hgate
  constructor
  · intro hlives
    obtain ⟨first, hfirst⟩ := h.1 hlives
    obtain ⟨later, hlater⟩ := h'.1 (halive.trans hlives)
    rw [List.map_append]
    exact ⟨first ++ later, Gate.removeEach_append hfirst hlater⟩
  · intro hgone
    exact (h'.2 (halive.trans hgone)).trans (h.2 hgone)

theorem TakesOut.unique (hsound : s.Sound []) (hperm : s.expiries.Perm (ended ++ running))
    (hsame : ended.Perm ended') (h : s.TakesOut ended gate) (h' : s.TakesOut ended' gate') :
    gate = gate' := by
  cases halive : s.alive with
  | false => exact (h.2 halive).trans (h'.2 halive).symm
  | true =>
      have haccounts := (hsound.endExpiries hperm).accounts halive
      have hnodup : (ended.map fun e => e.ticket).Nodup := by
        have hdistinct := haccounts.distinct
        rw [List.append_nil, List.map_append, List.map_map] at hdistinct
        apply List.Nodup.of_map fun t => t.id
        rw [List.map_map]
        exact (List.nodup_append.mp hdistinct).1
      have hactive : ∀ t ∈ ended.map fun e => e.ticket, ∃ e, s.gate.Admits t e := by
        intro t ht
        obtain ⟨e, he, rfl⟩ := List.mem_map.mp ht
        refine ⟨some e.expiresAt, (haccounts.admits_some_iff _ _).mpr ?_⟩
        exact List.mem_append_left _ (List.mem_append_left _ (List.mem_map_of_mem he))
      obtain ⟨g, first, later, hok, hok', -, -⟩ :=
        Gate.removeEach_perm hsound.gate hnodup hactive (hsame.map fun e => e.ticket)
      obtain ⟨events, hremoved⟩ := h.1 halive
      obtain ⟨events', hremoved'⟩ := h'.1 halive
      rw [hok] at hremoved
      rw [hok'] at hremoved'
      cases hremoved
      cases hremoved'
      rfl

theorem advance_takesOut (h : s.Sound []) (nanos : Nat) :
    (s.step (.advance nanos)).Gives fun r _ =>
      r.2.Sound [] ∧ ∃ gate,
        r.2 = { s with
          now := s.now + nanos
          expiries := s.expiries.filter fun e => !decide (e.due ≤ s.now + nanos)
          gate } ∧
        s.TakesOut (s.expiries.filter fun e => e.due ≤ s.now + nanos) gate := by
  have h' : (s.pass nanos).Sound [] := ⟨h.gate, h.accounts⟩
  simp only [step, advance_eq]
  apply (h'.expireEach_takesOut (due_perm _ _)).bind
  rintro _ events ⟨hsound, gate, rfl, htakes⟩
  exact gives_pure_iff.mpr ⟨hsound, gate, rfl, htakes⟩

theorem shutdown_takesOut (h : s.Sound []) (ranks : List Nat) :
    (s.step (.shutdown ranks)).Gives fun r _ =>
      ∃ gate,
        r.2 = { s with
          timer := false
          expiries := s.expiries.filter fun e => !e.onTimer
          gate } ∧
        s.TakesOut (s.timedOut ranks) gate := by
  have h' : Sound { s with timer := false } [] := ⟨h.gate, h.accounts⟩
  simp only [step, shutdown_eq]
  apply (h'.expireEach_takesOut (s.timedOut_perm ranks)).bind
  rintro _ events ⟨-, gate, rfl, htakes⟩
  exact gives_pure_iff.mpr ⟨gate, rfl, htakes⟩

theorem filter_due_split (expiries : List Expiry) {early late : Nat} (h : early ≤ late) :
    (expiries.filter fun e => e.due ≤ late).Perm
        ((expiries.filter fun e => e.due ≤ early) ++
          (expiries.filter fun e => !decide (e.due ≤ early)).filter fun e => e.due ≤ late) ∧
      (expiries.filter fun e => !decide (e.due ≤ early)).filter (fun e => !decide (e.due ≤ late)) =
        expiries.filter fun e => !decide (e.due ≤ late) := by
  constructor
  · have hearly : (expiries.filter fun e => e.due ≤ late).filter (fun e => e.due ≤ early) =
        expiries.filter fun e => e.due ≤ early := by
      rw [List.filter_filter]
      apply List.filter_congr
      intro e _
      rw [Bool.eq_iff_iff, Bool.and_eq_true, decide_eq_true_eq, decide_eq_true_eq]
      omega
    have hsplit := (List.filter_append_perm (fun e : Expiry => decide (e.due ≤ early))
      (expiries.filter fun e => e.due ≤ late)).symm
    rwa [hearly, List.filter_comm] at hsplit
  · rw [List.filter_filter]
    apply List.filter_congr
    intro e _
    rw [Bool.eq_iff_iff, Bool.and_eq_true]
    simp only [Bool.not_eq_true', decide_eq_false_iff_not]
    omega

theorem advance_add (h : s.Sound []) (a b : Nat) :
    ∃ s', s.After [.advance a, .advance b] (· = s') ∧ s.After [.advance (a + b)] (· = s') := by
  obtain ⟨⟨reply, _⟩, events, hfirst, h₁, gate₁, rfl, htakes₁⟩ := advance_takesOut h a
  obtain ⟨⟨reply', _⟩, events', hsecond, -, gate₂, rfl, htakes₂⟩ := advance_takesOut h₁ b
  obtain ⟨⟨reply'', _⟩, events'', hboth, -, gate₃, rfl, htakes₃⟩ := advance_takesOut h (a + b)
  dsimp only at hfirst hsecond hboth htakes₁ htakes₂ htakes₃
  obtain ⟨hdue, hrunning⟩ := filter_due_split s.expiries (Nat.le_add_right (s.now + a) b)
  rw [← Nat.add_assoc] at htakes₃
  have hgate : gate₃ = gate₂ :=
    htakes₃.unique h (due_perm _ _) hdue (htakes₁.append htakes₂ rfl rfl)
  refine ⟨_, .cons hfirst (after_single ⟨_, _, hsecond, rfl⟩), after_single ⟨_, _, hboth, ?_⟩⟩
  rw [hgate, ← Nat.add_assoc, hrunning]

theorem shutdown_eq_advance (h : s.Sound []) {nanos : Nat}
    (hall : ∀ e ∈ s.expiries, e.onTimer = true ∧ e.due ≤ s.now + nanos) :
    ∃ gate,
      (∀ ranks, s.After [.shutdown ranks] fun s' => s'.gate = gate ∧ s'.expiries = []) ∧
        s.After [.advance nanos] fun s' => s'.gate = gate ∧ s'.expiries = [] := by
  obtain ⟨⟨reply, _⟩, events, hpass, -, gate, rfl, htakes⟩ := advance_takesOut h nanos
  have hdue : (s.expiries.filter fun e => e.due ≤ s.now + nanos) = s.expiries :=
    List.filter_eq_self.mpr fun e he => decide_eq_true (hall e he).2
  rw [hdue] at htakes
  refine ⟨gate, fun ranks => ?_, after_single ⟨_, _, hpass, rfl, ?_⟩⟩
  · obtain ⟨⟨reply', _⟩, events', hstop, gate', rfl, htakes'⟩ := shutdown_takesOut h ranks
    have hnone : (s.expiries.filter fun e => !e.onTimer) = [] :=
      List.filter_eq_nil_iff.mpr fun e he => by simp [(hall e he).1]
    have hperm := s.timedOut_perm ranks
    rw [hnone] at hperm
    have hsame : (s.timedOut ranks).Perm s.expiries := by simpa using hperm.symm
    have hgate : gate' = gate := htakes'.unique h hperm hsame htakes
    exact after_single ⟨_, _, hstop, hgate, hnone⟩
  · exact List.filter_eq_nil_iff.mpr fun e he => by simp [(hall e he).2]

/--
After every run: whichever active tickets are removed, in whatever order, the gate is the same in the end,
and the same flows have been called in: those that there is room for without the tickets. So to let time
pass in two parts is to let it pass at once; and if every grace period that runs is on the timer, the
timer that stops leaves the gate as the end of them all does, in whatever order it ends them.
-/
theorem removals_in_any_order (settings : Settings) (clock : Clock) (timer : Bool)
    (steps : List Step) :
    (new settings clock timer).After steps fun s =>
      (∀ ts us : List Ticket, ts.Nodup → ts.Perm us → (∀ t ∈ ts, s.gate.Inside t) →
        ∃ gate first later, s.gate.removeEach ts = .ok gate first ∧
          s.gate.removeEach us = .ok gate later ∧
            Gate.calledFlows first = Gate.calledFlows later ∧
              (s.gate.strikeEach ts).Settles gate) ∧
      (∀ a b, ∃ s', s.After [.advance a, .advance b] (· = s') ∧ s.After [.advance (a + b)] (· = s')) ∧
      ∀ nanos, (∀ e ∈ s.expiries, e.onTimer = true ∧ e.due ≤ s.now + nanos) →
        ∃ gate,
          (∀ ranks, s.After [.shutdown ranks] fun s' => s'.gate = gate ∧ s'.expiries = []) ∧
          s.After [.advance nanos] fun s' => s'.gate = gate ∧ s'.expiries = [] := by
  refine (run_proceeds (sound_new settings clock timer) steps).mono ?_
  rintro ⟨replies, s⟩ events hrun
  have hsound : s.Sound [] := hrun.sound
  refine ⟨?_, advance_add hsound, fun nanos => shutdown_eq_advance hsound⟩
  intro ts us hnodup hperm hts
  exact Gate.removeEach_perm hsound.gate hnodup hts hperm

end Session

end FlowGate
