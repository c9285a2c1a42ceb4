import FlowGate.Proofs.ClientTurns
import FlowGate.Simulation.Run

/-!
Runs of a simulation. `Orderly` holds between any two turns: every client is seated, and nobody else has a
slot. Within a moment clients go on until none can, whatever the schedule, and the time for which they can still
keep the gate busy does not grow; `runFor_gives` takes what each moment keeps to the end of a run.
-/

namespace FlowGate

namespace Simulation

open Logged (Gives gives_pure_iff)
open Session (graceLeft Tends)

variable {o : Options} {settings : Settings} {schedule : Schedule} {cancelAt : Option Int}

section Lists

variable {α : Type} {l : List α} {a b : α} {i : Nat}

theorem foldl_add_eq (f : α → Nat) (l : List α) (n : Nat) :
    l.foldl (fun n a => n + f a) n = n + (l.map f).sum := by
  induction l generalizing n with
  | nil => rfl
  | cons a l ih => rw [List.foldl_cons, ih, List.map_cons, List.sum_cons, Nat.add_assoc]

theorem sum_map_set (f : α → Nat) (h : l[i]? = some a) :
    ((l.set i b).map f).sum + f a = (l.map f).sum + f b := by
  induction l generalizing i with
  | nil => cases h
  | cons c l ih =>
      cases i with
      | zero =>
          cases h
          simp only [List.set_cons_zero, List.map_cons, List.sum_cons]
          omega
      | succ i =>
          have hrest := ih (i := i) h
          simp only [List.set_cons_succ, List.map_cons, List.sum_cons]
          omega

end Lists

namespace Client

variable {client other : Nat} {c : Client} {s s' : Session}

theorem slot_injective (h : slot client = slot other) : client = other := by
  have hdigits := congrArg (Nat.ofDigitChars 10 · 0) (String.ofList_injective h)
  simpa only [Text.Numeral.decimal, Nat.ofDigitChars_ten_toDigits] using hdigits

theorem Seated.of_slot_eq (h : c.Seated o client s)
    (hslot : s'.slots.get? (slot client) = s.slots.get? (slot client))
    (htold : s.isCancelled token = true → s'.isCancelled token = true) (hlate : s.Late → s'.Late) :
    c.Seated o client s' := by
  refine ⟨?_, fun hcancelled => htold (h.told hcancelled)⟩
  have hfits := h.fits
  cases hphase : c.phase with
  | fresh | waiting | holding | finished =>
      rw [hphase] at hfits
      simpa only [Fits, hslot] using hfits
  | lost =>
      rw [hphase] at hfits
      obtain ⟨⟨t, hstranded⟩, hsome, hle, hends⟩ := hfits
      exact ⟨⟨t, hslot.trans hstranded⟩, hsome, hle, hlate hends⟩

theorem canMove_of_told (htold : s.isCancelled token = true) (hunfinished : c.phase ≠ .finished)
    (hthere : c.phase ≠ .lost) : canMove s client c = true := by
  rw [canMove]
  cases hphase : c.phase with
  | fresh => rfl
  | waiting left => exact Bool.or_eq_true_iff.mpr (.inr htold)
  | holding left ends => exact Bool.or_eq_true_iff.mpr (.inr htold)
  | finished => exact absurd hphase hunfinished
  | lost => exact absurd hphase hthere

end Client

namespace State

/-- What holds of a simulation between two turns. -/
structure Orderly (o : Options) (settings : Settings) (st : State) : Prop where
  sound : st.session.Sound []
  kept : st.session.kept = true
  grace : st.session.grace = settings.grace
  capacity : st.session.gate.capacity = settings.capacity
  aligned : st.session.now % 1000000 = 0
  timed : ∀ e ∈ st.session.expiries, settings.grace.span e.ticket.flow ≠ 0
  length : st.clients.length = o.clients
  seated : ∀ client (c : Client), st.clients[client]? = some c → c.Seated o client st.session
  slots : ∀ slot content, st.session.slots.get? slot = some content →
    ∃ client, client < o.clients ∧ slot = Client.slot client

def Running (s : Session) : Prop := ∀ e ∈ s.expiries, s.now < e.due

/-- How long the clients and the running grace periods can still keep the gate busy. -/
def busyFor (o : Options) (graceMillis : Nat) (st : State) : Nat :=
  (st.clients.map (Client.busyFor o graceMillis st.session.now)).sum +
    graceLeft st.session.expiries st.session.now

def movesLeft (o : Options) (st : State) : Nat := (st.clients.map (Client.movesLeft o)).sum

/-- What may become of a simulation within a moment. -/
structure GoesTo (o : Options) (settings : Settings) (st st' : State) : Prop where
  orderly : st'.Orderly o settings
  clock : st'.session.clock = st.session.clock
  now : st'.session.now = st.session.now
  cancelled : st'.session.cancelled = st.session.cancelled
  running : Running st.session → Running st'.session
  busy : ∀ millis, (∀ flow, settings.grace.span flow ≤ Span.ofMillis millis) →
    st'.busyFor o millis ≤ st.busyFor o millis

variable {st st' st'' : State} {client : Nat} {c : Client}

theorem GoesTo.refl (h : st.Orderly o settings) : st.GoesTo o settings st :=
  ⟨h, rfl, rfl, rfl, id, fun _ _ => Nat.le_refl _⟩

theorem GoesTo.trans (h : st.GoesTo o settings st') (h' : st'.GoesTo o settings st'') :
    st.GoesTo o settings st'' :=
  ⟨h'.orderly, h'.clock.trans h.clock, h'.now.trans h.now, h'.cancelled.trans h.cancelled,
    h'.running ∘ h.running,
    fun millis hgrace => Nat.le_trans (h'.busy millis hgrace) (h.busy millis hgrace)⟩

theorem mem_movable_iff :
    client ∈ st.movable ↔
      ∃ c, st.clients[client]? = some c ∧ c.canMove st.session client = true := by
  simp only [movable, List.mem_map, List.mem_filter, Prod.exists, List.mem_zipIdx_iff_getElem?]
  constructor
  · rintro ⟨c, _, ⟨hget, hmove⟩, rfl⟩
    exact ⟨c, hget, hmove⟩
  · rintro ⟨c, hget, hmove⟩
    exact ⟨c, client, ⟨hget, hmove⟩, rfl⟩

theorem stays_of_settled (h : st.movable = []) (hget : st.clients[client]? = some c) :
    ¬c.canMove st.session client = true := by
  intro hmove
  have hmem := mem_movable_iff.mpr ⟨c, hget, hmove⟩
  rw [h] at hmem
  cases hmem

theorem Orderly.client_lt (h : st.Orderly o settings) (hget : st.clients[client]? = some c) :
    client < o.clients := by
  obtain ⟨hlt, -⟩ := List.getElem?_eq_some_iff.mp hget
  rwa [h.length] at hlt

theorem Orderly.accounts (h : st.Orderly o settings) : st.session.Accounts [] :=
  h.sound.accounts (Session.alive_iff.mpr (.inl h.kept))

theorem Orderly.tend (h : st.Orderly o settings) (hget : st.clients[client]? = some c) {c' : Client}
    {s' : Session} {started : List Expiry}
    (htends : st.session.Tends (Client.slot client) started s') (hseated : c'.Seated o client s') :
    Orderly o settings ⟨s', st.clients.set client c'⟩ := by
  refine ⟨htends.sound, htends.kept.trans h.kept, htends.grace.trans h.grace,
    htends.capacity.trans h.capacity, htends.now ▸ h.aligned, ?_, ?_, ?_, ?_⟩
  · intro e he
    rcases List.mem_append.mp (htends.expiries.mem_iff.mp he) with hnew | hold
    · have hstarts := (htends.starts e hnew).1
      rwa [h.grace] at hstarts
    · exact h.timed e hold
  · rw [List.length_set, h.length]
  · intro other d hother
    rcases Classical.em (other = client) with rfl | hne
    · obtain ⟨hlt, -⟩ := List.getElem?_eq_some_iff.mp hget
      rw [List.getElem?_set_self hlt] at hother
      cases hother
      exact hseated
    · rw [List.getElem?_set_ne (Ne.symm hne)] at hother
      have hslots := htends.others _ fun heq => hne (Client.slot_injective heq)
      refine (h.seated other d hother).of_slot_eq hslots ?_ htends.late
      rw [Session.isCancelled, Session.isCancelled, htends.cancelled]
      exact id
  · intro slot content hslot
    rcases Classical.em (slot = Client.slot client) with rfl | hne
    · exact ⟨client, h.client_lt hget, rfl⟩
    · exact h.slots slot content (htends.others slot hne ▸ hslot)

theorem running_tends {s s' : Session} {slot : String} {started : List Expiry}
    (h : Running s) (htends : s.Tends slot started s') : Running s' := by
  intro e he
  rw [htends.now]
  rcases List.mem_append.mp (htends.expiries.mem_iff.mp he) with hnew | hold
  · obtain ⟨hgrace, hexpires⟩ := htends.starts e hnew
    have hle := Session.le_ceilMillis e.expiresAt
    rw [Expiry.due]
    omega
  · exact h e hold

theorem move_gives (schedule : Schedule) (h : st.Orderly o settings) (hmem : client ∈ st.movable) :
    (st.move o schedule client).Gives fun st' _ =>
      st.GoesTo o settings st' ∧ st'.movesLeft o < st.movesLeft o := by
  obtain ⟨c, hget, hmove⟩ := mem_movable_iff.mp hmem
  simp only [State.move, hget]
  apply (Client.move_gives h.sound h.kept h.aligned (h.seated client c hget) hmove).bind
  rintro ⟨c', s'⟩ events ⟨hmoves, hturn⟩
  obtain ⟨started, htends, hbusy⟩ := hturn.tends
  have hnow : s'.now = st.session.now := htends.now
  refine gives_pure_iff.mpr ⟨⟨h.tend hget htends hturn.seated, htends.clock, htends.now,
    htends.cancelled, fun hrunning => running_tends hrunning htends, ?_⟩, ?_⟩
  · intro millis hgrace
    have hle := hbusy millis (by rwa [h.grace])
    have hclients := sum_map_set (b := c') (Client.busyFor o millis st.session.now) hget
    have hexpiries : graceLeft s'.expiries st.session.now =
        graceLeft started st.session.now + graceLeft st.session.expiries st.session.now := by
      rw [← Session.graceLeft_append]
      exact (htends.expiries.map _).sum_nat
    simp only [busyFor, hnow, hexpiries]
    dsimp only at hle
    omega
  · have hsum := sum_map_set (b := c') (Client.movesLeft o) hget
    simp only [State.movesLeft]
    dsimp only at hmoves
    omega

theorem Orderly.movesLeft_pos (h : st.Orderly o settings) (hmem : client ∈ st.movable) :
    0 < st.movesLeft o := by
  obtain ⟨st', events, -, -, hlt⟩ := move_gives .inOrder h hmem
  exact Nat.lt_of_le_of_lt (Nat.zero_le _) hlt

theorem settleWithin_gives (h : st.Orderly o settings) {moves : Nat}
    (hmoves : st.movesLeft o ≤ moves) :
    (settleWithin o schedule moves st).Gives fun st' _ =>
      st.GoesTo o settings st' ∧ st'.movable = [] := by
  -- Every move leaves fewer moves, so there are as many turns as anyone can want.
  induction moves generalizing st with
  | zero =>
      refine gives_pure_iff.mpr ⟨.refl h, List.eq_nil_iff_forall_not_mem.mpr fun client hmem => ?_⟩
      have hpos := h.movesLeft_pos hmem
      omega
  | succ moves ih =>
      simp only [settleWithin]
      cases hnext : st.movable[schedule.next st % st.movable.length]? with
      | none =>
          refine gives_pure_iff.mpr ⟨.refl h, List.length_eq_zero_iff.mp ?_⟩
          have hle := List.getElem?_eq_none_iff.mp hnext
          rcases Nat.eq_zero_or_pos st.movable.length with hzero | hpos
          · exact hzero
          · exact absurd (Nat.mod_lt _ hpos) (Nat.not_lt.mpr hle)
      | some client =>
          apply (move_gives schedule h (List.mem_of_getElem? hnext)).bind
          rintro st' first ⟨hgoes, hlt⟩
          refine (ih hgoes.orderly (by omega)).mono ?_
          rintro st'' later ⟨hrest, hsettled⟩
          exact ⟨hgoes.trans hrest, hsettled⟩

theorem Orderly.none_lost (h : st.Orderly o settings)
    (hroom : ∀ flow, st.session.now + settings.grace.span flow ≤ st.session.clock.last) :
    ∀ c ∈ st.clients, c.phase ≠ .lost := by
  intro c hc hphase
  obtain ⟨client, hget⟩ := List.getElem?_of_mem hc
  obtain ⟨-, -, -, flow, hlate⟩ := (h.seated client c hget).fits_of_phase hphase
  rw [h.grace] at hlate
  exact absurd (hroom flow) (Nat.not_le.mpr hlate)

/-- Whatever the schedule, clients go on until none can. -/
theorem settle_gives (h : st.Orderly o settings) :
    (settle o schedule st).Gives fun st' _ => st.GoesTo o settings st' ∧ st'.movable = [] := by
  apply settleWithin_gives h
  rw [foldl_add_eq, Nat.zero_add]
  exact Nat.le_refl _

theorem expireDue_gives (h : st.Orderly o settings) :
    st.session.expireDue.Gives fun s' _ =>
      st.GoesTo o settings { st with session := s' } ∧ Running s' := by
  have hperm := Session.due_perm st.session.expiries st.session.now
  simp only [Session.expireDue, List.partition_eq_filter_filter]
  obtain ⟨s', events, hok, -, hsound, -, gate, rfl⟩ :=
    Session.expireEach_gives _ (h.sound.endExpiries hperm)
  obtain ⟨hcapacity, -⟩ := (Session.expireEach_moves _ _ _ _ hok).within
  have hexpiries : ∀ e, e ∈ st.session.expiries.filter (fun e => !decide (e.due ≤ st.session.now)) ↔
      e ∈ st.session.expiries ∧ st.session.now < e.due := by
    intro e
    rw [List.mem_filter, Bool.not_eq_true', decide_eq_false_iff_not, Nat.not_le]
  refine ⟨_, events, hok, ⟨⟨hsound, h.kept, h.grace, hcapacity.trans h.capacity, h.aligned, ?_,
    h.length, ?_, h.slots⟩, rfl, rfl, rfl, ?_, ?_⟩, fun e he => ((hexpiries e).mp he).2⟩
  · exact fun e he => h.timed e ((hexpiries e).mp he).1
  · exact fun client c hget => (h.seated client c hget).of_slot_eq rfl id id
  · exact fun _ e he => ((hexpiries e).mp he).2
  · intro millis _
    have hsplit : graceLeft st.session.expiries st.session.now = _ := (hperm.map _).sum_nat
    rw [← graceLeft, Session.graceLeft_append] at hsplit
    simp only [busyFor, hsplit]
    omega

theorem pass_orderly (h : st.Orderly o settings) {millis : Nat} :
    Orderly o settings { st with session := st.session.pass (Span.ofMillis millis) } := by
  refine ⟨⟨h.sound.gate, h.sound.accounts⟩, h.kept, h.grace, h.capacity, ?_, h.timed, h.length, ?_,
    h.slots⟩
  · have haligned := h.aligned
    simp only [Session.pass, Span.ofMillis]
    omega
  · refine fun client c hget => (h.seated client c hget).of_slot_eq rfl id ?_
    rintro ⟨flow, hlate⟩
    exact ⟨flow, Nat.lt_of_lt_of_le hlate (Nat.add_le_add_right (Nat.le_add_right ..) _)⟩

/-- What a moment comes to: nobody can go on at its end, and no running grace period is over. -/
structure Passes (o : Options) (settings : Settings) (cancelAt : Option Int) (st st' : State) :
    Prop where
  orderly : st'.Orderly o settings
  clock : st'.session.clock = st.session.clock
  now : st'.session.now = st.session.now
  settled : st'.movable = []
  running : Running st'.session
  told : cancelAt = some (st.elapsedMillis : Int) → st'.session.isCancelled Client.token = true
  untold : cancelAt ≠ some (st.elapsedMillis : Int) → st'.session.cancelled = st.session.cancelled
  busy : ∀ millis, (∀ flow, settings.grace.span flow ≤ Span.ofMillis millis) →
    st'.busyFor o millis ≤ st.busyFor o millis

theorem cancel_orderly (h : st.Orderly o settings) :
    Orderly o settings
      { st with session :=
        { st.session with cancelled := st.session.cancelled.insert Client.token () } } := by
  refine ⟨⟨h.sound.gate, h.sound.accounts⟩, h.kept, h.grace, h.capacity, h.aligned, h.timed,
    h.length, ?_, h.slots⟩
  intro client c hget
  refine (h.seated client c hget).of_slot_eq rfl (fun _ => ?_) id
  exact Catalog.contains_insert_iff.mpr (.inl rfl)

theorem tellToGiveUp_gives (h : st.Orderly o settings) :
    (st.tellToGiveUp o schedule cancelAt).Gives fun st' _ =>
      st'.Orderly o settings ∧ st'.session.clock = st.session.clock ∧
        st'.session.now = st.session.now ∧
        (cancelAt = some (st.elapsedMillis : Int) → st'.session.isCancelled Client.token = true) ∧
        (cancelAt ≠ some (st.elapsedMillis : Int) → st' = st) ∧
        ∀ millis, (∀ flow, settings.grace.span flow ≤ Span.ofMillis millis) →
          st'.busyFor o millis ≤ st.busyFor o millis := by
  unfold tellToGiveUp
  split
  · rename_i hnow
    have hcancel : (st.session.step (.cancel Client.token)).Gives fun r _ =>
        r = (.done, { st.session with cancelled := st.session.cancelled.insert Client.token () }) :=
      gives_pure_iff.mpr rfl
    apply hcancel.bind
    rintro _ events rfl
    refine (settle_gives (cancel_orderly h)).mono ?_
    rintro st' later ⟨hgoes, -⟩
    refine ⟨hgoes.orderly, hgoes.clock, hgoes.now, fun _ => ?_, fun hnot => absurd hnow hnot,
      hgoes.busy⟩
    rw [Session.isCancelled, hgoes.cancelled]
    exact Catalog.contains_insert_iff.mpr (.inl rfl)
  · rename_i hnot
    exact gives_pure_iff.mpr
      ⟨h, rfl, rfl, fun hnow => absurd hnow hnot, fun _ => rfl, fun _ _ => Nat.le_refl _⟩

theorem instant_gives (h : st.Orderly o settings) :
    (st.instant o schedule cancelAt).Gives fun st' _ => st.Passes o settings cancelAt st' := by
  apply (tellToGiveUp_gives h).bind
  rintro told first ⟨horderly, hclock, hnow, htold, huntold, hbusy⟩
  apply (expireDue_gives horderly).bind
  rintro s' later ⟨hexpires, hrunning⟩
  refine (settle_gives hexpires.orderly).mono ?_
  rintro st' last ⟨hgoes, hsettled⟩
  have hboth := hexpires.trans hgoes
  refine ⟨hgoes.orderly, hboth.clock.trans hclock, hboth.now.trans hnow, hsettled,
    hgoes.running hrunning, ?_, ?_, ?_⟩
  · intro hwhen
    rw [Session.isCancelled, hboth.cancelled]
    exact htold hwhen
  · intro hwhen
    rw [hboth.cancelled, huntold hwhen]
  · exact fun millis hgrace => Nat.le_trans (hboth.busy millis hgrace) (hbusy millis hgrace)

/--
What holds before each moment holds at the end of a run that is cut off, and what a moment comes to when it
finishes the clients holds at the end of a run in which they finish.
-/
theorem runFor_gives (Before After : State → Prop) {millis : Nat} (h : Before st)
    (hinstant : ∀ st, Before st → (st.instant o schedule cancelAt).Gives fun st' _ =>
      st'.session.now = st.session.now ∧ (st'.isFinished = true → After st') ∧
        (st'.isFinished = false →
          Before { st' with session := st'.session.pass (Span.ofMillis 1) })) :
    (st.runFor o schedule cancelAt millis).Gives fun st' _ =>
      st'.isFinished = true ∧ After st' ∨
        Before st' ∧ st'.session.now = st.session.now + Span.ofMillis millis := by
  induction millis generalizing st with
  | zero => exact gives_pure_iff.mpr (.inr ⟨h, rfl⟩)
  | succ millis ih =>
      apply (hinstant st h).bind
      rintro st' first ⟨hnow, hafter, hbefore⟩
      split
      · rename_i hfinished
        exact gives_pure_iff.mpr (.inl ⟨hfinished, hafter hfinished⟩)
      · rename_i hunfinished
        refine (ih (hbefore (Bool.eq_false_iff.mpr hunfinished))).mono ?_
        rintro st'' later (hend | ⟨hstill, hlater⟩)
        · exact .inl hend
        · refine .inr ⟨hstill, ?_⟩
          rw [hlater]
          simp only [Session.pass, hnow, Span.ofMillis]
          omega

theorem new_orderly (o : Options) (settings : Settings) (clock : Clock) :
    (State.new o settings clock).Orderly o settings := by
  refine ⟨Session.sound_new settings clock true, rfl, rfl, rfl, rfl, ?_, List.length_replicate, ?_,
    ?_⟩
  · intro e he
    cases he
  · intro client c hget
    obtain ⟨hlt, hc⟩ := List.getElem?_eq_some_iff.mp hget
    simp only [State.new, List.getElem_replicate] at hc
    subst hc
    exact ⟨⟨rfl, rfl⟩, nofun⟩
  · intro slot content hslot
    cases hslot

/-- If clients have been told to give up and none can go on, all are finished that are not lost. -/
theorem finished_of_settled (h : st.movable = []) (hwhole : ∀ c ∈ st.clients, c.phase ≠ .lost)
    (htold : st.session.isCancelled Client.token = true) : st.isFinished = true := by
  rw [isFinished, List.all_eq_true]
  intro c hc
  obtain ⟨client, hlt, rfl⟩ := List.getElem_of_mem hc
  have hstays := stays_of_settled h (List.getElem?_eq_getElem hlt)
  have hthere := hwhole _ (List.getElem_mem hlt)
  apply beq_iff_eq.mpr
  apply Classical.byContradiction
  exact fun hunfinished => hstays (Client.canMove_of_told htold hunfinished hthere)

end State

/-- No check fails in a simulation. -/
theorem run_orderly (o : Options) (settings : Settings) (clock : Clock) (schedule : Schedule)
    (cancelAt : Option Int) (millis : Nat) :
    (run o settings clock schedule cancelAt millis).Gives fun st _ => st.Orderly o settings := by
  have hinstant : ∀ st : State, st.Orderly o settings →
      (st.instant o schedule cancelAt).Gives fun st' _ => st'.session.now = st.session.now ∧
        (st'.isFinished = true → st'.Orderly o settings) ∧
        (st'.isFinished = false →
          State.Orderly o settings { st' with session := st'.session.pass (Span.ofMillis 1) }) := by
    intro st h
    refine (State.instant_gives h).mono ?_
    rintro st' events hpasses
    exact ⟨hpasses.now, fun _ => hpasses.orderly, fun _ => State.pass_orderly hpasses.orderly⟩
  refine (State.runFor_gives (State.Orderly o settings) (State.Orderly o settings)
    (State.new_orderly o settings clock) hinstant).mono ?_
  rintro st events (⟨-, h⟩ | ⟨h, -⟩) <;> exact h

end Simulation

end FlowGate
