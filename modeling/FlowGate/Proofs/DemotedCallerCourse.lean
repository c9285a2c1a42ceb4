import FlowGate.Proofs.DemotedCallerSteps
import FlowGate.Proofs.WaitOutcomes

namespace FlowGate

def Slot.number? : Slot → Option Nat
  | .waiting _ ticket => some ticket.id
  | _ => none

namespace Session

variable {n : Option Nat} {q : Priority} {slot name token : String} {c : Slot} {s s' a b : Session}
  {t : Ticket} {request : Request} {events events' : List Event} {id : Nat}

/-- A number was given out, and its ticket is neither queued nor active any more. -/
structure Spent (s : Session) (id : Nat) : Prop where
  issued : id < s.nextId
  absent : ∀ u, u.id = id → ¬s.gate.Waits u ∧ ¬s.gate.Inside u

theorem Spent.later {ended : Ticket → Prop} (h : s.Spent id) (hevolves : s.Evolves ended s') :
    s'.Spent id := by
  refine ⟨Nat.lt_of_lt_of_le h.issued hevolves.nextId_le, ?_⟩
  rintro u rfl
  obtain ⟨hwaits, hinside⟩ := h.absent u rfl
  constructor
  · intro hu
    rcases hevolves.gate.waits u hu with hnew | hold
    · exact Nat.not_le_of_lt h.issued hnew
    · exact hwaits hold
  · intro hu
    rcases hevolves.gate.inside u hu with hnew | hold | hold
    · exact Nat.not_le_of_lt h.issued hnew
    · exact hwaits hold
    · exact hinside hold

theorem spent_of_withdrawn (haccounts : s.Accounts []) (ht : s.gate.Waits t) {waiting : WaitList}
    (hwaits : ∀ u, Gate.Waits { s.gate with waiting } u ↔ u ≠ t ∧ s.gate.Waits u) :
    Spent { s with gate := { s.gate with waiting } } t.id := by
  refine ⟨haccounts.id_lt_of_waits ht, fun u hid => ⟨fun hu => ?_, fun hu => ?_⟩⟩
  · obtain ⟨hne, hold⟩ := (hwaits u).mp hu
    exact hne (hold.eq_of_id_eq ht hid)
  · exact haccounts.id_ne_of_waits_of_inside ht hu hid.symm

/--
What it comes to in two sessions that a step is taken. The caller of a slot is where it was in both; or it
is queued in both, having asked for the first time; or it is gone, and the sessions are equal; or it is
let in as soon as it asks.
-/
inductive Beside (q : Priority) (slot : String) : Slot → Session → Session → Prop where
  | still {c : Slot} {a b : Session} (h : a.Demotes c.number? q slot c b) : Beside q slot c a b
  | queued {token : String} {t : Ticket} {a b : Session}
      (h : a.Demotes (some t.id) q slot (.waiting token t) b) (hwaits : a.gate.Waits t) :
      Beside q slot (.prepared token t.toRequest) a b
  | gone {c : Slot} {a : Session} (hnone : a.slots.get? slot = none)
      (hspent : ∀ id, c.number? = some id → a.Spent id) : Beside q slot c a a
  | entered {token : String} {request : Request} {u : Ticket} {a b : Session}
      (hthere : b.slots.get? slot = some (.holding u)) : Beside q slot (.prepared token request) a b

theorem beside_of_clearSlot
    (hothers : ∀ name, name ≠ slot → s'.slots.get? name = s.slots.get? name)
    (hrest : s' = { s with slots := s'.slots })
    (hspent : ∀ id, c.number? = some id → s.Spent id) :
    Beside q slot c (s.clearSlot slot) (s'.clearSlot slot) := by
  have herase : s'.slots.erase slot = s.slots.erase slot := by
    apply Catalog.ext_get?
    intro name
    rcases Classical.em (name = slot) with rfl | hname
    · rw [Catalog.get?_erase_self, Catalog.get?_erase_self]
    · rw [Catalog.get?_erase_of_ne _ hname, Catalog.get?_erase_of_ne _ hname, hothers name hname]
  have hsame : s'.clearSlot slot = s.clearSlot slot := by
    unfold Session.clearSlot
    rw [herase, hrest]
  rw [hsame]
  refine .gone (Catalog.get?_erase_self ..) fun id hid => ?_
  exact ⟨(hspent id hid).issued, (hspent id hid).absent⟩

theorem Demotes.leaves (h : s.Demotes n q slot c s') {g g' : Gate} (hgate : g' = g)
    (hspent : ∀ id, c.number? = some id → Spent { s with gate := g } id) :
    Beside q slot c ({ s with gate := g }.clearSlot slot) ({ s' with gate := g' }.clearSlot slot) := by
  refine beside_of_clearSlot h.others ?_ hspent
  rw [h.rest, hgate]

section Ask

variable {r r' : Answer × Session}

theorem ask_beside (hsound : s.Sound []) (hsound' : s'.Sound []) (halive : s.alive = true)
    (halive' : s'.alive = true)
    (hothers : ∀ name, name ≠ slot → s'.slots.get? name = s.slots.get? name)
    (hrest : s' = { s with slots := s'.slots }) (hlower : q.level ≤ request.priority.level)
    (hok : s.ask slot token request = .ok r events)
    (hok' : s'.ask slot token { request with priority := q } = .ok r' events') :
    r'.1 = r.1 ∧ Beside q slot (.prepared token request) r.2 r'.2 := by
  have haccounts := hsound.accounts halive
  obtain ⟨slots', rfl⟩ : ∃ slots', s' = { s with slots := slots' } := ⟨_, hrest⟩
  obtain ⟨-, -, hasked⟩ := (ask_gives hsound.gate haccounts).of_eq_ok hok
  obtain ⟨-, hgate', hasked'⟩ := (ask_gives hsound'.gate (hsound'.accounts halive')).of_eq_ok hok'
  have hsame : r'.1 = r.1 := by
    refine Asked.same_answer ?_ ?_ ?_ ?_ ?_ hasked hasked' <;> rfl
  obtain ⟨answer, a⟩ := r
  obtain ⟨answer', b⟩ := r'
  obtain rfl : answer' = answer := hsame
  refine ⟨rfl, ?_⟩
  cases hasked with
  | entered =>
      cases hasked'
      exact .entered (Catalog.get?_insert_self ..)
  | refused =>
      cases hasked'
      exact beside_of_clearSlot (s := { s with nextId := s.nextId + 1 }) hothers rfl nofun
  | pending _ _ _ waiting hwaits =>
      cases hasked' with
      | pending _ _ _ waiting' hwaits' =>
          have hqueued := Gate.demotes_of_queue (t := s.nextTicket request)
            (fun u hu => Nat.ne_of_lt (haccounts.id_lt_of_waits hu)) hlower hgate'.agree hwaits hwaits'
          refine .queued (t := s.nextTicket request) ⟨rfl, Catalog.get?_insert_self ..,
            Catalog.get?_insert_self .., ?_, ?_, hqueued, rfl⟩ ((hwaits _).mpr (.inl rfl))
          · intro name hname
            refine (Catalog.get?_insert_of_ne _ _ hname).trans ((hothers name hname).trans ?_)
            exact (Catalog.get?_insert_of_ne _ _ hname).symm
          · rintro _ ⟨rfl⟩
            exact ⟨token, _, rfl, rfl⟩

theorem askAgain_beside (h : s.Demotes (some t.id) q slot (.waiting token t) s') (hsound : s.Sound [])
    (hsound' : s'.Sound []) (ht : s.gate.Waits t) (hok : s.askAgain slot token t = .ok r events)
    (hok' : s'.askAgain slot token { t with priority := q } = .ok r' events') :
    r'.1 = r.1 ∧ Beside q slot (.waiting token t) r.2 r'.2 := by
  have haccounts := hsound.accounts h.alive
  have haccounts' := hsound'.accounts h.alive'
  obtain ⟨-, hgate, hasked⟩ := (askAgain_gives hsound.gate haccounts h.here).of_eq_ok hok
  obtain ⟨-, hgate', hasked'⟩ := (askAgain_gives hsound'.gate haccounts' h.there).of_eq_ok hok'
  have hcancelled := h.isCancelled_eq token
  have hsame : r'.1 = r.1 := by
    refine AskedAgain.same_answer haccounts haccounts' h.gate.called_eq hcancelled ?_ hasked hasked'
    rfl
  obtain ⟨answer, a⟩ := r
  obtain ⟨answer', b⟩ := r'
  obtain rfl : answer' = answer := hsame
  refine ⟨rfl, ?_⟩
  cases hasked with
  | entered hcalling => exact absurd hcalling ((haccounts.waits_iff t).mp ht).2
  | pending =>
      cases hasked'
      exact .still h
  | refused _ _ waiting hwaits =>
      cases hasked' with
      | refused _ _ waiting' hwaits' =>
          apply h.leaves (h.gate.withdraw_self ht hgate.agree hgate'.agree hwaits hwaits')
          rintro _ ⟨rfl⟩
          exact spent_of_withdrawn haccounts ht hwaits

end Ask

section Own

variable (h : s.Demotes c.number? q slot c s') (hsound : s.Sound []) (hsound' : s'.Sound [])
  (hwaits : ∀ token t, c = .waiting token t → s.gate.Waits t)

include h hsound hsound' hwaits

theorem Demotes.leave_self {r r' : Reply × Session} (hok : s.leave slot c = .ok r events)
    (hok' : s'.leave slot (c.withPriority q) = .ok r' events') :
    r'.1 = r.1 ∧ Beside q slot c r.2 r'.2 := by
  cases c with
  | prepared token request =>
      cases hok
      cases hok'
      exact ⟨rfl, h.leaves (h.gate.eq hsound.gate.agree) nofun⟩
  | waiting token t =>
      have ht := hwaits token t rfl
      have ht' : s'.gate.Waits { t with priority := q } :=
        (h.gate.waits_iff _).mpr ⟨t, ht, Ticket.demote_self t q⟩
      obtain ⟨_, _, _, habandon, hpure, -⟩ := Logged.bind_eq_ok_iff.mp hok
      obtain ⟨_, _, _, habandon', hpure', -⟩ := Logged.bind_eq_ok_iff.mp hok'
      obtain ⟨r, _, _, hwithdraw, hrest, -⟩ := Logged.bind_eq_ok_iff.mp habandon
      obtain ⟨r', _, _, hwithdraw', hrest', -⟩ := Logged.bind_eq_ok_iff.mp habandon'
      obtain ⟨-, waiting, rfl, hgate, hgone⟩ :=
        (Gate.withdraw?_gives hsound.gate ht).of_eq_ok hwithdraw
      obtain ⟨-, waiting', rfl, hgate', hgone'⟩ :=
        (Gate.withdraw?_gives hsound'.gate ht').of_eq_ok hwithdraw'
      cases hrest
      cases hrest'
      cases hpure
      cases hpure'
      refine ⟨rfl, h.leaves (h.gate.withdraw_self ht hgate.agree hgate'.agree hgone hgone') ?_⟩
      rintro _ ⟨rfl⟩
      exact spent_of_withdrawn (hsound.accounts h.alive) ht hgone
  | holding t => cases h.isOpen
  | stranded t => cases h.isOpen

variable (hlower : q.level ≤ c.request.priority.level)

include hlower

theorem Demotes.poll?_self {polled polled' : Option (Answer × Session)}
    (hok : s.poll? slot = .ok polled events) (hok' : s'.poll? slot = .ok polled' events') :
    polled'.map (·.1) = polled.map (·.1) ∧
      Beside q slot c (polled.elim s (·.2)) (polled'.elim s' (·.2)) := by
  unfold Session.poll? at hok hok'
  rw [h.here] at hok
  rw [h.there] at hok'
  cases c with
  | prepared token request =>
      obtain ⟨r, hask, rfl⟩ := Logged.bind_pure_eq_ok hok
      obtain ⟨r', hask', rfl⟩ := Logged.bind_pure_eq_ok hok'
      have hrest : s' = { s with slots := s'.slots } := by
        have hgate := h.gate.eq hsound.gate.agree
        rw [h.rest, hgate]
      obtain ⟨hanswer, hbeside⟩ :=
        ask_beside hsound hsound' h.alive h.alive' h.others hrest hlower hask hask'
      exact ⟨congrArg some hanswer, hbeside⟩
  | waiting token t =>
      obtain ⟨r, hask, rfl⟩ := Logged.bind_pure_eq_ok hok
      obtain ⟨r', hask', rfl⟩ := Logged.bind_pure_eq_ok hok'
      obtain ⟨hanswer, hbeside⟩ :=
        askAgain_beside h hsound hsound' (hwaits token t rfl) hask hask'
      exact ⟨congrArg some hanswer, hbeside⟩
  | holding t => cases h.isOpen
  | stranded t => cases h.isOpen

end Own

section Polls

variable {names : List String} {r r' : List (String × Answer) × Session}

theorem get?_of_pollEach (hsound : s.gate.Sound) (haccounts : s.Accounts []) (hnot : slot ∉ names)
    (hok : s.pollEach names = .ok r events) : r.2.slots.get? slot = s.slots.get? slot := by
  induction names generalizing s r events with
  | nil =>
      cases hok
      rfl
  | cons name names ih =>
      obtain ⟨hname, hnot⟩ := List.ne_and_not_mem_of_not_mem_cons hnot
      obtain ⟨polled, _, answers, _, hpoll, hmore, -⟩ := pollEach_cons_eq_ok hok
      obtain ⟨hsound', haccounts'⟩ := sound_of_poll? hsound haccounts hpoll
      refine (ih hsound' haccounts' hnot hmore).trans ?_
      have hboth : s.Sound [] := ⟨hsound, fun _ => haccounts⟩
      obtain ⟨-, -, hsome⟩ := (poll?_gives hboth name).of_eq_ok hpoll
      rcases polled with _ | ⟨answer, a⟩
      · rfl
      · exact ((hsome answer a rfl).2.answered hboth).others slot hname

theorem rows_eq (name : String) {polled polled' : Option (Answer × Session)}
    {rows rows' : List (String × Answer)} (hanswer : polled'.map (·.1) = polled.map (·.1))
    (hrows : rows' = rows) :
    (polled'.map fun answered => (name, answered.1)).toList ++ rows' =
      (polled.map fun answered => (name, answered.1)).toList ++ rows := by
  have hrow := congrArg (Option.map (Prod.mk name)) hanswer
  rw [Option.map_map, Option.map_map] at hrow
  exact congrArg₂ (fun row rows => Option.toList row ++ rows) hrow hrows

theorem waits_of_pollEach (hsound : s.Sound []) (haccounts : s.Accounts [])
    (hget : r.2.slots.get? slot = some (.waiting token t)) (hwaits : s.gate.Waits t)
    (hok : s.pollEach names = .ok r events) : r.2.gate.Waits t := by
  have hpolled := ((pollEach_gives hsound.gate haccounts names).of_eq_ok hok).2.2
  rcases waits_or_calling hpolled.accounts hget with hstill | hcalling
  · exact hstill
  · exact absurd (hpolled.calling t hcalling) ((haccounts.waits_iff t).mp hwaits).2

theorem Demotes.pollEach (h : s.Demotes n q slot c s') (hsound : s.Sound []) (hsound' : s'.Sound [])
    (hnot : slot ∉ names) (hok : s.pollEach names = .ok r events)
    (hok' : s'.pollEach names = .ok r' events') : r'.1 = r.1 ∧ r.2.Demotes n q slot c r'.2 := by
  induction names generalizing s s' r r' events events' with
  | nil =>
      cases hok
      cases hok'
      exact ⟨rfl, h⟩
  | cons name names ih =>
      obtain ⟨hname, hnot⟩ := List.ne_and_not_mem_of_not_mem_cons hnot
      obtain ⟨polled, _, answers, _, hpoll, hmore, hanswers⟩ := pollEach_cons_eq_ok hok
      obtain ⟨polled', _, answers', _, hpoll', hmore', hanswers'⟩ := pollEach_cons_eq_ok hok'
      obtain ⟨hgate, haccounts⟩ := sound_of_poll? hsound.gate (hsound.accounts h.alive) hpoll
      obtain ⟨hgate', haccounts'⟩ := sound_of_poll? hsound'.gate (hsound'.accounts h.alive') hpoll'
      obtain ⟨hanswer, hpolled⟩ := h.poll? hsound hsound' hname.symm hpoll hpoll'
      obtain ⟨hrest, hdemotes⟩ := ih hpolled ⟨hgate, fun _ => haccounts⟩ ⟨hgate', fun _ => haccounts'⟩
        hnot hmore hmore'
      refine ⟨?_, hdemotes⟩
      rw [hanswers, hanswers']
      exact rows_eq name hanswer hrest

theorem Beside.pollEach (h : Beside q slot c s s') (hsound : s.Sound []) (hsound' : s'.Sound [])
    (haccounts : s.Accounts []) (haccounts' : s'.Accounts []) (hnot : slot ∉ names)
    (hok : s.pollEach names = .ok r events) (hok' : s'.pollEach names = .ok r' events') :
    Beside q slot c r.2 r'.2 ∧
      ((∀ u, r'.2.slots.get? slot ≠ some (.holding u)) → r'.1 = r.1) := by
  cases h with
  | still h =>
      obtain ⟨hanswers, hdemotes⟩ := h.pollEach hsound hsound' hnot hok hok'
      exact ⟨.still hdemotes, fun _ => hanswers⟩
  | queued h hwaits =>
      obtain ⟨hanswers, hdemotes⟩ := h.pollEach hsound hsound' hnot hok hok'
      refine ⟨.queued hdemotes ?_, fun _ => hanswers⟩
      exact waits_of_pollEach hsound haccounts hdemotes.here hwaits hok
  | gone hnone hspent =>
      rw [hok] at hok'
      cases hok'
      have hpolled := (pollEach_gives hsound.gate haccounts names).of_eq_ok hok
      refine ⟨.gone ?_ fun id hid => (hspent id hid).later hpolled.2.2.evolves, fun _ => rfl⟩
      rw [get?_of_pollEach hsound.gate haccounts hnot hok, hnone]
  | entered hthere =>
      have hpolled := (pollEach_gives hsound'.gate haccounts' names).of_eq_ok hok'
      have hholds := hpolled.2.2.holdings slot _ hthere
      exact ⟨.entered hholds, fun hnobody => absurd hholds (hnobody _)⟩

end Polls

section Steps

variable {st : Step} {r r' : Reply × Session}

theorem Demotes.openSlots_eq (h : s.Demotes n q slot c s') : s'.openSlots = s.openSlots := by
  rw [openSlots_eq_iff s.openSlots_ascending]
  intro name
  rw [mem_openSlots_iff, mem_openSlots_iff]
  rcases Classical.em (name = slot) with rfl | hname
  · refine iff_of_true ⟨c, h.here, h.isOpen⟩ ⟨_, h.there, ?_⟩
    exact Slot.isOpen_withPriority.trans h.isOpen
  · rw [h.others name hname]

variable (h : s.Demotes c.number? q slot c s') (hsound : s.Sound []) (hsound' : s'.Sound [])
  (hwaits : ∀ token t, c = .waiting token t → s.gate.Waits t)

include h hsound hsound' hwaits

omit hsound' in
theorem Demotes.keeps (hothers : st.isOf slot = false) (hall : st ≠ .pollAll)
    (hok : s.step st = .ok r events) (hout : ∀ token t, c = .waiting token t → ¬r.2.gate.Inside t) :
    s.gate.Keeps c.number? r.2.gate := by
  have hself : s.Demotes none c.request.priority slot c s := by
    refine ⟨h.isOpen, h.here, ?_, fun _ _ => rfl, nofun, .refl hsound.gate.agree _, rfl⟩
    rw [Slot.withPriority_self, h.here]
  have hhere := (hself.step hsound hsound hothers hall hok hok fun _ _ => nofun).demotes.here
  have hproceeds := (step_gives hsound st).of_eq_ok hok
  intro t ht hid
  obtain ⟨token, u, rfl, hu⟩ := h.number _ hid
  have hwaits' := hwaits token u rfl
  obtain rfl := hwaits'.eq_of_id_eq ht hu
  have haccounts := hproceeds.sound.accounts (alive_of_open hhere rfl)
  exact waits_of_not_inside haccounts hhere (hout token u rfl)

theorem Demotes.drop_beside (hok : s.step (.drop slot) = .ok r events)
    (hok' : s'.step (.drop slot) = .ok r' events') : r'.1 = r.1 ∧ Beside q slot c r.2 r'.2 := by
  rw [Session.step, h.here] at hok
  rw [Session.step, h.there] at hok'
  exact h.leave_self hsound hsound' hwaits hok hok'

variable (hlower : q.level ≤ c.request.priority.level)

include hlower

theorem Demotes.poll_beside (hok : s.step (.poll slot) = .ok r events)
    (hok' : s'.step (.poll slot) = .ok r' events') : r'.1 = r.1 ∧ Beside q slot c r.2 r'.2 := by
  obtain ⟨polled, _, _, hpoll, hrest, -⟩ := Logged.bind_eq_ok_iff.mp hok
  obtain ⟨polled', _, _, hpoll', hrest', -⟩ := Logged.bind_eq_ok_iff.mp hok'
  obtain ⟨hanswer, hbeside⟩ := h.poll?_self hsound hsound' hwaits hlower hpoll hpoll'
  rcases polled with _ | ⟨answer, a⟩ <;> rcases polled' with _ | ⟨answer', b⟩
  · cases hrest
    cases hrest'
    exact ⟨rfl, hbeside⟩
  · cases hanswer
  · cases hanswer
  · obtain rfl : answer' = answer := Option.some.inj hanswer
    cases hrest
    cases hrest'
    exact ⟨rfl, hbeside⟩

theorem Demotes.pollAll_beside (hok : s.step .pollAll = .ok r events)
    (hok' : s'.step .pollAll = .ok r' events') :
    Beside q slot c r.2 r'.2 ∧
      ((∀ u, r'.2.slots.get? slot ≠ some (.holding u)) → r'.1 = r.1) := by
  have haccounts := hsound.accounts h.alive
  have haccounts' := hsound'.accounts h.alive'
  obtain ⟨each, _, _, heach, hpure, -⟩ := Logged.bind_eq_ok_iff.mp hok
  obtain ⟨each', _, _, heach', hpure', -⟩ := Logged.bind_eq_ok_iff.mp hok'
  obtain ⟨first, rest, hsplit, hfirst, hrest⟩ :=
    openSlots_split (mem_openSlots_iff.mpr ⟨c, h.here, h.isOpen⟩)
  rw [hsplit] at heach
  rw [h.openSlots_eq, hsplit] at heach'
  obtain ⟨past, _, polled, _, answers, _, hpast, hpoll, hlast, hanswers, hsound₁, hsound₂, -⟩ :=
    pollEach_split haccounts hsound.gate heach
  obtain ⟨past', _, polled', _, answers', _, hpast', hpoll', hlast', hanswers', hsound₁', hsound₂', -⟩ :=
    pollEach_split haccounts' hsound'.gate heach'
  obtain ⟨hbefore, hdemotes⟩ := h.pollEach hsound hsound' hfirst hpast hpast'
  have hwaits' : ∀ token t, c = .waiting token t → past.2.gate.Waits t := by
    rintro token t rfl
    exact waits_of_pollEach hsound haccounts hdemotes.here (hwaits token t rfl) hpast
  obtain ⟨hanswer, hbeside⟩ := hdemotes.poll?_self hsound₁ hsound₁' hwaits' hlower hpoll hpoll'
  have hpolled := (sound_of_poll? hsound₁.gate (hsound₁.accounts hdemotes.alive) hpoll).2
  have hpolled' := (sound_of_poll? hsound₁'.gate (hsound₁'.accounts hdemotes.alive') hpoll').2
  obtain ⟨hbeside, hafter⟩ := hbeside.pollEach hsound₂ hsound₂' hpolled hpolled' hrest hlast hlast'
  cases hpure
  cases hpure'
  refine ⟨hbeside, fun hnobody => ?_⟩
  rw [hanswers, hanswers']
  exact congrArg Reply.answers (congrArg₂ (· ++ ·) hbefore (rows_eq slot hanswer (hafter hnobody)))

/-- Any step is replied to alike as long as the caller is not let in. -/
theorem Demotes.step_beside (hok : s.step st = .ok r events) (hok' : s'.step st = .ok r' events')
    (hout : ∀ token t, c = .waiting token t → ¬r.2.gate.Inside t) :
    Beside q slot c r.2 r'.2 ∧
      ((∀ u, r'.2.slots.get? slot ≠ some (.holding u)) → r'.1 = r.1) := by
  rcases Classical.em (st = .pollAll) with rfl | hall
  · exact h.pollAll_beside hsound hsound' hwaits hlower hok hok'
  cases hown : st.isOf slot with
  | true =>
      cases st with
      | poll name =>
          obtain rfl : name = slot := of_decide_eq_true hown
          obtain ⟨hreply, hbeside⟩ := h.poll_beside hsound hsound' hwaits hlower hok hok'
          exact ⟨hbeside, fun _ => hreply⟩
      | drop name =>
          obtain rfl : name = slot := of_decide_eq_true hown
          obtain ⟨hreply, hbeside⟩ := h.drop_beside hsound hsound' hwaits hok hok'
          exact ⟨hbeside, fun _ => hreply⟩
      | _ => cases hown
  | false =>
      have hkeeps : s.gate.Keeps c.number? r.2.gate := h.keeps hsound hwaits hown hall hok hout
      obtain ⟨hreply, hdemotes⟩ := h.step hsound hsound' hown hall hok hok' hkeeps
      exact ⟨.still hdemotes, fun _ => hreply⟩

end Steps

end Session

end FlowGate
