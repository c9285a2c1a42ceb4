import FlowGate.Proofs.GateMoves
import FlowGate.Proofs.GateRefill
import FlowGate.Proofs.Ownership
import FlowGate.Proofs.WaitOutcomes

namespace FlowGate

def Event.isOfGivingUp : Event → Bool
  | .deregistered _ | .withdrawn .. | .keptInside _ => true
  | _ => false

namespace Session

open Logged (Gives Yields yields_self yields_pure yields_fail gives_pure_iff)

variable {s s' s'' : Session} {slot token : String} {t : Ticket} {answer : Answer}
  {asked others : List String}

/-- What a caller who waits for a ticket is told if it asks now. -/
def answerTo (s : Session) (token : String) (t : Ticket) : Answer :=
  if s.gate.called.contains t.id then .entered t.id
  else if s.isCancelled token then .refused
  else .pending

/-- What is in a slot once a caller who waits in it has asked. -/
def afterAsking (s : Session) : Slot → Option Slot
  | .waiting token t =>
    match s.answerTo token t with
    | .entered _ => some (.holding t)
    | .refused => none
    | .pending => some (.waiting token t)
  | content => some content

def AwaitedIn (s : Session) (slots : List String) (token : String) (t : Ticket) : Prop :=
  ∃ slot ∈ slots, s.slots.get? slot = some (.waiting token t)

/-- The callers in some slots have been answered, and everything else is as it was. -/
structure HasAnswered (s : Session) (asked : List String) (s' : Session) : Prop where
  rest : ∃ slots waiting called,
    s' = { s with slots := slots, gate := { s.gate with waiting := waiting, called := called } }
  agree : s'.gate.waiting.Agree
  slot_eq : ∀ slot, s'.slots.get? slot =
    if slot ∈ asked then (s.slots.get? slot).bind s.afterAsking else s.slots.get? slot
  called_iff : ∀ id, s'.gate.called.contains id = true ↔
    s.gate.called.contains id = true ∧ ∀ token t, s.AwaitedIn asked token t → t.id ≠ id
  waits_iff : ∀ t, s'.gate.Waits t ↔
    s.gate.Waits t ∧ ∀ token, s.AwaitedIn asked token t → s.isCancelled token = false

theorem awaitedIn_cons_iff :
    s.AwaitedIn (slot :: asked) token t ↔
      s.slots.get? slot = some (.waiting token t) ∨ s.AwaitedIn asked token t :=
  List.exists_mem_cons_iff ..

theorem awaitedIn_append_iff :
    s.AwaitedIn (asked ++ others) token t ↔ s.AwaitedIn asked token t ∨ s.AwaitedIn others token t := by
  simp only [AwaitedIn, List.mem_append, or_and_right, exists_or]

theorem AwaitedIn.perm (h : s.AwaitedIn asked token t) (hperm : asked.Perm others) :
    s.AwaitedIn others token t := by
  obtain ⟨slot, hmem, hslot⟩ := h
  exact ⟨slot, hperm.mem_iff.mp hmem, hslot⟩

theorem HasAnswered.perm (h : s.HasAnswered asked s') (hperm : asked.Perm others) :
    s.HasAnswered others s' := by
  have hawaited : ∀ token t, s.AwaitedIn others token t ↔ s.AwaitedIn asked token t :=
    fun token t => ⟨fun h => h.perm hperm.symm, fun h => h.perm hperm⟩
  refine ⟨h.rest, h.agree, ?_, ?_, ?_⟩
  · simpa only [hperm.mem_iff] using h.slot_eq
  · simpa only [hawaited] using h.called_iff
  · simpa only [hawaited] using h.waits_iff

theorem HasAnswered.unique (h : s.HasAnswered asked s') (h' : s.HasAnswered asked s'') :
    s' = s'' := by
  have hslots : s'.slots = s''.slots :=
    Catalog.ext_get? fun slot => (h.slot_eq slot).trans (h'.slot_eq slot).symm
  have hwaiting : s'.gate.waiting = s''.gate.waiting :=
    h.agree.eq_of_get?_iff h'.agree fun t => (h.waits_iff t).trans (h'.waits_iff t).symm
  have hcalled : s'.gate.called = s''.gate.called := by
    apply Catalog.eq_of_contains
    intro id
    rw [Bool.eq_iff_iff, h.called_iff, h'.called_iff]
  obtain ⟨_, _, _, rfl⟩ := h.rest
  obtain ⟨_, _, _, rfl⟩ := h'.rest
  dsimp only at hslots hwaiting hcalled
  rw [hslots, hwaiting, hcalled]

theorem HasAnswered.nil (hagree : s.gate.waiting.Agree) : s.HasAnswered [] s := by
  refine ⟨⟨s.slots, s.gate.waiting, s.gate.called, rfl⟩, hagree, ?_, ?_, ?_⟩ <;>
    simp [AwaitedIn]

theorem answerTo_of_calling (hcalling : s.gate.Calling t) :
    s.answerTo token t = .entered t.id :=
  if_pos hcalling

theorem answerTo_of_silent (hsilent : ¬s.gate.Calling t) :
    s.answerTo token t = if s.isCancelled token then .refused else .pending :=
  if_neg hsilent

theorem hasAnswered_single (hslot : s.slots.get? slot = some (.waiting token t))
    (hrest : ∃ slots waiting called,
      s' = { s with slots := slots, gate := { s.gate with waiting := waiting, called := called } })
    (hagree : s'.gate.waiting.Agree) (hself : s'.slots.get? slot = s.afterAsking (.waiting token t))
    (hothers : ∀ other, other ≠ slot → s'.slots.get? other = s.slots.get? other)
    (hcalled : ∀ id, s'.gate.called.contains id = true ↔
      s.gate.called.contains id = true ∧ t.id ≠ id)
    (hwaits : ∀ u, s'.gate.Waits u ↔ s.gate.Waits u ∧ (u = t → s.isCancelled token = false)) :
    s.HasAnswered [slot] s' := by
  have hawaited : ∀ token' u, s.AwaitedIn [slot] token' u ↔ token' = token ∧ u = t := by
    intro token' u
    rw [awaitedIn_cons_iff, hslot]
    simp [AwaitedIn, eq_comm]
  refine ⟨hrest, hagree, ?_, ?_, ?_⟩
  · intro other
    rcases Classical.em (other = slot) with rfl | hne
    · rw [if_pos List.mem_cons_self, hslot, hself]
      rfl
    · rw [if_neg (by simpa using hne), hothers other hne]
  · intro id
    rw [hcalled]
    simp [hawaited]
  · intro u
    rw [hwaits]
    simp [hawaited]

theorem AskedAgain.hasAnswered (h : s.AskedAgain slot token t answer s')
    (haccounts : s.Accounts []) (hslot : s.slots.get? slot = some (.waiting token t))
    (hagree : s'.gate.waiting.Agree) :
    answer = s.answerTo token t ∧ s.HasAnswered [slot] s' := by
  have hsilent : s.gate.Waits t → ¬s.gate.Calling t := (waits_iff_not_calling haccounts hslot).mp
  cases h with
  | entered hcalling =>
      have hanswer : s.answerTo token t = _ := answerTo_of_calling hcalling
      refine ⟨hanswer.symm, hasAnswered_single hslot ⟨_, _, _, rfl⟩ hagree ?_ ?_ ?_ ?_⟩
      · rw [afterAsking, hanswer]
        exact Catalog.get?_insert_self ..
      · exact fun other hne => Catalog.get?_insert_of_ne _ _ hne
      · intro id
        exact Catalog.contains_erase_iff.trans (and_comm.trans (and_congr_right fun _ => ne_comm))
      · intro u
        refine (and_iff_left_of_imp ?_).symm
        rintro hwaits rfl
        exact absurd hcalling (hsilent hwaits)
  | pending hwaits hcancelled =>
      have hanswer : s.answerTo token t = _ := answerTo_of_silent (hsilent hwaits)
      rw [hcancelled, if_neg Bool.false_ne_true] at hanswer
      refine ⟨hanswer.symm, hasAnswered_single hslot ⟨_, _, _, rfl⟩ hagree ?_ ?_ ?_ ?_⟩
      · rw [hslot, afterAsking, hanswer]
      · exact fun other hne => rfl
      · intro id
        refine (and_iff_left_of_imp ?_).symm
        rintro hcalled rfl
        exact hsilent hwaits hcalled
      · exact fun u => (and_iff_left fun _ => hcancelled).symm
  | refused hwaits hcancelled waiting hrest =>
      have hanswer : s.answerTo token t = _ := answerTo_of_silent (hsilent hwaits)
      rw [hcancelled, if_pos rfl] at hanswer
      refine ⟨hanswer.symm, hasAnswered_single hslot ⟨_, _, _, rfl⟩ hagree ?_ ?_ ?_ ?_⟩
      · rw [afterAsking, hanswer]
        exact Catalog.get?_erase_self ..
      · exact fun other hne => Catalog.get?_erase_of_ne _ hne
      · intro id
        refine (and_iff_left_of_imp ?_).symm
        rintro hcalled rfl
        exact hsilent hwaits hcalled
      · intro u
        refine (hrest u).trans (and_comm.trans (and_congr_right fun _ => ?_))
        simp [hcancelled]

theorem HasAnswered.answerTo_eq (h : s.HasAnswered [slot] s')
    (hslot : s.slots.get? slot = some (.waiting token t)) {token' : String} {u : Ticket}
    (hid : t.id ≠ u.id) : s'.answerTo token' u = s.answerTo token' u := by
  have hcalled : s'.gate.called.contains u.id = s.gate.called.contains u.id := by
    rw [Bool.eq_iff_iff, h.called_iff]
    refine and_iff_left_of_imp fun _ token'' v hv => ?_
    rcases awaitedIn_cons_iff.mp hv with hv | ⟨_, hmem, -⟩
    · rw [hslot] at hv
      cases hv
      exact hid
    · cases hmem
  have hcancelled : s'.isCancelled token' = s.isCancelled token' := by
    obtain ⟨_, _, _, rfl⟩ := h.rest
    rfl
  rw [answerTo, hcalled, hcancelled, ← answerTo]

/-- One caller has been answered, and then the others: all of them have been answered. -/
theorem HasAnswered.cons (haccounts : s.Accounts [])
    (hslot : s.slots.get? slot = some (.waiting token t)) (hnot : slot ∉ asked)
    (h : s.HasAnswered [slot] s') (h' : s'.HasAnswered asked s'') :
    s.HasAnswered (slot :: asked) s'' := by
  have hothers : ∀ other, other ≠ slot → s'.slots.get? other = s.slots.get? other := by
    intro other hne
    rw [h.slot_eq, if_neg (by simpa using hne)]
  have hawaited : ∀ token' u, s'.AwaitedIn asked token' u ↔ s.AwaitedIn asked token' u := by
    intro token' u
    refine exists_congr fun other => and_congr_right fun hmem => ?_
    rw [hothers other fun heq => hnot (heq ▸ hmem)]
  have hboth : ∀ token' u, s.AwaitedIn (slot :: asked) token' u ↔
      s.AwaitedIn [slot] token' u ∨ s'.AwaitedIn asked token' u := by
    intro token' u
    rw [hawaited]
    exact (awaitedIn_append_iff : s.AwaitedIn ([slot] ++ asked) token' u ↔ _)
  have hcancelled : ∀ token', s'.isCancelled token' = s.isCancelled token' := by
    intro token'
    obtain ⟨_, _, _, rfl⟩ := h.rest
    rfl
  refine ⟨?_, h'.agree, ?_, ?_, ?_⟩
  · obtain ⟨_, _, _, rfl⟩ := h.rest
    obtain ⟨slots, waiting, called, rfl⟩ := h'.rest
    exact ⟨slots, waiting, called, rfl⟩
  · intro other
    rw [h'.slot_eq]
    rcases Classical.em (other = slot) with rfl | hne
    · rw [if_neg hnot, h.slot_eq, if_pos List.mem_cons_self, if_pos List.mem_cons_self]
    · simp only [hothers other hne, List.mem_cons, hne, false_or]
      split
      · cases hcontent : s.slots.get? other with
        | none => rfl
        | some content =>
            cases content with
            | prepared _ _ => rfl
            | holding _ => rfl
            | stranded _ => rfl
            | waiting token' u =>
                have hid : t.id ≠ u.id := fun hid =>
                  hne (slot_eq_of_id_eq haccounts hslot hcontent hid).symm
                simp only [Option.bind_some, afterAsking, h.answerTo_eq hslot hid]
      · rfl
  · intro id
    rw [h'.called_iff, h.called_iff, and_assoc]
    simp only [hboth, or_imp, forall_and]
  · intro u
    rw [h'.waits_iff, h.waits_iff, and_assoc]
    simp only [hboth, hcancelled, or_imp, forall_and]

theorem askAgain_givesUp (s : Session) (slot token : String) (t : Ticket) :
    (s.askAgain slot token t).Yields fun _ events =>
      ∀ event ∈ events, event.isOfGivingUp = true := by
  unfold askAgain
  split
  · exact yields_pure (by simp)
  · split
    · exact yields_fail
    · split
      · exact yields_pure (by simp)
      · refine (yields_self _).bind ?_
        rintro (_ | g') first hok
        · obtain rfl := Gate.eq_nil_of_withdraw?_eq_none hok
          refine (yields_self _).bind ?_
          rintro _ _ ⟨rfl, rfl⟩
          exact yields_pure (by simp [Event.isOfGivingUp])
        · obtain ⟨u, waiting, rfl, -⟩ := Gate.withdraw?_yields _ _ _ _ hok g' rfl
          refine (yields_self _).bind ?_
          rintro _ _ ⟨rfl, rfl⟩
          exact yields_pure (by simp [Event.isOfGivingUp])

/-- What the caller in a slot is told if it asks now; only of interest if it waits. -/
def answerIn (s : Session) (slot : String) : Answer :=
  match s.slots.get? slot with
  | some (.waiting token t) => s.answerTo token t
  | _ => .refused

theorem answerIn_of_get? (hslot : s.slots.get? slot = some (.waiting token t)) :
    s.answerIn slot = s.answerTo token t := by
  rw [answerIn, hslot]

theorem poll_hasAnswered (h : s.Sound []) (hslot : s.slots.get? slot = some (.waiting token t)) :
    (s.step (.poll slot)).Gives fun r events =>
      r.2.Sound [] ∧ r.1 = .answer (s.answerIn slot) ∧ s.HasAnswered [slot] r.2 ∧
        ∀ event ∈ events, event.isOfGivingUp = true := by
  have haccounts := h.accounts (alive_of_open hslot rfl)
  have hevents := askAgain_givesUp s slot token t
  have hsound := step_poll_gives h slot
  simp only [step, poll?, hslot, bind_assoc, pure_bind] at hsound ⊢
  obtain ⟨⟨answer, s'⟩, events, hok, -, h', hasked⟩ := askAgain_gives h.gate haccounts hslot
  rw [hok] at hsound ⊢
  obtain ⟨rfl, hanswered⟩ := hasked.hasAnswered haccounts hslot h'.agree
  refine ⟨_, events ++ [], rfl, (hsound.of_eq_ok rfl).sound, ?_, hanswered, ?_⟩
  · rw [answerIn_of_get? hslot]
  · rw [List.append_nil]
    exact hevents _ _ hok

theorem run_polls_hasAnswered (h : s.Sound []) (hnodup : asked.Nodup)
    (hwaiting : ∀ slot ∈ asked, ∃ token t, s.slots.get? slot = some (.waiting token t)) :
    (s.run (asked.map .poll)).Gives fun r events =>
      r.1 = asked.map (fun slot => .answer (s.answerIn slot)) ∧ s.HasAnswered asked r.2 ∧
        ∀ event ∈ events, event.isOfGivingUp = true := by
  induction asked generalizing s with
  | nil => exact gives_pure_iff.mpr ⟨rfl, .nil h.gate.agree, by simp⟩
  | cons slot asked ih =>
      obtain ⟨hnot, hnodup⟩ := List.nodup_cons.mp hnodup
      obtain ⟨token, t, hslot⟩ := hwaiting slot List.mem_cons_self
      have haccounts := h.accounts (alive_of_open hslot rfl)
      rw [List.map_cons, run]
      apply (poll_hasAnswered h hslot).bind
      rintro ⟨_, s'⟩ first ⟨h', rfl, hanswered, hfirst⟩
      have hothers : ∀ other ∈ asked, s'.slots.get? other = s.slots.get? other := by
        intro other hmem
        have hne : other ∉ [slot] := fun heq => hnot (List.mem_singleton.mp heq ▸ hmem)
        rw [hanswered.slot_eq, if_neg hne]
      have hlater : ∀ other ∈ asked, s'.answerIn other = s.answerIn other := by
        intro other hmem
        obtain ⟨token', u, hother⟩ := hwaiting other (List.mem_cons_of_mem slot hmem)
        have hid : t.id ≠ u.id := fun hid =>
          hnot (slot_eq_of_id_eq haccounts hslot hother hid ▸ hmem)
        rw [answerIn_of_get? hother, answerIn_of_get? ((hothers other hmem).trans hother),
          hanswered.answerTo_eq hslot hid]
      have hwaiting' : ∀ other ∈ asked, ∃ token t,
          s'.slots.get? other = some (.waiting token t) := by
        intro other hmem
        rw [hothers other hmem]
        exact hwaiting other (List.mem_cons_of_mem slot hmem)
      apply (ih h' hnodup hwaiting').bind
      rintro ⟨_, s''⟩ later ⟨rfl, hrest, hevents⟩
      refine gives_pure_iff.mpr ⟨?_, .cons haccounts hslot hnot hanswered hrest, ?_⟩
      · have hmap : asked.map (fun other => Reply.answer (s'.answerIn other)) =
            asked.map fun other => Reply.answer (s.answerIn other) :=
          List.map_congr_left fun other hmem => congrArg Reply.answer (hlater other hmem)
        exact congrArg (_ :: ·) hmap
      · rw [List.append_nil]
        exact fun event hmem => (List.mem_append.mp hmem).elim (hfirst event) (hevents event)

/--
Waiting callers may ask in any order: each is told the same, and the session comes to be the same. A caller is
let in if its ticket has been called in, refused if not but it has been told to give up, and left waiting
otherwise; nobody is let in or called in by it, and nobody leaves the wait list but those who are refused.
-/
theorem waiting_callers_ask_in_any_order (settings : Settings) (clock : Clock) (timer : Bool)
    (steps : List Step) :
    (new settings clock timer).After steps fun s =>
      ∀ slots : List String, slots.Nodup →
        (∀ slot ∈ slots, ∃ token t, s.slots.get? slot = some (.waiting token t)) →
        ∃ (answer : String → Answer) (s' : Session),
          (∀ order : List String, order.Perm slots → (s.run (order.map .poll)).Gives fun r events =>
            r = (order.map fun slot => .answer (answer slot), s') ∧
              ∀ event ∈ events, event.isOfGivingUp = true) ∧
          (∀ slot ∈ slots, ∀ token t, s.slots.get? slot = some (.waiting token t) →
            answer slot = s.answerTo token t) ∧
          s'.gate.active = s.gate.active ∧
          (∀ t, s'.gate.Calling t → s.gate.Calling t) ∧
          ∀ t, s.gate.Waits t → s'.gate.Waits t ∨ ∃ slot ∈ slots, answer slot = .refused ∧
            ∃ token, s.slots.get? slot = some (.waiting token t) := by
  refine (run_proceeds (sound_new settings clock timer) steps).mono ?_
  rintro ⟨replies, s⟩ events hrun slots hnodup hwaiting
  have hsound : s.Sound [] := hrun.sound
  obtain ⟨⟨_, s'⟩, _, -, -, hanswered, -⟩ := run_polls_hasAnswered hsound hnodup hwaiting
  refine ⟨s.answerIn, s', ?_, ?_, ?_, ?_, ?_⟩
  · intro order hperm
    have hwaiting' := fun slot hmem => hwaiting slot (hperm.mem_iff.mp hmem)
    refine (run_polls_hasAnswered hsound (hperm.nodup_iff.mpr hnodup) hwaiting').mono ?_
    rintro ⟨_, s''⟩ events ⟨rfl, hanswered', hevents⟩
    exact ⟨Prod.ext rfl ((hanswered'.perm hperm).unique hanswered), hevents⟩
  · exact fun slot _ token t hslot => answerIn_of_get? hslot
  · obtain ⟨_, _, _, rfl⟩ := hanswered.rest
    rfl
  · exact fun t hcalling => ((hanswered.called_iff t.id).mp hcalling).1
  · intro t hwaits
    rcases Classical.em (s'.gate.Waits t) with hstill | hgone
    · exact .inl hstill
    · rw [hanswered.waits_iff, not_and] at hgone
      have hleft := hgone hwaits
      push Not at hleft
      obtain ⟨token, ⟨slot, hmem, hslot⟩, hcancelled⟩ := hleft
      have haccounts := hsound.accounts (alive_of_open hslot rfl)
      refine .inr ⟨slot, hmem, ?_, token, hslot⟩
      rw [answerIn_of_get? hslot,
        answerTo_of_silent ((waits_iff_not_calling haccounts hslot).mp hwaits)]
      exact if_pos (by simpa using hcancelled)

end Session

end FlowGate
