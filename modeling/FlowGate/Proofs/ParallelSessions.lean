import FlowGate.Proofs.AbsentCallerSteps

namespace FlowGate

/-- Whether the caller in a slot is asked for its wish. -/
def Step.asks (slot : String) : Step → Bool
  | .poll name => name = slot
  | .pollAll => true
  | _ => false

namespace Session

open Logged (Gives gives_pure_iff gives_emit_bind_iff)

variable {slot own name token : String} {asked : Bool} {x y : Option Ticket}
  {s s' a b : Session} {g g' : Gate} {t : Ticket} {request : Request} {events : List Event}

/-- The caller in a slot was not let in: it holds no ticket, and if it waits, its ticket is queued. -/
structure Unserved (slot : String) (s : Session) : Prop where
  holds : ∀ t, s.slots.get? slot ≠ some (.holding t)
  waits : ∀ token t, s.slots.get? slot = some (.waiting token t) → s.gate.Waits t

/-- A session in which a caller waits in vain, and one in which it is refused as soon as it asks. -/
inductive Parallel (slot own : String) : Bool → Session → Session → Prop where
  | ready {token : String} {request : Request} {s s' : Session} (h : s.Alike slot own none s')
      (hhere : s.slots.get? slot = some (.prepared token request))
      (hthere : s'.slots.get? slot = some (.prepared own request)) : Parallel slot own false s s'
  | queued {token : String} {t : Ticket} {s s' : Session} (h : s.Alike slot own (some t) s')
      (hhere : s.slots.get? slot = some (.waiting token t)) (hwaits : s.gate.Waits t)
      (hthere : s'.slots.get? slot = none) : Parallel slot own true s s'
  | gone {asked : Bool} {s s' : Session} (h : s.Alike slot own none s')
      (hhere : s.slots.get? slot = none) (hthere : s'.slots.get? slot = none) :
      Parallel slot own asked s s'

theorem Parallel.holds (h : Parallel slot own asked s s') (t : Ticket) :
    s.slots.get? slot ≠ some (.holding t) ∧ s'.slots.get? slot ≠ some (.holding t) := by
  cases h with
  | ready h hhere hthere => simp [hhere, hthere]
  | queued h hhere hwaits hthere => simp [hhere, hthere]
  | gone h hhere hthere => simp [hhere, hthere]

theorem Parallel.follow (h : Parallel slot own asked s s') :
    ∃ x, s.Alike slot own x s' ∧ Stays x s.gate ∧
      ∀ a b, Mirrors slot own x s s' a b → Stays x a.gate → Parallel slot own asked a b := by
  cases h with
  | ready h hhere hthere =>
      refine ⟨none, h, by rintro _ ⟨⟩, fun a b hmirrors _ => ?_⟩
      exact .ready hmirrors.toAlike (hmirrors.here.trans hhere) (hmirrors.there.trans hthere)
  | queued h hhere hwaits hthere =>
      rename_i token t
      refine ⟨some t, h, ?_, fun a b hmirrors hstays => ?_⟩
      · rintro _ ⟨rfl⟩
        exact hwaits
      · exact .queued hmirrors.toAlike (hmirrors.here.trans hhere) (hstays t rfl)
          (hmirrors.there.trans hthere)
  | gone h hhere hthere =>
      refine ⟨none, h, by rintro _ ⟨⟩, fun a b hmirrors _ => ?_⟩
      exact .gone hmirrors.toAlike (hmirrors.here.trans hhere) (hmirrors.there.trans hthere)

theorem Alike.eq_none (h : s.Alike slot own x s') (hempty : s.slots.get? slot = none) :
    x = none := by
  apply Option.eq_none_iff_forall_not_mem.mpr
  intro t ht
  obtain ⟨token, hslot⟩ := h.owner t ht
  rw [hempty] at hslot
  cases hslot

theorem Alike.reseat (h : s.Alike slot own x s') (hgate : g.Lacks y g')
    {slots slots' : Catalog String Slot}
    (howner : ∀ t, y = some t → ∃ token, slots.get? slot = some (.waiting token t))
    (htoken : ∀ content, slots.get? slot = some content → content.token? ≠ some own)
    (hothers : ∀ name, name ≠ slot → slots.get? name = s.slots.get? name)
    (hothers' : ∀ name, name ≠ slot → slots'.get? name = s'.slots.get? name) :
    Alike slot own y { s with gate := g, slots } { s' with gate := g', slots := slots' } := by
  refine ⟨h.kept, hgate, howner, ?_, ?_, by rw [h.rest]⟩
  · intro name hname
    exact (hothers' name hname).trans ((h.others name hname).trans (hothers name hname).symm)
  · intro name content hget
    rcases Classical.em (name = slot) with rfl | hname
    · exact htoken content hget
    · exact h.tokens name content ((hothers name hname).symm.trans hget)

theorem Alike.isCancelled_own (h : s.Alike slot own x s') : s'.isCancelled own = true := by
  rw [h.rest, isCancelled, Catalog.contains_insert_iff]
  exact .inl rfl

theorem Alike.self (h : s.Alike slot own x s') (hagree : s.gate.waiting.Agree) :
    s.Alike slot own none { s with cancelled := s.cancelled.insert own () } :=
  ⟨h.kept, .refl hagree, by rintro _ ⟨⟩, fun _ _ => rfl, h.tokens, rfl⟩

theorem Alike.leaves (h : s.Alike slot own x s') (hgate : g.Lacks none g')
    {slots' : Catalog String Slot} (hthere : slots'.get? slot = none)
    (hothers' : ∀ name, name ≠ slot → slots'.get? name = s'.slots.get? name) :
    Parallel slot own asked ({ s with gate := g }.clearSlot slot)
      { s' with gate := g', slots := slots' } := by
  refine .gone (h.reseat hgate ?_ ?_ ?_ hothers') (Catalog.get?_erase_self ..) hthere
  · rintro _ ⟨⟩
  · intro content hget
    rw [Catalog.get?_erase_self] at hget
    cases hget
  · exact fun name hname => Catalog.get?_erase_of_ne _ hname

theorem Alike.ask_own (h : s.Alike slot own none s') (hsound : s.gate.Sound)
    (haccounts : s.Accounts []) (htoken : token ≠ own) {r : Answer × Session}
    (hok : s.ask slot token request = .ok r events)
    (hholds : ∀ t, r.2.slots.get? slot ≠ some (.holding t)) :
    (s'.ask slot own request).Gives fun r' _ =>
      r'.1 = .refused ∧ Parallel slot own true r.2 r'.2 := by
  obtain ⟨-, hsound', hasked⟩ := (ask_gives hsound haccounts).of_eq_ok hok
  obtain ⟨gate, first, _, henter, hrest, -⟩ := Logged.bind_eq_ok_iff.mp hok
  have hgone : (s'.slots.erase slot).get? slot = none := Catalog.get?_erase_self ..
  have hothers : ∀ name, name ≠ slot → (s'.slots.erase slot).get? name = s'.slots.get? name :=
    fun name hname => Catalog.get?_erase_of_ne _ hname
  unfold Session.ask
  rw [h.issue_eq]
  apply (h.gate.enter? hsound henter).bind
  rintro _ _ (_ | _)
  · cases hrest
    exact absurd (Catalog.get?_insert_self ..) (hholds _)
  · have hcancelled : isCancelled { s' with nextId := s.nextId + 1 } own = true := h.isCancelled_own
    dsimp only
    rw [if_pos hcancelled, gives_emit_bind_iff, gives_pure_iff]
    refine ⟨rfl, ?_⟩
    obtain ⟨answer, a⟩ := r
    cases hasked with
    | entered => exact absurd (Catalog.get?_insert_self ..) (hholds _)
    | refused => exact h.issued.leaves h.gate hgone hothers
    | pending hinactive hfull hsilent waiting hwaits =>
        have hlacks : Gate.Lacks (some (s.nextTicket request)) { s.gate with waiting } s'.gate := by
          rw [h.gate.eq hsound.agree]
          refine Gate.lacks_of_waits hsound'.agree hsound.agree fun u => ?_
          refine ⟨fun hu => ⟨(hwaits u).mpr (.inr hu), ?_⟩, ?_⟩
          · rintro ⟨rfl⟩
            exact Nat.lt_irrefl _ (haccounts.id_lt_of_waits hu)
          · rintro ⟨hu, hne⟩
            rcases (hwaits u).mp hu with rfl | hold
            · exact absurd rfl hne
            · exact hold
        refine .queued (h.issued.reseat hlacks ?_ ?_ ?_ hothers) (Catalog.get?_insert_self ..) ?_ hgone
        · rintro _ ⟨rfl⟩
          exact ⟨token, Catalog.get?_insert_self ..⟩
        · intro content hget
          rw [Catalog.get?_insert_self] at hget
          cases hget
          simpa [Slot.token?] using htoken
        · exact fun name hname => Catalog.get?_insert_of_ne _ _ hname
        · exact (hwaits _).mpr (.inl rfl)

theorem Alike.withdrawn (h : s.Alike slot own (some t) s')
    (hthere : s'.slots.get? slot = none) {waiting : WaitList} (hagree' : waiting.Agree)
    (hwaits : ∀ u, Gate.Waits { s.gate with waiting } u ↔ u ≠ t ∧ s.gate.Waits u) :
    Parallel slot own asked ({ s with gate := { s.gate with waiting } }.clearSlot slot) s' := by
  have hlacks : Gate.Lacks none { s.gate with waiting } s'.gate := by
    rw [h.gate.rest]
    refine Gate.lacks_of_waits hagree' h.gate.waiting.agree fun u => ?_
    refine Iff.trans h.gate.waits_iff ?_
    rw [hwaits]
    simp [and_comm, eq_comm]
  exact h.leaves hlacks hthere fun _ _ => rfl

theorem Alike.askAgain_own (h : s.Alike slot own (some t) s') (hsound : s.Sound [])
    (hhere : s.slots.get? slot = some (.waiting token t)) (hwaits : s.gate.Waits t)
    (hthere : s'.slots.get? slot = none) {r : Answer × Session}
    (hok : s.askAgain slot token t = .ok r events) : Parallel slot own true r.2 s' := by
  have haccounts := hsound.accounts (alive_of_kept h.kept)
  obtain ⟨-, hsound', hasked⟩ := (askAgain_gives hsound.gate haccounts hhere).of_eq_ok hok
  obtain ⟨answer, a⟩ := r
  cases hasked with
  | entered hcalling => exact absurd hcalling ((haccounts.waits_iff t).mp hwaits).2
  | pending => exact .queued h hhere hwaits hthere
  | refused _ _ waiting hrest => exact h.withdrawn hthere hsound'.agree hrest

theorem Alike.leave_own (h : s.Alike slot own (some t) s') (hsound : s.Sound [])
    (hwaits : s.gate.Waits t) (hthere : s'.slots.get? slot = none) {r : Reply × Session}
    (hok : s.leave slot (.waiting token t) = .ok r events) : Parallel slot own true r.2 s' := by
  obtain ⟨past, habandon, rfl⟩ := Logged.bind_pure_eq_ok hok
  obtain ⟨r, _, _, hwithdraw, hrest, -⟩ := Logged.bind_eq_ok_iff.mp habandon
  obtain ⟨-, waiting, rfl, hsound', hwithdrawn⟩ :=
    (Gate.withdraw?_gives hsound.gate hwaits).of_eq_ok hwithdraw
  obtain ⟨_, _, _, -, hpure, -⟩ := Logged.bind_eq_ok_iff.mp hrest
  cases hpure
  exact h.withdrawn hthere hsound'.agree hwithdrawn

theorem Alike.poll?_ready (h : s.Alike slot own none s') (hsound : s.Sound [])
    (hhere : s.slots.get? slot = some (.prepared token request))
    (hthere : s'.slots.get? slot = some (.prepared own request))
    {polled : Option (Answer × Session)} (hok : s.poll? slot = .ok polled events)
    (hholds : ∀ t, (polled.elim s (·.2)).slots.get? slot ≠ some (.holding t)) :
    (s'.poll? slot).Gives fun polled' _ =>
      ∃ b, polled' = some (.refused, b) ∧ Parallel slot own true (polled.elim s (·.2)) b := by
  have haccounts := hsound.accounts (alive_of_kept h.kept)
  have htoken : token ≠ own := by simpa [Slot.token?] using h.tokens slot _ hhere
  simp only [Session.poll?, hhere] at hok
  simp only [Session.poll?, hthere]
  obtain ⟨r, first, _, hask, hpure, -⟩ := Logged.bind_eq_ok_iff.mp hok
  cases hpure
  apply (h.ask_own hsound.gate haccounts htoken hask hholds).bind
  rintro ⟨_, b⟩ _ ⟨rfl, hparallel⟩
  exact gives_pure_iff.mpr ⟨b, rfl, hparallel⟩

theorem Alike.poll?_queued (h : s.Alike slot own (some t) s') (hsound : s.Sound [])
    (hhere : s.slots.get? slot = some (.waiting token t)) (hwaits : s.gate.Waits t)
    (hthere : s'.slots.get? slot = none) {polled : Option (Answer × Session)}
    (hok : s.poll? slot = .ok polled events) :
    Parallel slot own true (polled.elim s (·.2)) s' := by
  simp only [Session.poll?, hhere] at hok
  obtain ⟨r, first, _, hask, hpure, -⟩ := Logged.bind_eq_ok_iff.mp hok
  cases hpure
  exact h.askAgain_own hsound hhere hwaits hthere hask

theorem Parallel.poll?_asked (h : Parallel slot own true s s') (hsound : s.Sound [])
    {polled : Option (Answer × Session)} (hok : s.poll? slot = .ok polled events) :
    Parallel slot own true (polled.elim s (·.2)) s' := by
  cases h with
  | queued h hhere hwaits hthere => exact h.poll?_queued hsound hhere hwaits hthere hok
  | gone h hhere hthere =>
      simp only [Session.poll?, hhere] at hok
      cases hok
      exact .gone h hhere hthere

section PollAll

theorem Alike.mem_openSlots_iff (h : s.Alike slot own x s') (hname : name ≠ slot) :
    name ∈ s'.openSlots ↔ name ∈ s.openSlots := by
  rw [Session.mem_openSlots_iff, Session.mem_openSlots_iff, h.others name hname]

theorem Alike.openSlots_eq (h : s.Alike slot own x s')
    (hsame : slot ∈ s'.openSlots ↔ slot ∈ s.openSlots) : s'.openSlots = s.openSlots := by
  refine (openSlots_eq_iff s.openSlots_ascending).mpr fun name => ?_
  rcases Classical.em (name = slot) with rfl | hname
  · exact hsame.symm
  · exact (h.mem_openSlots_iff hname).symm

theorem Alike.openSlots_eq_append (h : s.Alike slot own x s') {first rest : List String}
    (hsplit : s.openSlots = first ++ slot :: rest) (hfirst : slot ∉ first) (hrest : slot ∉ rest)
    (hthere : slot ∉ s'.openSlots) : s'.openSlots = first ++ rest := by
  have hascending := s.openSlots_ascending
  rw [hsplit] at hascending
  refine (openSlots_eq_iff (hascending.sublist ?_)).mpr fun name => ?_
  · exact (List.sublist_cons_self slot rest).append_left first
  · rcases Classical.em (name = slot) with rfl | hname
    · exact iff_of_false (by simp [hfirst, hrest]) hthere
    · rw [h.mem_openSlots_iff hname, hsplit]
      simp [hname]

theorem Parallel.pollEach (h : Parallel slot own asked s s') (hsound : s.Sound [])
    {names : List String} (hnames : slot ∉ names) {r : List (String × Answer) × Session}
    (hok : s.pollEach names = .ok r events) :
    (s'.pollEach names).Gives fun r' _ => r'.1 = r.1 ∧ Parallel slot own asked r.2 r'.2 := by
  obtain ⟨x, h, hstays, hfollow⟩ := h.follow
  have haccounts := hsound.accounts (alive_of_kept h.kept)
  obtain ⟨-, -, hpolled⟩ := (pollEach_gives hsound.gate haccounts names).of_eq_ok hok
  refine (h.pollEach hsound hnames hok).mono ?_
  rintro r' _ ⟨hanswers, hmirrors⟩
  refine ⟨hanswers, hfollow _ _ hmirrors fun t ht => ?_⟩
  obtain ⟨token, hslot⟩ := hmirrors.owner t ht
  rcases waits_or_calling hpolled.accounts hslot with hwaits | hcalling
  · exact hwaits
  · exact absurd (hpolled.calling t hcalling) ((haccounts.waits_iff t).mp (hstays t ht)).2

theorem apartFrom_answers (first rest : List (String × Answer))
    (polled : Option (Answer × Session)) :
    (Reply.answers (first ++ ((polled.map fun answered => (slot, answered.1)).toList ++ rest))).apartFrom
      slot = (Reply.answers (first ++ rest)).apartFrom slot := by
  cases polled <;> simp [Reply.apartFrom]

theorem Alike.pollEach_ready (h : s.Alike slot own none s') (hsound : s.Sound [])
    (hhere : s.slots.get? slot = some (.prepared token request))
    (hthere : s'.slots.get? slot = some (.prepared own request)) {first rest : List String}
    (hfirst : slot ∉ first) (hrest : slot ∉ rest) {r : List (String × Answer) × Session}
    (hok : s.pollEach (first ++ slot :: rest) = .ok r events)
    (hholds : ∀ t, r.2.slots.get? slot ≠ some (.holding t)) :
    (s'.pollEach (first ++ slot :: rest)).Gives fun r' _ =>
      Parallel slot own true r.2 r'.2 ∧
        (Reply.answers r'.1).apartFrom slot = (Reply.answers r.1).apartFrom slot := by
  obtain ⟨past, _, polled, _, answers, _, hpast, hpoll, hlast, hanswers, hsound', hsound'', hstill⟩ :=
    pollEach_split (hsound.accounts (alive_of_kept h.kept)) hsound.gate hok
  rw [pollEach_append]
  apply (h.pollEach hsound hfirst hpast).bind
  rintro ⟨_, past'⟩ _ ⟨rfl, hmirrors⟩
  dsimp only
  rw [pollEach_cons]
  simp only [bind_assoc]
  apply (hmirrors.toAlike.poll?_ready hsound' (hmirrors.here.trans hhere)
    (hmirrors.there.trans hthere) hpoll fun t hget => hholds t (hstill t hget)).bind
  rintro _ _ ⟨b, rfl, hparallel⟩
  apply (hparallel.pollEach hsound'' hrest hlast).bind
  rintro ⟨_, b'⟩ _ ⟨rfl, hparallel'⟩
  refine gives_pure_iff.mpr ⟨hparallel', ?_⟩
  rw [hanswers]
  exact (apartFrom_answers _ _ (some (.refused, b))).trans (apartFrom_answers _ _ polled).symm

theorem Parallel.pollEach_asked (h : Parallel slot own true s s') (hsound : s.Sound [])
    (haccounts : s.Accounts []) {first rest : List String}
    (hfirst : slot ∉ first) (hrest : slot ∉ rest) {r : List (String × Answer) × Session}
    (hok : s.pollEach (first ++ slot :: rest) = .ok r events) :
    (s'.pollEach (first ++ rest)).Gives fun r' _ =>
      Parallel slot own true r.2 r'.2 ∧
        (Reply.answers r'.1).apartFrom slot = (Reply.answers r.1).apartFrom slot := by
  obtain ⟨past, _, polled, _, answers, _, hpast, hpoll, hlast, hanswers, hsound', hsound'', -⟩ :=
    pollEach_split haccounts hsound.gate hok
  rw [pollEach_append]
  apply (h.pollEach hsound hfirst hpast).bind
  rintro ⟨_, past'⟩ _ ⟨rfl, hparallel⟩
  apply ((hparallel.poll?_asked hsound' hpoll).pollEach hsound'' hrest hlast).bind
  rintro ⟨_, b⟩ _ ⟨rfl, hparallel'⟩
  refine gives_pure_iff.mpr ⟨hparallel', ?_⟩
  rw [hanswers, apartFrom_answers]

theorem Parallel.step_pollAll (h : Parallel slot own asked s s') (hsound : s.Sound [])
    {r : Reply × Session} (hok : s.step .pollAll = .ok r events)
    (hholds : ∀ t, r.2.slots.get? slot ≠ some (.holding t)) :
    (s'.step .pollAll).Gives fun r' _ =>
      Parallel slot own true r.2 r'.2 ∧ r'.1.apartFrom slot = r.1.apartFrom slot ∧
        (s.slots.get? slot = none → r'.1 = r.1) := by
  obtain ⟨⟨answers, a⟩, _, _, heach, hpure, -⟩ := Logged.bind_eq_ok_iff.mp hok
  cases hpure
  rw [Session.step]
  cases h with
  | ready h hhere hthere =>
      have hmem : slot ∈ s.openSlots := mem_openSlots_iff.mpr ⟨_, hhere, rfl⟩
      have hmem' : slot ∈ s'.openSlots := mem_openSlots_iff.mpr ⟨_, hthere, rfl⟩
      have hopen : s'.openSlots = s.openSlots := h.openSlots_eq (iff_of_true hmem' hmem)
      obtain ⟨first, rest, hsplit, hfirst, hrest⟩ := openSlots_split hmem
      rw [hsplit] at heach
      rw [hopen, hsplit]
      apply (h.pollEach_ready hsound hhere hthere hfirst hrest heach hholds).bind
      rintro ⟨answers', b⟩ _ ⟨hparallel, hmasked⟩
      refine gives_pure_iff.mpr ⟨hparallel, hmasked, ?_⟩
      rw [hhere]
      rintro ⟨⟩
  | queued h hhere hwaits hthere =>
      have hmem : slot ∈ s.openSlots := mem_openSlots_iff.mpr ⟨_, hhere, rfl⟩
      obtain ⟨first, rest, hsplit, hfirst, hrest⟩ := openSlots_split hmem
      have hopen : s'.openSlots = first ++ rest :=
        h.openSlots_eq_append hsplit hfirst hrest (not_mem_openSlots hthere)
      rw [hsplit] at heach
      rw [hopen]
      have haccounts := hsound.accounts (alive_of_kept h.kept)
      apply ((Parallel.queued h hhere hwaits hthere).pollEach_asked hsound haccounts hfirst hrest
        heach).bind
      rintro ⟨answers', b⟩ _ ⟨hparallel, hmasked⟩
      refine gives_pure_iff.mpr ⟨hparallel, hmasked, ?_⟩
      rw [hhere]
      rintro ⟨⟩
  | gone h hhere hthere =>
      have hmem := not_mem_openSlots hhere
      have hopen : s'.openSlots = s.openSlots :=
        h.openSlots_eq (iff_of_false (not_mem_openSlots hthere) hmem)
      rw [hopen]
      apply ((Parallel.gone h hhere hthere).pollEach hsound hmem heach).bind
      rintro ⟨_, b⟩ _ ⟨rfl, hparallel⟩
      exact gives_pure_iff.mpr ⟨hparallel, rfl, fun _ => rfl⟩

end PollAll

section Steps

variable {st : Step} {r : Reply × Session}

theorem held?_eq_none (hholds : ∀ t, s.slots.get? slot ≠ some (.holding t)) :
    s.held? slot = none := by
  unfold held?
  cases hget : s.slots.get? slot with
  | none => rfl
  | some content =>
      cases content with
      | holding t => exact absurd hget (hholds t)
      | _ => rfl

theorem Alike.slot_eq (h : s.Alike slot own x s') (hsound : s.Sound [])
    (hspares : st.spares slot own = true) (hothers : st.isOf slot = false) (hall : st ≠ .pollAll)
    (hheld : s.held? slot = none) (hok : s.step st = .ok r events) :
    r.2.slots.get? slot = s.slots.get? slot := by
  have hstays : Stays none r.2.gate := by
    rintro _ ⟨⟩
  obtain ⟨_, _, -, hagrees⟩ :=
    (h.self hsound.gate.agree).step hsound hspares hothers hall hheld hheld hok hstays
  exact hagrees.mirrors.here

/-- What the others do is the same on both sides, as long as the caller is not let in. -/
theorem Parallel.step (h : Parallel slot own asked s s') (hsound : s.Sound [])
    (hspares : st.spares slot own = true) (hothers : st.isOf slot = false)
    (hok : s.step st = .ok r events) (hunserved : r.2.Unserved slot) :
    (s'.step st).Gives fun r' _ =>
      Parallel slot own (asked || st.asks slot) r.2 r'.2 ∧
        r'.1.apartFrom slot = r.1.apartFrom slot ∧ (s.slots.get? slot = none → r'.1 = r.1) := by
  rcases Classical.em (st = .pollAll) with rfl | hall
  · rw [Step.asks, Bool.or_true]
    exact h.step_pollAll hsound hok hunserved.holds
  · have hasks : (asked || st.asks slot) = asked := by
      cases st with
      | poll name => exact (congrArg (asked || ·) hothers).trans (Bool.or_false asked)
      | pollAll => exact absurd rfl hall
      | _ => exact Bool.or_false asked
    rw [hasks]
    have hheld := held?_eq_none fun t => (h.holds t).1
    have hheld' := held?_eq_none fun t => (h.holds t).2
    obtain ⟨x, h, -, hfollow⟩ := h.follow
    have hstays : Stays x r.2.gate := by
      intro t ht
      obtain ⟨token, hslot⟩ := h.owner t ht
      exact hunserved.waits token t
        ((h.slot_eq hsound hspares hothers hall hheld hok).trans hslot)
    refine (h.step hsound hspares hothers hall hheld hheld' hok hstays).mono ?_
    rintro r' _ ⟨hmasked, hreply, hmirrors⟩
    exact ⟨hfollow _ _ hmirrors hstays, hmasked, fun hempty => hreply (h.eq_none hempty)⟩

theorem Parallel.step_own (h : Parallel slot own true s s') (hsound : s.Sound [])
    (hown : st.isOf slot = true) (hok : s.step st = .ok r events) :
    Parallel slot own true r.2 s' := by
  cases st with
  | poll name =>
      obtain rfl : name = slot := of_decide_eq_true hown
      obtain ⟨polled, _, _, hpoll, hrest, -⟩ := Logged.bind_eq_ok_iff.mp hok
      have hpolled := h.poll?_asked hsound hpoll
      rcases polled with _ | ⟨answer, a⟩
      · cases hrest
        exact hpolled
      · cases hrest
        exact hpolled
  | drop name =>
      obtain rfl : name = slot := of_decide_eq_true hown
      rw [Session.step] at hok
      cases h with
      | queued h hhere hwaits hthere =>
          rw [hhere] at hok
          exact h.leave_own hsound hwaits hthere hok
      | gone h hhere hthere =>
          rw [hhere] at hok
          cases hok
          exact .gone h hhere hthere
  | _ => cases hown

theorem Parallel.step_first (h : Parallel slot own false s s') (hsound : s.Sound [])
    (hown : st.isOf slot = true) (hok : s.step st = .ok r events) (hunserved : r.2.Unserved slot) :
    (s'.step st).Gives fun r' _ => Parallel slot own (st.asks slot) r.2 r'.2 := by
  cases st with
  | poll name =>
      obtain rfl : name = slot := of_decide_eq_true hown
      have hasks : Step.asks name (.poll name) = true := decide_eq_true rfl
      rw [hasks]
      obtain ⟨polled, _, _, hpoll, hrest, -⟩ := Logged.bind_eq_ok_iff.mp hok
      cases h with
      | ready h hhere hthere =>
          have hholds : ∀ t, (polled.elim s (·.2)).slots.get? name ≠ some (.holding t) := by
            rcases polled with _ | ⟨answer, a⟩ <;> cases hrest <;> exact hunserved.holds
          apply (h.poll?_ready hsound hhere hthere hpoll hholds).bind
          rintro _ _ ⟨b, rfl, hparallel⟩
          rcases polled with _ | ⟨answer, a⟩ <;> cases hrest <;> exact gives_pure_iff.mpr hparallel
      | gone h hhere hthere =>
          have hgone : Parallel name own true s s' := .gone h hhere hthere
          simp only [Session.poll?, hhere] at hpoll
          cases hpoll
          cases hrest
          rw [Session.step, Session.poll?, hthere]
          exact gives_pure_iff.mpr hgone
  | drop name =>
      obtain rfl : name = slot := of_decide_eq_true hown
      rw [Session.step] at hok ⊢
      cases h with
      | ready h hhere hthere =>
          rw [hhere] at hok
          rw [hthere]
          cases hok
          exact gives_pure_iff.mpr (h.leaves h.gate (Catalog.get?_erase_self ..)
            fun name hname => Catalog.get?_erase_of_ne _ hname)
      | gone h hhere hthere =>
          rw [hhere] at hok
          rw [hthere]
          cases hok
          exact gives_pure_iff.mpr (.gone h hhere hthere)
  | _ => cases hown

end Steps

end Session

end FlowGate
