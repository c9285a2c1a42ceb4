import FlowGate.Proofs.GateMoves
import FlowGate.Proofs.SessionRuns

namespace FlowGate

namespace Gate

open Logged (Yields yields_self yields_pure yields_fail)

variable {g g' g'' : Gate} {t : Ticket} {events : List Event}

/-- If more flows are active than the capacity allows, all of them were active before. -/
def Within (g g' : Gate) : Prop :=
  ∀ m, g'.capacity = some m → m < g'.active.size →
    ∀ flow, g'.active.contains flow = true → g.active.contains flow = true

theorem within_of_contains
    (h : ∀ flow, g'.active.contains flow = true → g.active.contains flow = true) : g.Within g' :=
  fun _ _ _ => h

theorem within_of_active_eq (h : g'.active = g.active) : g.Within g' :=
  within_of_contains fun _ hflow => h ▸ hflow

theorem Within.trans (h : g.Within g') (h' : g'.Within g'') (hcapacity : g''.capacity = g'.capacity) :
    g.Within g'' := by
  intro m hm hsize flow hflow
  have hold := h' m hm hsize
  have hle := Catalog.size_le_of_contains hold
  exact h m (hcapacity ▸ hm) (Nat.lt_of_lt_of_le hsize hle) flow (hold flow hflow)

theorem within_of_hasSpace {flow : Flow} {party : Party} (hspace : g.hasSpace = true)
    (hcapacity : g'.capacity = g.capacity) (hactive : g'.active = g.active.insert flow party) :
    g.Within g' := by
  intro m hm hsize
  have hle := Catalog.size_insert_le g.active flow party
  rw [hcapacity] at hm
  simp only [hasSpace, hm, decide_eq_true_eq] at hspace
  rw [hactive] at hsize
  omega

theorem within_of_insert {flow : Flow} {party : Party} (hactive : g.active.contains flow = true)
    (heq : g'.active = g.active.insert flow party) : g.Within g' := by
  apply within_of_contains
  intro other hother
  rw [heq, Catalog.contains_insert_iff] at hother
  rcases hother with rfl | hother
  · exact hactive
  · exact hother

theorem callNext?_yields (g : Gate) :
    g.callNext?.Yields fun r _ => ∀ g', r = some g' →
      g'.capacity = g.capacity ∧ ∃ flow party, g'.active = g.active.insert flow party := by
  refine (yields_self _).bind ?_
  rintro (_ | flow) first -
  · exact yields_pure (by simp)
  · dsimp only
    split
    · exact yields_fail
    · refine (yields_self _).bind fun taken _ _ => (yields_self _).bind fun _ _ _ => yields_pure ?_
      rintro _ ⟨rfl⟩
      exact ⟨rfl, flow, _, rfl⟩

theorem callUpTo_within (g : Gate) (limit : Nat) :
    (g.callUpTo limit).Yields fun r _ => r.2.capacity = g.capacity ∧ g.Within r.2 := by
  induction limit generalizing g with
  | zero => exact yields_pure ⟨rfl, within_of_active_eq rfl⟩
  | succ limit ih =>
      rw [callUpTo]
      split
      · rename_i hspace
        refine (callNext?_yields g).bind ?_
        rintro (_ | g') first hcalled
        · exact yields_pure ⟨rfl, within_of_active_eq rfl⟩
        · obtain ⟨hcapacity, flow, party, hactive⟩ := hcalled g' rfl
          refine (ih g').bind fun r later hrest => yields_pure ⟨hrest.1.trans hcapacity, ?_⟩
          exact (within_of_hasSpace hspace hcapacity hactive).trans hrest.2 hrest.1
      · exact yields_pure ⟨rfl, within_of_active_eq rfl⟩

theorem enter?_within (g : Gate) (t : Ticket) :
    (g.enter? t).Yields fun r _ => ∀ g', r = some g' → g'.capacity = g.capacity ∧ g.Within g' := by
  unfold enter?
  split
  · rename_i party hparty
    refine (yields_self _).bind fun _ _ _ => yields_pure ?_
    rintro _ ⟨rfl⟩
    exact ⟨rfl, within_of_insert (Catalog.contains_iff.mpr ⟨party, hparty⟩) rfl⟩
  · split
    · rename_i hspace
      refine (yields_self _).bind fun _ _ _ => yields_pure ?_
      rintro _ ⟨rfl⟩
      exact ⟨rfl, within_of_hasSpace (Bool.and_eq_true_iff.mp hspace).1 rfl rfl⟩
    · exact yields_pure (by simp)

theorem remove_within (g : Gate) (t : Ticket) :
    (g.remove t).Yields fun g' _ => g'.capacity = g.capacity ∧ g.Within g' := by
  unfold remove
  split
  · exact (yields_self _).bind fun _ _ _ => yields_pure ⟨rfl, within_of_active_eq rfl⟩
  · rename_i party hparty
    obtain ⟨hparty, -⟩ := Option.filter_eq_some_iff.mp hparty
    dsimp only
    split
    · refine (yields_self _).bind fun _ _ _ => yields_pure ⟨rfl, ?_⟩
      exact within_of_insert (Catalog.contains_iff.mpr ⟨party, hparty⟩) rfl
    · have hfreed : g.Within { g with active := g.active.erase t.flow } :=
        within_of_contains fun flow hflow => (Catalog.contains_erase_iff.mp hflow).2
      refine (yields_self _).bind fun _ _ _ => ?_
      split
      · rename_i hspace
        refine (callNext?_yields _).bind ?_
        rintro (_ | g') first hcalled
        · exact yields_pure ⟨rfl, hfreed⟩
        · obtain ⟨hcapacity, flow, rest, hactive⟩ := hcalled g' rfl
          refine yields_pure ⟨hcapacity, hfreed.trans ?_ hcapacity⟩
          exact within_of_hasSpace hspace hcapacity hactive
      · exact yields_pure ⟨rfl, hfreed⟩

theorem Move.within (h : g.Move events g') : g'.capacity = g.capacity ∧ g.Within g' := by
  cases h with
  | enter h => exact enter?_within g _ _ _ h _ rfl
  | queue hnone h =>
      obtain ⟨waiting, _, _, -, hrest, -⟩ := Logged.bind_eq_ok_iff.mp h
      obtain ⟨_, _, _, -, hpure, -⟩ := Logged.bind_eq_ok_iff.mp hrest
      cases hpure
      exact ⟨rfl, within_of_active_eq rfl⟩
  | withdraw h =>
      obtain ⟨r, _, _, -, hrest, -⟩ := Logged.bind_eq_ok_iff.mp h
      cases r with
      | none => cases hrest
      | some taken =>
          cases hrest
          exact ⟨rfl, within_of_active_eq rfl⟩
  | hear t => exact ⟨rfl, within_of_active_eq rfl⟩
  | setExpiry t expiresAt =>
      unfold Gate.setExpiry
      split
      · exact ⟨rfl, within_of_active_eq rfl⟩
      · rename_i party hparty
        split
        · exact ⟨rfl, within_of_active_eq rfl⟩
        · exact ⟨rfl, within_of_insert (Catalog.contains_iff.mpr ⟨party, hparty⟩) rfl⟩
  | remove h => exact remove_within g _ _ _ h
  | say h => exact ⟨rfl, within_of_active_eq rfl⟩

theorem Moves.within (h : g.Moves events g') : g'.capacity = g.capacity ∧ g.Within g' := by
  induction h with
  | nil => exact ⟨rfl, within_of_active_eq rfl⟩
  | cons hmove _ ih =>
      obtain ⟨hcapacity, hwithin⟩ := hmove.within
      exact ⟨ih.1.trans hcapacity, hwithin.trans ih.2 ih.1⟩

theorem Turn.within (h : g.Turn events g') : g.Within g' := by
  cases h with
  | moves h => exact h.within.2
  | setCapacity h =>
      obtain ⟨r, first, later, hcall, hrest, -⟩ := Logged.bind_eq_ok_iff.mp h
      obtain ⟨_, _, _, -, hpure, -⟩ := Logged.bind_eq_ok_iff.mp hrest
      cases hpure
      exact (callUpTo_within _ _ _ _ hcall).2
  | liftCapacity h =>
      obtain ⟨r, first, later, hcall, hrest, -⟩ := Logged.bind_eq_ok_iff.mp h
      obtain ⟨_, _, _, -, hpure, -⟩ := Logged.bind_eq_ok_iff.mp hrest
      cases hpure
      exact (callUpTo_within _ _ _ _ hcall).2

/-- A capacity that is neither lowered nor set where there was none. -/
def NotTightened : Option Nat → Option Nat → Prop
  | _, none => True
  | none, some _ => False
  | some m, some m' => m ≤ m'

/-- No more flows are active than the capacity allows. -/
def Fits (g : Gate) : Prop := ∀ m, g.capacity = some m → g.active.size ≤ m

theorem Fits.within (hfits : g.Fits) (h : g.Within g')
    (hcapacity : NotTightened g.capacity g'.capacity) : g'.Fits := by
  intro m' hm'
  rcases Nat.lt_or_ge m' g'.active.size with hlt | hle
  · rw [hm'] at hcapacity
    cases hm : g.capacity with
    | none => rw [hm] at hcapacity; exact hcapacity.elim
    | some m =>
        rw [hm] at hcapacity
        have hsize := hfits m hm
        have hkept := Catalog.size_le_of_contains (h m' hm' hlt)
        exact Nat.le_trans hkept (Nat.le_trans hsize hcapacity)
  · exact hle

end Gate

namespace Session

open Logged (Gives gives_pure_iff)

variable {s : Session}

theorem step_within (h : s.Sound []) (st : Step) :
    (s.step st).Gives fun r _ => r.2.Sound [] ∧ s.gate.Within r.2.gate := by
  obtain ⟨r, events, hok, hstep⟩ := step_gives h st
  exact ⟨r, events, hok, hstep.sound, (step_turns s st r events hok).within⟩

/-- Every step of a run leaves the capacity, or relaxes it. -/
def NeverTightens (s : Session) (steps : List Step) : Prop :=
  ∀ earlier st later, steps = earlier ++ st :: later →
    s.After earlier fun past => (past.step st).Gives fun next _ =>
      Gate.NotTightened past.gate.capacity next.2.gate.capacity

theorem after_fits (h : s.Sound []) (hfits : s.gate.Fits) {steps : List Step}
    (hnever : s.NeverTightens steps) : s.After steps fun s' => s'.gate.Fits := by
  induction steps generalizing s with
  | nil => exact after_nil hfits
  | cons st steps ih =>
      obtain ⟨⟨reply, s'⟩, events, hok, hsound, hwithin⟩ := step_within h st
      have hstep : Gate.NotTightened s.gate.capacity s'.gate.capacity :=
        ((hnever [] st steps rfl).of_run_eq_ok rfl).of_eq_ok hok
      refine .cons hok (ih hsound (hfits.within hwithin hstep) ?_)
      rintro earlier st' later rfl
      exact (hnever (st :: earlier) st' later rfl).of_cons hok

/--
At every step of a run: if more flows are active after it than the capacity allows, all of them were active
before it. So in a run that never tightens the capacity, no more flows are active than it allows.
-/
theorem admits_within_capacity (settings : Settings) (clock : Clock) (timer : Bool)
    (steps : List Step) :
    (new settings clock timer).After steps fun s =>
      (∀ st, (s.step st).Gives fun next _ =>
        ∀ m, next.2.gate.capacity = some m → m < next.2.gate.active.size →
          ∀ flow, next.2.gate.active.contains flow = true →
            s.gate.active.contains flow = true) ∧
      ((new settings clock timer).NeverTightens steps →
        ∀ m, s.gate.capacity = some m → s.gate.active.size ≤ m) := by
  have hnew := sound_new settings clock timer
  obtain ⟨r, events, hok, hrun⟩ := run_proceeds hnew steps
  refine ⟨r, events, hok, ?_, ?_⟩
  · intro st
    exact (step_within hrun.sound st).mono fun next _ hnext => hnext.2
  · intro hnever
    have hfits : (new settings clock timer).gate.Fits := fun m _ => Nat.zero_le m
    exact (after_fits hnew hfits hnever).of_run_eq_ok hok

end Session

end FlowGate
