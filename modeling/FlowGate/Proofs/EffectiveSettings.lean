import FlowGate.Proofs.OptionGroups

namespace FlowGate

open FlowGate.Text

namespace Settings

variable {environment : String → Option String} {value : String} {capacity : Option Nat} {n : Nat}
  {s : Settings} {e : Invalid}

/-- A number of 64 bits with blanks around it. -/
def GivesNumber (value : String) (n : Nat) : Prop :=
  ∃ cs, Padded cs value.toList ∧ Numeral.Writes n cs ∧ n < 2 ^ 64

/-- A capacity with blanks around it: a number, or the word for none. -/
def GivesCapacity (value : String) : Option Nat → Prop
  | none => Padded "unlimited".toList value.toList
  | some n => GivesNumber value n

theorem readNumber?_eq_some_iff : readNumber? value = some n ↔ GivesNumber value n := by
  rw [readNumber?, Numeral.unsigned?_wordLimit_eq_some_iff]
  constructor
  · exact fun h => ⟨trim value.toList, padded_trim _, h⟩
  · rintro ⟨cs, hpadded, hwrites, hn⟩
    rw [hpadded.trim_eq hwrites.not_blank]
    exact ⟨hwrites, hn⟩

theorem trim_eq_unlimited_iff :
    trim value.toList = unlimitedWord.toList ↔ Padded "unlimited".toList value.toList := by
  have hword : "unlimited".toList.all (!isBlank ·) = true := by decide
  constructor
  · intro htrim
    have hpadded := padded_trim value.toList
    rw [htrim] at hpadded
    exact hpadded
  · intro hpadded
    refine hpadded.trim_eq fun c hc => ?_
    exact Bool.not_eq_eq_eq_not.mp (List.all_eq_true.mp hword c hc)

theorem GivesNumber.trim_ne_unlimited (h : GivesNumber value n) :
    trim value.toList ≠ unlimitedWord.toList := by
  obtain ⟨cs, hpadded, hwrites, -⟩ := h
  rw [hpadded.trim_eq hwrites.not_blank]
  rintro rfl
  exact Numeral.not_writes_cons (by decide) (by decide) hwrites

theorem readCapacity?_eq_some_iff :
    readCapacity? value = some capacity ↔ GivesCapacity value capacity := by
  rw [readCapacity?]
  cases capacity with
  | none =>
      rw [GivesCapacity, ← trim_eq_unlimited_iff]
      split_ifs with hword
      · exact iff_of_true rfl hword
      · refine iff_of_false (fun h => ?_) hword
        obtain ⟨n, -, hn⟩ := Option.map_eq_some_iff.mp h
        cases hn
  | some n =>
      rw [GivesCapacity, ← readNumber?_eq_some_iff]
      split_ifs with hword
      · refine iff_of_false nofun fun h => ?_
        exact (readNumber?_eq_some_iff.mp h).trim_ne_unlimited hword
      · rw [Option.map_eq_some_iff]
        constructor
        · rintro ⟨m, hm, heq⟩
          rw [hm, Option.some.inj heq]
        · exact fun h => ⟨n, h, rfl⟩

example : readCapacity? "\u3000+064\n" = some (some 64) := by decide

/-- What a variable gives, or a default if it is not set. -/
def TakenFrom {α : Type} (Gives : String → α → Prop) (fallback : α) : Option String → α → Prop
  | none, a => a = fallback
  | some value, a => Gives value a

def CapacityFrom (environment : String → Option String) (capacity : Option Nat) : Prop :=
  TakenFrom GivesCapacity (some defaultCapacity) (environment capacityVariable) capacity

def GraceFrom (environment : String → Option String) (millis : Nat) : Prop :=
  TakenFrom GivesNumber defaultGraceMillis (environment graceVariable) millis

section Variables

variable {α : Type} {Gives : String → α → Prop} {fallback a : α} {setting : Option String}
  {read? : String → Option α} {bad : String → Invalid}

def readVariable (setting : Option String) (fallback : α) (read? : String → Option α)
    (bad : String → Invalid) : Except Invalid α :=
  match setting with
  | none => .ok fallback
  | some value =>
    match read? value with
    | some a => .ok a
    | none => .error (bad value)

theorem readVariable_eq_ok_iff (hread : ∀ value a, read? value = some a ↔ Gives value a) :
    readVariable setting fallback read? bad = .ok a ↔ TakenFrom Gives fallback setting a := by
  cases setting with
  | none => exact ⟨fun h => (Except.ok.inj h).symm, fun h => congrArg Except.ok h.symm⟩
  | some value =>
      rw [TakenFrom, ← hread, readVariable]
      cases read? value <;> simp

theorem readVariable_eq_error_iff (hread : ∀ value a, read? value = some a ↔ Gives value a) :
    readVariable setting fallback read? bad = .error e ↔
      ∃ value, setting = some value ∧ (∀ a, ¬Gives value a) ∧ bad value = e := by
  cases setting with
  | none => exact ⟨nofun, nofun⟩
  | some value =>
      have hnone : (∀ a, ¬Gives value a) ↔ read? value = none := by
        rw [Option.eq_none_iff_forall_ne_some]
        exact forall_congr' fun a => not_congr (hread value a).symm
      simp only [Option.some.injEq, exists_eq_left', hnone, readVariable]
      cases read? value <;> simp

end Variables

section Bind

variable {ε α β : Type} {x : Except ε α} {f : α → Except ε β}

theorem bind_eq_ok_iff {b : β} : x >>= f = .ok b ↔ ∃ a, x = .ok a ∧ f a = .ok b := by
  cases x with
  | error e => exact ⟨nofun, nofun⟩
  | ok a => exact ⟨fun h => ⟨a, rfl, h⟩, fun ⟨_, ha, h⟩ => Except.ok.inj ha ▸ h⟩

theorem bind_eq_error_iff {e : ε} :
    x >>= f = .error e ↔ x = .error e ∨ ∃ a, x = .ok a ∧ f a = .error e := by
  cases x with
  | error e' =>
      have hbind : (.error e' : Except ε α) >>= f = .error e' := rfl
      simp [hbind]
  | ok a =>
      have hbind : (.ok a : Except ε α) >>= f = f a := rfl
      simp [hbind]

end Bind

theorem fromEnvironment_eq (environment : String → Option String) :
    fromEnvironment environment = (do
      let capacity ←
        readVariable (environment capacityVariable) (some defaultCapacity) readCapacity? .capacity
      let millis ← readVariable (environment graceVariable) defaultGraceMillis readNumber? .grace
      return ⟨capacity, .fixed (Span.ofMillis millis)⟩) := by
  rw [fromEnvironment]
  rcases environment capacityVariable with _ | text <;> rcases environment graceVariable with _ | value
  · rfl
  · cases hvalue : readNumber? value <;> simp only [readVariable, hvalue] <;> rfl
  · cases htext : readCapacity? text <;> simp only [readVariable, htext] <;> rfl
  · cases htext : readCapacity? text <;> cases hvalue : readNumber? value <;>
      simp only [readVariable, htext, hvalue] <;> rfl

theorem fromEnvironment_eq_ok_iff :
    fromEnvironment environment = .ok s ↔ CapacityFrom environment s.capacity ∧
      ∃ millis, GraceFrom environment millis ∧ ∀ flow, s.grace.span flow = Span.ofMillis millis := by
  simp only [fromEnvironment_eq, bind_eq_ok_iff,
    readVariable_eq_ok_iff fun _ _ => readCapacity?_eq_some_iff,
    readVariable_eq_ok_iff fun _ _ => readNumber?_eq_some_iff]
  constructor
  · rintro ⟨capacity, hcapacity, millis, hgrace, hs⟩
    obtain rfl := Except.ok.inj hs
    exact ⟨hcapacity, millis, hgrace, fun flow => rfl⟩
  · rintro ⟨hcapacity, millis, hgrace, hmillis⟩
    obtain ⟨capacity, ⟨periods⟩⟩ := s
    obtain rfl : periods = fun _ => Span.ofMillis millis := funext hmillis
    exact ⟨capacity, hcapacity, millis, hgrace, rfl⟩

theorem GraceFrom.lt {millis : Nat} (h : GraceFrom environment millis) : millis < 2 ^ 64 := by
  rw [GraceFrom] at h
  cases hvariable : environment graceVariable with
  | none =>
      rw [hvariable] at h
      rw [show millis = defaultGraceMillis from h]
      decide
  | some value =>
      rw [hvariable] at h
      obtain ⟨cs, -, -, hlt⟩ := h
      exact hlt

theorem fromEnvironment_eq_error_iff :
    fromEnvironment environment = .error e ↔
      (∃ value, environment capacityVariable = some value ∧ (∀ capacity, ¬GivesCapacity value capacity) ∧
        .capacity value = e) ∨
      ∃ capacity, CapacityFrom environment capacity ∧ ∃ value, environment graceVariable = some value ∧
        (∀ n, ¬GivesNumber value n) ∧ .grace value = e := by
  have hok : ∀ (capacity : Option Nat) (millis : Nat),
      (pure ⟨capacity, .fixed (Span.ofMillis millis)⟩ : Except Invalid Settings) ≠ .error e := nofun
  simp only [fromEnvironment_eq, bind_eq_error_iff,
    readVariable_eq_ok_iff fun _ _ => readCapacity?_eq_some_iff,
    readVariable_eq_error_iff fun _ _ => readCapacity?_eq_some_iff,
    readVariable_eq_error_iff fun _ _ => readNumber?_eq_some_iff, hok, and_false, exists_false, or_false]
  rfl

end Settings

namespace Simulation

/-- The capacity that a choice makes of another one. -/
def CapacityChoice.over : CapacityChoice → Option Nat → Option Nat
  | .unset, capacity => capacity
  | .unlimited, _ => none
  | .limit n, _ => some n

namespace Options

open Settings

variable {o : Options} {environment : String → Option String} {s : Settings} {e : Invalid}

theorem settings_eq (o : Options) (environment : String → Option String) :
    o.settings environment = (fromEnvironment environment).map fun base =>
      ⟨o.capacity.over base.capacity,
        ⟨fun flow => (o.graceMillis.map Span.ofMillis).getD (base.grace.span flow)⟩⟩ := by
  obtain ⟨clients, flows, rounds, holdMillis, choice, graceMillis, json⟩ := o
  rw [settings]
  cases fromEnvironment environment with
  | error e => rfl
  | ok base => cases choice <;> cases graceMillis <;> rfl

theorem settings_eq_error_iff :
    o.settings environment = .error e ↔ fromEnvironment environment = .error e := by
  rw [settings_eq]
  cases fromEnvironment environment with
  | error e' => rfl
  | ok base => exact ⟨nofun, nofun⟩

theorem settings_eq_ok_iff :
    o.settings environment = .ok s ↔ ∃ base, fromEnvironment environment = .ok base ∧
      s.capacity = o.capacity.over base.capacity ∧
        ∀ flow, s.grace.span flow = (o.graceMillis.map Span.ofMillis).getD (base.grace.span flow) := by
  rw [settings_eq]
  cases fromEnvironment environment with
  | error e => exact ⟨nofun, nofun⟩
  | ok base =>
      obtain ⟨capacity, ⟨periods⟩⟩ := s
      constructor
      · intro h
        cases h
        exact ⟨base, rfl, rfl, fun flow => rfl⟩
      · rintro ⟨_, ⟨⟩, hcapacity, hperiods⟩
        obtain rfl : capacity = o.capacity.over base.capacity := hcapacity
        obtain rfl : periods = fun flow =>
            (o.graceMillis.map Span.ofMillis).getD (base.grace.span flow) := funext hperiods
        rfl

/-- Whatever the arguments and the environment say, grace periods are words of milliseconds. -/
theorem grace_lt_of_read {arguments : List String} (hread : read arguments = .ok o)
    (h : o.settings environment = .ok s) (flow : Flow) : s.grace.span flow < Span.ofMillis (2 ^ 64) := by
  obtain ⟨base, hbase, -, hgrace⟩ := settings_eq_ok_iff.mp h
  obtain ⟨-, millis, hmillis, hspan⟩ := fromEnvironment_eq_ok_iff.mp hbase
  rw [hgrace, hspan]
  cases hoption : o.graceMillis with
  | none => exact Nat.mul_lt_mul_of_pos_left hmillis.lt (by decide)
  | some n => exact Nat.mul_lt_mul_of_pos_left (graceMillis_lt hread hoption) (by decide)

/--
Settings follow their order of precedence. The environment is read exactly if each of the two variables is not
set or gives a value, blanks around it aside. Otherwise a capacity that cannot be read is reported before a grace
period, with its value as it was given. Options fail exactly where the environment does, even if they settle
both; what they settle wins over the variables, and these over the defaults.
-/
theorem settings_follow_precedence :
    (∀ environment, (∃ s, fromEnvironment environment = .ok s) ↔
      (∃ capacity, CapacityFrom environment capacity) ∧ ∃ millis, GraceFrom environment millis) ∧
    (∀ environment s, fromEnvironment environment = .ok s ↔
      CapacityFrom environment s.capacity ∧
        ∃ millis, GraceFrom environment millis ∧ ∀ flow, s.grace.span flow = Span.ofMillis millis) ∧
    (∀ environment value, fromEnvironment environment = .error (.capacity value) ↔
      environment capacityVariable = some value ∧ ∀ capacity, ¬GivesCapacity value capacity) ∧
    (∀ environment value, fromEnvironment environment = .error (.grace value) ↔
      (∃ capacity, CapacityFrom environment capacity) ∧
        environment graceVariable = some value ∧ ∀ n, ¬GivesNumber value n) ∧
    (∀ (o : Options) environment e,
      o.settings environment = .error e ↔ fromEnvironment environment = .error e) ∧
    ∀ (o : Options) environment s, o.settings environment = .ok s ↔
      ∃ base, fromEnvironment environment = .ok base ∧ s.capacity = o.capacity.over base.capacity ∧
        ∀ flow, s.grace.span flow = (o.graceMillis.map Span.ofMillis).getD (base.grace.span flow) := by
  refine ⟨fun environment => ⟨?_, ?_⟩, fun environment s => fromEnvironment_eq_ok_iff,
    fun environment value => ?_, fun environment value => ?_, fun o environment e => settings_eq_error_iff,
    fun o environment s => settings_eq_ok_iff⟩
  · rintro ⟨s, hs⟩
    obtain ⟨hcapacity, millis, hgrace, -⟩ := fromEnvironment_eq_ok_iff.mp hs
    exact ⟨⟨_, hcapacity⟩, _, hgrace⟩
  · rintro ⟨⟨capacity, hcapacity⟩, millis, hgrace⟩
    exact ⟨⟨capacity, .fixed (Span.ofMillis millis)⟩,
      fromEnvironment_eq_ok_iff.mpr ⟨hcapacity, millis, hgrace, fun flow => rfl⟩⟩
  · rw [fromEnvironment_eq_error_iff]
    simp
  · rw [fromEnvironment_eq_error_iff]
    simp

end Options

end Simulation

end FlowGate
