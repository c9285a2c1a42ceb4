import FlowGate.Proofs.WrittenNumbers
import FlowGate.Simulation.Options
import Mathlib.Data.List.Induction

namespace FlowGate.Simulation

open FlowGate.Text

/-- A number of 64 bits, as an argument writes it. -/
def IsNumber (text : String) (n : Nat) : Prop := Numeral.Writes n text.toList ∧ n < 2 ^ 64

/-- Arguments that go together. -/
inductive Group where
  | json
  | value (flag : Flag) (text : String)

namespace Group

def words : Group → List String
  | .json => ["--json"]
  | .value flag text => [flag.name, text]

/-- Whether a flag has a value that fits it. -/
inductive Complete : Group → Prop
  | json : Complete .json
  | number {flag : Flag} {text : String} {n : Nat} (hflag : flag ≠ .flows) (h : IsNumber text n) :
    Complete (.value flag text)
  | flows {text : String} {n : Nat} (h : IsNumber text n) (hpos : 0 < n) : Complete (.value .flows text)
  | unlimited : Complete (.value .capacity "unlimited")

def value? (flag : Flag) : Group → Option String
  | .json => none
  | .value other text => if other = flag then some text else none

def values (flag : Flag) (groups : List Group) : List String := groups.filterMap (value? flag)

end Group

/-- What is wrong with arguments that do not start with a complete group. -/
inductive Faulty : List String → UsageError → Prop
  | missingValue (flag : Flag) : Faulty [flag.name] (.missingValue flag)
  | invalidNumber {flag : Flag} {text : String} (rest : List String) (hnumber : ∀ n, ¬IsNumber text n)
    (hword : flag = .capacity → text ≠ "unlimited") :
    Faulty (flag.name :: text :: rest) (.invalidNumber flag text)
  | noFlows {text : String} (rest : List String) (h : IsNumber text 0) :
    Faulty (Flag.flows.name :: text :: rest) .noFlows
  | help {argument : String} (rest : List String) (h : argument = "--help" ∨ argument = "-h") :
    Faulty (argument :: rest) .help
  | unknownArgument {argument : String} (rest : List String) (hflag : ∀ flag : Flag, argument ≠ flag.name)
    (hjson : argument ≠ "--json") (hhelp : ¬(argument = "--help" ∨ argument = "-h")) :
    Faulty (argument :: rest) (.unknownArgument argument)

/-- A number that is the last value of a flag, or the one that stands for none. -/
def NumberOr (fallback : Nat) : Option String → Nat → Prop
  | none, n => n = fallback
  | some text, n => IsNumber text n

def CapacityOf : Option String → CapacityChoice → Prop
  | none, choice => choice = .unset
  | some _, .unset => False
  | some text, .unlimited => text = "unlimited"
  | some text, .limit n => IsNumber text n

def GraceOf : Option String → Option Nat → Prop
  | none, millis => millis = none
  | some text, millis => ∃ n, millis = some n ∧ IsNumber text n

namespace Options

variable {o o' : Options} {flag other : Flag} {text : String} {n : Nat} {last : Option String}
  {groups groups' : List Group} {e : UsageError} {rest : List String}

/-- Whether the option of a flag is what the last value of the flag says, or else the default. -/
def Shows (o : Options) (last : Option String) : Flag → Prop
  | .clients => NumberOr default.clients last o.clients
  | .flows => NumberOr default.flows last o.flows
  | .rounds => NumberOr default.rounds last o.rounds
  | .holdMillis => NumberOr default.holdMillis last o.holdMillis
  | .capacity => CapacityOf last o.capacity
  | .graceMillis => GraceOf last o.graceMillis

/-- Whether options are those of a list of groups. -/
structure Matches (o : Options) (groups : List Group) : Prop where
  shows : ∀ flag, o.Shows (Group.values flag groups).getLast? flag
  json : o.json = true ↔ Group.json ∈ groups

theorem number_eq_ok_iff : number flag text = .ok n ↔ IsNumber text n := by
  rw [IsNumber, ← Numeral.unsigned?_wordLimit_eq_some_iff, number]
  cases Numeral.unsigned? Numeral.wordLimit text.toList <;> simp

theorem number_eq_error (flag : Flag) (h : ∀ n, ¬IsNumber text n) :
    number flag text = .error (.invalidNumber flag text) := by
  cases hnumber : number flag text with
  | ok n => exact absurd (number_eq_ok_iff.mp hnumber) (h n)
  | error e =>
      rw [number] at hnumber
      split at hnumber
      · cases hnumber
      · exact hnumber.symm

theorem isNumber_unique {m : Nat} (hm : IsNumber text m) (hn : IsNumber text n) : m = n := by
  have h : number .clients text = .ok m := number_eq_ok_iff.mpr hm
  rw [number_eq_ok_iff.mpr hn] at h
  exact (Except.ok.inj h).symm

theorem not_isNumber_unlimited : ¬IsNumber "unlimited" n :=
  fun h => Numeral.not_writes_cons (by decide) (by decide) h.1

inductive Sets (o : Options) : Flag → String → Options → Prop
  | clients {text : String} {n : Nat} (h : IsNumber text n) : Sets o .clients text { o with clients := n }
  | flows {text : String} {n : Nat} (h : IsNumber text n) : Sets o .flows text { o with flows := n }
  | rounds {text : String} {n : Nat} (h : IsNumber text n) : Sets o .rounds text { o with rounds := n }
  | holdMillis {text : String} {n : Nat} (h : IsNumber text n) :
    Sets o .holdMillis text { o with holdMillis := n }
  | unlimited : Sets o .capacity "unlimited" { o with capacity := .unlimited }
  | limit {text : String} {n : Nat} (h : IsNumber text n) :
    Sets o .capacity text { o with capacity := .limit n }
  | graceMillis {text : String} {n : Nat} (h : IsNumber text n) :
    Sets o .graceMillis text { o with graceMillis := some n }

theorem set_gives (o : Options) (h : Group.Complete (.value flag text)) :
    ∃ o', o.set flag text = .ok o' ∧ Sets o flag text o' := by
  cases h with
  | unlimited => exact ⟨_, rfl, .unlimited⟩
  | flows h hpos =>
      refine ⟨_, ?_, .flows h⟩
      rw [set, number_eq_ok_iff.mpr h]
      exact if_neg (Nat.ne_of_gt hpos)
  | number hflag h =>
      cases flag with
      | flows => exact absurd rfl hflag
      | clients => exact ⟨_, by rw [set, number_eq_ok_iff.mpr h]; rfl, .clients h⟩
      | rounds => exact ⟨_, by rw [set, number_eq_ok_iff.mpr h]; rfl, .rounds h⟩
      | holdMillis => exact ⟨_, by rw [set, number_eq_ok_iff.mpr h]; rfl, .holdMillis h⟩
      | graceMillis => exact ⟨_, by rw [set, number_eq_ok_iff.mpr h]; rfl, .graceMillis h⟩
      | capacity =>
          have hword : text ≠ Settings.unlimitedWord := by
            rintro rfl
            exact not_isNumber_unlimited h
          exact ⟨_, by rw [set, if_neg hword, number_eq_ok_iff.mpr h]; rfl, .limit h⟩

theorem Sets.shows (h : Sets o flag text o') : o'.Shows (some text) flag := by
  cases h with
  | unlimited => rfl
  | graceMillis h => exact ⟨_, rfl, h⟩
  | clients h => exact h
  | flows h => exact h
  | rounds h => exact h
  | holdMillis h => exact h
  | limit h => exact h

theorem Sets.shows_of_ne (h : Sets o flag text o') (hne : other ≠ flag) :
    o'.Shows last other ↔ o.Shows last other := by
  cases h <;> cases other <;> first | exact Iff.rfl | exact absurd rfl hne

theorem Sets.json_eq (h : Sets o flag text o') : o'.json = o.json := by
  cases h <;> rfl

theorem matches_default : Matches default [] := by
  refine ⟨fun flag => ?_, ?_⟩
  · cases flag <;> rfl
  · exact ⟨nofun, nofun⟩

theorem Matches.json_concat (h : o.Matches groups) :
    Matches { o with json := true } (groups ++ [.json]) := by
  refine ⟨fun flag => ?_, ?_⟩
  · have hvalues : Group.values flag (groups ++ [.json]) = Group.values flag groups := by
      simp [Group.values, Group.value?]
    rw [hvalues]
    have hshows := h.shows flag
    cases flag <;> exact hshows
  · simp

theorem Matches.value_concat (h : o.Matches groups) (hsets : Sets o flag text o') :
    Matches o' (groups ++ [.value flag text]) := by
  refine ⟨fun other => ?_, ?_⟩
  · by_cases hother : other = flag
    · subst hother
      have hvalues : Group.values other (groups ++ [.value other text]) =
          Group.values other groups ++ [text] := by
        simp [Group.values, Group.value?]
      rw [hvalues, List.getLast?_concat]
      exact hsets.shows
    · have hvalues : Group.values other (groups ++ [.value flag text]) = Group.values other groups := by
        simp [Group.values, Group.value?, Ne.symm hother]
      rw [hvalues, hsets.shows_of_ne hother]
      exact h.shows other
  · rw [hsets.json_eq, h.json]
    simp

theorem numberOr_unique {fallback m : Nat} (hm : NumberOr fallback last m) (hn : NumberOr fallback last n) :
    m = n := by
  cases last with
  | none => exact hm.trans hn.symm
  | some text => exact isNumber_unique hm hn

theorem capacityOf_unique {choice choice' : CapacityChoice} (h : CapacityOf last choice)
    (h' : CapacityOf last choice') : choice = choice' := by
  cases last with
  | none => exact Eq.trans h (Eq.symm h')
  | some text =>
      cases choice with
      | unset => cases h
      | unlimited =>
          obtain rfl : text = "unlimited" := h
          cases choice' with
          | unset => cases h'
          | unlimited => rfl
          | limit n => exact absurd h' not_isNumber_unlimited
      | limit m =>
          cases choice' with
          | unset => cases h'
          | unlimited =>
              obtain rfl : text = "unlimited" := h'
              exact absurd h not_isNumber_unlimited
          | limit n => exact congrArg CapacityChoice.limit (isNumber_unique h h')

theorem graceOf_unique {millis millis' : Option Nat} (h : GraceOf last millis) (h' : GraceOf last millis') :
    millis = millis' := by
  cases last with
  | none => exact Eq.trans h (Eq.symm h')
  | some text =>
      obtain ⟨m, rfl, hm⟩ := h
      obtain ⟨n, rfl, hn⟩ := h'
      rw [isNumber_unique hm hn]

theorem Matches.unique (h : o.Matches groups) (h' : o'.Matches groups) : o = o' := by
  have hclients := numberOr_unique (h.shows .clients) (h'.shows .clients)
  have hflows := numberOr_unique (h.shows .flows) (h'.shows .flows)
  have hrounds := numberOr_unique (h.shows .rounds) (h'.shows .rounds)
  have hhold := numberOr_unique (h.shows .holdMillis) (h'.shows .holdMillis)
  have hcapacity := capacityOf_unique (h.shows .capacity) (h'.shows .capacity)
  have hgrace := graceOf_unique (h.shows .graceMillis) (h'.shows .graceMillis)
  have hjson : o.json = o'.json := Bool.eq_iff_iff.mpr (h.json.trans h'.json.symm)
  cases o
  cases o'
  simp_all

section Reading

theorem ofName?_name (flag : Flag) : Flag.ofName? flag.name = some flag := by
  cases flag <;> decide

theorem name_ne_json (flag : Flag) : flag.name ≠ "--json" := by
  cases flag <;> decide

theorem ofName?_eq_none {argument : String} (h : ∀ flag : Flag, argument ≠ flag.name) :
    Flag.ofName? argument = none := by
  rw [Flag.ofName?, List.find?_eq_none]
  intro flag _ hname
  exact h flag (beq_iff_eq.mp hname).symm

theorem readOn_json (o : Options) (rest : List String) :
    o.readOn ("--json" :: rest) = readOn { o with json := true } rest := by
  cases rest <;> rfl

theorem readOn_value (o : Options) (flag : Flag) (text : String) (rest : List String) :
    o.readOn (flag.name :: text :: rest) = o.set flag text >>= fun o => o.readOn rest := by
  rw [readOn, if_neg (name_ne_json flag), ofName?_name]
  cases hset : o.set flag text <;> simp only [hset] <;> rfl

theorem readOn_reject (o : Options) {argument : String} (hflag : ∀ flag : Flag, argument ≠ flag.name)
    (hjson : argument ≠ "--json") (rest : List String) :
    o.readOn (argument :: rest) = .error (reject argument) := by
  cases rest <;> rw [readOn, if_neg hjson, ofName?_eq_none hflag]

theorem readOn_faulty (o : Options) {arguments : List String} (h : Faulty arguments e) :
    o.readOn arguments = .error e := by
  cases h with
  | missingValue flag => rw [readOn, if_neg (name_ne_json flag), ofName?_name]
  | noFlows rest h =>
      rw [readOn_value, set, number_eq_ok_iff.mpr h]
      rfl
  | help rest h =>
      have hargument : ∀ flag : Flag, flag.name ≠ "--help" ∧ flag.name ≠ "-h" := by
        intro flag
        cases flag <;> decide
      rw [readOn_reject, reject, if_pos h]
      · rintro flag rfl
        rcases h with h | h
        · exact (hargument flag).1 h
        · exact (hargument flag).2 h
      · rintro rfl
        revert h
        decide
  | unknownArgument rest hflag hjson hhelp => rw [readOn_reject o hflag hjson, reject, if_neg hhelp]
  | @invalidNumber flag text rest hnumber hword =>
      have herror := number_eq_error flag hnumber
      rw [readOn_value]
      cases flag with
      | capacity =>
          have hother : text ≠ Settings.unlimitedWord := hword rfl
          rw [set, if_neg hother, herror]
          rfl
      | clients => rw [set, herror]; rfl
      | flows => rw [set, herror]; rfl
      | rounds => rw [set, herror]; rfl
      | holdMillis => rw [set, herror]; rfl
      | graceMillis => rw [set, herror]; rfl

/-- Complete groups are read one after the other, and what follows them after that. -/
theorem readOn_words (h : ∀ group ∈ groups, group.Complete) :
    ∃ o : Options, o.Matches groups ∧
      ∀ rest, default.readOn (groups.flatMap Group.words ++ rest) = o.readOn rest := by
  induction groups using List.reverseRecOn with
  | nil => exact ⟨default, matches_default, fun rest => rfl⟩
  | append_singleton groups group ih =>
      obtain ⟨hgroups, hgroup⟩ := List.forall_mem_append.mp h
      obtain ⟨o, hmatches, hread⟩ := ih hgroups
      have hsplit : ∀ rest, (groups ++ [group]).flatMap Group.words ++ rest =
          groups.flatMap Group.words ++ (group.words ++ rest) := by
        intro rest
        rw [List.flatMap_append, List.flatMap_singleton, List.append_assoc]
      cases group with
      | json =>
          refine ⟨_, hmatches.json_concat, fun rest => ?_⟩
          rw [hsplit, hread]
          exact readOn_json o rest
      | value flag text =>
          obtain ⟨o', hset, hsets⟩ := o.set_gives (hgroup _ (List.mem_singleton_self _))
          refine ⟨o', hmatches.value_concat hsets, fun rest => ?_⟩
          rw [hsplit, hread]
          exact (readOn_value o flag text rest).trans (by rw [hset]; rfl)

theorem complete_or_faulty (flag : Flag) (text : String) :
    Group.Complete (.value flag text) ∨ ∃ e, ∀ rest, Faulty (flag.name :: text :: rest) e := by
  by_cases hnumber : ∃ n, IsNumber text n
  · obtain ⟨n, hn⟩ := hnumber
    by_cases hflag : flag = .flows
    · subst hflag
      rcases Nat.eq_zero_or_pos n with rfl | hpos
      · exact .inr ⟨_, fun rest => .noFlows rest hn⟩
      · exact .inl (.flows hn hpos)
    · exact .inl (.number hflag hn)
  · by_cases hword : flag = .capacity ∧ text = "unlimited"
    · obtain ⟨rfl, rfl⟩ := hword
      exact .inl .unlimited
    · refine .inr ⟨_, fun rest => .invalidNumber rest (fun n hn => hnumber ⟨n, hn⟩) ?_⟩
      exact fun hflag htext => hword ⟨hflag, htext⟩

def Grouped (arguments : List String) : Prop :=
  ∃ (groups : List Group) (rest : List String), (∀ group ∈ groups, group.Complete) ∧
    arguments = groups.flatMap Group.words ++ rest ∧ (rest = [] ∨ ∃ e, Faulty rest e)

theorem Grouped.cons {group : Group} {arguments : List String} (hgroup : group.Complete)
    (h : Grouped arguments) : Grouped (group.words ++ arguments) := by
  obtain ⟨groups, rest, hgroups, rfl, hrest⟩ := h
  refine ⟨group :: groups, rest, List.forall_mem_cons.mpr ⟨hgroup, hgroups⟩, ?_, hrest⟩
  rw [List.flatMap_cons, List.append_assoc]

theorem grouped_of_faulty {arguments : List String} (h : Faulty arguments e) : Grouped arguments :=
  ⟨[], arguments, nofun, rfl, .inr ⟨e, h⟩⟩

theorem grouped (arguments : List String) : Grouped arguments := by
  -- A group takes one argument or two, so that the rest is shorter, but not always the tail.
  induction hlength : arguments.length using Nat.strongRecOn generalizing arguments with
  | _ n ih =>
      subst hlength
      cases arguments with
      | nil => exact ⟨[], [], nofun, rfl, .inl rfl⟩
      | cons argument rest =>
          by_cases hjson : argument = "--json"
          · subst hjson
            exact Grouped.cons .json (ih _ (Nat.lt_succ_self _) rest rfl)
          · by_cases hflag : ∃ flag : Flag, argument = flag.name
            · obtain ⟨flag, rfl⟩ := hflag
              cases rest with
              | nil => exact grouped_of_faulty (.missingValue flag)
              | cons text rest =>
                  rcases complete_or_faulty flag text with hcomplete | ⟨e, hfaulty⟩
                  · have hshorter : rest.length < (flag.name :: text :: rest).length := by
                      rw [List.length_cons, List.length_cons]
                      omega
                    exact Grouped.cons hcomplete (ih _ hshorter rest rfl)
                  · exact grouped_of_faulty (hfaulty rest)
            · by_cases hhelp : argument = "--help" ∨ argument = "-h"
              · exact grouped_of_faulty (.help rest hhelp)
              · exact grouped_of_faulty (.unknownArgument rest (fun flag h => hflag ⟨flag, h⟩) hjson hhelp)

end Reading

theorem read_words (h : ∀ group ∈ groups, group.Complete) :
    read (groups.flatMap Group.words) = .ok o ↔ o.Matches groups := by
  obtain ⟨o', hmatches, hread⟩ := readOn_words h
  have hok : read (groups.flatMap Group.words) = .ok o' := by
    rw [read, ← List.append_nil (groups.flatMap Group.words), hread]
    rfl
  rw [hok, Except.ok.injEq]
  constructor
  · rintro rfl
    exact hmatches
  · exact fun h => hmatches.unique h

theorem read_faulty (h : ∀ group ∈ groups, group.Complete) (hrest : Faulty rest e) :
    read (groups.flatMap Group.words ++ rest) = .error e := by
  obtain ⟨o, -, hread⟩ := readOn_words h
  rw [read, hread]
  exact o.readOn_faulty hrest

theorem exists_read_iff {arguments : List String} :
    (∃ o, read arguments = .ok o) ↔
      ∃ groups : List Group, (∀ group ∈ groups, group.Complete) ∧ arguments = groups.flatMap Group.words := by
  constructor
  · rintro ⟨o, hok⟩
    obtain ⟨groups, rest, hgroups, rfl, rfl | ⟨e, hfaulty⟩⟩ := grouped arguments
    · exact ⟨groups, hgroups, List.append_nil _⟩
    · rw [read_faulty hgroups hfaulty] at hok
      cases hok
  · rintro ⟨groups, hgroups, rfl⟩
    obtain ⟨o, hmatches, -⟩ := readOn_words hgroups
    exact ⟨o, (read_words hgroups).mpr hmatches⟩

theorem graceMillis_lt {arguments : List String} (h : read arguments = .ok o)
    (hgrace : o.graceMillis = some n) : n < 2 ^ 64 := by
  obtain ⟨groups, hgroups, rfl⟩ := exists_read_iff.mp ⟨o, h⟩
  have hshows : GraceOf (Group.values .graceMillis groups).getLast? o.graceMillis :=
    ((read_words hgroups).mp h).shows .graceMillis
  rw [hgrace] at hshows
  cases hlast : (Group.values .graceMillis groups).getLast? with
  | none =>
      rw [hlast] at hshows
      cases hshows
  | some text =>
      rw [hlast] at hshows
      obtain ⟨m, hm, hnumber⟩ := hshows
      rw [Option.some.inj hm]
      exact hnumber.2

example : read ["--clients", "--json", "--help"] = .error (.invalidNumber .clients "--json") := by decide

end Options

end FlowGate.Simulation
