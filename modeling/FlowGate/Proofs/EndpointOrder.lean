import FlowGate.Flow
import Mathlib.Data.List.Forall2

namespace FlowGate

namespace Net

namespace Address

theorem eq_of_octets_eq {p q : Address} (hform : p.isV4 = q.isV4) (hoctets : p.octets = q.octets) :
    p = q := by
  cases p with
  | v4 a b c d =>
      cases q with
      | v4 a' b' c' d' => simpa [octets, UInt8.toNat_inj] using hoctets
      | v6 => cases hform
  | v6 a b c d e f g h =>
      cases q with
      | v4 => cases hform
      | v6 a' b' c' d' e' f' g' h' =>
          have hgroup : ∀ m n : UInt16, m.toNat / 256 = n.toNat / 256 → m.toNat % 256 = n.toNat % 256 →
              m = n := by
            intro m n hhigh hlow
            rw [← UInt16.toNat_inj]
            omega
          simp only [octets, groupOctets, List.flatMap_cons, List.flatMap_nil, List.append_nil,
            List.cons_append, List.nil_append, List.cons.injEq, and_true] at hoctets
          obtain ⟨a₁, a₂, b₁, b₂, c₁, c₂, d₁, d₂, e₁, e₂, f₁, f₂, g₁, g₂, h₁, h₂⟩ := hoctets
          rw [hgroup a a' a₁ a₂, hgroup b b' b₁ b₂, hgroup c c' c₁ c₂, hgroup d d' d₁ d₂,
            hgroup e e' e₁ e₂, hgroup f f' f₁ f₂, hgroup g g' g₁ g₂, hgroup h h' h₁ h₂]

/-- The address of version 6 that stands for an address of version 4. -/
def mapped (a b c d : UInt8) : Address :=
  .v6 0 0 0 0 0 0xffff (UInt16.ofNat (a.toNat * 256 + b.toNat))
    (UInt16.ofNat (c.toNat * 256 + d.toNat))

theorem octets_mapped (a b c d : UInt8) : (mapped a b c d).octets = (v4 a b c d).octets := by
  have hgroup : ∀ m n : UInt8,
      groupOctets (UInt16.ofNat (m.toNat * 256 + n.toNat)) = [m.toNat, n.toNat] := by
    intro m n
    have hm := m.toNat_lt
    have hn := n.toNat_lt
    rw [groupOctets, UInt16.toNat_ofNat_of_lt' (by simp [UInt16.size]; omega)]
    congr 1
    · omega
    · congr 1
      omega
  simp only [mapped, octets, List.flatMap_cons, hgroup]
  rfl

end Address

namespace Endpoint

open FlowGate.Text

instance : Std.TransOrd Key :=
  inferInstanceAs <| Std.TransCmp <| compareLex (compareOn Key.malformed) <|
    compareLex (compareOn Key.notV4) <| compareLex (compareOn Key.address) <|
      compareLex (compareOn Key.portMalformed) <|
        compareLex (compareOn Key.portNumber) (compareOn Key.port)

instance : Std.LawfulEqOrd Key where
  eq_of_compare {a b} h := by
    change compareLex (compareOn Key.malformed) (compareLex (compareOn Key.notV4)
      (compareLex (compareOn Key.address) (compareLex (compareOn Key.portMalformed)
        (compareLex (compareOn Key.portNumber) (compareOn Key.port))))) a b = .eq at h
    simp only [compareLex_eq_eq, compareOn, Std.LawfulEqOrd.compare_eq_iff_eq] at h
    cases a
    cases b
    simp_all

variable {x y : String} {host host' port port' : List Char}

/-- Whether two texts read alike as endpoints. -/
inductive Alike (x y : String) : Prop where
  | malformed (hx : split? x.toList = none) (hy : split? y.toList = none)
  | names {host host' port : List Char} (hx : split? x.toList = some (host, port))
    (hy : split? y.toList = some (host', port)) (hhost : Address.parse host = none)
    (hhost' : Address.parse host' = none)
  | addresses {host host' port : List Char} {address : Address}
    (hx : split? x.toList = some (host, port)) (hy : split? y.toList = some (host', port))
    (hhost : Address.parse host = some address) (hhost' : Address.parse host' = some address)

theorem key_of_split?_eq_none (h : split? x.toList = none) : key x = ⟨true, true, none, true, 0, ""⟩ := by
  simp only [key, h]
  rfl

theorem key_of_split? (h : split? x.toList = some (host, port)) :
    key x =
      { malformed := false
        notV4 := !(Address.parse host).any Address.isV4
        address := (Address.parse host).map Address.octets
        portMalformed := (Numeral.signed? Numeral.signedWordLimit port).isNone
        portNumber := (Numeral.signed? Numeral.signedWordLimit port).getD 0
        port := String.ofList port } := by
  simp [key, h]

theorem host_eq_of_key_eq {p q : Option Address}
    (hform : (!p.any Address.isV4) = !q.any Address.isV4)
    (hoctets : p.map Address.octets = q.map Address.octets) : p = q := by
  cases p with
  | none =>
      cases q with
      | none => rfl
      | some q => cases hoctets
  | some p =>
      cases q with
      | none => cases hoctets
      | some q =>
          rw [Address.eq_of_octets_eq (Bool.not_inj hform) (Option.some.inj hoctets)]

theorem key_eq_iff : key x = key y ↔ Alike x y := by
  constructor
  · intro h
    cases hx : split? x.toList with
    | none =>
        cases hy : split? y.toList with
        | none => exact .malformed hx hy
        | some parts =>
            rw [key_of_split?_eq_none hx, key_of_split? hy] at h
            cases congrArg Key.malformed h
    | some parts =>
        cases hy : split? y.toList with
        | none =>
            rw [key_of_split? hx, key_of_split?_eq_none hy] at h
            cases congrArg Key.malformed h
        | some parts' =>
            obtain ⟨host, port⟩ := parts
            obtain ⟨host', port'⟩ := parts'
            rw [key_of_split? hx, key_of_split? hy] at h
            obtain rfl : port = port' := String.ofList_inj.mp (congrArg Key.port h)
            have hhosts : Address.parse host = Address.parse host' :=
              host_eq_of_key_eq (congrArg Key.notV4 h) (congrArg Key.address h)
            cases hhost : Address.parse host with
            | none => exact .names hx hy hhost (hhosts ▸ hhost)
            | some address => exact .addresses hx hy hhost (hhosts ▸ hhost)
  · rintro (⟨hx, hy⟩ | ⟨hx, hy, hhost, hhost'⟩ | ⟨hx, hy, hhost, hhost'⟩)
    · rw [key_of_split?_eq_none hx, key_of_split?_eq_none hy]
    · rw [key_of_split? hx, key_of_split? hy, hhost, hhost']
    · rw [key_of_split? hx, key_of_split? hy, hhost, hhost']

end Endpoint

end Net

namespace Flow

open Net (Address)
open Net.Endpoint (Key Alike key key_eq_iff split?)

variable {a b : Flow}

/-- What a flow is shown by: the keys of its endpoints, and its protocol between them. -/
def displayKey (flow : Flow) : Key × String × Key :=
  (key flow.remoteAddr, flow.protocol, key flow.localAddr)

def keyOrder : Key × String × Key → Key × String × Key → Ordering :=
  compareLex (compareOn fun k => k.1) <|
    compareLex (compareOn fun k => k.2.1) (compareOn fun k => k.2.2)

instance : Std.TransCmp keyOrder :=
  inferInstanceAs <| Std.TransCmp <| compareLex (compareOn fun k : Key × String × Key => k.1) <|
    compareLex (compareOn fun k => k.2.1) (compareOn fun k => k.2.2)

instance : Std.LawfulEqCmp keyOrder where
  eq_of_compare {k l} h := by
    simp only [keyOrder, compareLex_eq_eq, compareOn, Std.LawfulEqOrd.compare_eq_iff_eq] at h
    exact Prod.ext h.1 (Prod.ext h.2.1 h.2.2)

theorem displayOrder_eq_keyOrder (a b : Flow) :
    displayOrder a b = keyOrder a.displayKey b.displayKey := rfl

instance : Std.TransCmp displayOrder :=
  inferInstanceAs <| Std.TransCmp <| compareLex (compareOn fun flow : Flow => key flow.remoteAddr) <|
    compareLex (compareOn Flow.protocol) (compareOn fun flow : Flow => key flow.localAddr)

theorem ties_iff :
    displayOrder a b = .eq ↔
      a.protocol = b.protocol ∧ Alike a.remoteAddr b.remoteAddr ∧ Alike a.localAddr b.localAddr := by
  rw [displayOrder_eq_keyOrder, Std.LawfulEqCmp.compare_eq_iff_eq, displayKey, displayKey,
    Prod.mk.injEq, Prod.mk.injEq, key_eq_iff, key_eq_iff]
  exact and_left_comm

example : displayOrder ⟨"tcp", "one:1", "[::1]:80"⟩ ⟨"tcp", "two:1", "[0:0:0:0:0:0:0:1]:80"⟩ = .eq := by
  decide

/-- Flows in the order shown, such that none comes before a smaller one. -/
def InDisplayOrder (flows : List Flow) : Prop :=
  flows.Pairwise fun a b => (displayOrder a b).isLE = true

theorem InDisplayOrder.ties {flows flows' : List Flow} (h : InDisplayOrder flows)
    (h' : InDisplayOrder flows') (hperm : flows.Perm flows') :
    List.Forall₂ (fun a b => displayOrder a b = .eq) flows flows' := by
  have hsorted : ∀ {l : List Flow}, InDisplayOrder l →
      (l.map displayKey).Pairwise fun k k' => (keyOrder k k').isLE = true :=
    fun hl => List.pairwise_map.mpr hl
  -- The flows can differ in what ties, but their keys are a sorted list, and so unique.
  have hkeys : flows.map displayKey = flows'.map displayKey := by
    refine (hperm.map displayKey).eq_of_pairwise ?_ (hsorted h) (hsorted h')
    intro k k' _ _ hle hge
    exact Std.LawfulEqCmp.eq_of_compare (Std.OrientedCmp.isLE_antisymm hle hge)
  have hforall : List.Forall₂ (fun a b => a.displayKey = b.displayKey) flows flows' := by
    rw [← List.forall₂_map_right_iff, ← List.forall₂_map_left_iff, hkeys]
    exact List.forall₂_refl _
  refine hforall.imp fun a b heq => ?_
  rw [displayOrder_eq_keyOrder, heq]
  exact Std.ReflCmp.compare_self

theorem not_alike_mapped {x y : String} {host host' port port' : List Char} {a b c d : UInt8}
    (hx : split? x.toList = some (host, port)) (hy : split? y.toList = some (host', port'))
    (hhost : Address.parse host = some (.v4 a b c d))
    (hhost' : Address.parse host' = some (.mapped a b c d)) : ¬Alike x y := by
  rintro (⟨hx', -⟩ | ⟨hx', -, hname, -⟩ | ⟨hx', hy', haddress, haddress'⟩)
  · rw [hx] at hx'
    cases hx'
  · rw [hx] at hx'
    cases hx'
    rw [hhost] at hname
    cases hname
  · rw [hx] at hx'
    rw [hy] at hy'
    cases hx'
    cases hy'
    rw [hhost] at haddress
    rw [hhost', ← haddress] at haddress'
    cases haddress'

/--
The order shown is the same from either side, it carries over from two pairs of flows to a third, and to sort
by it fixes a list up to ties. Two flows tie exactly if their protocols are equal and their endpoints alike;
an address of version 4 never ties with the one of version 6 that has the same octets.
-/
theorem display_order_is_total_preorder :
    (∀ a b, displayOrder b a = (displayOrder a b).swap) ∧
    (∀ a b c, (displayOrder a b).isLE = true → (displayOrder b c).isLE = true →
      (displayOrder a c).isLE = true) ∧
    (∀ flows flows', InDisplayOrder flows → InDisplayOrder flows' → flows.Perm flows' →
      List.Forall₂ (fun a b => displayOrder a b = .eq) flows flows') ∧
    (∀ a b, displayOrder a b = .eq ↔
      a.protocol = b.protocol ∧ Alike a.remoteAddr b.remoteAddr ∧ Alike a.localAddr b.localAddr) ∧
    ∀ x y host host' port port' a b c d, split? x.toList = some (host, port) →
      split? y.toList = some (host', port') → Address.parse host = some (.v4 a b c d) →
        Address.parse host' = some (.mapped a b c d) →
          (Address.mapped a b c d).octets = (Address.v4 a b c d).octets ∧ ¬Alike x y := by
  refine ⟨fun a b => Std.OrientedCmp.eq_swap, fun a b c => Std.TransCmp.isLE_trans, ?_, ?_, ?_⟩
  · exact fun flows flows' h h' hperm => h.ties h' hperm
  · exact fun a b => ties_iff
  · intro x y host host' port port' a b c d hx hy hhost hhost'
    exact ⟨Address.octets_mapped a b c d, not_alike_mapped hx hy hhost hhost'⟩

end Flow

end FlowGate
