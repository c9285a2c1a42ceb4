import FlowGate.Proofs.ByteOrder
import FlowGate.Proofs.EndpointOrder

namespace FlowGate

namespace Net

namespace Address

variable {p q : Address}

/-- The number that an address is, of 32 bits in version 4 and of 128 bits in version 6. -/
def number : Address → Nat
  | .v4 a b c d => positional 256 ([a, b, c, d].map UInt8.toNat)
  | .v6 a b c d e f g h => positional 65536 ([a, b, c, d, e, f, g, h].map UInt16.toNat)

theorem number_lt (p : Address) : p.number < 2 ^ (if p.isV4 then 32 else 128) := by
  cases p with
  | v4 a b c d =>
      have hoctets : ∀ n ∈ [a, b, c, d].map UInt8.toNat, n < 256 :=
        List.forall_mem_map.mpr fun octet _ => octet.toNat_lt
      exact Nat.lt_of_lt_of_eq (positional_lt hoctets) (by simp [isV4])
  | v6 a b c d e f g h =>
      have hgroups : ∀ n ∈ [a, b, c, d, e, f, g, h].map UInt16.toNat, n < 65536 :=
        List.forall_mem_map.mpr fun group _ => group.toNat_lt
      exact Nat.lt_of_lt_of_eq (positional_lt hgroups) (by simp [isV4])

theorem lt_of_mem_octets {n : Nat} (hn : n ∈ p.octets) : n < 256 := by
  cases p with
  | v4 a b c d =>
      have ha := a.toNat_lt
      have hb := b.toNat_lt
      have hc := c.toNat_lt
      have hd := d.toNat_lt
      simp only [octets, List.mem_append, List.mem_cons, List.not_mem_nil, or_false] at hn
      omega
  | v6 a b c d e f g h =>
      obtain ⟨group, -, hn⟩ := List.mem_flatMap.mp hn
      have hgroup := group.toNat_lt
      simp only [groupOctets, List.mem_cons, List.not_mem_nil, or_false] at hn
      omega

theorem length_octets (p : Address) : p.octets.length = 16 := by cases p <;> rfl

theorem positional_octets_v6 (a b c d e f g h : UInt16) :
    positional 256 (octets (v6 a b c d e f g h)) = number (v6 a b c d e f g h) := by
  have hoctets : octets (v6 a b c d e f g h) =
      ([a, b, c, d, e, f, g, h].map UInt16.toNat).flatMap fun n => [n / 256, n % 256] := by
    rw [List.flatMap_map]
    rfl
  rw [hoctets, positional_flatMap]
  rfl

theorem compare_octets (hform : p.isV4 = q.isV4) :
    compare p.octets q.octets = compare p.number q.number := by
  cases p with
  | v4 a b c d =>
      cases q with
      | v6 => cases hform
      | v4 a' b' c' d' =>
          rw [octets, octets, compare_append_left]
          have hoctets : ∀ l : List UInt8, ∀ n ∈ l.map UInt8.toNat, n < 256 :=
            fun l => List.forall_mem_map.mpr fun octet _ => octet.toNat_lt
          have hlength : ([a, b, c, d].map UInt8.toNat).length =
              ([a', b', c', d'].map UInt8.toNat).length := rfl
          exact (compare_positional hlength (hoctets _) (hoctets _)).symm
  | v6 a b c d e f g h =>
      cases q with
      | v4 => cases hform
      | v6 a' b' c' d' e' f' g' h' =>
          rw [← positional_octets_v6, ← positional_octets_v6]
          refine (compare_positional ?_ ?_ ?_).symm
          · rw [length_octets, length_octets]
          · exact fun n hn => lt_of_mem_octets hn
          · exact fun n hn => lt_of_mem_octets hn

end Address

namespace Endpoint

open FlowGate.Text

variable {x y : String} {host host' port port' : List Char}

/-- The order of hosts: addresses of version 4, then names, which all count as equal, then version 6. -/
def hostOrder : Option Address → Option Address → Ordering
  | some p, some q =>
    if p.isV4 = q.isV4 then compare p.number q.number else if p.isV4 then .lt else .gt
  | some p, none => if p.isV4 then .lt else .gt
  | none, some q => if q.isV4 then .gt else .lt
  | none, none => .eq

/-- The number that a port writes, if a signed word of 64 bits holds it. -/
def portNumber? (port : List Char) : Option Int := Numeral.signed? Numeral.signedWordLimit port

/-- The order of ports: those that are numbers first, by value; then by the bytes of the text. -/
def portOrder (port port' : List Char) : Ordering :=
  let byText := compare (utf8 (String.ofList port)) (utf8 (String.ofList port'))
  match portNumber? port, portNumber? port' with
  | some m, some n => (compare m n).then byText
  | some _, none => .lt
  | none, some _ => .gt
  | none, none => byText

/-- The order of endpoints: those that split first, by host and then by port; the others count as equal. -/
def numericOrder (x y : String) : Ordering :=
  match split? x.toList, split? y.toList with
  | some (host, port), some (host', port') =>
    (hostOrder (Address.parse host) (Address.parse host')).then (portOrder port port')
  | some _, none => .lt
  | none, some _ => .gt
  | none, none => .eq

theorem hostOrder_eq (p q : Option Address) :
    hostOrder p q = (compare (!p.any Address.isV4) (!q.any Address.isV4)).then
      (compare (p.map Address.octets) (q.map Address.octets)) := by
  cases p with
  | none =>
      cases q with
      | none => rfl
      | some q => cases hq : q.isV4 <;> simp only [hostOrder, hq, Option.any_some] <;> rfl
  | some p =>
      cases q with
      | none => cases hp : p.isV4 <;> simp only [hostOrder, hp, Option.any_some] <;> rfl
      | some q =>
          rw [hostOrder, Option.any_some, Option.any_some]
          by_cases hform : p.isV4 = q.isV4
          · have hself : compare (!q.isV4) (!q.isV4) = .eq := Std.ReflCmp.compare_self
            rw [if_pos hform, hform, hself, ← Address.compare_octets hform]
            rfl
          · obtain hq : q.isV4 = !p.isV4 := Bool.eq_not_of_ne (Ne.symm hform)
            rw [if_neg hform, hq]
            cases p.isV4 <;> rfl

theorem portOrder_eq (port port' : List Char) :
    portOrder port port' =
      (compare (portNumber? port).isNone (portNumber? port').isNone).then
        ((compare ((portNumber? port).getD 0) ((portNumber? port').getD 0)).then
          (compare (String.ofList port) (String.ofList port'))) := by
  rw [← compare_utf8]
  cases hm : portNumber? port <;> cases hn : portNumber? port' <;>
    simp only [portOrder, hm, hn] <;> rfl

theorem compare_fields (k l : Key) :
    compare k l = (compare k.malformed l.malformed).then ((compare k.notV4 l.notV4).then
      ((compare k.address l.address).then ((compare k.portMalformed l.portMalformed).then
        ((compare k.portNumber l.portNumber).then (compare k.port l.port))))) := rfl

theorem compare_keys (x y : String) : compare (key x) (key y) = numericOrder x y := by
  cases hx : split? x.toList with
  | none =>
      cases hy : split? y.toList with
      | none =>
          rw [key_of_split?_eq_none hx, key_of_split?_eq_none hy, compare_fields]
          simp only [numericOrder, hx, hy]
          rfl
      | some parts =>
          rw [key_of_split?_eq_none hx, key_of_split? hy, compare_fields]
          simp only [numericOrder, hx, hy]
          rfl
  | some parts =>
      cases hy : split? y.toList with
      | none =>
          rw [key_of_split? hx, key_of_split?_eq_none hy, compare_fields]
          simp only [numericOrder, hx, hy]
          rfl
      | some parts' =>
          rw [key_of_split? hx, key_of_split? hy, compare_fields]
          simp only [numericOrder, hx, hy, hostOrder_eq, portOrder_eq, Ordering.then_assoc]
          rfl

example : compare (key "10.0.0.9:80") (key "10.0.0.10:80") = .lt := by decide

end Endpoint

end Net

namespace Flow

open Net (Address)
open Net.Endpoint (numericOrder compare_keys)

/--
The order shown compares the remote endpoints by the numbers in them, then the protocols by their bytes, then
the local endpoints by the numbers in them. The number of an address fits the bits of its form.
-/
theorem display_order_is_numeric :
    (∀ a b, displayOrder a b =
      (numericOrder a.remoteAddr b.remoteAddr).then
        ((compare (utf8 a.protocol) (utf8 b.protocol)).then
          (numericOrder a.localAddr b.localAddr))) ∧
    ∀ p : Address, p.number < 2 ^ (if p.isV4 then 32 else 128) := by
  refine ⟨fun a b => ?_, Address.number_lt⟩
  rw [← compare_keys, ← compare_keys, compare_utf8]
  rfl

end Flow

end FlowGate
