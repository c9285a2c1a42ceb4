import FlowGate.Proofs.GateInvariant
import FlowGate.Snapshot

namespace FlowGate

variable {g : Gate} {parties : List (Flow × Party)} {start : Int} {now : Nat}

/-- What a snapshot shows of an active ticket. -/
def Admission.holding (a : Admission) (start : Int) (now : Nat) : Holding where
  id := a.ticket.id
  flow := a.ticket.flow
  reason := a.ticket.reason
  priority := a.ticket.priority
  created := Timestamp.after start a.ticket.issued
  ageMillis := Span.wholeMillis (now - a.ticket.issued)
  expiresInMillis := (timeLeft a.expiresAt now).map Span.wholeMillis

theorem Gate.Consistent.mem_shown_iff (h : g.Consistent) (hparties : parties.Perm g.active.rows)
    {a : Admission} : a ∈ Gate.shown parties ↔ g.Admits a.ticket a.expiresAt := by
  simp only [Gate.shown, Flow.sortForDisplay, List.mem_flatMap, List.mem_mergeSort, hparties.mem_iff]
  constructor
  · rintro ⟨⟨flow, party⟩, hrow, hmem⟩
    obtain ⟨id, hget⟩ := Catalog.mem_values_iff.mp hmem
    exact h.admits_of_get? (Catalog.mem_rows_iff.mp hrow) hget
  · intro hadmits
    obtain ⟨party, hparty, hget⟩ := Gate.admits_iff.mp hadmits
    exact ⟨(a.ticket.flow, party), Catalog.mem_rows_iff.mpr hparty,
      Catalog.mem_values_iff.mpr ⟨a.ticket.id, hget⟩⟩

theorem Gate.Consistent.mem_holdings_iff (h : g.Consistent) (hparties : parties.Perm g.active.rows)
    {x : Holding} : x ∈ (g.snapshotFrom parties start now).holdings ↔
      ∃ a : Admission, g.Admits a.ticket a.expiresAt ∧ x = a.holding start now := by
  simp only [Gate.snapshotFrom, List.mem_map, h.mem_shown_iff hparties]
  exact exists_congr fun a => and_congr_right fun _ => eq_comm

end FlowGate
