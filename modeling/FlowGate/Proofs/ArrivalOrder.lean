import FlowGate.Ticket

namespace FlowGate

theorem Priority.isLE_compare_iff {p q : Priority} :
    (compare p q).isLE = true ↔ p.level ≤ q.level :=
  Int.isLE_compare

namespace Ticket

/-- A ticket precedes those that are less urgent, and the later ones of those that are as urgent. -/
def Precedes (t u : Ticket) : Prop :=
  u.priority.level < t.priority.level ∨ u.priority.level = t.priority.level ∧ t.id < u.id

instance : DecidableRel Precedes := fun _ _ => inferInstanceAs (Decidable (_ ∨ _))

variable {t u v : Ticket}

theorem Precedes.trans (h : t.Precedes u) (h' : u.Precedes v) : t.Precedes v := by
  unfold Precedes at *
  omega

theorem Precedes.asymm (h : t.Precedes u) : ¬u.Precedes t := by
  unfold Precedes at *
  omega

theorem precedes_or_precedes (h : t.id ≠ u.id) : t.Precedes u ∨ u.Precedes t := by
  unfold Precedes
  omega

end Ticket

end FlowGate
