import Verdict.Proofs.Expr.Occurrence

/-! What stands outside of triggers.

Reading an axiom passes over its triggers, which are taken as a whole. `mentionsUntriggered_iff`
says that it comes to all the rest: to the symbols that stand outside of every trigger, and to no
others. -/
namespace Verdict.Expr

/-- The expressions directly inside an expression, those of its triggers left out. -/
def untriggered : Expr → List Expr
  | quantified _ _ _ body => [body]
  | e => e.children

/-- The declaration stands in the expression outside of every trigger. -/
inductive MentionsUntriggered (id : DeclId) : Expr → Prop
  | here {e : Expr} : e.symbol? = some id → MentionsUntriggered id e
  | inside {c e : Expr} : c ∈ e.untriggered → MentionsUntriggered id c → MentionsUntriggered id e

/-- Whatever the stance, reading an axiom goes on to what is not in a trigger. -/
theorem map_fst_enter_stance (s : Stance) (e : Expr) :
    (Stance.descent.enter s e).map Prod.fst = e.untriggered := by
  cases e <;> simp [Stance.descent, untriggered, children, Function.comp_def]

/-- Reading an axiom comes to all that stands outside of its triggers, wherever it stands. -/
theorem MentionsUntriggered.exists_below {id : DeclId} {e : Expr} (h : e.MentionsUntriggered id)
    (s : Stance) : ∃ entry, Descent.Below Stance.descent (e, s) entry ∧ entry.1.symbol? = some id := by
  induction h generalizing s with
  | here hs => exact ⟨_, .here _, hs⟩
  | @inside c e hc _ ih =>
    rw [← map_fst_enter_stance s e, List.mem_map] at hc
    obtain ⟨⟨c, inner⟩, hentered, rfl⟩ := hc
    obtain ⟨entry, hbelow, hs⟩ := ih inner
    exact ⟨entry, .enter hentered hbelow, hs⟩

theorem MentionsUntriggered.of_below {id : DeclId} {p r : Expr × Stance}
    (h : Descent.Below Stance.descent p r) (hr : r.1.symbol? = some id) :
    p.1.MentionsUntriggered id := by
  induction h with
  | here => exact .here hr
  | enter hentered _ ih =>
    have hc := List.mem_map_of_mem (f := Prod.fst) hentered
    rw [map_fst_enter_stance] at hc
    exact .inside hc (ih hr)

theorem mentionsUntriggered_iff (e : Expr) (s : Stance) (id : DeclId) :
    e.MentionsUntriggered id ↔
      ∃ entry, Descent.Below Stance.descent (e, s) entry ∧ entry.1.symbol? = some id :=
  ⟨fun h => h.exists_below s, fun ⟨_, h, hs⟩ => .of_below h hs⟩

end Verdict.Expr
