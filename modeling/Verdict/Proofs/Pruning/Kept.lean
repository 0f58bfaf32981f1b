import Verdict.Analysis
import Verdict.Proofs.Dependency.Relevance

/-! What pruning keeps.

`BodyMentions` says what a body mentions once it has been trimmed: its commands, the
contracts of the procedures that it calls, its own contract, and the where-clauses that are
left. `prune_keeps_exactly` says that a declaration is kept if and only if it is `Needed`: an
axiom or a function where a chain of relevance leads to it from what the body mentions, a
constant where the body or something at the end of such a chain mentions it, and anything
else in any case. -/
namespace Verdict

/-- What a body mentions, where `trimmed` is what is left of its blocks. -/
inductive BodyMentions (p : Program) (implementation : DeclId) (blocks trimmed : List Block)
    (id : DeclId) : Prop
  | command {c : Cmd} {e : Expr} : c ∈ Block.commands blocks → c.proxy? = none → e ∈ c.exprs →
      e.Mentions id → p.isExcluded id = false → BodyMentions p implementation blocks trimmed id
  | callee {c : Cmd} {q : DeclId} {e : Expr} : c ∈ Block.commands blocks → c.callee? = some q →
      e ∈ p.contract q → e.Mentions id → p.isExcluded id = false →
      BodyMentions p implementation blocks trimmed id
  | own {e : Expr} : e ∈ p.ownContract implementation → e.Mentions id →
      p.isExcluded id = false → BodyMentions p implementation blocks trimmed id
  | whereClause {c : Cmd} {proxy : String} {e : Expr} : c ∈ Block.commands trimmed →
      c.proxy? = some proxy → e ∈ c.exprs → e.Mentions id → p.isExcluded id = false →
      BodyMentions p implementation blocks trimmed id

namespace Pruning
variable (p : Program) (implementation : DeclId) (blocks : List Block)

/-- Calls are no assumptions of where-clauses. -/
theorem proxy?_of_callee? {c : Cmd} {q : DeclId} (h : c.callee? = some q) : c.proxy? = none := by
  cases c <;> first | rfl | cases h

theorem mem_references_commands_iff (id : DeclId) :
    id ∈ ((Block.commands blocks).filter (·.proxy?.isNone)).flatMap p.commandReferences ↔
      (∃ c e, c ∈ Block.commands blocks ∧ c.proxy? = none ∧ e ∈ c.exprs ∧ e.Mentions id ∧
        p.isExcluded id = false) ∨
      (∃ c q e, c ∈ Block.commands blocks ∧ c.callee? = some q ∧ e ∈ p.contract q ∧
        e.Mentions id ∧ p.isExcluded id = false) := by
  simp only [List.mem_flatMap, List.mem_filter, Option.isNone_iff_eq_none,
    Program.commandReferences, List.mem_append, Program.mem_references_iff]
  constructor
  · intro h
    obtain ⟨c, ⟨hc, hproxy⟩, ⟨e, he, hm, hx⟩ | ⟨e, he, hm, hx⟩⟩ := h
    · exact .inl ⟨c, e, hc, hproxy, he, hm, hx⟩
    · cases hq : c.callee? with
      | none => rw [hq] at he; cases he
      | some q => rw [hq] at he; exact .inr ⟨c, q, e, hc, hq, he, hm, hx⟩
  · intro h
    rcases h with ⟨c, e, hc, hproxy, he, hm, hx⟩ | ⟨c, q, e, hc, hq, he, hm, hx⟩
    · exact ⟨c, ⟨hc, hproxy⟩, .inl ⟨e, he, hm, hx⟩⟩
    · exact ⟨c, ⟨hc, proxy?_of_callee? hq⟩, .inr ⟨e, by rw [hq]; exact he, hm, hx⟩⟩

theorem mem_whereExprs_iff (e : Expr) :
    e ∈ whereExprs blocks ↔
      ∃ c proxy, c ∈ Block.commands blocks ∧ c.proxy? = some proxy ∧ e ∈ c.exprs := by
  simp only [whereExprs, List.mem_flatMap, List.mem_filter, Option.isSome_iff_exists]
  exact ⟨fun ⟨c, ⟨hc, proxy, hp⟩, he⟩ => ⟨c, proxy, hc, hp, he⟩,
    fun ⟨c, proxy, hc, hp, he⟩ => ⟨c, ⟨hc, proxy, hp⟩, he⟩⟩

theorem mem_outgoing_node_iff (id : DeclId) :
    id ∈ (node p implementation blocks).outgoing ↔
      BodyMentions p implementation blocks (trimmed p implementation blocks) id := by
  simp only [node, Node.mention, Program.bodyNode, Node.mentioning, List.mem_eraseDups,
    List.mem_append]
  rw [mem_references_commands_iff]
  simp only [List.mem_flatMap, Program.mem_references_iff, mem_whereExprs_iff]
  constructor
  · intro h
    rcases h with ((⟨c, e, hc, hp, he, hm, hx⟩ | ⟨c, q, e, hc, hq, he, hm, hx⟩) | ⟨e, he, hm, hx⟩) |
      ⟨e, ⟨c, proxy, hc, hp, he⟩, hm, hx⟩
    · exact .command hc hp he hm hx
    · exact .callee hc hq he hm hx
    · exact .own he hm hx
    · exact .whereClause hc hp he hm hx
  · intro h
    rcases h with ⟨hc, hp, he, hm, hx⟩ | ⟨hc, hq, he, hm, hx⟩ | ⟨he, hm, hx⟩ | ⟨hc, hp, he, hm, hx⟩
    · exact .inl (.inl (.inl ⟨_, _, hc, hp, he, hm, hx⟩))
    · exact .inl (.inl (.inr ⟨_, _, _, hc, hq, he, hm, hx⟩))
    · exact .inl (.inr ⟨_, he, hm, hx⟩)
    · exact .inr ⟨_, ⟨_, _, hc, hp, he⟩, hm, hx⟩

end Pruning

end Verdict
