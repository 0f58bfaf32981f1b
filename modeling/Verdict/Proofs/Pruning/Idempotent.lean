import Verdict.Proofs.Pruning.Monotone

/-! A pruned body is pruned no further.

What is trimmed away had no part in what is live: every link on the way from a live variable belongs
to a where-clause whose proxy is live, and so to one that stays. The second time the same variables
are live, although fewer where-clauses link them; nothing else is trimmed away, and the body
mentions what it mentioned the first time. -/
namespace Verdict

namespace WhereClauses
variable {blocks : List Block} {live : List String} {u v x : String}

theorem commands_trim_subset (blocks : List Block) (live : List String) :
    Block.commands (trim blocks live).2 ⊆ Block.commands blocks :=
  fun _ hc => (mem_commands_trim_iff.mp hc).1

/-- The where-clauses that link live variables stay. -/
theorem Linked.of_live (h : Linked blocks u v) (hu : u ∈ (trim blocks live).1) :
    Linked (trim blocks live).2 u v := by
  have hv : v ∈ (trim blocks live).1 := (isLeast_spread blocks live).1.2 u v h hu
  have stays : ∀ {c proxy}, c ∈ Block.commands blocks → c.proxy? = some proxy →
      proxy ∈ (trim blocks live).1 → c ∈ Block.commands (trim blocks live).2 := by
    intro c proxy hc hproxy hlive
    refine mem_commands_trim_iff.mpr ⟨hc, fun proxy' hproxy' => ?_⟩
    rwa [← Option.some.inj (hproxy.symm.trans hproxy')]
  cases h with
  | ofProxy hc hproxy he hfree => exact .ofProxy (stays hc hproxy hu) hproxy he hfree
  | toProxy hc hproxy he hfree => exact .toProxy (stays hc hproxy hv) hproxy he hfree

theorem chain_of_live (hv : v ∈ live) (h : Relation.ReflTransGen (Linked blocks) v x) :
    Relation.ReflTransGen (Linked (trim blocks live).2) v x := by
  induction h with
  | refl => exact .refl
  | tail hchain hlinked ih => exact ih.tail (hlinked.of_live (mem_trim_fst_iff.mpr ⟨v, hv, hchain⟩))

/-- The same is live without the where-clauses that were dropped. -/
theorem mem_trim_trim_fst_iff :
    x ∈ (trim (trim blocks live).2 live).1 ↔ x ∈ (trim blocks live).1 := by
  rw [mem_trim_fst_iff, mem_trim_fst_iff]
  refine exists_congr fun v => and_congr_right fun hv => ⟨fun h => ?_, chain_of_live hv⟩
  have hlinked : Linked (trim blocks live).2 ≤ Linked blocks :=
    fun _ _ h => h.mono (commands_trim_subset blocks live)
  exact Relation.ReflTransGen.mono hlinked v x h

theorem trim_trim_snd (blocks : List Block) (live : List String) :
    (trim (trim blocks live).2 live).2 = (trim blocks live).2 := by
  have hkeeps : keeps (trim (trim blocks live).2 live).1 = keeps (trim blocks live).1 := by
    funext c
    rw [keeps, keeps]
    congr 1
    funext proxy
    exact decide_eq_decide.mpr mem_trim_trim_fst_iff
  have htrim : ∀ bs : List Block, (trim bs live).2 =
      bs.map fun b => { b with cmds := b.cmds.filter (keeps (trim bs live).1) } := fun _ => rfl
  rw [htrim (trim blocks live).2, hkeeps, htrim blocks, List.map_map]
  refine List.map_congr_left fun b _ => ?_
  simp only [Function.comp_apply, List.filter_filter, Bool.and_self]

/-- All other commands stay. -/
theorem filter_commands_trim (blocks : List Block) (live : List String) :
    (Block.commands (trim blocks live).2).filter (·.proxy?.isNone) =
      (Block.commands blocks).filter (·.proxy?.isNone) := by
  rw [commands_trim, List.filter_filter]
  refine List.filter_congr fun c _ => ?_
  cases h : c.proxy? with
  | none => simp [keeps, h]
  | some proxy => simp

end WhereClauses

namespace Pruning
variable (p : Program) (implementation : DeclId) (blocks : List Block)

theorem liveVariables_trimmed : liveVariables p implementation (trimmed p implementation blocks) =
    liveVariables p implementation blocks := by
  rw [liveVariables, liveVariables, WhereClauses.liveVariables, WhereClauses.liveVariables, trimmed,
    WhereClauses.filter_commands_trim]

theorem trimmed_trimmed : trimmed p implementation (trimmed p implementation blocks) =
    trimmed p implementation blocks := by
  rw [trimmed, liveVariables_trimmed, trimmed, WhereClauses.trim_trim_snd]

/-- What was trimmed away was not mentioned either. -/
theorem node_trimmed : node p implementation (trimmed p implementation blocks) =
    node p implementation blocks := by
  rw [node, node, trimmed_trimmed, Program.bodyNode, Program.bodyNode, trimmed,
    WhereClauses.filter_commands_trim]

theorem kept_trimmed (g : DependencyGraph) :
    kept p g implementation (trimmed p implementation blocks) = kept p g implementation blocks := by
  rw [kept, kept, node_trimmed]

end Pruning

/-- **Pruning is idempotent.** Pruning what pruning has left of a body leaves all of it, and keeps
the same declarations. -/
theorem prune_idempotent (a : Analysis) (enabled : Bool) (implementation : DeclId)
    (blocks : List Block) :
    ∃ kept trimmed, a.prune enabled implementation (some blocks) = (kept, some trimmed) ∧
      a.prune enabled implementation (some trimmed) = (kept, some trimmed) := by
  rcases a.prune_cases enabled implementation with ⟨g, hprune⟩ | hprune
  · refine ⟨_, _, hprune blocks, ?_⟩
    rw [hprune, Pruning.kept_trimmed, Pruning.trimmed_trimmed]
  · exact ⟨_, _, hprune blocks, hprune blocks⟩

end Verdict
