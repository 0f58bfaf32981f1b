import Verdict.Proofs.Pruning.Contracts
import Verdict.Proofs.Pruning.Kept

/-! A larger body needs no less.

Every stage of pruning asks for more when there are more commands. More commands use more variables
and their where-clauses link more of them, so no proxy that was live is dead; the assumptions that
stay and the other commands mention more symbols; whoever mentions more has more axioms and
functions relevant to it; and a search that begins with more ends with more. None of this depends
on which graph is attached: a family of sets answers no larger candidate with less. -/
namespace Verdict

variable {p : Program} {implementation : DeclId} {blocks blocks' : List Block} {v x : String}

/-! ### The body -/

theorem WhereClauses.Linked.mono (hsub : Block.commands blocks ⊆ Block.commands blocks')
    (h : Linked blocks v x) : Linked blocks' v x := by
  cases h with
  | ofProxy hc hproxy he hfree => exact .ofProxy (hsub hc) hproxy he hfree
  | toProxy hc hproxy he hfree => exact .toProxy (hsub hc) hproxy he hfree

theorem Anchor.mono (hsub : Block.commands blocks ⊆ Block.commands blocks')
    (h : Anchor p implementation blocks v) : Anchor p implementation blocks' v := by
  cases h with
  | own he hfree => exact .own he hfree
  | command hc hproxy huses => exact .command (hsub hc) hproxy huses

theorem BodyMentions.mono {trimmed trimmed' : List Block} {id : DeclId}
    (hsub : Block.commands blocks ⊆ Block.commands blocks')
    (htrimmed : Block.commands trimmed ⊆ Block.commands trimmed')
    (h : BodyMentions p implementation blocks trimmed id) :
    BodyMentions p implementation blocks' trimmed' id := by
  cases h with
  | command hc hproxy he hm hx => exact .command (hsub hc) hproxy he hm hx
  | callee hc hq he hm hx => exact .callee (hsub hc) hq he hm hx
  | own he hm hx => exact .own he hm hx
  | whereClause hc hproxy he hm hx => exact .whereClause (htrimmed hc) hproxy he hm hx

/-! ### The graph -/

namespace DependencyGraph
variable {body body' : Node}

theorem hooks_mono (g : DependencyGraph) (hsub : body.outgoing ⊆ body'.outgoing) :
    g.hooks body ⊆ g.hooks body' := by
  intro id hid
  obtain ⟨entry, hentry, rfl⟩ := List.mem_map.mp hid
  obtain ⟨hnode, hdepends⟩ := List.mem_filter.mp hentry
  exact List.mem_map_of_mem (List.mem_filter.mpr
    ⟨hnode, SetFamily.hasSubsetOf_mono hsub hdepends⟩)

theorem reachable_mono (g : DependencyGraph) (hsub : body.outgoing ⊆ body'.outgoing) :
    g.reachable body ⊆ g.reachable body' := by
  intro id hid
  rw [reachable, Closure.mem_reach_iff] at hid ⊢
  exact hid.mono (g.hooks_mono hsub)

end DependencyGraph

/-! ### What stays -/

namespace Pruning

/-- A variable is live in the end if it is linked, at some distance, to one that matters whatever
where-clauses stay. -/
theorem mem_trim_liveVariables_iff : x ∈ (WhereClauses.trim blocks
      (liveVariables p implementation blocks)).1 ↔
    ∃ v, Anchor p implementation blocks v ∧
      Relation.ReflTransGen (WhereClauses.Linked blocks) v x := by
  simp only [WhereClauses.mem_trim_fst_iff, mem_liveVariables_iff]

theorem live_mono (hsub : Block.commands blocks ⊆ Block.commands blocks')
    (h : x ∈ (WhereClauses.trim blocks (liveVariables p implementation blocks)).1) :
    x ∈ (WhereClauses.trim blocks' (liveVariables p implementation blocks')).1 := by
  obtain ⟨v, hanchor, hchain⟩ := mem_trim_liveVariables_iff.mp h
  have hlinked : WhereClauses.Linked blocks ≤ WhereClauses.Linked blocks' :=
    fun _ _ h => h.mono hsub
  exact mem_trim_liveVariables_iff.mpr
    ⟨v, hanchor.mono hsub, Relation.ReflTransGen.mono hlinked v x hchain⟩

theorem trimmed_mono (hsub : Block.commands blocks ⊆ Block.commands blocks') :
    Block.commands (trimmed p implementation blocks) ⊆
      Block.commands (trimmed p implementation blocks') := by
  intro c hc
  obtain ⟨hmem, hlive⟩ := WhereClauses.mem_commands_trim_iff.mp hc
  exact WhereClauses.mem_commands_trim_iff.mpr
    ⟨hsub hmem, fun proxy hproxy => live_mono hsub (hlive proxy hproxy)⟩

/-- What stays of the smaller body stays in every block of the larger one. -/
theorem stays_of_trimmed (hsub : Block.commands blocks ⊆ Block.commands blocks') :
    List.Forall₂ (fun b b' => ∀ c ∈ b.cmds,
        c ∈ Block.commands (trimmed p implementation blocks) → c ∈ b'.cmds)
      blocks' (trimmed p implementation blocks') := by
  refine (WhereClauses.trimmed_trim blocks' _).imp fun b b' hb c hc hstays => ?_
  rw [hb.cmds, List.mem_filter, Option.all_eq_true]
  refine ⟨hc, fun proxy hproxy => decide_eq_true ?_⟩
  exact live_mono hsub ((WhereClauses.mem_commands_trim_iff.mp hstays).2 proxy hproxy)

theorem outgoing_node_mono (hsub : Block.commands blocks ⊆ Block.commands blocks') :
    (node p implementation blocks).outgoing ⊆ (node p implementation blocks').outgoing := by
  intro id hid
  rw [mem_outgoing_node_iff] at hid ⊢
  exact hid.mono hsub (trimmed_mono hsub)

theorem keeps_mono (g : DependencyGraph) {body body' : Node} {reached reached' : List DeclId}
    {id : DeclId} {d : Declaration} (hbody : body.outgoing ⊆ body'.outgoing)
    (hreached : reached ⊆ reached') (h : keeps g body reached id d = true) :
    keeps g body' reached' id d = true := by
  cases hs : d.subject with
  | law | function =>
    simp only [keeps, hs, decide_eq_true_eq] at h ⊢
    exact hreached h
  | constant =>
    simp only [keeps, hs, Bool.or_eq_true, decide_eq_true_eq, List.any_eq_true] at h ⊢
    rcases h with (h | h) | ⟨r, hr, h⟩
    · exact .inl (.inl (hbody h))
    · exact .inl (.inr (hreached h))
    · exact .inr ⟨r, hreached hr, h⟩
  | global | procedure | implementation | sort => simp only [keeps, hs]

theorem kept_mono (g : DependencyGraph)
    (hsub : Block.commands blocks ⊆ Block.commands blocks') :
    kept p g implementation blocks ⊆ kept p g implementation blocks' := by
  intro id hid
  obtain ⟨hmem, hkeeps⟩ := List.mem_filter.mp hid
  obtain ⟨d, hd, hkeeps⟩ := (Option.any_eq_true ..).mp hkeeps
  have hout : (node p implementation blocks).outgoing ⊆ (node p implementation blocks').outgoing :=
    outgoing_node_mono hsub
  exact List.mem_filter.mpr ⟨hmem, (Option.any_eq_true ..).mpr
    ⟨d, hd, keeps_mono g hout (g.reachable_mono hout) hkeeps⟩⟩

end Pruning

/-- Either every body is pruned, or none is. -/
theorem Analysis.prune_cases (a : Analysis) (enabled : Bool) (implementation : DeclId) :
    (∃ g, ∀ blocks, a.prune enabled implementation (some blocks) =
      (Pruning.kept a.program g implementation blocks,
        some (Pruning.trimmed a.program implementation blocks))) ∨
    ∀ blocks, a.prune enabled implementation (some blocks) = (a.program.ids, some blocks) := by
  unfold Analysis.prune
  cases enabled with
  | false => exact .inr fun _ => rfl
  | true =>
    cases a.graph with
    | none => exact .inr fun _ => rfl
    | some g => exact .inl ⟨g, fun _ => rfl⟩

/-- **Pruning is monotone in the body.** Let every command of one body occur in another, in whatever
blocks and whatever order. Then all that is kept for the first is kept for the second, and a
command that is left of the first, the assumption of a where-clause perhaps, is left wherever it
stands in the second. -/
theorem prune_monotone (a : Analysis) (enabled : Bool) (implementation : DeclId)
    {blocks blocks' : List Block} (hsub : Block.commands blocks ⊆ Block.commands blocks') :
    ∃ kept trimmed kept' trimmed',
      a.prune enabled implementation (some blocks) = (kept, some trimmed) ∧
      a.prune enabled implementation (some blocks') = (kept', some trimmed') ∧
      kept ⊆ kept' ∧ Block.commands trimmed ⊆ Block.commands trimmed' ∧
      List.Forall₂ (fun b b' => ∀ c ∈ b.cmds, c ∈ Block.commands trimmed → c ∈ b'.cmds)
        blocks' trimmed' := by
  rcases a.prune_cases enabled implementation with ⟨g, hprune⟩ | hprune
  · exact ⟨_, _, _, _, hprune blocks, hprune blocks', Pruning.kept_mono g hsub,
      Pruning.trimmed_mono hsub, Pruning.stays_of_trimmed hsub⟩
  · exact ⟨_, _, _, _, hprune blocks, hprune blocks', List.Subset.refl _, hsub,
      List.forall₂_same.mpr fun b _ c hc _ => hc⟩

/-- Where-clauses of two locals, each of which speaks of a function and of another local. -/
def whereW : Cmd := .whereAssume "w" (.binary .eq (.call ⟨1⟩ [.var "w"]) (.var "y"))

def whereV : Cmd := .whereAssume "v" (.binary .eq (.call ⟨2⟩ [.var "v"]) (.var "z"))

def assertY : Cmd := .assert .unknown (.binary .eq (.var "y") (.literal (.int 0))) []

def assertZ : Cmd := .assert .unknown (.binary .eq (.var "z") (.literal (.int 0))) []

/-- A body that asserts something of one of these locals, -/
def halfBlocks : List Block := [⟨"entry", [whereW, whereV, assertY], .return⟩]

/-- and one that does of both. -/
def wholeBlocks : List Block :=
  [⟨"entry", [assertZ, whereV], .goto ["exit"]⟩, ⟨"exit", [assertY, whereW], .return⟩]

/-- Each function triggers an axiom, and the axiom about the first mentions the constant. -/
def halves : Program where
  decls := #[
    ⟨"bound", .unknown, [], .constant false⟩,
    ⟨"f", .unknown, [], .function ["x"] none⟩,
    ⟨"g", .unknown, [], .function ["x"] none⟩,
    ⟨"aboveF", .unknown, [], .law (.quantified .all ["x"] [[.call ⟨1⟩ [.var "x"]]]
      (.binary .gt (.call ⟨1⟩ [.var "x"]) (.const ⟨0⟩)))⟩,
    ⟨"aboveG", .unknown, [], .law (.quantified .all ["x"] [[.call ⟨2⟩ [.var "x"]]]
      (.binary .gt (.call ⟨2⟩ [.var "x"]) (.literal (.int 0))))⟩,
    ⟨"Main", .unknown, [], .procedure ⟨[], [], [], []⟩⟩,
    ⟨"Main", .unknown, [], .implementation ⟨⟨5⟩, [], ["v", "w", "y", "z"], halfBlocks⟩⟩]

/-- The second body needs the other half as well, and keeps its where-clause. -/
theorem prune_halves :
    Block.commands halfBlocks ⊆ Block.commands wholeBlocks ∧
      (Analysis.ofProgram halves).ensureGraph.2.prune true ⟨6⟩ (some halfBlocks) =
        ([⟨0⟩, ⟨1⟩, ⟨3⟩, ⟨5⟩, ⟨6⟩], some [⟨"entry", [whereW, assertY], .return⟩]) ∧
      (Analysis.ofProgram halves).ensureGraph.2.prune true ⟨6⟩ (some wholeBlocks) =
        (halves.ids, some wholeBlocks) ∧
      [⟨0⟩, ⟨1⟩, ⟨3⟩, ⟨5⟩, ⟨6⟩] ⊆ halves.ids ∧ whereW ∈ Block.commands wholeBlocks := by
  have hsub : Block.commands halfBlocks ⊆ Block.commands wholeBlocks := by
    have hwhole : Block.commands wholeBlocks = [assertZ, whereV, assertY, whereW] := rfl
    rw [hwhole]
    simp [Block.commands, halfBlocks]
  have hhalf : (Analysis.ofProgram halves).ensureGraph.2.prune true ⟨6⟩ (some halfBlocks) =
      ([⟨0⟩, ⟨1⟩, ⟨3⟩, ⟨5⟩, ⟨6⟩], some [⟨"entry", [whereW, assertY], .return⟩]) := by
    with_unfolding_all rfl
  have hwhole : (Analysis.ofProgram halves).ensureGraph.2.prune true ⟨6⟩ (some wholeBlocks) =
      (halves.ids, some wholeBlocks) := by
    with_unfolding_all rfl
  obtain ⟨kept, trimmed, kept', trimmed', heq, heq', hkept, htrimmed, -⟩ :=
    prune_monotone (Analysis.ofProgram halves).ensureGraph.2 true ⟨6⟩ hsub
  cases hhalf.symm.trans heq
  cases hwhole.symm.trans heq'
  exact ⟨hsub, hhalf, hwhole, hkept, htrimmed List.mem_cons_self⟩

end Verdict
