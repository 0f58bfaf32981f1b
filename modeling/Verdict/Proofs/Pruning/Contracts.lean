import Verdict.Analysis
import Verdict.Proofs.Pruning.WhereClauses

/-! Which contracts hold the where-clauses of a body.

A body is checked against its own contract and against those of the procedures that it calls, and
what is free in either matters to the check (`InContract`). Pruning reads both for the declarations
that they mention, but only the first for its variables: `Anchor` says which variables it starts
from, and `own_contract_holds_where_clauses` that an assumption stays if and only if its proxy is
linked to one of them. So the where-clause of a global of which only a called procedure speaks is
dropped (`callee_contract_holds_nothing`). -/
namespace Verdict

open WhereClauses (Linked Trimmed)

/-- The variable matters whatever where-clauses stay: it is free in the body's own contract, or a
command that is no assumption of a where-clause uses it. -/
inductive Anchor (p : Program) (implementation : DeclId) (blocks : List Block) (v : String) : Prop
  | own {e : Expr} : e ∈ p.ownContract implementation → e.Free v → Anchor p implementation blocks v
  | command {c : Cmd} : c ∈ Block.commands blocks → c.proxy? = none → c.Uses v →
      Anchor p implementation blocks v

/-- The variable is free in a contract that the body is checked against: its own, or that of a
procedure which it calls. The parameters of that procedure are no variables of the body. -/
inductive InContract (p : Program) (implementation : DeclId) (blocks : List Block) (v : String) :
    Prop
  | own {e : Expr} : e ∈ p.ownContract implementation → e.Free v →
      InContract p implementation blocks v
  | callee {c : Cmd} {q : DeclId} {procedure : Procedure} {e : Expr} :
      c ∈ Block.commands blocks → c.callee? = some q →
      (p.get? q).bind (·.procedure?) = some procedure → e ∈ procedure.contract → e.Free v →
      v ∉ procedure.params → InContract p implementation blocks v

theorem Pruning.mem_liveVariables_iff (p : Program) (implementation : DeclId) (blocks : List Block)
    (v : String) :
    v ∈ liveVariables p implementation blocks ↔ Anchor p implementation blocks v := by
  rw [liveVariables, List.mem_append, WhereClauses.mem_liveVariables_iff, List.mem_flatMap]
  simp only [Expr.mem_freeVariables_iff]
  constructor
  · intro h
    rcases h with ⟨c, hc, hproxy, huses⟩ | ⟨e, he, hfree⟩
    · exact .command hc hproxy huses
    · exact .own he hfree
  · intro h
    cases h with
    | own he hfree => exact .inr ⟨_, he, hfree⟩
    | command hc hproxy huses => exact .inl ⟨_, hc, hproxy, huses⟩

/-- Pruning trims the body by its own contract alone. -/
theorem Analysis.prune_snd {a : Analysis} (attached : a.graph.isSome) (implementation : DeclId)
    (blocks : List Block) : (a.prune true implementation (some blocks)).2 =
      some (Pruning.trimmed a.program implementation blocks) := by
  obtain ⟨g, hg⟩ := Option.isSome_iff_exists.mp attached
  rw [Analysis.prune, hg]
  rfl

theorem Pruning.trimmed_congr {p p' : Program} {implementation : DeclId}
    (h : p.ownContract implementation = p'.ownContract implementation) (blocks : List Block) :
    trimmed p implementation blocks = trimmed p' implementation blocks := by
  rw [trimmed, trimmed, liveVariables, liveVariables, h]

/-- **Of all contracts the body's own alone holds where-clauses.** An assumption stays exactly if
its proxy is linked, at some distance, to a variable that is free in this contract or that another
command uses; so it stays if the proxy is itself free in the contract. What the contracts of called
procedures say makes no difference: under any program that gives the body the same contract of its
own, the same is left of it. -/
theorem own_contract_holds_where_clauses (a : Analysis) (attached : a.graph.isSome)
    (implementation : DeclId) (blocks : List Block) :
    ∃ kept trimmed final, a.prune true implementation (some blocks) = (kept, some trimmed) ∧
      List.Forall₂ (Trimmed final) blocks trimmed ∧
      (∀ x, x ∈ final ↔ ∃ v, Anchor a.program implementation blocks v ∧
        Relation.ReflTransGen (Linked blocks) v x) ∧
      (∀ c ∈ Block.commands blocks, ∀ proxy, c.proxy? = some proxy →
        ∀ e ∈ a.program.ownContract implementation, ∀ v, e.Free v →
          Relation.ReflTransGen (Linked blocks) v proxy → c ∈ Block.commands trimmed) ∧
      ∀ b : Analysis, b.graph.isSome →
        b.program.ownContract implementation = a.program.ownContract implementation →
        (b.prune true implementation (some blocks)).2 = some trimmed := by
  have hfinal : ∀ x, x ∈ (WhereClauses.trim blocks
      (Pruning.liveVariables a.program implementation blocks)).1 ↔
      ∃ v, Anchor a.program implementation blocks v ∧
        Relation.ReflTransGen (Linked blocks) v x := by
    intro x
    rw [WhereClauses.trim, WhereClauses.mem_spread_links_iff]
    simp only [Pruning.mem_liveVariables_iff]
  refine ⟨_, _, _, Prod.ext rfl (a.prune_snd attached implementation blocks),
    WhereClauses.trimmed_trim blocks _, hfinal, ?_, ?_⟩
  · intro c hc proxy hproxy e he v hfree hchain
    refine WhereClauses.mem_commands_trim_iff.mpr ⟨hc, fun proxy' hproxy' => ?_⟩
    obtain rfl := Option.some.inj (hproxy.symm.trans hproxy')
    exact (hfinal proxy).mpr ⟨v, .own he hfree, hchain⟩
  · intro b hb hcontract
    rw [b.prune_snd hb, Pruning.trimmed_congr hcontract]

/-- The where-clauses of three globals, of which the first speaks of the second, and a call. -/
def delegatedBlocks : List Block :=
  [⟨"entry", [.whereAssume "g" (.binary .ge (.var "g") (.var "k")),
      .whereAssume "k" (.binary .ge (.var "k") (.literal (.int 0))),
      .whereAssume "h" (.binary .ge (.var "h") (.literal (.int 0))),
      .call .unknown ⟨3⟩ [] []], .return⟩]

/-- The body is to ensure something of the second global; what the called procedure asks for is
left open. -/
def delegated (requires : List Expr) : Analysis :=
  .ofProgram ⟨#[
    ⟨"g", .unknown, [], .global⟩,
    ⟨"k", .unknown, [], .global⟩,
    ⟨"h", .unknown, [], .global⟩,
    ⟨"Callee", .unknown, [], .procedure ⟨[], requires, [], []⟩⟩,
    ⟨"Main", .unknown, [],
      .procedure ⟨[], [], [.binary .ge (.var "k") (.literal (.int 0))], []⟩⟩,
    ⟨"Main", .unknown, [], .implementation ⟨⟨4⟩, [], [], delegatedBlocks⟩⟩]⟩

/-- The called procedure asks something of the third global. -/
def asking : Analysis := (delegated [.binary .ge (.var "h") (.literal (.int 0))]).ensureGraph.2

/-- The body is left with two of its where-clauses, whether the called procedure asks for the third
or not. -/
theorem asking_holds_two_where_clauses :
    asking.graph.isSome ∧ (delegated []).ensureGraph.2.graph.isSome ∧
      ∃ trimmed final,
        asking.prune true ⟨5⟩ (some delegatedBlocks) = (asking.program.ids, some trimmed) ∧
        List.Forall₂ (Trimmed final) delegatedBlocks trimmed ∧
        ("k" ∈ final ∧ "g" ∈ final ∧ "h" ∉ final) ∧
        .whereAssume "g" (.binary .ge (.var "g") (.var "k")) ∈ Block.commands trimmed ∧
        ((delegated []).ensureGraph.2.prune true ⟨5⟩ (some delegatedBlocks)).2 = some trimmed := by
  obtain ⟨kept, trimmed, final, hprune, htrimmed, hfinal, hown, hother⟩ :=
    own_contract_holds_where_clauses asking rfl ⟨5⟩ delegatedBlocks
  have hkept : (asking.prune true ⟨5⟩ (some delegatedBlocks)).1 = asking.program.ids := by decide +kernel
  obtain rfl : kept = asking.program.ids := (congrArg Prod.fst hprune).symm.trans hkept
  have hfree : (Expr.binary .ge (.var "k") (.literal (.int 0))).Free "k" :=
    .scope List.mem_cons_self List.not_mem_nil .here
  have hlinked : Linked delegatedBlocks "k" "g" :=
    .toProxy (c := .whereAssume "g" (.binary .ge (.var "g") (.var "k"))) List.mem_cons_self
      (by decide +kernel) List.mem_cons_self
      (.scope (List.mem_cons_of_mem _ List.mem_cons_self) List.not_mem_nil .here)
  have hk : Anchor asking.program ⟨5⟩ delegatedBlocks "k" := .own List.mem_cons_self hfree
  have hh : "h" ∉ final := by
    intro hlive
    obtain ⟨v, hanchor, hchain⟩ := (hfinal "h").mp hlive
    have hspread := WhereClauses.mem_spread_links_iff.mpr
      ⟨v, (Pruning.mem_liveVariables_iff ..).mpr hanchor, hchain⟩
    have hvalue : WhereClauses.spread (WhereClauses.links delegatedBlocks)
        (Pruning.liveVariables asking.program ⟨5⟩ delegatedBlocks) = ["k", "g"] := by
      decide +kernel
    rw [hvalue] at hspread
    revert hspread
    decide
  refine ⟨rfl, rfl, trimmed, final, hprune, htrimmed, ⟨(hfinal "k").mpr ⟨"k", hk, .refl⟩,
    (hfinal "g").mpr ⟨"k", hk, .single hlinked⟩, hh⟩, ?_, hother _ rfl rfl⟩
  exact hown _ List.mem_cons_self "g" (by decide +kernel) _ List.mem_cons_self "k" hfree (.single hlinked)

/-- The third where-clause is about a global of which the called procedure asks something. -/
theorem callee_contract_holds_nothing :
    ¬ ∀ (a : Analysis) (implementation : DeclId) (blocks : List Block) (c : Cmd)
      (proxy v : String), a.graph.isSome → c ∈ Block.commands blocks → c.proxy? = some proxy →
      (∃ id d, a.program.get? id = some d ∧ d.subject = .global ∧ d.name = proxy) →
      InContract a.program implementation blocks v →
      Relation.ReflTransGen (Linked blocks) v proxy →
      ∃ kept trimmed, a.prune true implementation (some blocks) = (kept, some trimmed) ∧
        c ∈ Block.commands trimmed := by
  intro h
  have hclause : .whereAssume "h" (.binary .ge (.var "h") (.literal (.int 0))) ∈
      Block.commands delegatedBlocks :=
    List.mem_cons_of_mem _ (List.mem_cons_of_mem _ List.mem_cons_self)
  have hcall : .call .unknown ⟨3⟩ [] [] ∈ Block.commands delegatedBlocks :=
    List.mem_cons_of_mem _ (List.mem_cons_of_mem _ (List.mem_cons_of_mem _ List.mem_cons_self))
  have hasked : InContract asking.program ⟨5⟩ delegatedBlocks "h" :=
    .callee hcall rfl rfl List.mem_cons_self (.scope List.mem_cons_self List.not_mem_nil .here)
      List.not_mem_nil
  obtain ⟨kept, trimmed, hprune, hstays⟩ := h asking ⟨5⟩ delegatedBlocks _ "h" "h" rfl hclause
    (by decide +kernel) ⟨⟨2⟩, _, rfl, rfl, rfl⟩ hasked .refl
  have hfinal : (WhereClauses.trim delegatedBlocks
      (Pruning.liveVariables asking.program ⟨5⟩ delegatedBlocks)).1 = ["k", "g"] := by
    decide +kernel
  obtain rfl := Option.some.inj
    ((asking.prune_snd rfl ⟨5⟩ delegatedBlocks).symm.trans (congrArg Prod.snd hprune))
  have hlive := (WhereClauses.mem_commands_trim_iff.mp hstays).2 "h" (by decide +kernel)
  rw [hfinal] at hlive
  revert hlive
  decide

end Verdict
