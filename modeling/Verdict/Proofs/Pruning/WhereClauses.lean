import Mathlib.Data.List.Forall2
import Mathlib.Logic.Relation
import Mathlib.Order.Bounds.Basic
import Verdict.Proofs.Closure
import Verdict.Proofs.Expr.Free
import Verdict.Pruning.WhereClauses

/-! Which where-clauses are trimmed away.

`Linked` says which variables the assumptions of a body relate to each other: a proxy and the
variables that are free in its assumption, in both directions. What is live in the end is the
least set that holds what was live before and is closed under this relation
(`isLeast_spread`), whatever chains and cycles the assumptions form. That a link goes both ways is
what keeps a trimmed assumption apart from all that stays: a variable that it shared with
something live would have made its proxy live. -/
namespace Verdict

/-- The command writes the variable, or reads it in an expression where it is free. -/
def Cmd.Uses (c : Cmd) (v : String) : Prop := v ∈ c.targets ∨ ∃ e ∈ c.exprs, e.Free v

theorem Cmd.mem_mentioned_iff (c : Cmd) (v : String) : v ∈ c.mentioned ↔ c.Uses v := by
  simp only [mentioned, Uses, List.mem_append, List.mem_flatMap, Expr.mem_freeVariables_iff]

/-- The assumption of a where-clause writes nothing. -/
theorem Cmd.uses_iff_of_proxy? {c : Cmd} {proxy : String} (h : c.proxy? = some proxy) (v : String) :
    c.Uses v ↔ ∃ e ∈ c.exprs, e.Free v := by
  cases c with
  | assume e attributes => simp [Uses, targets]
  | _ => cases h

namespace WhereClauses
variable {blocks : List Block} {live : List String}

/-- Some where-clause of the body relates the two variables: one is its proxy, and the other is
free in its assumption. -/
inductive Linked (blocks : List Block) : String → String → Prop
  | ofProxy {c : Cmd} {e : Expr} {proxy v : String} : c ∈ Block.commands blocks →
      c.proxy? = some proxy → e ∈ c.exprs → e.Free v → Linked blocks proxy v
  | toProxy {c : Cmd} {e : Expr} {proxy v : String} : c ∈ Block.commands blocks →
      c.proxy? = some proxy → e ∈ c.exprs → e.Free v → Linked blocks v proxy

/-- The sets of variables that hold what is live and, with every variable, all that is linked to
it. -/
def closedSets (blocks : List Block) (live : List String) : Set (Set String) :=
  {s | (∀ v ∈ live, v ∈ s) ∧ ∀ u v, Linked blocks u v → u ∈ s → v ∈ s}

theorem mem_liveVariables_iff {v : String} :
    v ∈ liveVariables blocks ↔ ∃ c ∈ Block.commands blocks, c.proxy? = none ∧ c.Uses v := by
  simp only [liveVariables, List.mem_flatMap, List.mem_filter, Option.isNone_iff_eq_none,
    Cmd.mem_mentioned_iff, and_assoc]

/-! ### The links -/

theorem mem_links_iff {l : Link} :
    l ∈ links blocks ↔ ∃ c ∈ Block.commands blocks, c.proxy? = some l.proxy ∧
      l.others = c.mentioned.filter (· ≠ l.proxy) := by
  simp only [links, List.mem_filterMap, link?, Option.map_eq_some_iff]
  refine exists_congr fun c => and_congr_right fun _ => ⟨fun h => ?_, fun h => ?_⟩
  · obtain ⟨proxy, hproxy, rfl⟩ := h
    exact ⟨hproxy, rfl⟩
  · obtain ⟨proxy, others⟩ := l
    obtain ⟨hproxy, hothers⟩ := h
    exact ⟨proxy, hproxy, congrArg (Link.mk proxy) hothers.symm⟩

theorem mem_others_iff {c : Cmd} {l : Link} (hproxy : c.proxy? = some l.proxy)
    (hothers : l.others = c.mentioned.filter (· ≠ l.proxy)) (v : String) :
    v ∈ l.others ↔ (∃ e ∈ c.exprs, e.Free v) ∧ v ≠ l.proxy := by
  rw [hothers, List.mem_filter, Cmd.mem_mentioned_iff, Cmd.uses_iff_of_proxy? hproxy,
    decide_eq_true_iff]

theorem Link.mem_related_iff {l : Link} {u v : String} :
    v ∈ l.related u ↔ (u = l.proxy ∧ v ∈ l.others) ∨ (u ∈ l.others ∧ v = l.proxy) := by
  rw [related, List.mem_append]
  refine or_congr ?_ ?_
  · by_cases h : u = l.proxy <;> simp [h]
  · by_cases h : u ∈ l.others <;> simp [h]

/-- A variable is related to what it is linked to, itself left out. -/
theorem mem_related_iff {u v : String} :
    v ∈ related (links blocks) u ↔ Linked blocks u v ∧ u ≠ v := by
  rw [related, List.mem_flatMap]
  constructor
  · intro h
    obtain ⟨l, hl, hv⟩ := h
    obtain ⟨c, hc, hproxy, hothers⟩ := mem_links_iff.mp hl
    have hmem := mem_others_iff hproxy hothers
    rcases Link.mem_related_iff.mp hv with ⟨rfl, hother⟩ | ⟨hother, rfl⟩
    · obtain ⟨⟨e, he, hfree⟩, hne⟩ := (hmem v).mp hother
      exact ⟨.ofProxy hc hproxy he hfree, hne.symm⟩
    · obtain ⟨⟨e, he, hfree⟩, hne⟩ := (hmem u).mp hother
      exact ⟨.toProxy hc hproxy he hfree, hne⟩
  · intro h
    obtain ⟨hlinked, hne⟩ := h
    cases hlinked with
    | @ofProxy c e _ _ hc hproxy he hfree =>
      refine ⟨⟨u, c.mentioned.filter (· ≠ u)⟩, mem_links_iff.mpr ⟨c, hc, hproxy, rfl⟩, ?_⟩
      exact Link.mem_related_iff.mpr
        (.inl ⟨rfl, (mem_others_iff hproxy rfl v).mpr ⟨⟨e, he, hfree⟩, hne.symm⟩⟩)
    | @toProxy c e _ _ hc hproxy he hfree =>
      refine ⟨⟨v, c.mentioned.filter (· ≠ v)⟩, mem_links_iff.mpr ⟨c, hc, hproxy, rfl⟩, ?_⟩
      exact Link.mem_related_iff.mpr
        (.inr ⟨(mem_others_iff hproxy rfl u).mpr ⟨⟨e, he, hfree⟩, hne⟩, rfl⟩)

/-! ### What is live in the end -/

theorem mem_spread_iff {ls : List Link} {v : String} :
    v ∈ spread ls live ↔ Closure.Reached (related ls)
      (live ++ ls.flatMap fun l => l.proxy :: l.others).eraseDups live v :=
  Closure.mem_reach_iff ..

/-- What is related to a variable is one of the names that are searched. -/
theorem mem_names_of_related {ls : List Link} {u v : String} (h : v ∈ related ls u) :
    v ∈ (live ++ ls.flatMap fun l => l.proxy :: l.others).eraseDups := by
  obtain ⟨l, hl, hv⟩ := List.mem_flatMap.mp h
  refine List.mem_eraseDups.mpr (List.mem_append_right _ (List.mem_flatMap.mpr ⟨l, hl, ?_⟩))
  rcases Link.mem_related_iff.mp hv with ⟨_, hv⟩ | ⟨_, rfl⟩
  · exact List.mem_cons_of_mem _ hv
  · exact List.mem_cons_self

theorem isLeast_spread (blocks : List Block) (live : List String) :
    IsLeast (closedSets blocks live) {v | v ∈ spread (links blocks) live} := by
  refine ⟨⟨fun v hv => ?_, fun u v hlinked hu => ?_⟩, fun s hs v hv => ?_⟩
  · exact mem_spread_iff.mpr
      (.seed hv (List.mem_eraseDups.mpr (List.mem_append_left _ hv)))
  · -- A proxy that is free in its own assumption is linked to itself, but leads nowhere.
    by_cases huv : u = v
    · exact huv ▸ hu
    · have hrelated := mem_related_iff.mpr ⟨hlinked, huv⟩
      exact mem_spread_iff.mpr
        ((mem_spread_iff.mp hu).step hrelated (mem_names_of_related hrelated))
  · obtain ⟨hlive, hclosed⟩ := hs
    induction mem_spread_iff.mp hv with
    | seed hseed _ => exact hlive _ hseed
    | step hu hrelated _ ih =>
      exact hclosed _ _ (mem_related_iff.mp hrelated).1 (ih (mem_spread_iff.mpr hu))

/-- What is live in the end is linked, at some distance, to what was live. -/
theorem mem_spread_links_iff {x : String} :
    x ∈ spread (links blocks) live ↔ ∃ v ∈ live, Relation.ReflTransGen (Linked blocks) v x := by
  obtain ⟨⟨hseeds, hclosed⟩, hleast⟩ := isLeast_spread blocks live
  constructor
  · intro hx
    refine hleast (a := {x | ∃ v ∈ live, Relation.ReflTransGen (Linked blocks) v x}) ⟨?_, ?_⟩ hx
    · exact fun v hv => ⟨v, hv, .refl⟩
    · intro u w hlinked hu
      obtain ⟨v, hv, hchain⟩ := hu
      exact ⟨v, hv, hchain.tail hlinked⟩
  · intro hx
    obtain ⟨v, hv, hchain⟩ := hx
    induction hchain with
    | refl => exact hseeds v hv
    | tail _ hlinked ih => exact hclosed _ _ hlinked ih

theorem mem_trim_fst_iff {x : String} : x ∈ (trim blocks live).1 ↔
    ∃ v ∈ live, Relation.ReflTransGen (Linked blocks) v x := mem_spread_links_iff

/-! ### What stays -/

/-- The block with the assumptions whose proxies are live, and with everything else, in order. -/
structure Trimmed (live : List String) (b b' : Block) : Prop where
  label : b'.label = b.label
  transfer : b'.transfer = b.transfer
  cmds : b'.cmds = b.cmds.filter fun c => c.proxy?.all (· ∈ live)

theorem trimmed_trim (blocks : List Block) (live : List String) :
    List.Forall₂ (Trimmed (trim blocks live).1) blocks (trim blocks live).2 := by
  unfold trim
  rw [List.forall₂_map_right_iff, List.forall₂_same]
  exact fun b _ => ⟨rfl, rfl, rfl⟩

theorem commands_trim (blocks : List Block) (live : List String) :
    Block.commands (trim blocks live).2 =
      (Block.commands blocks).filter (keeps (trim blocks live).1) := by
  rw [Block.commands, Block.commands, List.filter_flatMap]
  exact List.flatMap_map ..

theorem mem_commands_trim_iff {c : Cmd} :
    c ∈ Block.commands (trim blocks live).2 ↔ c ∈ Block.commands blocks ∧
      ∀ proxy, c.proxy? = some proxy → proxy ∈ (trim blocks live).1 := by
  rw [commands_trim, List.mem_filter, keeps, Option.all_eq_true]
  simp only [decide_eq_true_eq]

/-- All that a remaining command has to do with is live, if what the other commands use was. -/
theorem live_of_remaining (hlive : ∀ v ∈ liveVariables blocks, v ∈ live) {c : Cmd}
    (hc : c ∈ Block.commands (trim blocks live).2) {v : String}
    (hv : c.proxy? = some v ∨ c.Uses v) : v ∈ (trim blocks live).1 := by
  obtain ⟨hseeds, hclosed⟩ := (isLeast_spread blocks live).1
  obtain ⟨hmem, hstays⟩ := mem_commands_trim_iff.mp hc
  rcases hv with hproxy | huses
  · exact hstays v hproxy
  · cases hproxy : c.proxy? with
    | some proxy =>
      obtain ⟨e, he, hfree⟩ := (Cmd.uses_iff_of_proxy? hproxy v).mp huses
      exact hclosed proxy v (.ofProxy hmem hproxy he hfree) (hstays proxy hproxy)
    | none => exact hseeds v (hlive v (mem_liveVariables_iff.mpr ⟨c, hmem, hproxy, huses⟩))

/-- Nothing that a removed assumption has to do with is live. -/
theorem not_live_of_removed {c : Cmd} {proxy : String} (hc : c ∈ Block.commands blocks)
    (hproxy : c.proxy? = some proxy) (hdead : proxy ∉ (trim blocks live).1) {v : String}
    (hv : v = proxy ∨ c.Uses v) : v ∉ (trim blocks live).1 := by
  rcases hv with rfl | huses
  · exact hdead
  · obtain ⟨e, he, hfree⟩ := (Cmd.uses_iff_of_proxy? hproxy v).mp huses
    intro hv
    exact hdead ((isLeast_spread blocks live).1.2 v proxy (.toProxy hc hproxy he hfree) hv)

/-- **Trimming removes exactly the assumptions that are unrelated.** What is live in the end is the
least set that holds what was live and is closed under the links; the blocks keep everything but
the assumptions whose proxies are not in it. So if all that the other commands use was live, a
removed assumption has no variable in common with anything that stays, nor with what is live. -/
theorem trim_removes_unrelated (blocks : List Block) (live : List String) :
    ∃ final trimmed, trim blocks live = (final, trimmed) ∧
      IsLeast (closedSets blocks live) {v | v ∈ final} ∧
      List.Forall₂ (Trimmed final) blocks trimmed ∧
      ((∀ v ∈ liveVariables blocks, v ∈ live) → ∀ c ∈ Block.commands blocks,
        c ∉ Block.commands trimmed → ∃ proxy, c.proxy? = some proxy ∧
          ∀ v, v = proxy ∨ c.Uses v → v ∉ final ∧
            ∀ c' ∈ Block.commands trimmed, c'.proxy? ≠ some v ∧ ¬c'.Uses v) := by
  refine ⟨_, _, rfl, isLeast_spread blocks live, trimmed_trim blocks live, ?_⟩
  intro hlive c hc hremoved
  obtain ⟨proxy, hproxy, hdead⟩ : ∃ proxy, c.proxy? = some proxy ∧ proxy ∉ (trim blocks live).1 := by
    by_contra hkept
    refine hremoved (mem_commands_trim_iff.mpr ⟨hc, fun proxy hproxy => ?_⟩)
    exact Decidable.of_not_not fun hdead => hkept ⟨proxy, hproxy, hdead⟩
  refine ⟨proxy, hproxy, fun v hv => ?_⟩
  have hnot := not_live_of_removed hc hproxy hdead hv
  exact ⟨hnot, fun c' hc' => ⟨fun h => hnot (live_of_remaining hlive hc' (.inl h)),
    fun h => hnot (live_of_remaining hlive hc' (.inr h))⟩⟩

/-- Two chains of where-clauses over two blocks, of which one ends at the variable that is
asserted about. -/
def chains : List Block :=
  [⟨"entry", [.whereAssume "a" (.binary .eq (.var "a") (.var "b")),
      .whereAssume "p" (.binary .eq (.var "p") (.var "q")),
      .assert .unknown (.binary .eq (.var "y") (.literal (.int 0))) []], .goto ["exit"]⟩,
    ⟨"exit", [.whereAssume "q" (.binary .gt (.var "q") (.literal (.int 0))),
      .whereAssume "b" (.binary .eq (.var "b") (.var "y"))], .return⟩]

/-- The other chain goes, and nothing is left of its variables. -/
theorem trim_chains :
    (∀ v ∈ liveVariables chains, v ∈ ["y"]) ∧
      (trim chains ["y"]).1 = ["y", "b", "a"] ∧
      .whereAssume "p" (.binary .eq (.var "p") (.var "q")) ∈ Block.commands chains ∧
      ∀ v, v = "p" ∨ v = "q" → v ∉ (trim chains ["y"]).1 ∧
        ∀ c ∈ Block.commands (trim chains ["y"]).2, c.proxy? ≠ some v ∧ ¬c.Uses v := by
  have hlive : ∀ v ∈ liveVariables chains, v ∈ ["y"] := by
    have hvariables : liveVariables chains = ["y"] := by decide +kernel
    rw [hvariables]
    exact fun v hv => hv
  have hfinal : (trim chains ["y"]).1 = ["y", "b", "a"] := by decide +kernel
  have hmem : .whereAssume "p" (.binary .eq (.var "p") (.var "q")) ∈ Block.commands chains :=
    List.mem_cons_of_mem _ List.mem_cons_self
  have hproxy : (Cmd.whereAssume "p" (.binary .eq (.var "p") (.var "q"))).proxy? = some "p" := by decide +kernel
  have hmentioned : (Cmd.whereAssume "p" (.binary .eq (.var "p") (.var "q"))).mentioned =
      ["q", "p"] := by decide +kernel
  have hremoved : .whereAssume "p" (.binary .eq (.var "p") (.var "q")) ∉
      Block.commands (trim chains ["y"]).2 := by
    intro hstays
    have hdead := (mem_commands_trim_iff.mp hstays).2 "p" hproxy
    rw [hfinal] at hdead
    revert hdead
    decide
  obtain ⟨final, trimmed, heq, -, -, hapart⟩ := trim_removes_unrelated chains ["y"]
  obtain rfl : (trim chains ["y"]).1 = final := congrArg Prod.fst heq
  obtain rfl : (trim chains ["y"]).2 = trimmed := congrArg Prod.snd heq
  obtain ⟨proxy, hproxy', hapart⟩ := hapart hlive _ hmem hremoved
  obtain rfl : "p" = proxy := Option.some.inj (hproxy.symm.trans hproxy')
  refine ⟨hlive, hfinal, hmem, fun v hv => hapart v (hv.imp_right fun hv => ?_)⟩
  rw [← Cmd.mem_mentioned_iff, hmentioned, hv]
  exact List.mem_cons_self

end WhereClauses

end Verdict
