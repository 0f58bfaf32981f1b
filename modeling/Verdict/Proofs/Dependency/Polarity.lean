import Verdict.Proofs.Dependency.Relevance
import Verdict.Proofs.Expr.Untriggered
import Verdict.Proofs.SetFamily.Members

/-! What makes an axiom relevant, by recursion on its formula.

`incomingFamily` says it without the walk and without a mark for what still counts: a formula
hands each of its parts a polarity, and what a quantifier leaves to its triggers is not entered at
all. The walk goes on into such a body, because it has to find what is mentioned there, and
carries a mark along instead. `contributed_eq_incomingFamily` says that as long as the mark is
there a walk contributes the family of the formula that it starts from, and `contributed_eq_empty`
that nothing comes from below an entry without it. -/
namespace Verdict.Program

/-- A symbol by itself. An excluded one makes nothing relevant, unless it is the axiom. -/
def alone (p : Program) (owner id : DeclId) : Set (Set DeclId) :=
  {s | s = {id} ∧ (id = owner ∨ p.isExcluded id = false)}

/-- For each of these triggers the symbols in it that are not excluded. -/
def askedBy (p : Program) (triggers : List (List Expr)) : Set (Set DeclId) :=
  {s | ∃ trigger ∈ triggers, s = {id | (∃ e ∈ trigger, e.Mentions id) ∧ p.isExcluded id = false}}

/-- The incoming sets of the axiom `owner` that come from a formula at this polarity. -/
def incomingFamily (p : Program) (owner : DeclId) (polarity : Polarity) (e : Expr) :
    Set (Set DeclId) :=
  match e with
  | .literal _ | .var _ => ∅
  | .const id => p.alone owner id
  | .call function args =>
    p.alone owner function ∪ {s | ∃ a, ∃ _ : a ∈ args, s ∈ p.incomingFamily owner .neither a}
  | .unary .not arg | .unary .neg arg => p.incomingFamily owner polarity.flip arg
  | .binary .and lhs rhs | .binary .or lhs rhs =>
    p.incomingFamily owner polarity lhs ∪ p.incomingFamily owner polarity rhs
  | .binary .implies lhs rhs =>
    p.incomingFamily owner polarity.flip lhs ∪ p.incomingFamily owner polarity rhs
  | .binary _ lhs rhs | .concat lhs rhs =>
    p.incomingFamily owner .neither lhs ∪ p.incomingFamily owner .neither rhs
  | .builtin _ args => {s | ∃ a, ∃ _ : a ∈ args, s ∈ p.incomingFamily owner .neither a}
  | .quantified .all _ triggers body =>
    p.askedBy triggers ∪
      {s | ¬(polarity = .positive ∧ triggers ≠ []) ∧ s ∈ p.incomingFamily owner .neither body}
  | .quantified .some _ triggers body =>
    p.askedBy triggers ∪
      {s | polarity ≠ .negative ∧ s ∈ p.incomingFamily owner .neither body}
  | .lambda _ body | .old body | .extract body _ _ => p.incomingFamily owner .neither body
  | .letIn bindings body =>
    {s | ∃ r, ∃ _ : r ∈ bindings.map Prod.snd, s ∈ p.incomingFamily owner .neither r} ∪
      p.incomingFamily owner .neither body
termination_by sizeOf e
decreasing_by
  all_goals
    apply Expr.sizeOf_lt_of_mem_children
    simp_all [Expr.children]

/-! ### What a walk contributes -/

variable (p : Program) (owner : DeclId) {e : Expr} {polarity : Polarity}

/-- What one entry of the walk contributes. -/
def contribution (entry : Expr × Stance) : Set (Set DeclId) :=
  {s | ∃ set ∈ p.incomingSets owner entry, s = {id | id ∈ set}}

/-- What an entry of the walk contributes and all that is entered below it. -/
def contributed (entry : Expr × Stance) : Set (Set DeclId) :=
  {s | ∃ r, Descent.Below Stance.descent entry r ∧ s ∈ p.contribution owner r}

/-- What several entries contribute, each with all that is entered below it. -/
def gathered (entries : List (Expr × Stance)) : Set (Set DeclId) :=
  {s | ∃ q ∈ entries, s ∈ p.contributed owner q}

theorem contributed_eq (entry : Expr × Stance) :
    p.contributed owner entry =
      p.contribution owner entry ∪ p.gathered owner (Stance.descent.enter entry.2 entry.1) := by
  ext s
  constructor
  · intro h
    obtain ⟨r, hbelow, hs⟩ := h
    cases hbelow with
    | here => exact .inl hs
    | enter hq hbelow => exact .inr ⟨_, hq, r, hbelow, hs⟩
  · intro h
    rcases h with hs | ⟨q, hq, r, hbelow, hs⟩
    · exact ⟨entry, .here entry, hs⟩
    · exact ⟨r, .enter hq hbelow, hs⟩

theorem gathered_nil : p.gathered owner [] = ∅ := by
  simp [gathered]

theorem gathered_singleton (q : Expr × Stance) : p.gathered owner [q] = p.contributed owner q := by
  simp [gathered]

theorem gathered_pair (q r : Expr × Stance) :
    p.gathered owner [q, r] = p.contributed owner q ∪ p.contributed owner r := by
  ext s
  simp [gathered]

theorem gathered_append (qs rs : List (Expr × Stance)) :
    p.gathered owner (qs ++ rs) = p.gathered owner qs ∪ p.gathered owner rs := by
  ext s
  simp [gathered, or_and_right, exists_or]

/-! ### One entry -/

theorem contribution_eq_empty {entry : Expr × Stance} (h : entry.2.counts = false) :
    p.contribution owner entry = ∅ := by
  obtain ⟨e, polarity, counts⟩ := entry
  obtain rfl : counts = false := h
  simp [contribution, incomingSets]

theorem contribution_of_symbol? {id : DeclId} (h : e.symbol? = some id) :
    p.contribution owner (e, ⟨polarity, true⟩) = p.alone owner id := by
  ext s
  cases e with
  | const | call => cases h; simp [contribution, incomingSets, alone, and_comm]
  | _ => cases h

theorem contribution_quantified (kind : Quantifier) (bound : List String)
    (triggers : List (List Expr)) (body : Expr) :
    p.contribution owner (.quantified kind bound triggers body, ⟨polarity, true⟩) =
      p.askedBy triggers := by
  simp [contribution, incomingSets, askedBy, triggerSet, mem_references_iff,
    ← and_assoc, exists_and_right]

/-- Symbols and quantifiers apart, an expression contributes what its parts do. -/
theorem contributed_of_parts (h : p.incomingSets owner (e, ⟨polarity, true⟩) = []) :
    p.contributed owner (e, ⟨polarity, true⟩) =
      p.gathered owner (Stance.descent.enter ⟨polarity, true⟩ e) := by
  rw [contributed_eq, contribution, h]
  simp

/-! ### Where the mark is lost -/

/-- The mark is not found again. -/
theorem counts_of_enter {s : Stance} {q : Expr × Stance} (hq : q ∈ Stance.descent.enter s e)
    (hcounts : q.2.counts = true) : s.counts = true := by
  cases e with
  | unary op arg =>
    obtain rfl := List.mem_singleton.mp hq
    exact hcounts
  | binary op lhs rhs =>
    have hsame : (s.operands op).1.counts = s.counts ∧ (s.operands op).2.counts = s.counts := by
      cases op <;> exact ⟨rfl, rfl⟩
    rcases List.mem_pair.mp hq with rfl | rfl
    · exact hsame.1 ▸ hcounts
    · exact hsame.2 ▸ hcounts
  | quantified kind bound triggers body =>
    obtain rfl := List.mem_singleton.mp hq
    exact ((Bool.and_eq_true ..).mp hcounts).1
  | _ =>
    obtain ⟨c, _, rfl⟩ := List.mem_map.mp hq
    exact hcounts

theorem contributed_eq_empty {entry : Expr × Stance} (h : entry.2.counts = false) :
    p.contributed owner entry = ∅ := by
  have hbelow : ∀ r, Descent.Below Stance.descent entry r → r.2.counts = false := by
    intro r hr
    induction hr with
    | here => exact h
    | enter hq _ ih =>
      apply ih
      rw [← Bool.not_eq_true] at h ⊢
      exact mt (counts_of_enter hq) h
  refine Set.eq_empty_iff_forall_notMem.mpr fun s hs => ?_
  obtain ⟨r, hr, hs⟩ := hs
  rw [contribution_eq_empty p owner (hbelow r hr)] at hs
  exact hs

/-- The body of a quantifier contributes unless it is left to the triggers. -/
theorem contributed_body {body : Expr} {drops : Bool} {family : Set (Set DeclId)}
    (h : p.contributed owner (body, ⟨.neither, true⟩) = family) :
    p.contributed owner (body, ⟨.neither, true && !drops⟩) = {s | drops ≠ true ∧ s ∈ family} := by
  cases drops with
  | false => simp [h]
  | true => simp [contributed_eq_empty]

/-! ### The whole walk -/

theorem gathered_args {args : List Expr} (h : ∀ a ∈ args,
      p.contributed owner (a, ⟨.neither, true⟩) = p.incomingFamily owner .neither a) :
    p.gathered owner (args.map fun a => (a, ⟨.neither, true⟩)) =
      {s | ∃ a, ∃ _ : a ∈ args, s ∈ p.incomingFamily owner .neither a} := by
  ext s
  simp only [gathered, List.mem_map, Set.mem_ofPred_eq, exists_prop]
  constructor
  · intro hs
    obtain ⟨_, ⟨a, ha, rfl⟩, hs⟩ := hs
    exact ⟨a, ha, h a ha ▸ hs⟩
  · intro hs
    obtain ⟨a, ha, hs⟩ := hs
    exact ⟨_, ⟨a, ha, rfl⟩, (h a ha).symm ▸ hs⟩

theorem contributed_eq_incomingFamily (polarity : Polarity) (e : Expr) :
    p.contributed owner (e, ⟨polarity, true⟩) = p.incomingFamily owner polarity e := by
  fun_induction incomingFamily p owner polarity e with
  | case1 | case2 =>
    refine (contributed_of_parts p owner rfl).trans ?_
    exact gathered_nil p owner
  | case3 polarity id =>
    rw [contributed_eq, contribution_of_symbol? p owner rfl]
    exact (congrArg _ (gathered_nil p owner)).trans (Set.union_empty _)
  | case4 polarity function args ih =>
    rw [contributed_eq, contribution_of_symbol? p owner rfl]
    exact congrArg _ (gathered_args p owner ih)
  | case5 polarity arg ih | case6 polarity arg ih =>
    refine (contributed_of_parts p owner rfl).trans ?_
    rw [← ih]
    exact gathered_singleton p owner _
  | case7 polarity lhs rhs ihl ihr | case8 polarity lhs rhs ihl ihr
  | case9 polarity lhs rhs ihl ihr | case11 polarity lhs rhs ihl ihr =>
    refine (contributed_of_parts p owner rfl).trans ?_
    rw [← ihl, ← ihr]
    exact gathered_pair p owner _ _
  | case10 polarity op lhs rhs hand hor himplies ihl ihr =>
    -- Every other operator leaves its operands without a polarity.
    have hoperands : (⟨polarity, true⟩ : Stance).operands op =
        (⟨.neither, true⟩, ⟨.neither, true⟩) := by
      cases op <;> first | rfl | contradiction
    refine (contributed_of_parts p owner rfl).trans ?_
    rw [← ihl, ← ihr]
    show p.gathered owner [(lhs, (Stance.operands _ op).1), (rhs, (Stance.operands _ op).2)] = _
    rw [hoperands]
    exact gathered_pair p owner _ _
  | case12 polarity op args ih =>
    refine (contributed_of_parts p owner rfl).trans ?_
    exact gathered_args p owner ih
  | case13 polarity bound triggers body ih | case14 polarity bound triggers body ih =>
    rw [contributed_eq, contribution_quantified]
    refine congrArg _ ((gathered_singleton p owner _).trans ?_)
    refine (contributed_body p owner ih).trans ?_
    simp [Stance.dropsBody]
  | case15 polarity _ body ih | case16 polarity body ih | case17 polarity body _ _ ih =>
    refine (contributed_of_parts p owner rfl).trans ?_
    rw [← ih]
    exact gathered_singleton p owner _
  | case18 polarity bindings body ihr ihb =>
    refine (contributed_of_parts p owner rfl).trans ?_
    rw [← ihb, ← gathered_args p owner ihr, ← gathered_singleton, ← gathered_append]
    simp [Stance.descent, Expr.children, Stance.neither]

/-! ### The node of an axiom -/

theorem members_incoming_lawNode {id : DeclId} {formula : Expr}
    (h : (p.get? id).bind (·.formula?) = some formula) :
    (p.lawNode id).incoming.members = p.contributed id (formula, .top) := by
  rw [lawNode, h]
  refine (SetFamily.members_ofSets _).trans (Set.ext fun s => ?_)
  constructor
  · intro hs
    obtain ⟨set, hset, rfl⟩ := hs
    obtain ⟨entry, hvisit, hset⟩ := List.mem_flatMap.mp hset
    exact ⟨entry, (Descent.mem_visit_singleton_iff ..).mp hvisit, set, hset, rfl⟩
  · intro hs
    obtain ⟨entry, hbelow, set, hset, rfl⟩ := hs
    have hvisit := (Descent.mem_visit_singleton_iff ..).mpr hbelow
    exact ⟨set, List.mem_flatMap.mpr ⟨entry, hvisit, hset⟩, rfl⟩

theorem mem_outgoing_lawNode {id : DeclId} {formula : Expr}
    (h : (p.get? id).bind (·.formula?) = some formula) (x : DeclId) :
    x ∈ (p.lawNode id).outgoing ↔ formula.MentionsUntriggered x ∧ p.isExcluded x = false := by
  rw [lawNode, h]
  simp [Expr.mentionsUntriggered_iff formula .top, Descent.mem_visit_singleton_iff]

/-- **The node of an axiom is what polarity says of its formula.** It mentions what stands outside
of the triggers of the formula and is not excluded. Its incoming sets are those of the formula at
positive polarity: the symbols by themselves that stand where nothing is left to triggers, and for
each trigger that stands there all that it asks for. -/
theorem lawNode_by_polarity {id : DeclId} {formula : Expr}
    (h : (p.get? id).bind (·.formula?) = some formula) :
    {x | x ∈ (p.lawNode id).outgoing} =
        {x | formula.MentionsUntriggered x ∧ p.isExcluded x = false} ∧
      (p.lawNode id).incoming.members = p.incomingFamily id .positive formula := by
  refine ⟨Set.ext (mem_outgoing_lawNode p h), ?_⟩
  rw [members_incoming_lawNode p h]
  exact contributed_eq_incomingFamily p id .positive formula

/-- A formula with quantifiers on both sides of an implication, of which the first stands at
negative polarity, the second at positive, and the third at none that leaves its body out. -/
def opposed : Expr :=
  .binary .implies
    (.quantified .some ["x"] [[.call ⟨0⟩ [.var "x"]]] (.call ⟨1⟩ [.var "x"]))
    (.binary .or
      (.quantified .all ["y"] [[.call ⟨1⟩ [.var "y"], .call ⟨2⟩ [.var "y"]]]
        (.binary .lt (.var "y") (.const ⟨3⟩)))
      (.unary .not (.quantified .all ["z"] [[.call ⟨0⟩ [.var "z"], .call ⟨1⟩ [.var "z"]]]
        (.binary .eq (.call ⟨2⟩ [.var "z"]) (.const ⟨4⟩)))))

def opposing : Program where
  decls := #[
    ⟨"f", .unknown, [], .function ["x"] none⟩,
    ⟨"g", .unknown, [], .function ["x"] none⟩,
    ⟨"hidden", .unknown, [⟨"exclude_dep", []⟩], .function ["x"] none⟩,
    ⟨"low", .unknown, [], .constant false⟩,
    ⟨"high", .unknown, [], .constant false⟩,
    ⟨"opposed", .unknown, [], .law opposed⟩]

/-- The bodies of the first two are left to their triggers, and what is excluded is asked for by
no one. -/
theorem lawNode_opposed :
    (opposing.get? ⟨5⟩).bind (·.formula?) = some opposed ∧
      (opposing.lawNode ⟨5⟩).outgoing = [⟨4⟩, ⟨3⟩, ⟨1⟩] ∧
      {x | opposed.MentionsUntriggered x ∧ opposing.isExcluded x = false} =
        {x | x ∈ [⟨4⟩, ⟨3⟩, ⟨1⟩]} ∧
      opposing.incomingFamily ⟨5⟩ .positive opposed =
        {s | ∃ set ∈ [[⟨4⟩], [⟨1⟩], [⟨0⟩], [⟨0⟩, ⟨1⟩]], s = {x | x ∈ set}} := by
  have hformula : (opposing.get? ⟨5⟩).bind (·.formula?) = some opposed := rfl
  have houtgoing : (opposing.lawNode ⟨5⟩).outgoing = [⟨4⟩, ⟨3⟩, ⟨1⟩] := by cbv
  have hsets : (opposing.lawNode ⟨5⟩).incoming.sets = [[⟨4⟩], [⟨1⟩], [⟨0⟩], [⟨0⟩, ⟨1⟩]] := by cbv
  obtain ⟨hmentions, hfamily⟩ := lawNode_by_polarity opposing hformula
  refine ⟨hformula, houtgoing, ?_, ?_⟩
  · rw [← hmentions, houtgoing]
  · rw [← hfamily, SetFamily.members, hsets]

end Verdict.Program
