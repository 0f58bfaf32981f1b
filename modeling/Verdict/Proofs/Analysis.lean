import Verdict.Proofs.Checksum.Table

/-! That nothing derived from a program is ever out of date.

What an analysis remembers belongs to the program it has (`Current`), whatever was asked before and in
which order: a question adds to what is remembered, a change of the program forgets all of
it, and an attempt that fails does neither. An analysis therefore answers like a new one of its program
(`UpToDate`), after any requests (`upToDate_after`). -/
namespace Verdict

namespace Analysis

/-- All that is remembered has been derived from the program as it is. -/
structure Current (a : Analysis) : Prop where
  calls : ∀ known, a.calls = some known → known = .collect a.program
  checksums : a.checksums.Current a.program
  graph : ∀ g, a.graph = some g → g = .build a.program

theorem current_ofProgram (p : Program) : (ofProgram p).Current :=
  ⟨nofun, ChecksumTable.current_blank p, nofun⟩

variable {a : Analysis}

/-! ### Questions -/

theorem Current.callDependencies_fst (h : a.Current) :
    a.callDependencies.1 = .collect a.program := by
  unfold callDependencies
  split
  · rename_i known hknown
    exact h.calls known hknown
  · rfl

theorem program_callDependencies (a : Analysis) : a.callDependencies.2.program = a.program := by
  unfold callDependencies
  split <;> rfl

theorem Current.callDependencies (h : a.Current) : a.callDependencies.2.Current := by
  unfold Analysis.callDependencies
  split
  · exact h
  · exact ⟨fun _ hknown => (Option.some.inj hknown).symm, h.checksums, h.graph⟩

theorem Current.checksum_fst (h : a.Current) (id : DeclId) :
    (a.checksum id).1 = a.program.checksum? id :=
  (h.checksums.toFaithful.checksum id).1

theorem Current.checksum (h : a.Current) (id : DeclId) : (a.checksum id).2.Current :=
  ⟨h.calls, h.checksums.checksum id, h.graph⟩

theorem dependencyChecksum_eq (a : Analysis) (id : DeclId) : a.dependencyChecksum id =
    ((a.callDependencies.2.checksums.dependencyChecksum a.program a.callDependencies.1 id).1,
      { a.callDependencies.2 with checksums :=
        (a.callDependencies.2.checksums.dependencyChecksum a.program a.callDependencies.1 id).2 }) := by
  rw [dependencyChecksum, ← program_callDependencies a]

theorem Current.dependencyChecksum_fst (h : a.Current) (id : DeclId) :
    (a.dependencyChecksum id).1 =
      a.program.total? ((CallDependencies.collect a.program).summands id) := by
  have hchecksums := h.callDependencies.checksums
  rw [program_callDependencies] at hchecksums
  rw [dependencyChecksum_eq, h.callDependencies_fst]
  exact (hchecksums.dependencyChecksum id).1

theorem Current.dependencyChecksum (h : a.Current) (id : DeclId) :
    (a.dependencyChecksum id).2.Current := by
  have hcalls := h.callDependencies
  have hchecksums := hcalls.checksums
  rw [program_callDependencies] at hchecksums
  rw [dependencyChecksum_eq, h.callDependencies_fst]
  refine ⟨hcalls.calls, ?_, hcalls.graph⟩
  show ChecksumTable.Current _ a.callDependencies.2.program
  rw [program_callDependencies]
  exact (hchecksums.dependencyChecksum id).2

theorem Current.ensureGraph_fst (h : a.Current) : a.ensureGraph.1 = .build a.program := by
  unfold ensureGraph
  split
  · rename_i g hg
    exact h.graph g hg
  · rfl

theorem Current.ensureGraph (h : a.Current) : a.ensureGraph.2.Current := by
  unfold Analysis.ensureGraph
  split
  · exact h
  · exact ⟨h.calls, h.checksums, fun _ hg => (Option.some.inj hg).symm⟩

/-! ### Graphs made elsewhere -/

theorem attachGraph_cases (a : Analysis) (g : DependencyGraph) :
    (∃ e, a.attachGraph g = (.error e, a)) ∨
      a.graph = none ∧ a.attachGraph g = (.ok (), { a with graph := some g }) := by
  simp only [attachGraph]
  split
  · exact .inl ⟨_, rfl⟩
  · split
    · exact .inl ⟨_, rfl⟩
    · rename_i hnone
      exact .inr ⟨Option.not_isSome_iff_eq_none.mp hnone, rfl⟩

/-- A graph that is refused changes nothing. -/
theorem attachGraph_of_error {g : DependencyGraph} {e : ProgramError}
    (h : (a.attachGraph g).1 = .error e) : (a.attachGraph g).2 = a := by
  rcases a.attachGraph_cases g with ⟨e', hcase⟩ | ⟨-, hcase⟩
  · rw [hcase]
  · rw [hcase] at h
    cases h

theorem size_build (p : Program) :
    (DependencyGraph.build p).size = p.laws.length + p.functions.length := by
  rw [DependencyGraph.size, DependencyGraph.build, List.length_append, List.length_map,
    List.length_map]

/-- A graph of the program as it is fits, unless there is one. -/
theorem attachGraph_build (a : Analysis) : (a.attachGraph (.build a.program)).1 =
    if a.graph.isSome then .error .graphAlreadyAttached else .ok () := by
  simp only [attachGraph]
  rw [if_neg (fun hne => hne (size_build a.program))]
  split <;> rfl

theorem Current.attachGraph_build (h : a.Current) :
    (a.attachGraph (.build a.program)).2.Current := by
  rcases a.attachGraph_cases (.build a.program) with ⟨e, hcase⟩ | ⟨-, hcase⟩
  · rw [hcase]
    exact h
  · rw [hcase]
    exact ⟨h.calls, h.checksums, fun _ hg => (Option.some.inj hg).symm⟩

/-! ### Changes -/

/-- A replacement that is refused changes nothing; any other leaves nothing derived. -/
theorem replace_cases (a : Analysis) (id : DeclId) (d : Declaration) :
    (a.replace id d = (.error (.nothingToReplace id), a) ∧ a.program.replace id d = a.program) ∨
      ∃ old, a.replace id d = (.ok old, ofProgram (a.program.replace id d)) := by
  unfold replace
  cases hget : a.program.get? id with
  | none =>
    refine .inl ⟨rfl, ?_⟩
    have hout : a.program.decls.size ≤ id.index := Array.getElem?_eq_none_iff.mp hget
    rw [Program.replace, Array.setIfInBounds, dif_neg (Nat.not_lt.mpr hout)]
  | some old => exact .inr ⟨old, rfl⟩

theorem replace_of_error {id : DeclId} {d : Declaration} {e : ProgramError}
    (h : (a.replace id d).1 = .error e) : (a.replace id d).2 = a := by
  rcases a.replace_cases id d with ⟨hcase, -⟩ | ⟨old, hcase⟩
  · rw [hcase]
  · rw [hcase] at h
    cases h

theorem graph_replace_of_ok {id : DeclId} {d old : Declaration}
    (h : (a.replace id d).1 = .ok old) : (a.replace id d).2.graph = none := by
  rcases a.replace_cases id d with ⟨hcase, -⟩ | ⟨old', hcase⟩
  · rw [hcase] at h
    cases h
  · rw [hcase]
    rfl

theorem Current.replace (h : a.Current) (id : DeclId) (d : Declaration) :
    (a.replace id d).2.Current := by
  rcases a.replace_cases id d with ⟨hcase, -⟩ | ⟨old, hcase⟩
  · rw [hcase]
    exact h
  · rw [hcase]
    exact current_ofProgram _

theorem program_replace (a : Analysis) (id : DeclId) (d : Declaration) :
    (a.replace id d).2.program = a.program.replace id d := by
  rcases a.replace_cases id d with ⟨hcase, hsame⟩ | ⟨old, hcase⟩
  · rw [hcase, hsame]
  · rw [hcase]
    rfl

/-! ### All that may be asked -/

/-- What may be asked of an analysis. The graphs that are attached are those of its program. -/
inductive Request
  | add (d : Declaration)
  | replace (id : DeclId) (d : Declaration)
  | checksum (id : DeclId)
  | dependencyChecksum (id : DeclId)
  | callDependencies
  | ensureGraph
  | graph
  | attachGraph

/-- What a request makes of the program. -/
def Request.edit (p : Program) : Request → Program
  | .add d => (p.push d).2
  | .replace id d => p.replace id d
  | _ => p

/-- The analysis once a request has been met. -/
def serve (a : Analysis) : Request → Analysis
  | .add d => (a.add d).2
  | .replace id d => (a.replace id d).2
  | .checksum id => (a.checksum id).2
  | .dependencyChecksum id => (a.dependencyChecksum id).2
  | .callDependencies => a.callDependencies.2
  | .ensureGraph => a.ensureGraph.2
  | .graph => a
  | .attachGraph => (a.attachGraph (.build a.program)).2

/-- The analysis of a program once requests have been met, one after the other. -/
def after (p : Program) (rs : List Request) : Analysis := rs.foldl serve (ofProgram p)

theorem Current.serve (h : a.Current) (r : Request) : (a.serve r).Current := by
  cases r with
  | add d => exact current_ofProgram _
  | replace id d => exact h.replace id d
  | checksum id => exact h.checksum id
  | dependencyChecksum id => exact h.dependencyChecksum id
  | callDependencies => exact h.callDependencies
  | ensureGraph => exact h.ensureGraph
  | graph => exact h
  | attachGraph => exact h.attachGraph_build

theorem program_serve (a : Analysis) (r : Request) : (a.serve r).program = r.edit a.program := by
  cases r with
  | add d => rfl
  | replace id d => exact a.program_replace id d
  | checksum id => rfl
  | dependencyChecksum id =>
    rw [serve, dependencyChecksum_eq]
    exact a.program_callDependencies
  | callDependencies => exact a.program_callDependencies
  | ensureGraph =>
    rw [serve, ensureGraph]
    split <;> rfl
  | graph => rfl
  | attachGraph =>
    rw [serve]
    rcases a.attachGraph_cases (.build a.program) with ⟨e, hcase⟩ | ⟨-, hcase⟩ <;> rw [hcase]
    · rfl
    · rfl

theorem current_foldl (rs : List Request) (h : a.Current) : (rs.foldl serve a).Current := by
  induction rs generalizing a with
  | nil => exact h
  | cons r rest ih => exact ih (h.serve r)

theorem program_foldl (rs : List Request) (a : Analysis) :
    (rs.foldl serve a).program = rs.foldl Request.edit a.program := by
  induction rs generalizing a with
  | nil => rfl
  | cons r rest ih => rw [List.foldl_cons, List.foldl_cons, ih, program_serve]

/-- A new analysis of the program, with a graph if there is one now. -/
def renewed (a : Analysis) : Analysis :=
  if a.graph.isSome then (ofProgram a.program).ensureGraph.2 else ofProgram a.program

/-- An analysis that answers like a new one of its program. -/
structure UpToDate (a : Analysis) : Prop where
  checksum : ∀ id, (a.checksum id).1 = ((ofProgram a.program).checksum id).1
  dependencyChecksum : ∀ id,
    (a.dependencyChecksum id).1 = ((ofProgram a.program).dependencyChecksum id).1
  callDependencies : a.callDependencies.1 = (ofProgram a.program).callDependencies.1
  ensureGraph : a.ensureGraph.1 = (ofProgram a.program).ensureGraph.1
  graph : ∀ g, a.graph = some g → g = (ofProgram a.program).ensureGraph.1
  prune : ∀ enabled implementation body,
    a.prune enabled implementation body = a.renewed.prune enabled implementation body

theorem Current.upToDate (h : a.Current) : a.UpToDate where
  checksum id := by rw [h.checksum_fst, checksum_ofProgram]
  dependencyChecksum id := by rw [h.dependencyChecksum_fst, dependencyChecksum_ofProgram]
  callDependencies := h.callDependencies_fst
  ensureGraph := h.ensureGraph_fst
  graph := h.graph
  prune enabled implementation body := by
    have hgraph : a.renewed.graph = a.graph := by
      unfold renewed
      cases hg : a.graph with
      | none => rfl
      | some g =>
        rw [h.graph g hg]
        rfl
    have hprogram : a.renewed.program = a.program := by
      unfold renewed
      split <;> rfl
    rw [Analysis.prune, Analysis.prune, hgraph, hprogram]

/-- **Nothing derived is ever out of date.** After any requests an analysis has the program that the
changes among them make, and answers like a new analysis of it. A change leaves no graph, and
what is refused changes nothing, so that every later answer is as if it had not been tried. -/
theorem upToDate_after (p : Program) (rs : List Request) :
    (after p rs).program = rs.foldl Request.edit p ∧ (after p rs).UpToDate ∧
      (∀ d, ((after p rs).add d).2.graph = none) ∧
      (∀ id d old, ((after p rs).replace id d).1 = .ok old →
        ((after p rs).replace id d).2.graph = none) ∧
      (∀ id d e, ((after p rs).replace id d).1 = .error e →
        ((after p rs).replace id d).2 = after p rs) ∧
      ∀ g e, ((after p rs).attachGraph g).1 = .error e →
        ((after p rs).attachGraph g).2 = after p rs :=
  ⟨program_foldl rs _, (current_foldl rs (current_ofProgram p)).upToDate, fun _ => rfl,
    fun _ _ _ => graph_replace_of_ok, fun _ _ _ => replace_of_error, fun _ _ => attachGraph_of_error⟩

end Analysis

end Verdict
