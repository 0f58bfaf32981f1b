import Verdict.Fingerprint
import Verdict.Proofs.Analysis
import Verdict.Proofs.Engine.Transition
import Verdict.Proofs.Program

/-! Which implementations a program is verified for.

The cache decides on their order alone: under the same options the same ones are selected
(`select_perm`), each once, and for each of them a target can be made, so that the verification
of a whole program always begins (`verify_eq`). What the cache knows them by is derived from the
program, whatever graph it is pruned with (`key_of_current`). -/
namespace Verdict

theorem Options.wants_iff (o : Options) (d : Declaration) : o.wants d = true ↔
    d.implementation?.isSome ∧ d.attributes.flag? "verify" ≠ some false ∧
      Wildcard.acceptsAny o.checkOnly d.name = true := by
  simp [Options.wants, Declaration.isSkipped, and_assoc]

namespace Shared
variable {s s' : Shared} {a a' : Analysis} {id : DeclId}

theorem map_fst_wanted (s : Shared) (a : Analysis) :
    (s.wanted a).map Prod.fst = a.program.idsWhere s.options.wants :=
  a.program.map_fst_filterMap_ids _ _

theorem select_perm_idsWhere (s : Shared) (a : Analysis) :
    (s.select a).Perm (a.program.idsWhere s.options.wants) := by
  rw [select, ← map_fst_wanted]
  exact (List.mergeSort_perm _ _).map _

/-- What the cache knows changes the order of what is selected, and nothing else. -/
theorem select_perm (options : s'.options = s.options) (program : a'.program = a.program) :
    (s'.select a').Perm (s.select a) := by
  have h := s'.select_perm_idsWhere a'
  rw [options, program] at h
  exact h.trans (s.select_perm_idsWhere a).symm

theorem nodup_select (s : Shared) (a : Analysis) : (s.select a).Nodup := by
  rw [(s.select_perm_idsWhere a).nodup_iff]
  exact a.program.nodup_idsWhere _

theorem mem_select_iff :
    id ∈ s.select a ↔ ∃ d, a.program.get? id = some d ∧ s.options.wants d = true :=
  (s.select_perm_idsWhere a).mem_iff.trans (Program.mem_idsWhere_iff ..)

end Shared

namespace Engine

/-- The target is the declaration with this id. -/
def Names (a : Analysis) (id : DeclId) (t : Target) : Prop :=
  t.id = id ∧ a.program.get? id = some t.declaration

theorem exists_mapM_ok {α β ε : Type} {f : α → Except ε β} {R : α → β → Prop} {l : List α}
    (h : ∀ x ∈ l, ∃ y, f x = .ok y ∧ R x y) : ∃ ys, l.mapM f = .ok ys ∧ List.Forall₂ R l ys := by
  induction l with
  | nil => exact ⟨[], rfl, .nil⟩
  | cons x rest ih =>
    obtain ⟨y, hy, hxy⟩ := h x List.mem_cons_self
    obtain ⟨ys, hys, hrest⟩ := ih fun z hz => h z (List.mem_cons_of_mem _ hz)
    refine ⟨y :: ys, ?_, .cons hxy hrest⟩
    rw [List.mapM_cons, hy, hys]
    rfl

theorem exists_target {s : Shared} {a : Analysis} {id : DeclId} (h : id ∈ s.select a) :
    ∃ t, target a id = .ok t ∧ Names a id t := by
  obtain ⟨d, hd, hwants⟩ := Shared.mem_select_iff.mp h
  obtain ⟨himplementation, -⟩ := (Options.wants_iff _ d).mp hwants
  obtain ⟨i, hi⟩ := Option.isSome_iff_exists.mp himplementation
  exact ⟨⟨id, d, i⟩, by simp only [target, hd, hi], rfl, hd⟩

/-- Targets can be made of all that is selected. -/
theorem targets_select (s : Shared) (a : Analysis) :
    ∃ ts, targets a (s.select a) = .ok ts ∧ List.Forall₂ (Names a) (s.select a) ts :=
  exists_mapM_ok fun _ hid => exists_target hid

/-- To verify a program is to submit a batch of what is selected. -/
theorem verify_eq (e : Engine) (a : Analysis) :
    ∃ ts, List.Forall₂ (Names a) (e.shared.select a) ts ∧
      e.verify a = (.ok (), e.freshRequestId.2.submit e.freshRequestId.1 a ts) := by
  obtain ⟨ts, hts, hnames⟩ := targets_select e.shared a
  refine ⟨ts, hnames, ?_⟩
  show e.freshRequestId.2.schedule e.freshRequestId.1 a (e.shared.select a) = _
  rw [schedule, hts]

end Engine

/-! ### What is selected is told apart -/

namespace Analysis
variable {a a' : Analysis} {ids ids' : List DeclId}

theorem Current.withoutGraph (h : a.Current) : Analysis.Current { a with graph := none } :=
  ⟨h.calls, h.checksums, nofun⟩

/-- What the cache knows a declaration by is derived from the program. The graph has no part in
it, and may have been made elsewhere. -/
theorem key_of_current (h : Analysis.Current { a with graph := none }) (id : DeclId)
    (name : String) : a.key id name = ⟨name, a.program.checksum? id,
      a.program.total? ((CallDependencies.collect a.program).summands id)⟩ := by
  have hkey : a.key id name = Analysis.key { a with graph := none } id name := by
    unfold key dependencyChecksum callDependencies
    cases a.calls <;> rfl
  rw [hkey, key, h.checksum_fst, h.dependencyChecksum_fst]

theorem key_prepare (o : Options) (a : Analysis) (id : DeclId) (name : String) :
    (Engine.prepare o a).key id name = a.key id name := by
  unfold Engine.prepare
  split
  · unfold ensureGraph
    split
    · rfl
    · unfold key dependencyChecksum callDependencies
      cases a.calls <;> rfl
  · rfl

/-- How the cache knows a declaration under the name it has. -/
def keyOf (a : Analysis) (id : DeclId) : CacheKey := a.key id (a.program.nameOf id)

theorem keyOf_congr (current : Analysis.Current { a with graph := none })
    (current' : Analysis.Current { a' with graph := none }) (program : a'.program = a.program)
    (id : DeclId) : a'.keyOf id = a.keyOf id := by
  rw [keyOf, keyOf, key_of_current current, key_of_current current', program]

/-- No two of these declarations have the same name or the same checksum, and all their checksums
are defined. -/
structure Distinct (a : Analysis) (ids : List DeclId) : Prop where
  names : ∀ i ∈ ids, ∀ j ∈ ids, (a.keyOf i).name = (a.keyOf j).name → i = j
  checksums : ∀ i ∈ ids, ∀ j ∈ ids, (a.keyOf i).checksum = (a.keyOf j).checksum → i = j
  defined : ∀ i ∈ ids, (a.keyOf i).checksum.isSome ∧ (a.keyOf i).dependencyChecksum.isSome

theorem Distinct.congr (h : a.Distinct ids) (keys : ∀ id, a'.keyOf id = a.keyOf id)
    (same : ids'.Perm ids) : a'.Distinct ids' := by
  constructor
  case names =>
    simp only [keys, same.mem_iff]
    exact h.names
  case checksums =>
    simp only [keys, same.mem_iff]
    exact h.checksums
  case defined =>
    simp only [keys, same.mem_iff]
    exact h.defined

end Analysis

end Verdict
