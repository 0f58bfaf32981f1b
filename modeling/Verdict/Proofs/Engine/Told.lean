import Verdict.Proofs.Engine.Course

/-! What an attempt has been told, and how it ends.

The loss of the solver is the only fault that ends an attempt fatally; after any other one the
attempt still has a result. Besides that, an attempt ends fatally only if its verifier broke down.
`Told` ties this to the moves of a run, so that every fatal ending is put down to what was
received, and nothing that was received is lost. -/
namespace Verdict

/-- The fault that a move tells an attempt of. -/
def Move.fault? : Move → Option (AttemptId × Fault)
  | .opened id (.error f) | .answered id (.fault f) => some (id, f)
  | _ => none

/-- In these moves an attempt is told of a fault. -/
def Receives (ms : List Move) (id : AttemptId) (f : Fault) : Prop :=
  ∃ m ∈ ms, m.fault? = some (id, f)

def Prompt.fault? : Prompt → Option Fault
  | opened (.error f) | answered (.fault f) => some f
  | _ => none

theorem Move.fault?_of_prompt? {m : Move} {id : AttemptId} {q : Prompt}
    (h : m.prompt? = some (id, q)) : m.fault? = q.fault?.map (id, ·) := by
  cases m <;> cases h
  · rfl
  · rename_i outcome
    cases outcome <;> rfl
  · rename_i answer
    cases answer <;> rfl

theorem Move.prompt?_of_fault? {m : Move} {id : AttemptId} {f : Fault}
    (h : m.fault? = some (id, f)) : ∃ q, m.prompt? = some (id, q) ∧ q.fault? = some f := by
  unfold fault? at h
  split at h <;> cases h
  · exact ⟨_, rfl, rfl⟩
  · exact ⟨_, rfl, rfl⟩

theorem receives_concat {ms : List Move} {m : Move} {id : AttemptId} {f : Fault} :
    Receives (ms ++ [m]) id f ↔ Receives ms id f ∨ m.fault? = some (id, f) := by
  simp only [Receives, List.mem_append, List.mem_singleton, or_and_right, exists_or,
    exists_eq_left]

/-- After any fault but the loss of the solver there is a result. -/
theorem Ticket.result?_afterFault {k : Ticket} {o : Options} {a : Attempt} {f : Fault}
    (h : f.isFatal = false) : (k.afterFault o a f).result?.isSome = true := by
  cases f with
  | solverDied => cases h
  | _ => rfl

namespace Attempt
variable {k : Ticket} {slot : Nat} {s s' : Shared} {tray tray' : Tray} {a a' : Attempt} {q : Prompt}

theorem Turn.of_fault? (h : Turn k slot s tray a q s' tray' a') {f : Fault}
    (hq : q.fault? = some f) : a'.phase = k.afterFault s.options a f := by
  cases h <;> cases hq <;> rfl

/-- An attempt comes to a fatal ending only by the loss of the solver. -/
theorem Turn.of_fatal (h : Turn k slot s tray a q s' tray' a') {reason : String}
    (hfatal : a'.phase.ending? = some (.fatal reason)) :
    a.phase.ending? = some (.fatal reason) ∨ q.fault? = some (.solverDied reason) := by
  cases h with
  | settle hp | leave hp | announce hp | deliver hp | write hp =>
    rw [hp]
    exact .inl hfatal
  | @refuse f | @fault _ _ f =>
    cases f <;> cases hfatal
    exact .inr rfl
  | _ => cases hfatal

theorem Turn.of_crashed (h : Turn k slot s tray a q s' tray' a') {reason : String}
    (hcrashed : a'.phase = .crashed reason) : q = .answered (.crash reason) := by
  cases h with
  | crash =>
    cases hcrashed
    rfl
  | @refuse f | @fault _ _ f => cases f <;> cases hcrashed
  | _ => cases hcrashed

/-- What an attempt has received in these moves decides how it ends. -/
structure Told (ms : List Move) (id : AttemptId) (a : Attempt) : Prop where
  died : ∀ reason, Receives ms id (.solverDied reason) → a.phase.ending? = some (.fatal reason)
  recovered : ∀ f, f.isFatal = false → Receives ms id f → a.phase.result?.isSome = true
  fatal : ∀ reason, a.phase.ending? = some (.fatal reason) → Receives ms id (.solverDied reason)
  crashed : ∀ reason, a.phase = .crashed reason → .answered id (.crash reason) ∈ ms

variable {ms : List Move} {m : Move} {id : AttemptId}

theorem told_scheduled (id : AttemptId) (t : Target) : Told [] id (.scheduled t) := by
  refine ⟨?_, ?_, nofun, nofun⟩
  · rintro _ ⟨_, hmem, _⟩
    cases hmem
  · rintro _ _ ⟨_, hmem, _⟩
    cases hmem

theorem Told.stay (h : Told ms id a) (hm : ∀ q, m.prompt? ≠ some (id, q)) :
    Told (ms ++ [m]) id a := by
  have hold : ∀ f, Receives (ms ++ [m]) id f → Receives ms id f := by
    intro f hf
    refine (receives_concat.mp hf).resolve_right fun hnow => ?_
    obtain ⟨q, hq, -⟩ := Move.prompt?_of_fault? hnow
    exact hm q hq
  exact ⟨fun reason hr => h.died reason (hold _ hr), fun f hf hr => h.recovered f hf (hold _ hr),
    fun reason hr => receives_concat.mpr (.inl (h.fatal reason hr)),
    fun reason hr => List.mem_append_left _ (h.crashed reason hr)⟩

theorem Told.turn (h : Told ms id a) (hm : m.prompt? = some (id, q))
    (hturn : Turn k slot s tray a q s' tray' a') : Told (ms ++ [m]) id a' := by
  have hfault : ∀ f, m.fault? = some (id, f) ↔ q.fault? = some f := by
    intro f
    rw [Move.fault?_of_prompt? hm, Option.map_eq_some_iff]
    simp only [Prod.mk.injEq, true_and, exists_eq_right]
  constructor
  case died =>
    intro reason hr
    rcases receives_concat.mp hr with hbefore | hnow
    · exact hturn.ending? (h.died reason hbefore)
    · rw [hturn.of_fault? ((hfault _).mp hnow)]
      rfl
  case recovered =>
    intro f hf hr
    rcases receives_concat.mp hr with hbefore | hnow
    · obtain ⟨r, hr⟩ := Option.isSome_iff_exists.mp (h.recovered f hf hbefore)
      rw [hturn.result hr]
      rfl
    · rw [hturn.of_fault? ((hfault _).mp hnow)]
      exact Ticket.result?_afterFault hf
  case fatal =>
    intro reason hr
    rw [receives_concat, hfault]
    exact (hturn.of_fatal hr).imp_left (h.fatal reason)
  case crashed =>
    intro reason hr
    obtain rfl := hturn.of_crashed hr
    refine List.mem_append_right _ (List.mem_singleton.mpr ?_)
    cases m <;> cases hm
    rfl

end Attempt

namespace Engine
variable {e e' : Engine} {ms : List Move} {id : AttemptId} {k : Ticket} {t : Target}

theorem told_of_run (ran : e.run ms = some e') (ha : e.assigned? id = some (k, .scheduled t)) :
    ∃ a, e'.assigned? id = some (k, a) ∧ a.target = t ∧ Attempt.Told ms id a := by
  refine run_induction (P := fun ms e' => ∃ a, e'.assigned? id = some (k, a) ∧ a.target = t ∧
    Attempt.Told ms id a) ⟨_, ha, rfl, Attempt.told_scheduled id t⟩ ?_ ran
  intro ms m e₁ e₂ _ ⟨a, ha, htarget, htold⟩ _ htransition
  rcases htransition.next ha with ⟨q, _, _, a', hm, ha', hturn⟩ | ⟨hm, ha'⟩
  · exact ⟨a', ha', hturn.target.trans htarget, htold.turn hm hturn⟩
  · exact ⟨a, ha', htarget, htold.stay hm⟩

end Engine

end Verdict
