import Verdict.Proofs.Engine.Answerable
import Verdict.Proofs.Engine.Lineage

/-! Why an attempt is stopped.

An attempt ends cancelled only if it was to stop when it looked, because its request was told to
or because its run was superseded; what went before either is known (`Answerable`, `Lineage`).
The run that took its place need not have got anywhere: an attempt enters the roster before
it asks whether it is to stop, so that one of a request that has already been told to stop
still takes the place of another (`stopped_newcomer_supersedes`). -/
namespace Verdict

namespace Engine
variable {e₀ e e' : Engine} {ms : List Move} {m : Move} {id : AttemptId} {k : Ticket}
  {a a' : Attempt} {requestId name : String} {token g : Nat}

/-- At a move of its own the attempt stopped short, because by then it was to stop. -/
structure Stopped (e₀ : Engine) (ms : List Move) (id : AttemptId) (k : Ticket) (a : Attempt)
    (before after : List Move) (e₁ : Engine) (a₁ : Attempt) : Prop where
  moves : ms = before ++ .advance id :: after
  ran : e₀.run before = some e₁
  assigned : e₁.assigned? id = some (k, a₁)
  target : a.target = a₁.target
  unsettled : a₁.phase.ending? = none
  cancelled : k.isCancelled e₁.shared a₁ = true

theorem stopped_of_run (ran : e₀.run ms = some e) (new : e₀.batches = [])
    (assigned : e.assigned? id = some (k, a)) (cancelled : a.phase.ending? = some .cancelled) :
    ∃ before after e₁ a₁, Stopped e₀ ms id k a before after e₁ a₁ := by
  refine run_induction (P := fun ms e => ∀ a, e.assigned? id = some (k, a) →
    a.phase.ending? = some .cancelled →
    ∃ before after e₁ a₁, Stopped e₀ ms id k a before after e₁ a₁) ?_ ?_ ran a assigned cancelled
  · intro a ha
    obtain ⟨b, hb, -, -⟩ := assigned?_eq_some_iff.mp ha
    rw [new] at hb
    cases hb
  · intro ms m e _ hrun ih _ htransition a' ha' hcancelled'
    have earlier : ∀ a, a'.target = a.target → e.assigned? id = some (k, a) →
        a.phase.ending? = some .cancelled →
        ∃ before after e₁ a₁, Stopped e₀ (ms ++ [m]) id k a' before after e₁ a₁ := by
      intro a ht ha hcancelled
      obtain ⟨before, after, e₁, a₁, h⟩ := ih a ha hcancelled
      exact ⟨before, after ++ [m], e₁, a₁, by simp [h.moves], h.ran, h.assigned,
        ht.trans h.target, h.unsettled, h.cancelled⟩
    rcases htransition.origin ha' with ha | ⟨t, rfl⟩ | ⟨q, tray, tray', a, hm, ha, hturn⟩
    · exact earlier a' rfl ha hcancelled'
    · cases hcancelled'
    · rcases hturn.of_cancelled hcancelled' with hbefore | ⟨rfl, hunsettled, hstop⟩
      · exact earlier a hturn.target ha hbefore
      · refine ⟨ms, [], e, a, ?_, hrun, ha, hturn.target, hunsettled, hstop⟩
        cases m <;> cases hm
        rfl

theorem causes_of_run (ran : e₀.run ms = some e) (new : e₀.batches = []) (horderly : e₀.Orderly) :
    Answerable e₀ ms e ∧ Lineage e₀ ms e := by
  refine run_induction (P := fun ms e => Answerable e₀ ms e ∧ Lineage e₀ ms e) ?_ ?_ ran
  · have hnone : ∀ id k a, e₀.assigned? id ≠ some (k, a) := by
      intro id k a ha
      obtain ⟨b, hb, -, -⟩ := assigned?_eq_some_iff.mp ha
      rw [new] at hb
      cases hb
    refine ⟨⟨?_, ?_⟩, ⟨?_, ?_, ?_⟩⟩
    · rw [new]
      exact fun b hb => nomatch hb
    · rw [new]
      exact fun b hb => nomatch hb
    · exact fun id k a g ha => absurd ha (hnone id k a)
    · exact fun id k a g name ha => absurd ha (hnone id k a)
    · exact fun id k a g ha => absurd ha (hnone id k a)
  · intro ms m e e' hrun ⟨hanswerable, hlineage⟩ _ htransition
    have h := orderly_of_run horderly hrun
    exact ⟨hanswerable.step hrun h htransition, hlineage.step hrun h.roster htransition⟩

/-- **An attempt ends cancelled for a reason.** It stops at a move of its own, before anything
else is settled about it. By then its request, the one with its token, has been cancelled,
or an attempt of this request has broken down or ended fatally, or a newer run of the same
name has begun, whatever has become of the request of that one. -/
theorem cancelled_for_reason {o : Options} (created : create o = .ok e₀) (ran : e₀.run ms = some e)
    (assigned : e.assigned? id = some (k, a)) (cancelled : a.phase.ending? = some .cancelled) :
    ∃ before after e₁ a₁ g, ms = before ++ .advance id :: after ∧ e₀.run before = some e₁ ∧
      e₁.assigned? id = some (k, a₁) ∧ a₁.phase.ending? = none ∧ a₁.generation = some g ∧
      (e₀.happens (withdraws k.requestId k.token) before = true ∨
        e₁.hasFailed k.requestId k.token = true ∨
        e₀.happens (outruns a.name g) before = true) := by
  have horderly : e₀.Orderly := orderly_of_create created e₀.shared.cache
  have new : e₀.batches = [] := by
    unfold create at created
    split at created <;> cases created
    rfl
  obtain ⟨before, after, e₁, a₁, h⟩ := stopped_of_run ran new assigned cancelled
  obtain ⟨hanswerable, hlineage⟩ := causes_of_run h.ran new horderly
  obtain ⟨b, hb, rfl, ha⟩ := assigned?_eq_some_iff.mp h.assigned
  obtain ⟨g, hg, hstop⟩ := (Option.any_eq_true _ _).mp h.cancelled
  refine ⟨before, after, e₁, a₁, g, h.moves, h.ran, h.assigned, h.unsettled, hg, ?_⟩
  rcases (Bool.or_eq_true _ _).mp hstop with hrevoked | hsuperseded
  · rw [← or_assoc]
    exact .inl (hanswerable.revoked b (List.mem_of_getElem? hb) hrevoked)
  · have hname : a.name = a₁.name := congrArg (·.declaration.name) h.target
    rw [hname]
    exact .inr (.inr (hlineage.superseded id b.ticket a₁ g h.assigned hg hsuperseded))

end Engine

def idleBody (name : String) : Declaration :=
  ⟨name, .unknown, [], .implementation ⟨⟨0⟩, [], [], []⟩⟩

def bodies : Program where
  decls := #[⟨"Main", .unknown, [], .procedure ⟨[], [], [], []⟩⟩, idleBody "Main", idleBody "Broken"]

def bodyTarget (id : Nat) (name : String) : Target := ⟨⟨id⟩, idleBody name, ⟨⟨0⟩, [], [], []⟩⟩

def plainOptions : Options := { Options.standard 2 with prune := false }

/-- A run of `Main` begins for one request. The other request fails with its first attempt, and
only then its second one begins, which is of `Main` too. -/
def lateNewcomer : List Move :=
  [.submit "standing" (.ofProgram bodies) [bodyTarget 1 "Main"], .advance ⟨0, 0⟩,
    .submit "failing" (.ofProgram bodies) [bodyTarget 2 "Broken", bodyTarget 1 "Main"],
    .advance ⟨1, 0⟩, .advance ⟨1, 0⟩, .advance ⟨1, 0⟩, .advance ⟨1, 0⟩,
    .opened ⟨1, 0⟩ (.error (.solverDied "gone")), .advance ⟨1, 0⟩, .advance ⟨1, 0⟩, .advance ⟨1, 0⟩,
    .advance ⟨1, 1⟩, .advance ⟨0, 0⟩]

theorem lateNewcomer_has_reason : ∃ e₀ e k a before e₁ g, Engine.create plainOptions = .ok e₀ ∧
    e₀.run lateNewcomer = some e ∧ e.assigned? ⟨0, 0⟩ = some (k, a) ∧
    a.phase.ending? = some .cancelled ∧ e₀.run before = some e₁ ∧
    (e₀.happens (Engine.withdraws k.requestId k.token) before = true ∨
      e₁.hasFailed k.requestId k.token = true ∨
      e₀.happens (Engine.outruns a.name g) before = true) := by
  obtain ⟨e, ran, k, a, assigned, cancelled⟩ : ∃ e,
      (⟨.fresh plainOptions, [], 0⟩ : Engine).run lateNewcomer = some e ∧ ∃ k a,
        e.assigned? ⟨0, 0⟩ = some (k, a) ∧ a.phase.ending? = some .cancelled :=
    ⟨_, rfl, _, _, rfl, rfl⟩
  have created : Engine.create plainOptions = .ok ⟨.fresh plainOptions, [], 0⟩ := rfl
  obtain ⟨before, _, e₁, _, g, _, hbefore, _, _, _, hreason⟩ :=
    Engine.cancelled_for_reason created ran assigned cancelled
  exact ⟨_, e, k, a, before, e₁, g, created, ran, assigned, cancelled, hbefore, hreason⟩

/-- It does not take a newcomer whose request still stands. -/
theorem stopped_newcomer_supersedes : ¬∀ (o : Options) (e₀ e : Engine) (ms : List Move)
    (id : AttemptId) (k : Ticket) (a : Attempt) (g : Nat), Engine.create o = .ok e₀ →
    e₀.run ms = some e → e.assigned? id = some (k, a) → a.phase.ending? = some .cancelled →
    a.generation = some g →
    e₀.happens (Engine.withdraws k.requestId k.token) ms = true ∨
      e.hasFailed k.requestId k.token = true ∨
      e₀.happens (Engine.outrunsAlive a.name g) ms = true := by
  intro claim
  have ran : (⟨.fresh plainOptions, [], 0⟩ : Engine).run lateNewcomer = some _ := rfl
  rcases claim plainOptions _ _ lateNewcomer ⟨0, 0⟩ _ _ 1 rfl ran rfl rfl rfl with h | h | h
  · cases h
  · cases h
  · cases h

end Verdict
