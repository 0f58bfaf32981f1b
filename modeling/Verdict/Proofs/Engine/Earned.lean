import Verdict.Proofs.Engine.Keeping

/-! Only what was earned is served.

Every kept result goes back to a verifier's findings: `Earned` says for which attempt, and by
which moves of the run it came into the cache and was not displaced since. It holds of all that
the cache holds after every run of a new engine (`earned_of_run`). A result that is marked as
cached goes back to a lookup (`consulted_of_run`), and the two together give
`served_was_earned`. -/
namespace Verdict

/-- A fault of the session or of the verifier has been reported to this attempt. -/
def Faulted (ms : List Move) (id : AttemptId) : Prop :=
  ∃ f, .opened id (.error f) ∈ ms ∨ .answered id (.fault f) ∈ ms

theorem not_faulted_nil {id : AttemptId} : ¬Faulted [] id := by
  intro h
  obtain ⟨f, h | h⟩ := h <;> cases h

theorem faulted_append {ms ns : List Move} {id : AttemptId} :
    Faulted (ms ++ ns) id ↔ Faulted ms id ∨ Faulted ns id := by
  simp only [Faulted, List.mem_append]
  constructor
  · intro h
    obtain ⟨f, (h | h) | (h | h)⟩ := h
    · exact .inl ⟨f, .inl h⟩
    · exact .inr ⟨f, .inl h⟩
    · exact .inl ⟨f, .inr h⟩
    · exact .inr ⟨f, .inr h⟩
  · intro h
    rcases h with ⟨f, h | h⟩ | ⟨f, h | h⟩
    · exact ⟨f, .inl (.inl h)⟩
    · exact ⟨f, .inr (.inl h)⟩
    · exact ⟨f, .inl (.inr h)⟩
    · exact ⟨f, .inr (.inr h)⟩

theorem faulted_singleton {m : Move} {id : AttemptId} (h : Faulted [m] id) :
    ∃ f, m = .opened id (.error f) ∨ m = .answered id (.fault f) := by
  obtain ⟨f, h | h⟩ := h
  · exact ⟨f, .inl (List.mem_singleton.mp h).symm⟩
  · exact ⟨f, .inr (List.mem_singleton.mp h).symm⟩

namespace Engine

/-- In the moves from `e` on nothing is forgotten, and nothing is kept under this checksum. -/
def Spares (checksum : Checksum) (e : Engine) (ms : List Move) : Prop :=
  ∀ before m after, ms = before ++ m :: after →
    m ≠ .clearCache ∧ ∀ e', e.run before = some e' → e'.keepsUnder? m ≠ some checksum

theorem spares_nil (checksum : Checksum) (e : Engine) : Spares checksum e [] := by
  intro before m after h
  cases before <;> cases h

theorem Spares.concat {checksum : Checksum} {e e' : Engine} {ms : List Move} {m : Move}
    (h : Spares checksum e ms) (ran : e.run ms = some e') (hm : m ≠ .clearCache)
    (hkeeps : e'.keepsUnder? m ≠ some checksum) : Spares checksum e (ms ++ [m]) := by
  intro before m' after heq
  rcases List.eq_nil_or_concat after with rfl | ⟨after', last, rfl⟩
  · obtain ⟨rfl, hlast⟩ := List.append_inj' heq rfl
    cases hlast
    refine ⟨hm, fun e'' h'' => ?_⟩
    cases ran.symm.trans h''
    exact hkeeps
  · rw [List.concat_eq_append, ← List.cons_append, ← List.append_assoc] at heq
    obtain ⟨rfl, -⟩ := List.append_inj' heq rfl
    exact h before m' after' rfl

/-- After a fault an attempt has its work behind it; it had none of its own result before. -/
theorem Transition.of_fault {e e' : Engine} {m : Move} {id : AttemptId} (h : Transition e m e')
    (hm : Faulted [m] id) :
    ∃ k a a', e.assigned? id = some (k, a) ∧ a.phase.result? = none ∧
      e'.assigned? id = some (k, a') ∧ a'.phase.stepsLeft ≤ 6 := by
  obtain ⟨f, rfl | rfl⟩ := faulted_singleton hm
  · cases h with
    | @attempt _ _ q b a a' s' tray' hm hb ha hturn =>
      cases hm
      refine ⟨b.ticket, a, a', assigned?_eq_some_iff.mpr ⟨b, hb, rfl, ha⟩, ?_,
        assigned?_withAttempt hb ha, ?_⟩
      · cases hturn with
        | refuse hp => rw [hp]; rfl
      · cases hturn with
        | refuse => exact Ticket.afterFault_stepsLeft ..
    | batch hm => cases hm
  · cases h with
    | @attempt _ _ q b a a' s' tray' hm hb ha hturn =>
      cases hm
      refine ⟨b.ticket, a, a', assigned?_eq_some_iff.mpr ⟨b, hb, rfl, ha⟩, ?_,
        assigned?_withAttempt hb ha, ?_⟩
      · cases hturn with
        | fault hp => rw [hp]; rfl
      · cases hturn with
        | fault => exact Ticket.afterFault_stepsLeft ..
    | batch hm => cases hm

theorem stepsLeft_of_faulted {e₀ e : Engine} {ms : List Move} {id : AttemptId}
    (ran : e₀.run ms = some e) :
    Faulted ms id → ∃ k a, e.assigned? id = some (k, a) ∧ a.phase.stepsLeft ≤ 6 := by
  refine run_induction (P := fun ms e => Faulted ms id →
    ∃ k a, e.assigned? id = some (k, a) ∧ a.phase.stepsLeft ≤ 6) ?_ ?_ ran
  · exact fun hnone => absurd hnone not_faulted_nil
  · intro ms m _ _ _ ih _ htransition hfaulted
    rcases faulted_append.mp hfaulted with hbefore | hnow
    · obtain ⟨k, a, ha, hleft⟩ := ih hbefore
      obtain ⟨a', ha', hahead⟩ := htransition.grows.attempts id k a ha
      exact ⟨k, a', ha', Nat.le_trans hahead.stepsLeft hleft⟩
    · obtain ⟨k, a, a', -, -, ha', hleft⟩ := htransition.of_fault hnow
      exact ⟨k, a', ha', hleft⟩

/-- Nothing goes wrong any more with an attempt that has its result. -/
theorem not_faulted_of_result {e e' : Engine} {ms : List Move} {id : AttemptId} {k : Ticket}
    {a : Attempt} {r : Result} (ran : e.run ms = some e') (ha : e.assigned? id = some (k, a))
    (hr : a.phase.result? = some r) : ¬Faulted ms id := by
  refine run_induction (P := fun ms _ => ¬Faulted ms id) ?_ ?_ ran
  · exact not_faulted_nil
  · intro ms m _ _ hrun ih _ htransition hfaulted
    rcases faulted_append.mp hfaulted with hbefore | hnow
    · exact ih hbefore
    · obtain ⟨a₁, ha₁, hahead⟩ := (grows_of_run hrun).attempts id k a ha
      obtain ⟨k', a₁', -, ha₁', hnone, -, -⟩ := htransition.of_fault hnow
      cases ha₁.symm.trans ha₁'
      rw [hahead.result r hr] at hnone
      cases hnone

/-! ### The ledger -/

/-- The verifier's findings for the attempt `w`, after so long, have been kept under this
checksum. Nothing else has been since, and nothing has been forgotten. -/
def KeptSince (e₀ : Engine) (ms : List Move) (w : AttemptId) (f : Findings) (elapsed : Nat)
    (checksum : Checksum) : Prop :=
  ∃ asked waited since e₁ e₂,
    ms = asked ++ .answered w (.findings f elapsed) :: waited ++ .advance w :: since ∧
      e₀.run (asked ++ .answered w (.findings f elapsed) :: waited) = some e₁ ∧
      e₁.keepsUnder? (.advance w) = some checksum ∧ e₁.step (.advance w) = some e₂ ∧
      e₂.Spares checksum since

theorem KeptSince.concat {e₀ e : Engine} {ms : List Move} {m : Move} {w : AttemptId}
    {f : Findings} {elapsed : Nat} {checksum : Checksum}
    (h : KeptSince e₀ ms w f elapsed checksum) (ran : e₀.run ms = some e)
    (hm : m ≠ .clearCache) (hkeeps : e.keepsUnder? m ≠ some checksum) :
    KeptSince e₀ (ms ++ [m]) w f elapsed checksum := by
  obtain ⟨asked, waited, since, e₁, e₂, rfl, h₁, hc, h₂, hspares⟩ := h
  refine ⟨asked, waited, since ++ [m], e₁, e₂, by simp, h₁, hc, h₂, ?_⟩
  refine hspares.concat ?_ hm hkeeps
  rw [run_append, h₁, Option.bind_some] at ran
  simpa only [run, h₂, Option.bind_some] using ran

/-- The attempt `w` has earned what is kept under this checksum. -/
structure Earned (e₀ : Engine) (ms : List Move) (e : Engine) (checksum : Checksum)
    (kept : CacheEntry) (w : AttemptId) (k : Ticket) (a : Attempt) (f : Findings)
    (elapsed : Nat) : Prop where
  keptSince : KeptSince e₀ ms w f elapsed checksum
  assigned : e.assigned? w = some (k, a)
  key : k.key a = ⟨kept.name, some checksum, kept.result.dependencyChecksum⟩
  findings : kept.result = k.result e₀.shared.options a f elapsed
  completed : a.phase.result? = some kept.result
  not_faulted : ¬Faulted ms w

/-- What an attempt has just been answered is what the verifier found. -/
theorem answered_of_run {e₀ e : Engine} {ms : List Move} (ran : e₀.run ms = some e)
    (empty : e₀.batches = []) {w : AttemptId} {k : Ticket} {a : Attempt} {r : Result} :
    e.assigned? w = some (k, a) → a.phase = .answered r →
    ∃ asked waited f elapsed, ms = asked ++ .answered w (.findings f elapsed) :: waited ∧
      r = k.result e₀.shared.options a f elapsed := by
  refine run_induction (P := fun ms e => ∀ (k : Ticket) (a : Attempt),
    e.assigned? w = some (k, a) → a.phase = .answered r →
    ∃ asked waited f elapsed, ms = asked ++ .answered w (.findings f elapsed) :: waited ∧
      r = k.result e₀.shared.options a f elapsed) ?_ ?_ ran k a
  · intro k a ha
    obtain ⟨b, hb, -, -⟩ := assigned?_eq_some_iff.mp ha
    rw [empty] at hb
    cases hb
  · intro ms m e _ hrun ih _ htransition k a' ha' hp
    rcases htransition.origin ha' with ha | ⟨t, rfl⟩ | ⟨q, tray, tray', a, hm, ha, hturn⟩
    · obtain ⟨asked, waited, f, elapsed, rfl, hr⟩ := ih k a' ha hp
      exact ⟨asked, waited ++ [m], f, elapsed, by simp, hr⟩
    · cases hp
    · obtain ⟨f, elapsed, rfl, hr⟩ := hturn.of_answered hp
      refine ⟨ms, [], f, elapsed, ?_, ?_⟩
      · cases m <;> cases hm
        rfl
      · rw [hr, (grows_of_run hrun).options, Ticket.result_congr hturn.target]

/-- Whatever is kept has been earned. -/
theorem earned_of_run {e₀ e : Engine} {ms : List Move} (ran : e₀.run ms = some e)
    (new : e₀.batches = []) (blank : e₀.shared.cache.entries = []) {checksum : Checksum}
    {kept : CacheEntry} (h : e.shared.cache.entries.lookup checksum = some kept) :
    ∃ w k a f elapsed, Earned e₀ ms e checksum kept w k a f elapsed := by
  refine run_induction (P := fun ms e => ∀ kept,
    e.shared.cache.entries.lookup checksum = some kept →
    ∃ w k a f elapsed, Earned e₀ ms e checksum kept w k a f elapsed) ?_ ?_ ran kept h
  · intro kept h
    rw [blank] at h
    cases h
  · intro ms m e e' hrun ih hstep htransition kept h
    cases htransition.keeping checksum with
    | cleared hnil =>
      rw [hnil] at h
      cases h
    | spared hm hkeeps hsame =>
      obtain ⟨w, k, a, f, elapsed, hearned⟩ := ih kept (hsame ▸ h)
      obtain ⟨a', ha', hahead⟩ := htransition.grows.attempts w k a hearned.assigned
      refine ⟨w, k, a', f, elapsed, hearned.keptSince.concat hrun hm hkeeps, ha', ?_, ?_,
        hahead.result _ hearned.completed, ?_⟩
      · rw [Ticket.key_congr hahead.target, hearned.key]
      · rw [Ticket.result_congr hahead.target, hearned.findings]
      · intro hfaulted
        rcases faulted_append.mp hfaulted with hbefore | hnow
        · exact hearned.not_faulted hbefore
        · have hone : e.run [m] = some e' := by
            rw [run, hstep]
            rfl
          exact not_faulted_of_result hone hearned.assigned hearned.completed hnow
    | @kept w k a r hm ha hp hkey hkeeps hlookup =>
      subst hm
      cases hlookup.symm.trans h
      obtain ⟨asked, waited, f, elapsed, hms, hr⟩ := answered_of_run hrun new ha hp
      obtain ⟨a', ha', hahead⟩ := htransition.grows.attempts w k a ha
      have hresult : (Cache.entry (k.key a) r).result = r := by
        rw [hr]
        rfl
      have hcompleted : a.phase.result? = some r := by
        rw [hp]
        rfl
      refine ⟨w, k, a', f, elapsed, ?_, ha', ?_, ?_, ?_, ?_⟩
      · exact ⟨asked, waited, [], e, e', by rw [hms], by rw [← hms, hrun], hkeeps, hstep,
          spares_nil _ _⟩
      · rw [Ticket.key_congr hahead.target, ← hkey]
        rfl
      · rw [Ticket.result_congr hahead.target, hresult, hr]
      · rw [hresult]
        exact hahead.result r hcompleted
      · intro hfaulted
        rcases faulted_append.mp hfaulted with hbefore | hnow
        · obtain ⟨k', a'', ha'', hleft⟩ := stepsLeft_of_faulted hrun hbefore
          cases ha.symm.trans ha''
          rw [hp] at hleft
          exact absurd hleft (Nat.lt_irrefl 6)
        · obtain ⟨f, hf | hf⟩ := faulted_singleton hnow <;> cases hf

/-! ### Lookups -/

/-- The next step of this attempt is to look for a result in the cache. -/
def Consulting (e : Engine) (id : AttemptId) : Prop :=
  ∃ k a, e.assigned? id = some (k, a) ∧ a.phase = .entered

/-- The result `r` of the attempt `a` was found in the cache at this point of the run. -/
structure Consulted (e₀ : Engine) (ms : List Move) (id : AttemptId) (k : Ticket) (a : Attempt)
    (r : Result) (before after : List Move) (e₁ : Engine) (a₁ : Attempt) (found : Result) :
    Prop where
  moves : ms = before ++ .advance id :: after
  ran : e₀.run before = some e₁
  assigned : e₁.assigned? id = some (k, a₁)
  entered : a₁.phase = .entered
  target : a.target = a₁.target
  lookup : (e₁.shared.cache.lookup (k.key a₁) e₀.shared.options.cacheMode.serves).1 = some found
  served : r = { found with requestId := k.requestId }

/-- A result that is marked as cached has been looked up. -/
theorem consulted_of_run {e₀ e : Engine} {ms : List Move} (ran : e₀.run ms = some e)
    (new : e₀.batches = []) {id : AttemptId} {k : Ticket} {a : Attempt} {r : Result}
    (ha : e.assigned? id = some (k, a)) (hr : a.phase.result? = some r)
    (hcached : r.wasCached = true) :
    ∃ before after e₁ a₁ found, Consulted e₀ ms id k a r before after e₁ a₁ found := by
  refine run_induction (P := fun ms e => ∀ a, e.assigned? id = some (k, a) →
    a.phase.result? = some r →
    ∃ before after e₁ a₁ found, Consulted e₀ ms id k a r before after e₁ a₁ found) ?_ ?_ ran a ha hr
  · intro a ha
    obtain ⟨b, hb, -, -⟩ := assigned?_eq_some_iff.mp ha
    rw [new] at hb
    cases hb
  · intro ms m e _ hrun ih _ htransition a' ha' hr'
    have earlier : ∀ a, a'.target = a.target → e.assigned? id = some (k, a) →
        a.phase.result? = some r → ∃ before after e₁ a₁ found,
          Consulted e₀ (ms ++ [m]) id k a' r before after e₁ a₁ found := by
      intro a ht ha hr
      obtain ⟨before, after, e₁, a₁, found, h⟩ := ih a ha hr
      exact ⟨before, after ++ [m], e₁, a₁, found, by simp [h.moves], h.ran, h.assigned, h.entered,
        ht.trans h.target, h.lookup, h.served⟩
    rcases htransition.origin ha' with ha | ⟨t, rfl⟩ | ⟨q, tray, tray', a, hm, ha, hturn⟩
    · exact earlier a' rfl ha hr'
    · cases hr'
    · rcases hturn.result_source hr' with hr | ⟨found, hp, rfl, hserved, hl⟩ | ⟨f, elapsed, rfl⟩
      · exact earlier a hturn.target ha hr
      · refine ⟨ms, [], e, a, found, ?_, hrun, ha, hp, hturn.target, ?_, hserved⟩
        · cases m <;> cases hm
          rfl
        · rw [← (grows_of_run hrun).options]
          exact hl
      · cases hcached

/-! ### What is served -/

/-- **Nothing is served that was not earned.** Where a result in a run of a new engine is
marked as cached, the attempt has looked for it at some point of the run. Before that point
the verifier had found it for an attempt of the same name, with the same checksum and the
same dependency checksum, both defined. That attempt had kept it, nothing was kept under this
checksum after it and nothing forgotten. It has completed with what it found, and no fault was
ever reported to it. What is served is just this result, for the request that asks; where only
correct results are served, it is correct. -/
theorem served_was_earned {o : Options} {e₀ e : Engine} {ms : List Move} {id : AttemptId}
    {k : Ticket} {a : Attempt} {r : Result} (created : create o = .ok e₀)
    (ran : e₀.run ms = some e) (assigned : e.assigned? id = some (k, a))
    (completed : a.phase.result? = some r) (cached : r.wasCached = true) :
    ∃ before after e₁ w kw aw f elapsed checksum dependencies,
      ms = before ++ .advance id :: after ∧ e₀.run before = some e₁ ∧ e₁.Consulting id ∧
      KeptSince e₀ before w f elapsed checksum ∧
      e.assigned? w = some (kw, aw) ∧
      k.key a = ⟨a.name, some checksum, some dependencies⟩ ∧
      kw.key aw = ⟨a.name, some checksum, some dependencies⟩ ∧
      aw.phase.result? = some (kw.result o aw f elapsed) ∧ ¬Faulted ms w ∧
      r = { kw.result o aw f elapsed with requestId := k.requestId, wasCached := true } ∧
      (o.cacheMode = .correctOnly → r.outcome = .correct) := by
  have hnew : e₀ = ⟨.fresh o, [], 0⟩ := by
    unfold create at created
    split at created <;> cases created
    rfl
  subst hnew
  obtain ⟨before, after, e₁, a₁, found, h⟩ := consulted_of_run ran rfl assigned completed cached
  obtain ⟨checksum, dependencies, kept, hkey, hkept, hd, haccept, hfound⟩ :=
    Cache.of_served h.lookup
  obtain ⟨w, kw, aw, f, elapsed, hearned⟩ := earned_of_run h.ran rfl rfl hkept
  have hlater : e₁.run (.advance id :: after) = some e := by
    rwa [h.moves, run_append, h.ran, Option.bind_some] at ran
  obtain ⟨aw', haw', hahead⟩ := (grows_of_run hlater).attempts w kw aw hearned.assigned
  have hname : (k.key a₁).name = a.name := congrArg (·.declaration.name) h.target.symm
  have hresult : kw.result o aw' f elapsed = kept :=
    (Ticket.result_congr hahead.target f elapsed).trans hearned.findings.symm
  have hserved : r = { kept with requestId := k.requestId, wasCached := true } := by
    rw [h.served, hfound]
  refine ⟨before, after, e₁, w, kw, aw', f, elapsed, checksum, dependencies, h.moves, h.ran,
    ⟨k, a₁, h.assigned, h.entered⟩, hearned.keptSince, haw', ?_, ?_, ?_, ?_, ?_, ?_⟩
  · rw [Ticket.key_congr h.target, hkey, hname]
  · rw [Ticket.key_congr hahead.target, hearned.key, hname, hd]
  · rw [hresult]
    exact hahead.result _ hearned.completed
  · rw [h.moves]
    intro hfaulted
    rcases faulted_append.mp hfaulted with hbefore | hafter
    · exact hearned.not_faulted hbefore
    · exact not_faulted_of_result hlater hearned.assigned hearned.completed hafter
  · rw [hresult, hserved]
  · intro hmode
    have hserves : CacheMode.serves o.cacheMode kept = true := haccept
    rw [hmode] at hserves
    rw [hserved]
    exact of_decide_eq_true hserves

end Engine

/-- A program with one implementation. -/
def lone : Program where
  decls := #[
    ⟨"Main", .unknown, [⟨"checksum", [.text "contract"]⟩], .procedure ⟨[], [], [], []⟩⟩,
    ⟨"Main", .unknown, [⟨"checksum", [.text "body"]⟩], .implementation ⟨⟨0⟩, [], [], []⟩⟩]

def loneTarget : Target where
  id := ⟨1⟩
  declaration :=
    ⟨"Main", .unknown, [⟨"checksum", [.text "body"]⟩], .implementation ⟨⟨0⟩, [], [], []⟩⟩
  implementation := ⟨⟨0⟩, [], [], []⟩

/-- What is known of the program once its checksums have been asked for. -/
def loneAnalysis : Analysis := ((Analysis.ofProgram lone).dependencyChecksum ⟨1⟩).2

theorem loneAnalysis_eq : loneAnalysis = ⟨lone, some (.collect lone),
    ⟨#[some (some (.ofText "contract")), some (some (.ofText "body"))],
      #[none, some (some (.ofText "body" + .ofText "contract"))]⟩, none⟩ := by
  have hprocedures : (CallDependencies.collect lone).procedures ⟨1⟩ = [⟨0⟩] := by cbv
  have hdirect : (CallDependencies.collect lone).directFunctions ⟨1⟩ = [] := by cbv
  have hclosure : (CallDependencies.collect lone).functionClosure ⟨1⟩ = [] := by
    rw [CallDependencies.functionClosure, hdirect, Closure.reach]
  simp only [loneAnalysis, Analysis.dependencyChecksum, Analysis.callDependencies,
    Analysis.ofProgram, ChecksumTable.dependencyChecksum, ChecksumTable.sumDependencies,
    hclosure, hprocedures]
  rfl

def cautious : Options := { Options.standard 1 with cacheMode := .correctOnly }

/-- The implementation is verified for one request and asked for by another. -/
def askedTwice (a : Analysis) : List Move :=
  [.submit "first" a [loneTarget], .advance ⟨0, 0⟩, .advance ⟨0, 0⟩, .advance ⟨0, 0⟩,
    .advance ⟨0, 0⟩, .opened ⟨0, 0⟩ (.ok ()), .advance ⟨0, 0⟩,
    .answered ⟨0, 0⟩ (.findings (.bare .correct) 5), .advance ⟨0, 0⟩,
    .submit "second" a [loneTarget], .advance ⟨1, 0⟩, .advance ⟨1, 0⟩]

theorem askedTwice_was_earned : ∃ e₀ e k a r, Engine.create cautious = .ok e₀ ∧
    e₀.run (askedTwice loneAnalysis) = some e ∧ e.assigned? ⟨1, 0⟩ = some (k, a) ∧
    a.phase.result? = some r ∧ r.wasCached = true ∧ r.outcome = .correct ∧
    ∃ before w f elapsed checksum, e₀.KeptSince before w f elapsed checksum := by
  have hcached : (((⟨.fresh cautious, [], 0⟩ : Engine).run (askedTwice loneAnalysis)).bind fun e =>
      (e.assigned? ⟨1, 0⟩).bind fun p => p.2.phase.result?.map (·.wasCached)) = some true := by
    rw [loneAnalysis_eq]
    decide +kernel
  obtain ⟨e, ran, hcached⟩ := Option.bind_eq_some_iff.mp hcached
  obtain ⟨⟨k, a⟩, assigned, hcached⟩ := Option.bind_eq_some_iff.mp hcached
  obtain ⟨r, completed, cached⟩ := Option.map_eq_some_iff.mp hcached
  obtain ⟨before, _, _, w, _, _, f, elapsed, checksum, _, _, _, _, hkept, _, _, _, _, _, _, hcorrect⟩ :=
    Engine.served_was_earned (o := cautious) rfl ran assigned completed cached
  exact ⟨_, e, k, a, r, rfl, ran, assigned, completed, cached, hcorrect rfl, before, w, f, elapsed,
    checksum, hkept⟩

end Verdict
