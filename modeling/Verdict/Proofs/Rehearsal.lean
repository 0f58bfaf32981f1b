import Mathlib.Logic.Relation
import Verdict.Proofs.Engine.Transition
import Verdict.Rehearsal.Play

/-! What a rehearsal does to its engines.

Where a rehearsal drives the attempts and the batches of an engine it makes moves, each of them one
that the engine allows, so that the engine runs (`driveEngine_run`). Between the rounds it makes the
moves that are asked for, makes up request ids and writes closing lines; and an engine that is not
alone finds the sink, the diagnostics and perhaps the cache as another one has left them. Nothing
else happens to an engine, whatever scene is played (`play_leads`). -/
namespace Verdict

/-- What an engine does by moves alone. -/
def Engine.Runs (e e' : Engine) : Prop := ∃ ms, e.run ms = some e'

namespace Engine
variable {e e' e'' : Engine} {m : Move}

theorem Runs.refl (e : Engine) : e.Runs e := ⟨[], rfl⟩

theorem Runs.trans (h : e.Runs e') (h' : e'.Runs e'') : e.Runs e'' := by
  obtain ⟨ms, hms⟩ := h
  obtain ⟨ns, hns⟩ := h'
  exact ⟨ms ++ ns, by rw [run_append, hms, Option.bind_some, hns]⟩

theorem Runs.of_step (h : e.step m = some e') : e.Runs e' :=
  ⟨[m], by rw [run, h, Option.bind_some, run]⟩

/-- A move that is made if it is possible. -/
theorem runs_step_getD (e : Engine) (m : Move) : e.Runs ((e.step m).getD e) := by
  cases h : e.step m with
  | none => exact .refl e
  | some e' => exact .of_step h

/-- The engine with these in the place of what it shares with others. -/
def sharing (e : Engine) (sink : Sink) (reported : List Diagnostic) (cache : Cache) : Engine :=
  { e with shared := { e.shared with sink, reported, cache } }

end Engine

namespace Rehearsal

/-- What happens to an engine in a rehearsal, be there others or not. -/
inductive Happens (others : Prop) : Engine → Engine → Prop
  | move {e e' : Engine} {m : Move} : e.step m = some e' → Happens others e e'
  | freshId (e : Engine) : Happens others e e.freshRequestId.2
  | signOff (e : Engine) (r : BatchReport) : Happens others e (e.signOff r).2
  | /-- Others have moved. -/
    elsewhere (e : Engine) (sink : Sink) (reported : List Diagnostic) (cache : Cache) : others →
      Happens others e (e.sharing sink reported cache)

/-- What may become of an engine, one thing happening after the other. -/
abbrev Becomes (others : Prop) : Engine → Engine → Prop := Relation.ReflTransGen (Happens others)

theorem becomes_of_runs {others : Prop} {e e' : Engine} (h : e.Runs e') : Becomes others e e' := by
  obtain ⟨ms, h⟩ := h
  induction ms generalizing e with
  | nil =>
    cases h
    exact .refl
  | cons m rest ih =>
    obtain ⟨e₁, hstep, hrest⟩ := Option.bind_eq_some_iff.mp h
    exact .head (.move hstep) (ih hrest)

namespace Stage
variable {s s' s'' : Stage} {v : Verifier} {e e' d : Engine} {k j : Nat}

/-! ### Driving an engine -/

theorem drive_runs (v : Verifier) (k : Nat) (e : Engine) (id : AttemptId) (steps : Nat) :
    e.Runs (drive v k e id steps).2 := by
  induction steps generalizing v e with
  | zero => exact .refl e
  | succ steps ih =>
    unfold drive
    split
    · exact .refl e
    · rename_i m moved _
      cases hstep : e.step m with
      | none => exact .refl e
      | some after => exact (Engine.Runs.of_step hstep).trans (ih _ after)

theorem foldl_runs {α β : Type} {f : β × Engine → α → β × Engine}
    (h : ∀ (b : β) (e : Engine) (a : α), e.Runs (f (b, e) a).2) (l : List α) (b : β) (e : Engine) :
    e.Runs (l.foldl f (b, e)).2 := by
  induction l generalizing b e with
  | nil => exact .refl e
  | cons a rest ih => exact (h b e a).trans (ih _ _)

theorem foldl_step_runs (ms : List Move) (e : Engine) :
    e.Runs (ms.foldl (fun e m => (e.step m).getD e) e) := by
  induction ms generalizing e with
  | nil => exact .refl e
  | cons m rest ih => exact (e.runs_step_getD m).trans (ih _)

theorem driveBatch_runs (v : Verifier) (k : Nat) (e : Engine) (i : Nat) :
    e.Runs (driveBatch v k e i).2 :=
  (foldl_runs (fun _ _ _ => drive_runs ..) _ v e).trans (foldl_step_runs _ _)

/-- **Driving an engine is a run of it**, and all that it does to the others is through what they
share. -/
theorem driveEngine_run (h : s.engine? k = some (.ok e)) :
    ∃ v e', e.Runs e' ∧ s.driveEngine k = { s.put k e' with verifier := v } := by
  unfold driveEngine
  rw [h]
  exact ⟨_, _, foldl_runs (fun _ _ _ => driveBatch_runs ..) _ s.verifier e, rfl⟩

/-! ### The engines of a stage -/

theorem engine?_eq_some_iff : s.engine? k = some (.ok e) ↔ ∃ d, s.engines[k]? = some (.ok d) ∧
    d.sharing s.sink s.reported (if s.sharesCache then s.cache else d.shared.cache) = e := by
  unfold engine?
  cases s.engines[k]? with
  | none => simp
  | some found =>
    cases found with
    | error reason => simp [Except.map]
    | ok d => simp [Except.map, Engine.sharing]

theorem lt_of_engine? (h : s.engine? k = some (.ok e)) : k < s.engines.length := by
  obtain ⟨d, hd, -⟩ := engine?_eq_some_iff.mp h
  exact (List.getElem?_eq_some_iff.mp hd).1

/-- An engine that is put back is found as it is. -/
theorem engine?_put_self (hk : k < s.engines.length) (e : Engine) :
    (s.put k e).engine? k = some (.ok e) := by
  refine engine?_eq_some_iff.mpr ⟨e, List.getElem?_set_self hk, ?_⟩
  show e.sharing e.shared.sink e.shared.reported
    (if s.sharesCache then e.shared.cache else e.shared.cache) = e
  rw [ite_self]
  rfl

/-- The others find what is shared as it has been left. -/
theorem engine?_put_of_ne (hne : j ≠ k) (h : s.engine? j = some (.ok d)) (e : Engine) :
    (s.put k e).engine? j = some (.ok (d.sharing e.shared.sink e.shared.reported
      (if s.sharesCache then e.shared.cache else d.shared.cache))) := by
  obtain ⟨d₀, hd₀, rfl⟩ := engine?_eq_some_iff.mp h
  refine engine?_eq_some_iff.mpr ⟨d₀, (List.getElem?_set_ne hne.symm).trans hd₀, ?_⟩
  show d₀.sharing _ _ (if s.sharesCache then e.shared.cache else d₀.shared.cache) = _
  cases s.sharesCache <;> rfl

/-- Nothing but what may happen in a rehearsal happens to the engines of the stage. -/
structure Leads (s s' : Stage) : Prop where
  engines : s'.engines.length = s.engines.length
  becomes : ∀ k e, s.engine? k = some (.ok e) →
    ∃ e', s'.engine? k = some (.ok e') ∧ Becomes (1 < s.engines.length) e e'

theorem Leads.refl (s : Stage) : s.Leads s := ⟨rfl, fun _ e h => ⟨e, h, .refl⟩⟩

theorem Leads.trans (h : s.Leads s') (h' : s'.Leads s'') : s.Leads s'' := by
  refine ⟨h'.engines.trans h.engines, fun k e hk => ?_⟩
  obtain ⟨e', hk', hbecomes⟩ := h.becomes k e hk
  obtain ⟨e'', hk'', hbecomes'⟩ := h'.becomes k e' hk'
  rw [h.engines] at hbecomes'
  exact ⟨e'', hk'', hbecomes.trans hbecomes'⟩

theorem leads_put (h : s.engine? k = some (.ok e)) (hbecomes : Becomes (1 < s.engines.length) e e') :
    s.Leads (s.put k e') := by
  have hk := lt_of_engine? h
  refine ⟨List.length_set, fun j d hd => ?_⟩
  by_cases hj : j = k
  · subst hj
    cases hd.symm.trans h
    exact ⟨e', engine?_put_self hk e', hbecomes⟩
  · have hothers : 1 < s.engines.length := by
      have := lt_of_engine? hd
      omega
    exact ⟨_, engine?_put_of_ne hj hd e', .single (.elsewhere d _ _ _ hothers)⟩

theorem leads_driveEngine (s : Stage) (k : Nat) : s.Leads (s.driveEngine k) := by
  cases h : s.engine? k with
  | none =>
    rw [driveEngine, h]
    exact .refl s
  | some found =>
    cases found with
    | error reason =>
      rw [driveEngine, h]
      exact .refl s
    | ok e =>
      obtain ⟨v, e', hruns, hdriven⟩ := driveEngine_run h
      obtain ⟨hengines, hbecomes⟩ := leads_put h (becomes_of_runs hruns)
      rw [hdriven]
      -- The verifier is not part of an engine.
      exact ⟨hengines, hbecomes⟩

theorem leads_round (s : Stage) : s.Leads s.round := by
  unfold round
  generalize List.range s.engines.length = ks
  induction ks generalizing s with
  | nil => exact .refl s
  | cons k rest ih => exact (s.leads_driveEngine k).trans (ih _)

/-! ### Scenes -/

theorem leads_step (h : s.engine? k = some (.ok e)) (m : Move) :
    s.Leads (((e.step m).map (s.put k)).getD s) := by
  cases hstep : e.step m with
  | none => exact .refl s
  | some e' => exact leads_put h (.single (.move hstep))

theorem becomes_schedule {others : Prop} (e : Engine) (requestId : String) (a : Analysis)
    (ids : List DeclId) : Becomes others e (e.schedule requestId a ids).2 := by
  unfold Engine.schedule
  split
  · exact .refl
  · rename_i targets _
    exact .single (.move (m := .submit requestId a targets) rfl)

theorem becomes_verify {others : Prop} (e : Engine) (a : Analysis) :
    Becomes others e (e.verify a).2 :=
  .head (.freshId e) (becomes_schedule ..)

theorem follow_snd (s : Stage) (k batch : Nat) (signsOff : Bool)
    (scheduled : Except EngineError Unit × Engine) :
    (s.follow k batch signsOff scheduled).2 = s.put k scheduled.2 := by
  obtain ⟨_ | _, e⟩ := scheduled <;> rfl

theorem leads_ask (h : s.engine? k = some (.ok e)) (a : Analysis) (r : Request) :
    s.Leads (s.ask k e a r).2 := by
  cases r with
  | freshId => exact leads_put h (.single (.freshId e))
  | verify =>
    rw [ask, follow_snd]
    exact leads_put h (becomes_verify e a)
  | run ids requestId =>
    rw [ask, follow_snd]
    exact leads_put h (becomes_schedule e requestId a ids)
  | cancel requestId => exact leads_put h (.single (.move (m := .cancel requestId) rfl))
  | clearCache => exact leads_step h .clearCache
  | breakSink broken => exact leads_step h (.breakSink broken)
  | _ => exact .refl s

theorem leads_begin (s : Stage) : (scene : Scene) → s.Leads (s.begin scene).2
  | .single k p r => by
    rw [begin]
    split
    · rename_i h
      exact leads_ask h _ r
    · exact .refl s
    · exact .refl s
  | .beside first started others => leads_begin s first

theorem leads_beginAll (s : Stage) (first : Action) (replies : List Reply) (current : Action)
    (rest : List Scene) : s.Leads (s.beginAll first replies current rest).2 := by
  induction rest generalizing s replies current with
  | nil =>
    unfold beginAll
    split <;> exact .refl s
  | cons next rest ih =>
    unfold beginAll
    split
    · exact (s.leads_begin next).trans (ih ..)
    · exact .refl s

theorem leads_close (s : Stage) (k i : Nat) (signsOff : Bool) :
    s.Leads (s.close k i signsOff).2 := by
  unfold close
  split
  · rename_i e h
    split
    · exact .refl s
    · exact .refl s
    · split
      · exact leads_put h (.single (.signOff e _))
      · exact .refl s
  · exact .refl s

/-- The induction is on what is under way: scenes begin beside a first one. -/
theorem leads_goOn (s : Stage) (a : Action) : s.Leads (s.goOn a).2 := by
  induction a generalizing s with
  | underWay k i signsOff => exact s.leads_close k i signsOff
  | early first started others ih =>
    have hfirst := ih s
    rw [goOn]
    generalize s.goOn first = went at hfirst ⊢
    obtain ⟨first', s'⟩ := went
    refine hfirst.trans ?_
    cases others with
    | nil => cases first' <;> exact .refl s'
    | cons next rest =>
      simp only
      split
      · exact .refl s'
      · exact (s'.leads_begin next).trans (leads_beginAll ..)
  | beside first replies current rest ihFirst ihCurrent =>
    exact (ihFirst s).trans ((ihCurrent _).trans (leads_beginAll ..))
  | _ => exact .refl s

theorem leads_playFor (s : Stage) (a : Action) (rounds : Nat) :
    s.Leads (s.playFor a rounds).2 := by
  induction rounds generalizing s a with
  | zero => exact .refl s
  | succ rounds ih =>
    have hgoOn := s.leads_goOn a
    rw [playFor]
    split
    · rename_i hover
      rwa [hover] at hgoOn
    · rename_i hgoing
      rw [hgoing] at hgoOn
      exact hgoOn.trans ((leads_round _).trans (ih ..))

/-- **A rehearsal does nothing to an engine but what the engine does.** Whatever scene is played,
every engine of the stage is there afterwards, and what has become of it, since its sink was
emptied and its diagnostics were put away, are moves, made-up ids and closing lines, and, if there
are other engines, what these have left of what is shared. -/
theorem play_leads (s : Stage) (scene : Scene) :
    Leads { s with sink := { s.sink with contents := "" }, reported := [] } (s.play scene).2 :=
  (leads_begin _ scene).trans (leads_playFor ..)

end Stage

end Rehearsal

end Verdict
