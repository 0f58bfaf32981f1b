import Verdict.Proofs.Engine.Keeping

/-! What an attempt comes to while nothing disturbs it.

The cache as it was at the beginning, the target and the verifier decide what there is to report
(`Setting.Comes`), up to the time that the verifier takes. `Setting.Expected` says how far an
attempt has come towards it. Every step keeps this as long as the attempt is not cancelled, the
cache answers as it would have at the beginning, and what is asked of the outside is answered as
the setting has it. -/
namespace Verdict

/-- A verifier whose answer depends on the job alone. -/
abbrev Verifier := Job → Except Fault Findings

namespace Verifier

/-- The solver is never lost. -/
def Lasting (v : Verifier) : Prop := ∀ job reason, v job ≠ .error (.solverDied reason)

/-- The answers that this verifier may give; findings may take any time. -/
inductive Gives (v : Verifier) (job : Job) : Answer → Prop
  | findings {f : Findings} (elapsed : Nat) : v job = .ok f → Gives v job (.findings f elapsed)
  | fault {f : Fault} : v job = .error f → Gives v job (.fault f)

end Verifier

/-- A result without what the clock says. -/
def Result.untimed (r : Result) : Result := { r with elapsed := 0 }

/-- What the attempts of an undisturbed batch depend on. -/
structure Setting where
  verifier : Verifier
  options : Options
  ticket : Ticket
  /-- The cache when the batch begins. -/
  cache : Cache

namespace Setting

def key (x : Setting) (t : Target) : CacheKey := x.ticket.key (.scheduled t)

def job (x : Setting) (t : Target) : Job := x.ticket.job x.options (.scheduled t)

def result (x : Setting) (t : Target) (f : Findings) (elapsed : Nat) : Result :=
  x.ticket.result x.options (.scheduled t) f elapsed

/-- The result that the cache serves. -/
def found? (x : Setting) (t : Target) : Option Result :=
  if x.options.cacheMode ≠ .off then
    (x.cache.lookup (x.key t) x.options.cacheMode.serves).1
  else none

/-- What there is to report of a target. -/
inductive Comes (x : Setting) (t : Target) : Pending → Prop
  | served {r : Result} : x.found? t = some r →
      Comes x t (x.ticket.served x.options (.scheduled t) r)
  | found {f : Findings} (elapsed : Nat) : x.found? t = none → x.verifier (x.job t) = .ok f →
      Comes x t ⟨x.result t f elapsed, "", []⟩
  | faulted {f : Fault} {p : Pending} : x.found? t = none → x.verifier (x.job t) = .error f →
      x.ticket.afterFault x.options (.scheduled t) f = .reporting p true → Comes x t p

/-- The text that is left when there is this to report. -/
def text (x : Setting) (t : Target) (p : Pending) : String :=
  Ticket.heading x.options (.scheduled t) ++ p.preface ++ p.result.render x.options

/-- How far an undisturbed attempt may have come. -/
def Expected (x : Setting) (a : Attempt) : Prop :=
  match a.phase with
  | .scheduled => a.generation = none
  | .entered => True
  | .queued | .admitted | .opening | .equipped _ => x.found? a.target = none
  | .verifying _ job => x.found? a.target = none ∧ job = x.job a.target
  | .answered r => x.found? a.target = none ∧
      ∃ f elapsed, x.verifier (x.job a.target) = .ok f ∧ r = x.result a.target f elapsed
  | .reporting p _ => x.Comes a.target p
  | .settled c _ | .idle c | .retired c | .announced c =>
    ∃ p, x.Comes a.target p ∧ c = ⟨.completed p.result, x.text a.target p⟩
  | .delivered e | .ended e => ∃ p, x.Comes a.target p ∧ e = .completed p.result
  | .crashed _ => False

/-- What the outside may say to an attempt in this setting. -/
inductive Allows (x : Setting) (a : Attempt) : Prompt → Prop
  | advance : Allows x a .advance
  | opened : Allows x a (.opened (.ok ()))
  | answered {session : Nat} {job : Job} {answer : Answer} : a.phase = .verifying session job →
      x.verifier.Gives job answer → Allows x a (.answered answer)

variable {x : Setting} {t : Target} {a a' : Attempt} {p p' : Pending} {slot : Nat} {s s' : Shared}
  {tray tray' : Tray} {q : Prompt}

/-- What there is to report depends on nothing but the time taken. -/
theorem Comes.agree (h : x.Comes t p) (h' : x.Comes t p') :
    p.preface = p'.preface ∧ p.result.untimed = p'.result.untimed := by
  cases h with
  | served hfound =>
    cases h' with
    | served hfound' =>
      cases hfound.symm.trans hfound'
      exact ⟨rfl, rfl⟩
    | found _ hnone => cases hfound.symm.trans hnone
    | faulted hnone => cases hfound.symm.trans hnone
  | found _ hnone hok =>
    cases h' with
    | served hfound' => cases hnone.symm.trans hfound'
    | found _ _ hok' =>
      cases hok.symm.trans hok'
      exact ⟨rfl, rfl⟩
    | faulted _ herror => cases hok.symm.trans herror
  | faulted hnone herror hp =>
    cases h' with
    | served hfound' => cases hnone.symm.trans hfound'
    | found _ _ hok' => cases herror.symm.trans hok'
    | faulted _ herror' hp' =>
      cases herror.symm.trans herror'
      cases hp.symm.trans hp'
      exact ⟨rfl, rfl⟩

theorem Comes.of_fault {f : Fault} (lasting : x.verifier.Lasting) (hnone : x.found? t = none)
    (herror : x.verifier (x.job t) = .error f) :
    ∃ p, x.ticket.afterFault x.options (.scheduled t) f = .reporting p true ∧ x.Comes t p := by
  have hp : ∃ p, x.ticket.afterFault x.options (.scheduled t) f = .reporting p true := by
    cases f with
    | solverDied reason => exact absurd herror (lasting _ reason)
    | _ => exact ⟨_, rfl⟩
  obtain ⟨p, hp⟩ := hp
  exact ⟨p, hp, .faulted hnone herror hp⟩

/-- Once an attempt has come to its report it has a result. -/
theorem Expected.result (he : x.Expected a) (hp : a.phase.stepsLeft ≤ 6) :
    ∃ p, x.Comes a.target p ∧ a.phase.result? = some p.result := by
  unfold Expected at he
  cases hphase : a.phase with
  | reporting p permit =>
    rw [hphase] at he
    exact ⟨p, he, rfl⟩
  | settled _ _ | idle _ | retired _ | announced _ | delivered _ | ended _ =>
    rw [hphase] at he
    obtain ⟨p, hcomes, rfl⟩ := he
    exact ⟨p, hcomes, rfl⟩
  | crashed reason =>
    rw [hphase] at he
    exact he.elim
  | _ =>
    rw [hphase] at hp
    simp [Phase.stepsLeft] at hp

/-- **An undisturbed attempt stays on its way.** -/
theorem Expected.turn (h : Attempt.Turn x.ticket slot s tray a q s' tray' a')
    (he : x.Expected a) (lasting : x.verifier.Lasting) (allowed : x.Allows a q)
    (options : s.options = x.options) (live : x.ticket.isCancelled s a = false)
    (lookup : a.phase = .entered → s.usesCache = true →
      x.found? a.target = (s.cache.lookup (x.key a.target) s.options.cacheMode.serves).1) :
    x.Expected a' := by
  unfold Expected at he
  cases h with
  | enter hp => exact trivial
  | stopEarly _ hc | stopLate _ hc => cases live.symm.trans hc
  | @hit r u cache hp _ hu hl =>
    have hserved : x.found? a.target = some r := by
      rw [lookup hp hu]
      exact congrArg Prod.fst hl
    rw [options]
    exact .served hserved
  | @miss u cache hp _ hu hl =>
    show x.found? a.target = none
    rw [lookup hp hu]
    exact congrArg Prod.fst hl
  | pass hp _ hu =>
    show x.found? a.target = none
    have hmode : x.options.cacheMode = .off := by
      have := of_decide_eq_false hu
      rw [options] at this
      exact Decidable.not_not.mp this
    rw [found?, hmode]
    rfl
  | gain hp | reuse hp | want hp | settle hp | leave hp | announce hp | write hp | equip hp =>
    rw [hp] at he
    exact he
  | ask hp =>
    rw [hp] at he
    refine ⟨he, ?_⟩
    rw [options]
    rfl
  | keep hp =>
    rw [hp] at he
    obtain ⟨hnone, f, elapsed, hok, rfl⟩ := he
    exact .found elapsed hnone hok
  | @report p _ hp =>
    rw [hp] at he
    refine ⟨p, he, ?_⟩
    rw [options]
    rfl
  | deliver hp =>
    rw [hp] at he
    obtain ⟨p, hcomes, rfl⟩ := he
    exact ⟨p, hcomes, rfl⟩
  | refuse hp => cases allowed
  | @find session job f elapsed hp =>
    rw [hp] at he
    cases allowed with
    | answered hp' hgives =>
      cases hp.symm.trans hp'
      cases hgives with
      | findings _ hok =>
        obtain ⟨hnone, rfl⟩ := he
        rw [options]
        exact ⟨hnone, f, elapsed, hok, rfl⟩
  | @fault session job f hp =>
    rw [hp] at he
    cases allowed with
    | answered hp' hgives =>
      cases hp.symm.trans hp'
      cases hgives with
      | fault herror =>
        obtain ⟨hnone, rfl⟩ := he
        obtain ⟨p, hphase, hcomes⟩ := Comes.of_fault lasting hnone herror
        have hafter : x.ticket.afterFault s.options a f = .reporting p true := by
          rw [options]
          exact hphase
        rw [hafter]
        exact hcomes
  | crash hp =>
    cases allowed with
    | answered _ hgives => cases hgives

end Setting

end Verdict
