import Verdict.Proofs.Engine.Course
import Verdict.Proofs.Engine.Stopping

/-! Which runs stand, and which one counts.

A run stands from when it begins until it leaves the roster. `Roster.Lists` says what a roster
knows of the runs that stand: no two share a generation, and the one that counts for a name is
the one of this name that no other has superseded. It is kept when a run begins and when one
leaves, and nothing else touches either (`Transition.standing_cases`). -/
namespace Verdict

namespace Roster
variable {r : Roster} {name other : String} {g g' : Nat}

/-- A run that leaves gives up its place, if it has one, and nobody else's. -/
theorem current?_leave : (r.leave name g).current? other =
    if other = name ∧ r.current? name = some g then none else r.current? other := by
  unfold leave
  by_cases hplace : r.current? name = some g
  · rw [if_pos hplace]
    show (r.current.filter (·.1 ≠ name)).lookup other = _
    rw [lookup_filter_ne]
    simp only [hplace, and_true]
    rfl
  · rw [if_neg hplace, if_neg fun h => hplace h.2]

theorem leave_of_ne (h : r.current? name ≠ some g) : r.leave name g = r := if_neg h

theorem isSuperseded_enter : (r.enter name).2.isSuperseded g = true ↔
    r.current? name = some g ∨ r.isSuperseded g = true := by
  simp only [isSuperseded, enter, List.contains_iff_mem, List.mem_append, Option.mem_toList]

theorem isSuperseded_leave : (r.leave name g).isSuperseded g' = r.isSuperseded g' := by
  rw [isSuperseded, isSuperseded, superseded_leave]

/-- What a roster knows of the runs that stand, each with its name and generation. -/
structure Lists {ι : Type} (r : Roster) (runs : ι → Option (String × Nat)) : Prop where
  begun : ∀ i name g, runs i = some (name, g) → g ≤ r.generation
  apart : ∀ i j name other g, runs i = some (name, g) → runs j = some (other, g) → i = j
  current : ∀ name g, r.current? name = some g ↔
    (∃ i, runs i = some (name, g)) ∧ ¬r.isSuperseded g = true

namespace Lists
variable {ι : Type} {runs : ι → Option (String × Nat)} {i : ι}

theorem same_name (h : r.Lists runs) (hg : r.current? name = some g)
    (hi : runs i = some (other, g)) : other = name := by
  obtain ⟨⟨j, hj⟩, -⟩ := (h.current name g).mp hg
  obtain rfl := h.apart i j other name g hi hj
  cases hi.symm.trans hj
  rfl

/-- Whoever leaves takes its own generation out of the roster, and no other. -/
theorem current?_leave (h : r.Lists runs) (hi : runs i = some (name, g)) :
    (r.leave name g).current? other = (r.current? other).filter (· ≠ g) := by
  rw [Roster.current?_leave]
  split
  · rename_i hplace
    rw [hplace.1, hplace.2, Option.filter_some, if_neg (by simp)]
  · rename_i hplace
    cases hother : r.current? other with
    | none => rfl
    | some g' =>
      have hne : g' ≠ g := by
        rintro rfl
        obtain rfl := h.same_name hother hi
        exact hplace ⟨rfl, hother⟩
      rw [Option.filter_some, if_pos (decide_eq_true hne)]

variable [DecidableEq ι]

theorem enter (h : r.Lists runs) (bounded : r.Bounded) (hi : runs i = none) :
    (r.enter name).2.Lists (Function.update runs i (some (name, r.generation + 1))) := by
  have hnew : ∀ j other, runs j ≠ some (other, r.generation + 1) := fun j other hj =>
    Nat.not_succ_le_self _ (h.begun j other _ hj)
  have hfresh : ¬(r.enter name).2.isSuperseded (r.generation + 1) = true := by
    intro hsuperseded
    rcases isSuperseded_enter.mp hsuperseded with hcurrent | hbefore
    · exact Nat.not_succ_le_self _ (bounded.current name _ hcurrent)
    · exact Nat.not_succ_le_self _ (bounded.superseded _ (List.contains_iff_mem.mp hbefore))
  have hruns : ∀ other g, (∃ j, Function.update runs i (some (name, r.generation + 1)) j =
      some (other, g)) ↔ (other = name ∧ g = r.generation + 1) ∨ ∃ j, runs j = some (other, g) := by
    intro other g
    constructor
    · intro ⟨j, hj⟩
      rw [Function.update_apply] at hj
      split at hj
      · cases hj
        exact .inl ⟨rfl, rfl⟩
      · exact .inr ⟨j, hj⟩
    · rintro (⟨rfl, rfl⟩ | ⟨j, hj⟩)
      · exact ⟨i, Function.update_self ..⟩
      · refine ⟨j, (Function.update_of_ne ?_ ..).trans hj⟩
        rintro rfl
        cases hi.symm.trans hj
  refine ⟨fun j other g hj => ?_, fun j j' other other' g hj hj' => ?_, fun other g => ?_⟩
  · rcases (hruns other g).mp ⟨j, hj⟩ with ⟨-, rfl⟩ | ⟨j', hold⟩
    · exact Nat.le_refl _
    · exact Nat.le_succ_of_le (h.begun j' other g hold)
  · rw [Function.update_apply] at hj hj'
    split at hj <;> split at hj'
    · rename_i hij hij'
      exact hij.trans hij'.symm
    · cases hj
      exact absurd hj' (hnew j' other')
    · cases hj'
      exact absurd hj (hnew j other)
    · exact h.apart j j' other other' g hj hj'
  · rw [hruns, current?_enter, isSuperseded_enter]
    by_cases hname : other = name
    · subst hname
      rw [if_pos rfl]
      constructor
      · rintro ⟨⟩
        exact ⟨.inl ⟨rfl, rfl⟩, fun hor => hfresh (isSuperseded_enter.mpr hor)⟩
      · rintro ⟨⟨-, rfl⟩ | hold, hnot⟩
        · rfl
        -- Whoever counted so far is superseded by the run that begins.
        · exact absurd (.inl ((h.current other g).mpr ⟨hold, fun hs => hnot (.inr hs)⟩)) hnot
    · rw [if_neg hname, h.current other g]
      constructor
      · rintro ⟨⟨j, hj⟩, hnot⟩
        refine ⟨.inr ⟨j, hj⟩, ?_⟩
        rintro (hcurrent | hs)
        · exact hname (h.same_name hcurrent hj)
        · exact hnot hs
      · rintro ⟨⟨hother, -⟩ | hold, hnot⟩
        · exact absurd hother hname
        · exact ⟨hold, fun hs => hnot (.inr hs)⟩

theorem leave (h : r.Lists runs) (hi : runs i = some (name, g)) :
    (r.leave name g).Lists (Function.update runs i none) := by
  have hold : ∀ j other g', Function.update runs i none j = some (other, g') →
      runs j = some (other, g') ∧ g' ≠ g := by
    intro j other g' hj
    rw [Function.update_apply] at hj
    split at hj
    · cases hj
    · rename_i hne
      refine ⟨hj, ?_⟩
      rintro rfl
      exact hne (h.apart j i other name g' hj hi)
  refine ⟨fun j other g' hj => ?_, fun j j' other other' g' hj hj' => ?_, fun other g' => ?_⟩
  · rw [generation_leave]
    exact h.begun j other g' (hold j other g' hj).1
  · exact h.apart j j' other other' g' (hold j other g' hj).1 (hold j' other' g' hj').1
  · rw [h.current?_leave hi, Option.filter_eq_some_iff, h.current, isSuperseded_leave,
      decide_eq_true_iff]
    constructor
    · rintro ⟨⟨⟨j, hj⟩, hnot⟩, hne⟩
      refine ⟨⟨j, (Function.update_of_ne ?_ ..).trans hj⟩, hnot⟩
      rintro rfl
      cases hi.symm.trans hj
      exact hne rfl
    · rintro ⟨⟨j, hj⟩, hnot⟩
      obtain ⟨hj, hne⟩ := hold j other g' hj
      exact ⟨⟨⟨j, hj⟩, hnot⟩, hne⟩

end Lists

end Roster

/-- Whether an attempt in this phase has begun its run and not left the roster. Whoever broke
down never leaves it. -/
def Phase.stands : Phase → Bool
  | scheduled | retired _ | announced _ | delivered _ | ended _ => false
  | _ => true

theorem Ticket.stands_afterFault (k : Ticket) (o : Options) (a : Attempt) (f : Fault) :
    (k.afterFault o a f).stands = true := by
  cases f <;> rfl

namespace Attempt

/-- The name and the generation of the run of an attempt, as long as it stands. -/
def standing? (a : Attempt) : Option (String × Nat) :=
  if a.phase.stands then a.generation.map (a.name, ·) else none

theorem standing?_moved {a : Attempt} {p : Phase} (h : p.stands = a.phase.stands) :
    (a.moved p).standing? = a.standing? := by
  unfold standing? moved
  simp only [h]
  rfl

variable {k : Ticket} {slot : Nat} {s s' : Shared} {tray tray' : Tray} {a a' : Attempt} {q : Prompt}

/-- A run begins, or one that stands leaves, or the roster stays as it is. -/
theorem Turn.standing (h : Turn k slot s tray a q s' tray' a') :
    (s'.roster = s.roster ∧ a'.standing? = a.standing?) ∨
      (a.standing? = none ∧ s'.roster = (s.roster.enter a.name).2 ∧
        a'.standing? = some (a.name, s.roster.generation + 1)) ∨
      ∃ g, a.standing? = some (a.name, g) ∧ s'.roster = s.roster.leave a.name g ∧
        a'.standing? = none := by
  cases h with
  | enter hp => exact .inr (.inl ⟨by rw [standing?, hp]; rfl, rfl, rfl⟩)
  | @leave c hp =>
    cases hg : a.generation with
    | none => exact .inl ⟨rfl, by rw [standing?, standing?, hp, hg]; rfl⟩
    | some g => exact .inr (.inr ⟨g, by rw [standing?, hp, hg]; rfl, rfl, rfl⟩)
  | hit hp | miss hp | pass hp | gain hp | reuse hp | want hp | ask hp | keep hp | report hp
  | settle hp | announce hp | deliver hp | write hp | equip hp | find hp | crash hp =>
    exact .inl ⟨rfl, standing?_moved (by rw [hp]; rfl)⟩
  | stopEarly hp =>
    exact .inl ⟨rfl, standing?_moved (by rcases hp with hp | hp <;> rw [hp] <;> rfl)⟩
  | stopLate hp =>
    refine .inl ⟨rfl, standing?_moved ?_⟩
    cases hphase : a.phase with
    | equipped | verifying => rfl
    | _ =>
      rw [hphase] at hp
      cases hp
  | refuse hp | fault hp =>
    exact .inl ⟨rfl, standing?_moved (by rw [hp]; exact k.stands_afterFault ..)⟩

/-- An attempt has a generation from its first turn on. -/
theorem Turn.numbered (h : Turn k slot s tray a q s' tray' a')
    (ha : a.phase = .scheduled ∨ a.generation.isSome = true) : a'.generation.isSome = true := by
  by_cases hp : a.phase = .scheduled
  · cases h with
    | enter => rfl
    | _ => simp_all [Phase.session?]
  · rcases h.roster with ⟨hscheduled, -⟩ | ⟨hold, -⟩
    · exact absurd hscheduled hp
    · rw [hold]
      exact ha.resolve_left hp

end Attempt

namespace Engine
variable {e₀ e e' : Engine} {ms : List Move} {m : Move} {id : AttemptId} {k : Ticket}
  {a : Attempt} {name : String} {g : Nat}

/-- The name and the generation of the run of an attempt, as long as it stands. -/
def standing? (e : Engine) : AttemptId → Option (String × Nat) := e.view Attempt.standing? none

theorem Transition.roster_eq (h : Transition e m e') (hm : m.prompt? = none) :
    e'.shared.roster = e.shared.roster := by
  cases h with
  | submit | cancel | clearCache | breakSink => rfl
  | batch _ _ hturn => exact hturn.roster
  | attempt hm' =>
    rw [hm] at hm'
    cases hm'

theorem Transition.lists (h : Transition e m e') (bounded : e.shared.roster.Bounded)
    (lists : e.shared.roster.Lists e.standing?) : e'.shared.roster.Lists e'.standing? := by
  unfold standing? at lists ⊢
  rcases h.view_cases Attempt.standing? none fun _ => rfl with ⟨hm, hview⟩ |
    ⟨id, q, k, a, a', tray, tray', -, ha, hturn, hview⟩
  · rw [hview, h.roster_eq hm]
    exact lists
  · have hid : e.view Attempt.standing? none id = a.standing? := view_of_assigned? ha
    rw [hview]
    rcases hturn.standing with ⟨hroster, hsame⟩ | ⟨hnone, hroster, hnew⟩ | ⟨g, hold, hroster, hnone⟩
    · rw [hroster, hsame, ← hid, Function.update_eq_self]
      exact lists
    · rw [hroster, hnew]
      exact lists.enter bounded (hid.trans hnone)
    · rw [hroster, hnone]
      exact lists.leave (hid.trans hold)

theorem lists_of_run (new : e₀.batches = []) (horderly : e₀.Orderly)
    (hroster : e₀.shared.roster = .empty) (ran : e₀.run ms = some e) :
    e.shared.roster.Lists e.standing? := by
  refine run_induction (P := fun _ e => e.shared.roster.Lists e.standing?) ?_ ?_ ran
  · have hnone : ∀ id, e₀.standing? id = none := by
      intro id
      rw [standing?, view, attempt?, new]
      rfl
    rw [hroster]
    refine ⟨fun id name g hid => ?_, fun id _ name _ g hid _ => ?_, fun name g => ?_⟩
    · cases (hnone id).symm.trans hid
    · cases (hnone id).symm.trans hid
    · constructor
      · intro hplace
        cases hplace
      · rintro ⟨⟨id, hid⟩, -⟩
        cases (hnone id).symm.trans hid
  · intro _ _ e _ hrun lists _ htransition
    exact htransition.lists (orderly_of_run horderly hrun).roster lists

theorem numbered_of_run (new : e₀.batches = []) (ran : e₀.run ms = some e)
    (ha : e.assigned? id = some (k, a)) : a.phase = .scheduled ∨ a.generation.isSome = true := by
  refine run_induction (P := fun _ e => ∀ a, e.assigned? id = some (k, a) →
    a.phase = .scheduled ∨ a.generation.isSome = true) ?_ ?_ ran a ha
  · intro a ha
    obtain ⟨b, hb, -, -⟩ := assigned?_eq_some_iff.mp ha
    rw [new] at hb
    cases hb
  · intro _ _ _ _ _ ih _ htransition a' ha'
    rcases htransition.origin ha' with ha | ⟨t, rfl⟩ | ⟨q, tray, tray', a, -, ha, hturn⟩
    · exact ih a' ha
    · exact .inl rfl
    · exact .inr (hturn.numbered (ih a ha))

/-- Whoever is idle leaves the roster with its next step. -/
theorem step_of_idle {c : Closing} (ha : e.assigned? id = some (k, a)) (hp : a.phase = .idle c)
    (hg : a.generation = some g) : ∃ e', e.step (.advance id) = some e' ∧
      e'.shared.roster = e.shared.roster.leave a.name g := by
  obtain ⟨b, hb, rfl, hslot⟩ := assigned?_eq_some_iff.mp ha
  have hstep : Attempt.advance b.ticket id.slot e.shared b.tray a =
      some (Attempt.leave e.shared a, b.tray, a.moved (.retired c)) := by
    rw [Attempt.advance, hp]
  refine ⟨e.withBatch id.batch (Attempt.leave e.shared a)
    (b.withAttempt id.slot b.tray (a.moved (.retired c))), ?_, ?_⟩
  · rw [step]
    exact onAttempt_eq_some_iff.mpr ⟨b, a, _, _, _, hb, hslot, hstep, rfl⟩
  · show (Attempt.leave e.shared a).roster = _
    rw [Attempt.leave, hg]

/-- **One run of a name counts.** After any run of any engine, an attempt that has begun and not
left the roster stands with a generation. Of those that stand with one name, one at most is not
superseded, and the roster has its generation, and no other, for this name. Whoever leaves takes
its own generation out of the roster and none of a newer run, and leaves the roster as it is if it
was superseded. A name under which nobody stands has no place in the roster. -/
theorem one_run_counts {o : Options} {c : Cache} (created : create o = .ok e₀)
    (ran : (e₀.withCache c).run ms = some e) :
    (∀ id k a, e.assigned? id = some (k, a) → a.phase.stands = true →
      ∃ g, e.standing? id = some (a.name, g)) ∧
    (∀ id other name g g', e.standing? id = some (name, g) → e.standing? other = some (name, g') →
      e.shared.roster.isSuperseded g = false → e.shared.roster.isSuperseded g' = false →
      id = other) ∧
    (∀ name g, e.shared.roster.current? name = some g ↔
      (∃ id, e.standing? id = some (name, g)) ∧ e.shared.roster.isSuperseded g = false) ∧
    (∀ id k a closing, e.assigned? id = some (k, a) → a.phase = .idle closing →
      ∃ g e', e.standing? id = some (a.name, g) ∧ e.step (.advance id) = some e' ∧
        (∀ name, e'.shared.roster.current? name =
          (e.shared.roster.current? name).filter (· ≠ g)) ∧
        (e.shared.roster.isSuperseded g = true → e'.shared.roster = e.shared.roster)) ∧
    ∀ name, (∀ id g, e.standing? id ≠ some (name, g)) → e.shared.roster.current? name = none := by
  obtain ⟨new, hroster⟩ : (e₀.withCache c).batches = [] ∧
      (e₀.withCache c).shared.roster = .empty := by
    rw [eq_of_create created]
    exact ⟨rfl, rfl⟩
  have lists := lists_of_run new (orderly_of_create created c) hroster ran
  have hcurrent : ∀ name g, e.shared.roster.current? name = some g ↔
      (∃ id, e.standing? id = some (name, g)) ∧ e.shared.roster.isSuperseded g = false := by
    intro name g
    rw [lists.current, Bool.not_eq_true]
  have hstands : ∀ id k a, e.assigned? id = some (k, a) → a.phase.stands = true →
      ∃ g, a.generation = some g ∧ e.standing? id = some (a.name, g) := by
    intro id k a ha hstands
    rcases numbered_of_run new ran ha with hp | hg
    · rw [hp] at hstands
      cases hstands
    · obtain ⟨g, hg⟩ := Option.isSome_iff_exists.mp hg
      refine ⟨g, hg, ?_⟩
      rw [standing?, view_of_assigned? ha, Attempt.standing?, if_pos hstands, hg]
      rfl
  refine ⟨fun id k a ha hs => ?_, fun id other name g g' hid hother hg hg' => ?_, hcurrent,
    fun id k a closing ha hp => ?_, fun name hnone => ?_⟩
  · obtain ⟨g, -, hstanding⟩ := hstands id k a ha hs
    exact ⟨g, hstanding⟩
  · have hplace := (hcurrent name g).mpr ⟨⟨id, hid⟩, hg⟩
    cases hplace.symm.trans ((hcurrent name g').mpr ⟨⟨other, hother⟩, hg'⟩)
    exact lists.apart id other name name g hid hother
  · obtain ⟨g, hg, hstanding⟩ := hstands id k a ha (by rw [hp]; rfl)
    obtain ⟨e', hstep, hleave⟩ := step_of_idle ha hp hg
    refine ⟨g, e', hstanding, hstep, fun name => ?_, fun hsuperseded => ?_⟩
    · rw [hleave]
      exact lists.current?_leave hstanding
    · rw [hleave]
      refine Roster.leave_of_ne fun hplace => ?_
      rw [((hcurrent _ _).mp hplace).2] at hsuperseded
      cases hsuperseded
  · cases hplace : e.shared.roster.current? name with
    | none => rfl
    | some g =>
      obtain ⟨⟨id, hid⟩, -⟩ := (hcurrent name g).mp hplace
      exact absurd hid (hnone id g)

end Engine

/-- The older run of `Main` leaves while the newer one counts. -/
theorem lateNewcomer_keeps_its_place : ∃ e₀ e e', Engine.create plainOptions = .ok e₀ ∧
    (e₀.withCache .fresh).run (lateNewcomer ++ [.advance ⟨0, 0⟩]) = some e ∧
    e.standing? ⟨0, 0⟩ = some ("Main", 1) ∧ e.shared.roster.current? "Main" = some 3 ∧
    e.step (.advance ⟨0, 0⟩) = some e' ∧ e'.shared.roster = e.shared.roster := by
  have created : Engine.create plainOptions = .ok ⟨.fresh plainOptions, [], 0⟩ := rfl
  obtain ⟨e, ran, k, a, c, assigned, idle, standing, current, superseded⟩ : ∃ e,
      ((⟨.fresh plainOptions, [], 0⟩ : Engine).withCache .fresh).run
        (lateNewcomer ++ [.advance ⟨0, 0⟩]) = some e ∧
      ∃ k a c, e.assigned? ⟨0, 0⟩ = some (k, a) ∧ a.phase = .idle c ∧
        e.standing? ⟨0, 0⟩ = some ("Main", 1) ∧ e.shared.roster.current? "Main" = some 3 ∧
        e.shared.roster.isSuperseded 1 = true :=
    ⟨_, rfl, _, _, _, rfl, rfl, rfl, rfl, rfl⟩
  obtain ⟨-, -, -, hleave, -⟩ := Engine.one_run_counts created ran
  obtain ⟨g, e', hstanding, hstep, -, hsame⟩ := hleave _ k a c assigned idle
  obtain rfl : 1 = g := congrArg Prod.snd (Option.some.inj (standing.symm.trans hstanding))
  exact ⟨_, e, e', created, ran, standing, current, hstep, hsame superseded⟩

end Verdict
