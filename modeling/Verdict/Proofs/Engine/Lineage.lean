import Verdict.Proofs.Engine.Happening
import Verdict.Proofs.Engine.Rest

/-! Why a run is superseded.

Runs are numbered as they begin. The one that counts for a name has that name, and it only
loses its place to one that begins later under this name (`Lineage`). -/
namespace Verdict

namespace Engine
variable {e₀ e e' : Engine} {ms : List Move} {m : Move} {id : AttemptId} {k : Ticket}
  {a a' : Attempt} {requestId name : String} {token g : Nat}

/-- What becomes of the roster: nothing, a run leaves, or one begins. -/
theorem Transition.roster_cases (h : Transition e m e') :
    e'.shared.roster = e.shared.roster ∨
      (∃ name g, e'.shared.roster = e.shared.roster.leave name g) ∨
      ∃ id k a, m = .advance id ∧ e.assigned? id = some (k, a) ∧ a.phase = .scheduled ∧
        e'.shared.roster = (e.shared.roster.enter a.name).2 := by
  cases h with
  | submit | cancel | clearCache | breakSink => exact .inl rfl
  | batch _ _ hturn => exact .inl hturn.roster
  | @attempt m id q b a a' s' tray' hm hb ha hturn =>
    have hassigned := assigned?_eq_some_iff.mpr ⟨b, hb, rfl, ha⟩
    rcases hturn.roster with ⟨hp, -, hr⟩ | ⟨-, hr | ⟨g, hr⟩⟩
    · obtain rfl : q = .advance := by
        cases hturn with
        | enter => rfl
        | _ => simp_all
      obtain rfl : m = .advance id := by
        cases m <;> cases hm
        rfl
      exact .inr (.inr ⟨id, b.ticket, a, rfl, hassigned, hp, hr⟩)
    · exact .inl hr
    · exact .inr (.inl ⟨a.name, g, hr⟩)

/-- An attempt has the generation it had before, or has just begun its run. -/
theorem Transition.generation_cases (h : Transition e m e') (ha' : e'.assigned? id = some (k, a'))
    (hg : a'.generation = some g) :
    (∃ a, e.assigned? id = some (k, a) ∧ a.name = a'.name ∧ a.generation = some g) ∨
      g = e.shared.roster.generation + 1 ∧
        e'.shared.roster = (e.shared.roster.enter a'.name).2 := by
  rcases h.origin ha' with hsame | ⟨t, rfl⟩ | ⟨q, tray, tray', a, -, ha, hturn⟩
  · exact .inl ⟨a', hsame, rfl, hg⟩
  · cases hg
  · have hname : a'.name = a.name := congrArg (·.declaration.name) hturn.target
    rcases hturn.roster with ⟨-, hnew, hr⟩ | ⟨hold, -⟩
    · rw [hnew] at hg
      rw [hname]
      exact .inr ⟨(Option.some.inj hg).symm, hr⟩
    · exact .inl ⟨a, ha, hname.symm, hold.symm.trans hg⟩

/-- Generations belong to names, and one that is superseded was outrun under its name. -/
structure Lineage (e₀ : Engine) (ms : List Move) (e : Engine) : Prop where
  begun : ∀ id k a g, e.assigned? id = some (k, a) → a.generation = some g →
    g ≤ e.shared.roster.generation
  counts : ∀ id k a g name, e.assigned? id = some (k, a) → a.generation = some g →
    e.shared.roster.current? name = some g → a.name = name
  superseded : ∀ id k a g, e.assigned? id = some (k, a) → a.generation = some g →
    e.shared.roster.isSuperseded g = true → e₀.happens (outruns a.name g) ms = true

theorem outruns_advance {w : AttemptId} {kw : Ticket} {aw : Attempt}
    (hw : e.assigned? w = some (kw, aw)) (hp : aw.phase = .scheduled)
    (hg : g ≤ e.shared.roster.generation) : e.outruns aw.name g (.advance w) = true := by
  simp [outruns, newcomer?, hw, hp, hg, Phase.isScheduled]

theorem Lineage.step (h : Lineage e₀ ms e) (ran : e₀.run ms = some e)
    (bounded : e.shared.roster.Bounded) (htransition : Transition e m e') :
    Lineage e₀ (ms ++ [m]) e' := by
  have hgrows : e.shared.roster.generation ≤ e'.shared.roster.generation := by
    rcases htransition.roster_cases with hr | ⟨name, g, hr⟩ | ⟨_, _, _, -, -, -, hr⟩
    · exact Nat.le_of_eq (congrArg Roster.generation hr.symm)
    · have heq : e.shared.roster.generation = e'.shared.roster.generation := by
        rw [hr, Roster.generation_leave]
      exact Nat.le_of_eq heq
    · rw [hr]
      exact Nat.le_succ _
  constructor
  case begun =>
    intro id k a' g ha' hg
    rcases htransition.generation_cases ha' hg with ⟨a, ha, -, hold⟩ | ⟨rfl, hr⟩
    · exact Nat.le_trans (h.begun id k a g ha hold) hgrows
    · rw [hr]
      exact Nat.le_refl _
  case counts =>
    intro id k a' g name ha' hg hcurrent
    rcases htransition.generation_cases ha' hg with ⟨a, ha, hname, hold⟩ | ⟨rfl, hr⟩
    · rw [← hname]
      rcases htransition.roster_cases with hr | ⟨n, g', hr⟩ | ⟨w, kw, aw, -, -, -, hr⟩ <;>
        rw [hr] at hcurrent
      · exact h.counts id k a g name ha hold hcurrent
      · exact h.counts id k a g name ha hold (Roster.current?_of_leave hcurrent)
      · rw [Roster.current?_enter] at hcurrent
        split at hcurrent
        -- What has just begun is newer than anything there was.
        · have := h.begun id k a g ha hold
          cases hcurrent
          omega
        · exact h.counts id k a g name ha hold hcurrent
    · rw [hr, Roster.current?_enter] at hcurrent
      split at hcurrent
      · rename_i hname
        exact hname.symm
      · have := bounded.current name _ hcurrent
        omega
  case superseded =>
    intro id k a' g ha' hg hsuperseded
    rw [happens_concat ran, Bool.or_eq_true]
    rcases htransition.generation_cases ha' hg with ⟨a, ha, hname, hold⟩ | ⟨rfl, hr⟩
    · rw [← hname]
      have earlier := h.superseded id k a g ha hold
      rcases htransition.roster_cases with hr | ⟨n, g', hr⟩ | ⟨w, kw, aw, rfl, hw, hp, hr⟩ <;>
        rw [hr, Roster.isSuperseded] at hsuperseded
      · exact .inl (earlier hsuperseded)
      · rw [Roster.superseded_leave] at hsuperseded
        exact .inl (earlier hsuperseded)
      · rcases List.mem_append.mp (List.contains_iff_mem.mp hsuperseded) with hnow | hbefore
        · right
          rw [h.counts id k a g aw.name ha hold (Option.mem_toList.mp hnow)]
          exact outruns_advance hw hp (h.begun id k a g ha hold)
        · exact .inl (earlier (List.contains_iff_mem.mpr hbefore))
    · exfalso
      rw [hr] at hsuperseded
      rcases List.mem_append.mp (List.contains_iff_mem.mp hsuperseded) with hnow | hbefore
      · have := bounded.current _ _ (Option.mem_toList.mp hnow)
        omega
      · have := bounded.superseded _ hbefore
        omega

end Engine

end Verdict
