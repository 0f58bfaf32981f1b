/-! All that is reached from a list of seeds.

`reach` looks at what is pending in turn, the first come first, and sets what each new find
leads to behind it. Every find leaves the domain, so the search ends; what lies outside the
domain is not found and leads nowhere. -/
namespace Verdict.Closure
variable {α : Type} [DecidableEq α]

/-- What is reached from the pending, in the order of discovery; each once, where the domain
holds nothing twice. -/
def reach (next : α → List α) (domain pending : List α) : List α :=
  match pending with
  | [] => []
  | a :: rest =>
    if a ∈ domain then a :: reach next (domain.erase a) (rest ++ next a)
    else reach next domain rest
termination_by domain.length + (domain.flatMap next).length + pending.length
decreasing_by
  -- A find is taken from the domain with all that it will ever set behind the others.
  · rename_i found
    have herase := List.perm_cons_erase found
    have hlength := herase.length_eq
    have hnext := (herase.flatMap_right next).length_eq
    simp only [List.flatMap_cons, List.length_cons, List.length_append] at *
    omega
  · simp

/-- The least set that holds the seeds of the domain and, with every member, what of the
domain it leads to. -/
inductive Reached (next : α → List α) (domain seeds : List α) : α → Prop
  | seed {a : α} : a ∈ seeds → a ∈ domain → Reached next domain seeds a
  | step {a b : α} : Reached next domain seeds a → b ∈ next a → b ∈ domain →
      Reached next domain seeds b

end Verdict.Closure
