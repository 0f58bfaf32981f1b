import Mathlib.Algebra.BigOperators.Group.List.Basic
import Verdict.Checksum

/-! The unordered sum makes checksums a commutative group.

Every place adds up on its own, modulo 256. So the summands may come in any order and any
grouping, and two sums that share a summand are equal just if the rests are. -/
namespace Verdict.Checksum

/-- The checksum that changes no sum. -/
instance : Zero Checksum := ⟨⟨Vector.replicate 32 0⟩⟩

/-- The checksum that takes another out of a sum. -/
instance : Neg Checksum := ⟨fun c => ⟨c.bytes.map (- ·)⟩⟩

theorem ext_bytes {a b : Checksum} (h : ∀ i (hi : i < 32), a.bytes[i] = b.bytes[i]) : a = b := by
  obtain ⟨a⟩ := a
  obtain ⟨b⟩ := b
  exact congrArg mk (Vector.ext h)

@[simp] theorem getElem_add (a b : Checksum) {i : Nat} (hi : i < 32) :
    (a + b).bytes[i] = a.bytes[i] + b.bytes[i] := by
  show (Vector.zipWith (· + ·) a.bytes b.bytes)[i] = _
  rw [Vector.getElem_zipWith]

@[simp] theorem getElem_zero {i : Nat} (hi : i < 32) : (0 : Checksum).bytes[i] = 0 := by
  show (Vector.replicate 32 (0 : UInt8))[i] = 0
  rw [Vector.getElem_replicate]

@[simp] theorem getElem_neg (a : Checksum) {i : Nat} (hi : i < 32) :
    (-a).bytes[i] = -a.bytes[i] := by
  show (a.bytes.map (- ·))[i] = _
  rw [Vector.getElem_map]

instance : AddCommGroup Checksum where
  add_assoc a b c := ext_bytes fun i hi => by simp only [getElem_add, UInt8.add_assoc]
  zero_add a := ext_bytes fun i hi => by simp only [getElem_add, getElem_zero, UInt8.zero_add]
  add_zero a := ext_bytes fun i hi => by simp only [getElem_add, getElem_zero, UInt8.add_zero]
  neg_add_cancel a := ext_bytes fun i hi => by
    simp only [getElem_add, getElem_neg, getElem_zero, UInt8.add_left_neg]
  add_comm a b := ext_bytes fun i hi => by simp only [getElem_add, UInt8.add_comm]
  nsmul := nsmulRec
  zsmul := zsmulRec

end Verdict.Checksum
