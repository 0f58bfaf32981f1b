import Verdict.Digest.Sha256

/-! Checksums of contents, and sums of checksums.

Checksums are compared for equality; a sum of several either heeds their order or does
not. The unordered sum adds the bytes at each place on their own, so it is commutative and
associative and every summand can be taken out again. -/
namespace Verdict

/-- A digest of 32 bytes. -/
structure Checksum where
  bytes : Vector UInt8 32
  deriving DecidableEq

namespace Checksum

/-- The checksum of some bytes. -/
def ofBytes (content : ByteArray) : Checksum := ⟨Sha256.digest content⟩

/-- The checksum of a text is that of its UTF-8 bytes. -/
def ofText (text : String) : Checksum := ofBytes text.toUTF8

/-- The checksum that consists of the given bytes, where they are 32. -/
def ofDigest? (bytes : Array UInt8) : Option Checksum :=
  if h : bytes.size = 32 then some ⟨⟨bytes, h⟩⟩ else none

def toBytes (c : Checksum) : ByteArray := ⟨c.bytes.toArray⟩

/-- Checksums are ordered byte by byte, the first that differs deciding. -/
instance : Ord Checksum := ⟨fun a b => compare a.bytes.toList b.bytes.toList⟩

/-- Two hexadecimal digits. -/
def hexByte (b : UInt8) : String :=
  let digit := fun n => (Nat.digitChar n).toString
  digit (b.toNat / 16) ++ digit (b.toNat % 16)

def hex (c : Checksum) : String := String.join (c.bytes.toList.map hexByte)

/-- A short form for diagnostics: the first six bytes. -/
def brief (c : Checksum) : String :=
  "Checksum(" ++ String.join ((c.bytes.toList.take 6).map hexByte) ++ ")"

instance : Repr Checksum := ⟨fun c _ => c.brief⟩

/-- The sum that does not heed the order: place by place, modulo 256. -/
def add (a b : Checksum) : Checksum := ⟨Vector.zipWith (· + ·) a.bytes b.bytes⟩

instance : Add Checksum := ⟨add⟩

/-- The sum that heeds the order: the checksum of the two written one after the other. -/
def join (a b : Checksum) : Checksum := ofBytes (a.toBytes ++ b.toBytes)

/-- Whether the order of the summands shows. -/
inductive Order
  | ordered
  | unordered
  deriving DecidableEq, Repr

def combine (order : Order) (a b : Checksum) : Checksum :=
  match order with
  | .ordered => a.join b
  | .unordered => a + b

/-- Adds the parts to the seed one after the other; the sum is undefined as soon as one of
them is. -/
def combineAll (order : Order) (seed : Option Checksum) (parts : List (Option Checksum)) :
    Option Checksum :=
  seed.bind fun s => parts.foldlM (fun sum part => part.map (combine order sum)) s

end Checksum

end Verdict
