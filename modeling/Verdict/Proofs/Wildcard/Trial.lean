import Verdict.Wildcard.Expression

/-! A matcher that reads its pieces as documented.

It knows of nothing but pieces, and refuses an expression in which there is anything else. What the
pieces take it finds out by trying all ways to cut the text. -/
namespace Verdict.Wildcard

/-- All ways to cut a text in two. -/
def cuts : List Char → List (List Char × List Char)
  | [] => [([], [])]
  | c :: rest => ([], c :: rest) :: (cuts rest).map fun cut => (c :: cut.1, cut.2)

theorem mem_cuts_iff {text : List Char} {cut : List Char × List Char} :
    cut ∈ cuts text ↔ text = cut.1 ++ cut.2 := by
  obtain ⟨first, last⟩ := cut
  induction text generalizing first with
  | nil => simp [cuts, eq_comm]
  | cons c text ih =>
    rw [cuts, List.mem_cons, List.mem_map]
    cases first with
    | nil => simp [eq_comm]
    | cons d first => simpa [ih, eq_comm] using and_comm

namespace Piece

instance decidableTakes (before taken behind : List Char) :
    (p : Piece) → Decidable (p.Takes before taken behind)
  | literal _ => decidable_of_iff _ takes_literal_iff.symm
  | run => decidable_of_iff _ takes_run_iff.symm
  | start => decidable_of_iff _ takes_start_iff.symm
  | stop => decidable_of_iff _ takes_stop_iff.symm

theorem allTake_cons_iff_cuts {p : Piece} {ps : List Piece} {before taken behind : List Char} :
    AllTake (p :: ps) before taken behind ↔ ∃ cut ∈ cuts taken,
      p.Takes before cut.1 (cut.2 ++ behind) ∧ AllTake ps (before ++ cut.1) cut.2 behind := by
  simp only [allTake_cons_iff, mem_cuts_iff, Prod.exists]

instance decidableAllTake : (ps : List Piece) → (before taken behind : List Char) →
    Decidable (AllTake ps before taken behind)
  | [], _, _, _ => decidable_of_iff _ allTake_nil_iff.symm
  | _ :: ps, _, _, _ =>
    have := decidableAllTake ps
    decidable_of_iff _ allTake_cons_iff_cuts.symm

/-- The pieces for the characters of a text. -/
def letters (text : List Char) : List Piece := text.map fun c => literal (String.singleton c)

/-- What is read where a piece has been written. -/
def spelled : Piece → List Piece
  | literal s => letters s.toList
  | p => [p]

theorem allTake_letters_iff {text before taken behind : List Char} :
    AllTake (letters text) before taken behind ↔ taken = text := by
  induction text generalizing before taken with
  | nil => simp [letters]
  | cons c text ih =>
    rw [letters, List.map_cons, ← letters, allTake_cons_iff]
    simp only [takes_literal_iff, ih]
    simp

theorem allTake_spelled_iff {p : Piece} {before taken behind : List Char} :
    AllTake p.spelled before taken behind ↔ p.Takes before taken behind := by
  cases p with
  | literal s => rw [spelled, allTake_letters_iff, takes_literal_iff]
  | run | start | stop => exact allTake_singleton_iff

/-- To write pieces and to read them does not change what they take. -/
theorem allTake_flatMap_spelled_iff {ps : List Piece} {before taken behind : List Char} :
    AllTake (ps.flatMap spelled) before taken behind ↔ AllTake ps before taken behind := by
  induction ps generalizing before taken with
  | nil => rfl
  | cons p ps ih =>
    simp only [List.flatMap_cons, allTake_append_iff, allTake_spelled_iff, ih, allTake_cons_iff]

end Piece

namespace Trial
open Piece

/-- The characters that mean something in an expression. -/
def metacharacters : List Char := "\\.+*?()|[]\x7b\x7d^$#&-~".toList

def escape (text : List Char) : List Char :=
  text.flatMap fun c => if c ∈ metacharacters then ['\\', c] else [c]

def read : List Char → Except String (List Piece)
  | [] => .ok []
  | '.' :: '*' :: rest => (read rest).map (run :: ·)
  | '^' :: rest => (read rest).map (start :: ·)
  | '$' :: rest => (read rest).map (stop :: ·)
  | '\\' :: c :: rest =>
    if c ∈ metacharacters then (read rest).map (literal (String.singleton c) :: ·)
    else .error "unrecognized escape sequence"
  | c :: rest =>
    if c ∈ metacharacters then .error "unsupported syntax"
    else (read rest).map (literal (String.singleton c) :: ·)

/-- The matcher that tries everything. -/
def matcher : Matcher (List Piece) where
  escape s := String.ofList (escape s.toList)
  compile expression := read expression.toList
  isMatch ps text := decide (∃ outer ∈ cuts text.toList, ∃ cut ∈ cuts outer.2,
    AllTake ps outer.1 cut.1 cut.2)

theorem read_cons_of_notMem {c : Char} (hc : c ∉ metacharacters) (rest : List Char) :
    read (c :: rest) = (read rest).map (literal (String.singleton c) :: ·) := by
  rw [read, if_neg hc]
  -- The other branches are for metacharacters.
  all_goals
    intros
    subst_vars
    exact hc (by decide)

theorem read_escape_append (text rest : List Char) :
    read (escape text ++ rest) = (read rest).map (letters text ++ ·) := by
  induction text with
  | nil =>
    change read rest = _
    cases read rest <;> rfl
  | cons c text ih =>
    rw [escape, List.flatMap_cons, ← escape]
    split
    case isTrue hc =>
      change read ('\\' :: c :: (escape text ++ rest)) = _
      rw [read, if_pos hc, ih]
      cases read rest <;> rfl
    case isFalse hc =>
      change read (c :: (escape text ++ rest)) = _
      rw [read_cons_of_notMem hc, ih]
      cases read rest <;> rfl

theorem read_written_append (p : Piece) (rest : List Char) :
    read ((p.written matcher.escape).toList ++ rest) = (read rest).map (p.spelled ++ ·) := by
  cases p with
  | literal s =>
    rw [written, matcher, String.toList_ofList]
    exact read_escape_append s.toList rest
  | run | start | stop => simp [written, read, spelled]

theorem read_join_written (ps : List Piece) :
    read (String.join (ps.map (written matcher.escape))).toList = .ok (ps.flatMap spelled) := by
  induction ps with
  | nil => rfl
  | cons p ps ih =>
    rw [List.map_cons, String.join_cons, String.toList_append, read_written_append, ih]
    rfl

theorem documented : matcher.Documented := by
  intro ps x hx s
  obtain rfl := Except.ok.inj ((read_join_written ps).symm.trans hx)
  rw [matcher, decide_eq_true_iff]
  simp only [allTake_flatMap_spelled_iff, mem_cuts_iff, Prod.exists]
  constructor
  · rintro ⟨before, _, hs, taken, behind, rfl, h⟩
    exact ⟨before, taken, behind, hs.trans (List.append_assoc ..).symm, h⟩
  · rintro ⟨before, taken, behind, hs, h⟩
    exact ⟨before, _, hs.trans (List.append_assoc ..), taken, behind, rfl, h⟩

end Trial

end Verdict.Wildcard
