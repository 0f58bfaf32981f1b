import Verdict.Wildcard

/-! Patterns as regular expressions.

A pattern may as well be handed to a matcher of regular expressions: what stands between its asterisks
is escaped, for every asterisk there is a `.*`, and the expression is anchored at both ends. The
matcher may refuse an expression, as one that is too large. Of what it does not refuse it is only
asked to read the pieces as they are documented. -/
namespace Verdict.Wildcard

/-- What stands between the asterisks of a pattern, and before the first and behind the last. -/
def segments (pattern : String) : List (List Char) := pattern.toList.splitOn '*'

/-- A matcher of regular expressions, which compiles them first. -/
structure Matcher (ρ : Type) where
  /-- An expression that matches just this text. -/
  escape : String → String
  compile : String → Except String ρ
  /-- Whether the expression matches somewhere in the text. -/
  isMatch : ρ → String → Bool

/-! ### The filter -/

namespace Matcher
variable {ρ : Type}

/-- The expression for a pattern. -/
def expression (m : Matcher ρ) (pattern : String) : String :=
  "^" ++ ".*".intercalate ((segments pattern).map fun s => m.escape (String.ofList s)) ++ "$"

/-- Compiles the expressions for all patterns, or tells which is the first to be refused. -/
def filter (m : Matcher ρ) (patterns : List String) : Except String (List ρ) :=
  patterns.mapM fun p =>
    (m.compile (m.expression p)).mapError fun e => "Invalid routine pattern '" ++ p ++ "': " ++ e

/-- Whether one of the expressions matches; no expression at all accepts every name. -/
def accepts (m : Matcher ρ) (filter : List ρ) (name : String) : Bool :=
  filter.isEmpty || filter.any fun x => m.isMatch x name

end Matcher

/-! ### What expressions mean -/

/-- A piece of a regular expression, as far as there is need of them. -/
inductive Piece
  | /-- This text, escaped. -/ literal (s : String)
  | /-- Any characters but line feeds. -/ run
  | /-- The beginning of the text. -/ start
  | /-- Its end. -/ stop
  deriving DecidableEq, Repr

namespace Piece

def written (escape : String → String) : Piece → String
  | literal s => escape s
  | run => ".*"
  | start => "^"
  | stop => "$"

/-- What a piece takes out of a text, by what is before that and behind. -/
inductive Takes : Piece → List Char → List Char → List Char → Prop
  | literal (s : String) (before behind : List Char) : Takes (literal s) before s.toList behind
  | run {taken : List Char} (before behind : List Char) : '\n' ∉ taken →
      Takes run before taken behind
  | start (behind : List Char) : Takes start [] [] behind
  | stop (before : List Char) : Takes stop before [] []

/-- What pieces in a row take out of a text. -/
inductive AllTake : List Piece → List Char → List Char → List Char → Prop
  | nil (before behind : List Char) : AllTake [] before [] behind
  | cons {p : Piece} {ps : List Piece} {before first rest behind : List Char} :
      p.Takes before first (rest ++ behind) → AllTake ps (before ++ first) rest behind →
      AllTake (p :: ps) before (first ++ rest) behind

section Inversion
variable {p : Piece} {ps : List Piece} {before taken behind : List Char} {s : String}

@[simp] theorem takes_literal_iff : Takes (literal s) before taken behind ↔ taken = s.toList :=
  ⟨fun | .literal _ _ _ => rfl, fun h => h ▸ .literal s before behind⟩

@[simp] theorem takes_run_iff : Takes run before taken behind ↔ '\n' ∉ taken :=
  ⟨fun | .run _ _ h => h, .run before behind⟩

@[simp] theorem takes_start_iff : Takes start before taken behind ↔ before = [] ∧ taken = [] :=
  ⟨fun | .start _ => ⟨rfl, rfl⟩, fun ⟨hb, ht⟩ => hb ▸ ht ▸ .start behind⟩

@[simp] theorem takes_stop_iff : Takes stop before taken behind ↔ taken = [] ∧ behind = [] :=
  ⟨fun | .stop _ => ⟨rfl, rfl⟩, fun ⟨ht, hb⟩ => ht ▸ hb ▸ .stop before⟩

@[simp] theorem allTake_nil_iff : AllTake [] before taken behind ↔ taken = [] :=
  ⟨fun | .nil _ _ => rfl, fun h => h ▸ .nil before behind⟩

theorem allTake_cons_iff : AllTake (p :: ps) before taken behind ↔ ∃ first rest,
    taken = first ++ rest ∧ p.Takes before first (rest ++ behind) ∧
      AllTake ps (before ++ first) rest behind :=
  ⟨fun | .cons hp hps => ⟨_, _, rfl, hp, hps⟩, fun ⟨_, _, ht, hp, hps⟩ => ht ▸ .cons hp hps⟩

theorem allTake_singleton_iff : AllTake [p] before taken behind ↔ p.Takes before taken behind := by
  simp [allTake_cons_iff]

/-- The pieces of two rows take what one row does and after it the other. -/
theorem allTake_append_iff {qs : List Piece} : AllTake (ps ++ qs) before taken behind ↔
    ∃ first rest, taken = first ++ rest ∧ AllTake ps before first (rest ++ behind) ∧
      AllTake qs (before ++ first) rest behind := by
  induction ps generalizing before taken with
  | nil =>
    simp only [List.nil_append, allTake_nil_iff]
    constructor
    · exact fun hqs => ⟨[], taken, rfl, rfl, (List.append_nil before).symm ▸ hqs⟩
    · rintro ⟨_, rest, rfl, rfl, hqs⟩
      exact List.append_nil before ▸ hqs
  | cons p ps ih =>
    simp only [List.cons_append, allTake_cons_iff, ih]
    constructor
    · rintro ⟨a, _, rfl, hp, b, c, rfl, hps, hqs⟩
      rw [List.append_assoc] at hp hqs
      exact ⟨a ++ b, c, (List.append_assoc ..).symm, ⟨a, b, rfl, hp, hps⟩, hqs⟩
    · rintro ⟨_, c, rfl, ⟨a, b, rfl, hp, hps⟩, hqs⟩
      rw [← List.append_assoc] at hp hqs
      exact ⟨a, b ++ c, List.append_assoc .., hp, b, c, rfl, hps, hqs⟩

end Inversion

end Piece

/-- The matcher reads pieces in a row as it should, if it reads them at all. -/
def Matcher.Documented {ρ : Type} (m : Matcher ρ) : Prop :=
  ∀ (ps : List Piece) (x : ρ), m.compile (String.join (ps.map (Piece.written m.escape))) = .ok x →
    ∀ s : String, m.isMatch x s = true ↔ ∃ before taken behind,
      s.toList = before ++ taken ++ behind ∧ Piece.AllTake ps before taken behind

end Verdict.Wildcard
