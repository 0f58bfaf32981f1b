import Mathlib.Data.List.Basic
import Verdict.Proofs.Wildcard.Trial

/-! Which names a pattern matches.

The runs that the asterisks stand for may be chosen in any way (`Matches`). The search follows the
pattern character by character and keeps all that may be left of the name by then
(`mem_foldl_advance_iff`), so that it misses no choice. A matcher of regular expressions finds the
same: the anchors hold the expression to the whole name, and between them its pieces are the segments
and the runs in turn (`allTake_pieces_iff`). -/
namespace Verdict.Wildcard

/-- The text consists of these segments with a run of characters, none of them a line feed, between
any two. -/
def Woven (segments : List (List Char)) (text : List Char) : Prop :=
  ∃ (first : List Char) (rest runs : List (List Char)), segments = first :: rest ∧
    runs.length = rest.length ∧ (∀ run ∈ runs, '\n' ∉ run) ∧
      text = first ++ (List.zipWith (· ++ ·) runs rest).flatten

/-- The name is the pattern with a run of characters for each asterisk. -/
def Matches (pattern name : String) : Prop := Woven (segments pattern) name.toList

/-- The same, along the pattern. -/
inductive Spells : List Char → List Char → Prop
  | nil : Spells [] []
  | asterisk {ps run text : List Char} : '\n' ∉ run → Spells ps text →
      Spells ('*' :: ps) (run ++ text)
  | cons {p : Char} {ps text : List Char} : p ≠ '*' → Spells ps text → Spells (p :: ps) (p :: text)

variable {first next ps text left rest : List Char} {segs lefts : List (List Char)} {p : Char}

/-! ### The search -/

theorem mem_afterAsterisk_iff :
    rest ∈ afterAsterisk left ↔ ∃ run, '\n' ∉ run ∧ left = run ++ rest := by
  induction left with
  | nil =>
    rw [afterAsterisk, List.mem_singleton]
    constructor
    · rintro rfl
      exact ⟨[], List.not_mem_nil, rfl⟩
    · rintro ⟨run, -, hrest⟩
      exact (List.append_eq_nil_iff.mp hrest.symm).2
  | cons c left ih =>
    rw [afterAsterisk, List.mem_cons]
    constructor
    · rintro (rfl | hrest)
      · exact ⟨[], List.not_mem_nil, rfl⟩
      · split at hrest
        case isTrue => exact absurd hrest List.not_mem_nil
        case isFalse hc =>
          obtain ⟨run, hrun, rfl⟩ := ih.mp hrest
          exact ⟨c :: run, by simp [Ne.symm hc, hrun], rfl⟩
    · rintro ⟨run, hrun, hleft⟩
      cases run with
      | nil => exact .inl hleft.symm
      | cons d run =>
        obtain ⟨rfl, rfl⟩ := List.cons.inj hleft
        obtain ⟨hd, hrun⟩ := List.ne_and_not_mem_of_not_mem_cons hrun
        rw [if_neg (Ne.symm hd)]
        exact .inr (ih.mpr ⟨run, hrun, rfl⟩)

theorem mem_advance_asterisk_iff :
    rest ∈ advance lefts '*' ↔ ∃ left ∈ lefts, ∃ run, '\n' ∉ run ∧ left = run ++ rest := by
  rw [advance, if_pos rfl, List.mem_eraseDups, List.mem_flatMap]
  exact exists_congr fun left => and_congr_right fun _ => mem_afterAsterisk_iff

theorem mem_advance_iff (hp : p ≠ '*') : rest ∈ advance lefts p ↔ p :: rest ∈ lefts := by
  rw [advance, if_neg hp, List.mem_filterMap]
  constructor
  · rintro ⟨left, hleft, heq⟩
    cases left with
    | nil => cases heq
    | cons c left =>
      obtain ⟨rfl, hsame⟩ := Option.ite_none_right_eq_some.mp heq
      exact Option.some.inj hsame ▸ hleft
  · intro h
    exact ⟨_, h, by simp⟩

/-- What may be left after a pattern is what stands behind a text that it spells. -/
theorem mem_foldl_advance_iff : rest ∈ ps.foldl advance lefts ↔
    ∃ left ∈ lefts, ∃ text, Spells ps text ∧ left = text ++ rest := by
  -- Each character of the pattern turns the texts that may be left into others.
  induction ps generalizing lefts with
  | nil =>
    constructor
    · exact fun h => ⟨rest, h, [], .nil, rfl⟩
    · rintro ⟨_, h, _, ⟨⟩, rfl⟩
      exact h
  | cons p ps ih =>
    rw [List.foldl_cons, ih]
    by_cases hp : p = '*'
    · subst hp
      simp only [mem_advance_asterisk_iff]
      constructor
      · rintro ⟨_, ⟨left, hleft, run, hrun, rfl⟩, text, htext, rfl⟩
        exact ⟨_, hleft, _, .asterisk hrun htext, (List.append_assoc ..).symm⟩
      · rintro ⟨_, hleft, _, hspells, rfl⟩
        cases hspells with
        | asterisk hrun htext =>
          rw [List.append_assoc] at hleft
          exact ⟨_, ⟨_, hleft, _, hrun, rfl⟩, _, htext, rfl⟩
        | cons hp => exact absurd rfl hp
    · simp only [mem_advance_iff hp]
      constructor
      · rintro ⟨left, hleft, text, htext, rfl⟩
        exact ⟨_, hleft, _, .cons hp htext, rfl⟩
      · rintro ⟨_, hleft, _, hspells, rfl⟩
        cases hspells with
        | asterisk => exact absurd rfl hp
        | cons _ htext => exact ⟨_, hleft, _, htext, rfl⟩

theorem accepts_iff_spells (pattern name : String) :
    accepts pattern name = true ↔ Spells pattern.toList name.toList := by
  rw [accepts, List.any_eq_true]
  simp only [mem_foldl_advance_iff, List.mem_singleton, List.isEmpty_iff]
  constructor
  · rintro ⟨_, ⟨_, rfl, text, htext, heq⟩, rfl⟩
    rw [heq, List.append_nil]
    exact htext
  · intro h
    exact ⟨[], ⟨_, rfl, _, h, (List.append_nil _).symm⟩, rfl⟩

/-! ### The segments -/

theorem woven_singleton_iff : Woven [first] text ↔ text = first := by
  constructor
  · rintro ⟨first, rest, runs, hsegments, hlength, -, rfl⟩
    obtain ⟨rfl, rfl⟩ := List.cons.inj hsegments
    simp
  · rintro rfl
    exact ⟨text, [], [], rfl, rfl, nofun, by simp⟩

theorem woven_cons_cons_iff : Woven (first :: next :: segs) text ↔
    ∃ run text', '\n' ∉ run ∧ Woven (next :: segs) text' ∧ text = first ++ (run ++ text') := by
  constructor
  · rintro ⟨first, rest, runs, hsegments, hlength, hruns, rfl⟩
    obtain ⟨rfl, rfl⟩ := List.cons.inj hsegments
    cases runs with
    | nil => cases hlength
    | cons run runs =>
      obtain ⟨hrun, hruns⟩ := List.forall_mem_cons.mp hruns
      refine ⟨run, _, hrun, ⟨next, segs, runs, rfl, Nat.succ.inj hlength, hruns, rfl⟩, ?_⟩
      simp
  · rintro ⟨run, _, hrun, ⟨next, segs, runs, hsegments, hlength, hruns, rfl⟩, rfl⟩
    obtain ⟨rfl, rfl⟩ := List.cons.inj hsegments
    refine ⟨first, _, run :: runs, rfl, congrArg Nat.succ hlength,
      List.forall_mem_cons.mpr ⟨hrun, hruns⟩, ?_⟩
    simp

theorem woven_head_iff : Woven ((p :: first) :: segs) text ↔
    ∃ text', Woven (first :: segs) text' ∧ text = p :: text' := by
  constructor
  · rintro ⟨_, rest, runs, hsegments, hlength, hruns, rfl⟩
    obtain ⟨rfl, rfl⟩ := List.cons.inj hsegments
    exact ⟨_, ⟨first, segs, runs, rfl, hlength, hruns, rfl⟩, rfl⟩
  · rintro ⟨_, ⟨_, rest, runs, hsegments, hlength, hruns, rfl⟩, rfl⟩
    obtain ⟨rfl, rfl⟩ := List.cons.inj hsegments
    exact ⟨_, _, runs, rfl, hlength, hruns, rfl⟩

/-- A pattern spells what its segments are woven into. -/
theorem spells_iff_woven : Spells ps text ↔ Woven (ps.splitOn '*') text := by
  induction ps generalizing text with
  | nil =>
    rw [List.splitOn_nil, woven_singleton_iff]
    constructor
    · rintro ⟨⟩
      rfl
    · rintro rfl
      exact .nil
  | cons p ps ih =>
    -- An asterisk begins with an empty segment of its own, any other character joins the first one.
    obtain ⟨next, segs, hsegs⟩ := List.exists_cons_of_ne_nil (List.splitOn_ne_nil '*' ps)
    rw [hsegs] at ih
    rw [List.splitOn, List.splitOnP_cons_eq_if_modifyHead, ← List.splitOn, hsegs]
    by_cases hp : p = '*'
    · subst hp
      rw [if_pos (beq_self_eq_true '*'), woven_cons_cons_iff]
      constructor
      · intro h
        cases h with
        | asterisk hrun htext => exact ⟨_, _, hrun, ih.mp htext, rfl⟩
        | cons hp => exact absurd rfl hp
      · rintro ⟨run, text', hrun, htext, rfl⟩
        rw [List.nil_append]
        exact .asterisk hrun (ih.mpr htext)
    · rw [if_neg (by simpa using hp), List.modifyHead_cons, woven_head_iff]
      constructor
      · intro h
        cases h with
        | asterisk => exact absurd rfl hp
        | cons _ htext => exact ⟨_, ih.mp htext, rfl⟩
      · rintro ⟨text', htext, rfl⟩
        exact .cons hp (ih.mpr htext)

theorem accepts_iff (pattern name : String) : accepts pattern name = true ↔ Matches pattern name :=
  (accepts_iff_spells pattern name).trans spells_iff_woven

theorem acceptsAny_iff (patterns : List String) (name : String) :
    acceptsAny patterns name = true ↔ patterns = [] ∨ ∃ p ∈ patterns, Matches p name := by
  simp only [acceptsAny, Bool.or_eq_true, List.isEmpty_iff, List.any_eq_true, accepts_iff]

/-! ### The expression -/

section Expression
open Piece
variable {ρ : Type} {m : Matcher ρ} {pieces : List Piece} {before taken behind : List Char}

/-- What an expression has between its anchors. -/
def inner (segments : List (List Char)) : List Piece :=
  (segments.map fun s => literal (String.ofList s)).intersperse run

theorem inner_cons_cons (first next : List Char) (segs : List (List Char)) :
    inner (first :: next :: segs) = literal (String.ofList first) :: run :: inner (next :: segs) :=
  rfl

theorem join_written_inner (escape : String → String) (segs : List (List Char)) :
    String.join ((inner segs).map (written escape)) =
      ".*".intercalate (segs.map fun s => escape (String.ofList s)) := by
  match segs with
  | [] => simp [inner]
  | [first] => simp [inner, written]
  | first :: next :: segs =>
    have hrest := join_written_inner escape (next :: segs)
    rw [inner_cons_cons, List.map_cons, List.map_cons, String.join_cons, String.join_cons, hrest,
      ← String.append_assoc, List.map_cons, List.map_cons, List.map_cons,
      String.intercalate_cons_cons]
    rfl

theorem expression_eq (m : Matcher ρ) (pattern : String) : m.expression pattern =
    String.join ((start :: (inner (segments pattern) ++ [stop])).map (written m.escape)) := by
  rw [List.map_cons, List.map_append, String.join_cons, String.join_append, join_written_inner,
    ← String.append_assoc]
  rfl

/-- Anchored pieces have to take the whole text. -/
theorem allTake_anchored_iff : AllTake (start :: (pieces ++ [stop])) before taken behind ↔
    before = [] ∧ behind = [] ∧ AllTake pieces [] taken [] := by
  rw [allTake_cons_iff]
  constructor
  · rintro ⟨_, _, rfl, hstart, h⟩
    obtain ⟨rfl, rfl⟩ := takes_start_iff.mp hstart
    obtain ⟨first, _, rfl, hpieces, hstop⟩ := allTake_append_iff.mp h
    obtain ⟨rfl, rfl⟩ := takes_stop_iff.mp (allTake_singleton_iff.mp hstop)
    rw [List.append_nil, List.nil_append]
    exact ⟨rfl, rfl, hpieces⟩
  · rintro ⟨rfl, rfl, h⟩
    refine ⟨[], taken, rfl, .start _, allTake_append_iff.mpr ⟨taken, [], ?_, h, ?_⟩⟩
    · exact (List.append_nil taken).symm
    · exact allTake_singleton_iff.mpr (.stop _)

/-- What the segments and the runs between them take is what the segments are woven into. -/
theorem allTake_inner_iff : AllTake (inner (first :: segs)) before taken behind ↔
    Woven (first :: segs) taken := by
  induction segs generalizing first before taken with
  | nil => simp [inner, allTake_cons_iff, woven_singleton_iff]
  | cons next segs ih =>
    simp only [inner_cons_cons, allTake_cons_iff, takes_literal_iff, takes_run_iff, ih,
      String.toList_ofList, woven_cons_cons_iff]
    constructor
    · rintro ⟨_, _, rfl, rfl, run, text', rfl, hrun, htext⟩
      exact ⟨run, text', hrun, htext, rfl⟩
    · rintro ⟨run, text', hrun, htext, rfl⟩
      exact ⟨first, _, rfl, rfl, run, text', rfl, hrun, htext⟩

theorem isMatch_iff (documented : m.Documented) {pattern : String} {x : ρ}
    (hx : m.compile (m.expression pattern) = .ok x) (name : String) :
    m.isMatch x name = true ↔ Matches pattern name := by
  obtain ⟨first, segs, hsegments⟩ := List.exists_cons_of_ne_nil
    (List.splitOn_ne_nil '*' pattern.toList)
  rw [expression_eq] at hx
  rw [documented _ x hx name, Matches, segments, hsegments]
  -- Matching somewhere in the name is matching all of it, for the anchors.
  simp only [allTake_anchored_iff, allTake_inner_iff]
  constructor
  · rintro ⟨_, taken, _, hname, rfl, rfl, h⟩
    rw [hname, List.nil_append, List.append_nil]
    exact h
  · intro h
    exact ⟨[], name.toList, [], (List.append_nil _).symm, rfl, rfl, h⟩

theorem filter_cons (m : Matcher ρ) (p : String) (patterns : List String) :
    m.filter (p :: patterns) =
      match m.compile (m.expression p) with
      | .error reason => .error ("Invalid routine pattern '" ++ p ++ "': " ++ reason)
      | .ok x => (m.filter patterns).map (x :: ·) := by
  rw [Matcher.filter, List.mapM_cons]
  cases m.compile (m.expression p) with
  | error reason => rfl
  | ok x =>
    change (m.filter patterns >>= fun filter => pure (x :: filter)) = _
    cases m.filter patterns <;> rfl

/-- A filter has an expression for each pattern. If none can be made, the expression for one of the
patterns is refused. -/
theorem filter_cases (m : Matcher ρ) (patterns : List String) :
    (∃ filter, m.filter patterns = .ok filter ∧
      List.Forall₂ (fun p x => m.compile (m.expression p) = .ok x) patterns filter) ∨
    ∃ p ∈ patterns, ∃ reason, m.compile (m.expression p) = .error reason ∧
      m.filter patterns = .error ("Invalid routine pattern '" ++ p ++ "': " ++ reason) := by
  induction patterns with
  | nil => exact .inl ⟨[], rfl, .nil⟩
  | cons p patterns ih =>
    cases hp : m.compile (m.expression p) with
    | error reason => exact .inr ⟨p, List.mem_cons_self, reason, hp, by rw [filter_cons, hp]⟩
    | ok x =>
      rcases ih with ⟨filter, hfilter, hall⟩ | ⟨q, hq, reason, hrefused, hfilter⟩
      · exact .inl ⟨x :: filter, by rw [filter_cons, hp, hfilter]; rfl, .cons hp hall⟩
      · refine .inr ⟨q, List.mem_cons_of_mem p hq, reason, hrefused, ?_⟩
        rw [filter_cons, hp, hfilter]
        rfl

theorem accepts_filter (documented : m.Documented) {patterns : List String} {filter : List ρ}
    (h : List.Forall₂ (fun p x => m.compile (m.expression p) = .ok x) patterns filter)
    (name : String) : m.accepts filter name = acceptsAny patterns name := by
  have hany : (filter.any fun x => m.isMatch x name) = patterns.any fun p => accepts p name := by
    induction h with
    | nil => rfl
    | cons hx _ ih =>
      rw [List.any_cons, List.any_cons, ih]
      congr 1
      rw [Bool.eq_iff_iff, isMatch_iff documented hx, accepts_iff]
  have hempty : filter.isEmpty = patterns.isEmpty := by cases h <;> rfl
  rw [Matcher.accepts, acceptsAny, hany, hempty]

/-- The expressions for patterns are made of pieces only, so that none is refused by the matcher that
knows of nothing else. -/
theorem compile_trial_ne_error (pattern : String) {reason : String} :
    Trial.matcher.compile (Trial.matcher.expression pattern) ≠ .error reason := by
  rw [expression_eq]
  exact fun h => nomatch (Trial.read_join_written _).symm.trans h

end Expression

/-- **A list of patterns accepts the names that one of them matches**, and all names if it is empty. A
matcher of regular expressions that reads them as documented comes to the same, unless it refuses
the expression for a pattern; then it is that which is told. -/
theorem acceptsAny_iff_matches {ρ : Type} (m : Matcher ρ) (documented : m.Documented)
    (patterns : List String) (name : String) :
    (acceptsAny patterns name = true ↔ patterns = [] ∨ ∃ p ∈ patterns, Matches p name) ∧
    ((∃ filter, m.filter patterns = .ok filter ∧
        m.accepts filter name = acceptsAny patterns name) ∨
      ∃ p ∈ patterns, ∃ reason, m.compile (m.expression p) = .error reason ∧
        m.filter patterns = .error ("Invalid routine pattern '" ++ p ++ "': " ++ reason)) := by
  refine ⟨acceptsAny_iff patterns name, ?_⟩
  rcases filter_cases m patterns with ⟨filter, hfilter, hall⟩ | hrefused
  · exact .inl ⟨filter, hfilter, accepts_filter documented hall name⟩
  · exact .inr hrefused

/-- A dot stands for itself only, and asterisks side by side for one run. -/
theorem acceptsAny_iff_matches_trial :
    Trial.matcher.Documented ∧
      (∃ filter, Trial.matcher.filter ["a.b", "**(x)*"] = .ok filter ∧
        Trial.matcher.accepts filter "f(x)" = true) ∧
      (∃ filter, Trial.matcher.filter ["a.b", "**(x)*"] = .ok filter ∧
        Trial.matcher.accepts filter "axb" = false) := by
  have hall := acceptsAny_iff_matches Trial.matcher Trial.documented ["a.b", "**(x)*"]
  refine ⟨Trial.documented, ?_, ?_⟩
  · rcases (hall "f(x)").2 with ⟨filter, hfilter, haccepts⟩ | ⟨p, -, _, hrefused, -⟩
    · exact ⟨filter, hfilter, haccepts.trans (by decide)⟩
    · exact absurd hrefused (compile_trial_ne_error p)
  · rcases (hall "axb").2 with ⟨filter, hfilter, haccepts⟩ | ⟨p, -, _, hrefused, -⟩
    · exact ⟨filter, hfilter, haccepts.trans (by decide)⟩
    · exact absurd hrefused (compile_trial_ne_error p)

end Verdict.Wildcard
