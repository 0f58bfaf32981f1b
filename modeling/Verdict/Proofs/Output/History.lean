import Mathlib.Data.List.Induction
import Mathlib.Order.Bounds.Basic
import Verdict.Proofs.Output

/-! What a collector writes, read off from all that has been asked of it.

A slot may be given text after text; the last one before it is written counts (`FlushedWith`). A
later one is kept in the slot, but it never gets into the queue, and collectors with the same queue
write the same from then on (`foldl_serve_of_queue`). `Abreast` ties the texts that a collector tracks to the
history: a slot that is waiting holds the last text that was added to it, a written one the text
with which it was flushed. Each request keeps this, and with it `output_in_order` says what the
sink holds after any history and where the next write comes to. -/
namespace Verdict.Collector

/-- What may be asked of a collector. -/
inductive Request
  | add (slot : Nat) (text : String)
  | write
  deriving DecidableEq

/-- The text that a request puts into the slot. -/
def Request.text? (slot : Nat) : Request → Option String
  | add i text => if i = slot then some text else none
  | write => none

section
variable {σ : Type} [Writable σ]

/-- A collector and what it writes to, once a request has been met. -/
def serve (state : Collector × σ) : Request → Collector × σ
  | .add slot text => (state.1.add slot text, state.2)
  | .write => (state.1.write state.2).2

end

/-- A new collector and a working sink, once requests have been met one after the other. -/
def after (slots : Nat) (base : String) (rs : List Request) : Collector × Sink :=
  rs.foldl serve (withSlots slots, ⟨base, false⟩)

/-- The text that was last added to a slot, if any was. -/
def lastAdded? (rs : List Request) (slot : Nat) : Option String :=
  (rs.filterMap (·.text? slot)).getLast?

/-- The slot was written when this text was the last that had been added to it. -/
def FlushedWith (slots : Nat) (base : String) (rs : List Request) (slot : Nat) (text : String) :
    Prop :=
  ∃ earlier later, rs = earlier ++ Request.write :: later ∧
    (after slots base earlier).1.flushed ≤ slot ∧
    slot < (after slots base (earlier ++ [Request.write])).1.flushed ∧
    lastAdded? earlier slot = some text

variable {slots slot : Nat} {base text : String} {rs : List Request} {r : Request}

theorem after_append (slots : Nat) (base : String) (rs later : List Request) :
    after slots base (rs ++ later) = later.foldl serve (after slots base rs) :=
  List.foldl_append

theorem after_concat (slots : Nat) (base : String) (rs : List Request) (r : Request) :
    after slots base (rs ++ [r]) = serve (after slots base rs) r :=
  after_append slots base rs [r]

/-! ### The last text of a slot -/

theorem lastAdded?_concat (rs : List Request) (r : Request) (slot : Nat) :
    lastAdded? (rs ++ [r]) slot = (r.text? slot).or (lastAdded? rs slot) := by
  cases h : r.text? slot <;> simp [lastAdded?, h]

theorem lastAdded?_eq_none_iff : lastAdded? rs slot = none ↔ ∀ text, .add slot text ∉ rs := by
  simp only [lastAdded?, List.getLast?_eq_none_iff, List.filterMap_eq_nil_iff]
  constructor
  · intro h text hmem
    have hnone := h _ hmem
    rw [Request.text?, if_pos rfl] at hnone
    cases hnone
  · intro h r hr
    cases r with
    | write => rfl
    | add i text =>
      rw [Request.text?, if_neg]
      rintro rfl
      exact h text hr

theorem FlushedWith.concat (h : FlushedWith slots base rs slot text) (r : Request) :
    FlushedWith slots base (rs ++ [r]) slot text := by
  obtain ⟨earlier, later, rfl, hslot⟩ := h
  exact ⟨earlier, later ++ [r], by simp, hslot⟩

/-- A slot that has been written had a text. -/
theorem FlushedWith.exists_add (h : FlushedWith slots base rs slot text) :
    ∃ text, .add slot text ∈ rs := by
  obtain ⟨earlier, later, rfl, -, -, hlast⟩ := h
  by_contra hnone
  have hnone : lastAdded? earlier slot = none :=
    lastAdded?_eq_none_iff.mpr fun text hmem => hnone ⟨text, List.mem_append_left _ hmem⟩
  rw [hnone] at hlast
  cases hlast

/-! ### One request -/

theorem flushed_add (c : Collector) (slot : Nat) (text : String) :
    (c.add slot text).flushed = c.flushed :=
  rfl

/-- A slot that has been written is not in the queue. -/
theorem queue_add_written {c : Collector} (h : slot < c.flushed) (text : String) :
    (c.add slot text).queue = c.queue :=
  (queue_add c slot text).trans (if_pos h)

theorem Tracks.add_of_length_le {c : Collector} {given : List (Option String)} {sink : Sink}
    (h : c.Tracks given base sink) (hslot : given.length ≤ slot) (text : String) :
    c.add slot text = c := by
  have hlength : c.outputs.length - c.flushed = given.length - c.flushed := by
    rw [← List.length_drop, ← List.length_drop, ← h.waiting, Collector.waiting]
  have hflushed := h.flushed
  have hsize : c.outputs.length ≤ slot := by omega
  rw [Collector.add, List.set_eq_of_length_le hsize]

section
variable {σ : Type} [Writable σ] {c c' : Collector}

/-- What is written is decided by the queue, and so is what is left in it. -/
theorem serve_of_queue (h : c.queue = c'.queue) (s : σ) (r : Request) :
    (serve (c, s) r).2 = (serve (c', s) r).2 ∧
      (serve (c, s) r).1.queue = (serve (c', s) r).1.queue := by
  cases r with
  | add slot text =>
    refine ⟨rfl, ?_⟩
    show (c.add slot text).queue = (c'.add slot text).queue
    rw [queue_add, queue_add, h]
  | write =>
    have hwrite := (queue_write c s).trans ((congrArg (·.write s) h).trans (queue_write c' s).symm)
    exact ⟨congrArg (·.2.2) hwrite, congrArg (·.2.1) hwrite⟩

theorem foldl_serve_of_queue (h : c.queue = c'.queue) (s : σ) (later : List Request) :
    (later.foldl serve (c, s)).2 = (later.foldl serve (c', s)).2 ∧
      (later.foldl serve (c, s)).1.queue = (later.foldl serve (c', s)).1.queue := by
  induction later generalizing c c' s with
  | nil => exact ⟨rfl, h⟩
  | cons r later ih =>
    obtain ⟨hsink, hqueue⟩ := serve_of_queue h s r
    rw [List.foldl_cons, List.foldl_cons, ← Prod.mk.eta (p := serve (c, s) r),
      ← Prod.mk.eta (p := serve (c', s) r), hsink]
    exact ih hqueue _

end

/-! ### What has been asked, and what is tracked -/

/-- The texts that the collector tracks are those that the history says. -/
structure Abreast (slots : Nat) (base : String) (rs : List Request) (given : List (Option String)) :
    Prop where
  tracks : (after slots base rs).1.Tracks given base (after slots base rs).2
  working : (after slots base rs).2.broken = false
  length : given.length = slots
  waiting : ∀ i, (after slots base rs).1.flushed ≤ i → i < slots →
    given[i]? = some (lastAdded? rs i)
  written : ∀ i text, i < (after slots base rs).1.flushed → given[i]? = some (some text) →
    FlushedWith slots base rs i text

theorem abreast_nil (slots : Nat) (base : String) :
    Abreast slots base [] (List.replicate slots none) where
  tracks := tracks_withSlots slots rfl
  working := rfl
  length := List.length_replicate
  waiting _ _ hi := List.getElem?_replicate_of_lt hi
  written _ _ hi := absurd hi (Nat.not_lt_zero _)

theorem flushed_after_add (slots : Nat) (base : String) (rs : List Request) (slot : Nat)
    (text : String) :
    (after slots base (rs ++ [Request.add slot text])).1.flushed =
      (after slots base rs).1.flushed := by
  rw [after_concat]
  rfl

theorem Abreast.add_written {given : List (Option String)} (h : Abreast slots base rs given)
    (hslot : slot < (after slots base rs).1.flushed) :
    Abreast slots base (rs ++ [Request.add slot text]) given := by
  have hflushed := flushed_after_add slots base rs slot text
  refine ⟨?_, ?_, h.length, fun i hi hlt => ?_, fun i text' hi hgiven => ?_⟩
  · rw [after_concat]
    exact h.tracks.add_written hslot
  · rw [after_concat]
    exact h.working
  · rw [hflushed] at hi
    rw [h.waiting i hi hlt, lastAdded?_concat, Request.text?, if_neg (by omega), Option.none_or]
  · rw [hflushed] at hi
    exact (h.written i text' hi hgiven).concat _

theorem Abreast.add_waiting {given : List (Option String)} (h : Abreast slots base rs given)
    (hslot : (after slots base rs).1.flushed ≤ slot) :
    Abreast slots base (rs ++ [Request.add slot text]) (given.set slot (some text)) := by
  have hflushed := flushed_after_add slots base rs slot text
  refine ⟨?_, ?_, ?_, fun i hi hlt => ?_, fun i text' hi hgiven => ?_⟩
  · rw [after_concat]
    exact h.tracks.put hslot
  · rw [after_concat]
    exact h.working
  · rw [List.length_set, h.length]
  · rw [hflushed] at hi
    rw [lastAdded?_concat, Request.text?]
    by_cases heq : slot = i
    · rw [if_pos heq, heq, List.getElem?_set_self (by rw [h.length]; exact hlt)]
      rfl
    · rw [if_neg heq, Option.none_or, List.getElem?_set_ne heq, h.waiting i hi hlt]
  · rw [hflushed] at hi
    rw [List.getElem?_set_ne (by omega)] at hgiven
    exact (h.written i text' hi hgiven).concat _

/-- A write flushes slots that hold the last text added to them, and stops before the first to
which nothing was added. -/
theorem Abreast.write {given : List (Option String)} (h : Abreast slots base rs given) :
    Abreast slots base (rs ++ [Request.write]) given ∧
      ((after slots base (rs ++ [Request.write])).1.flushed = slots ∨
        given[(after slots base (rs ++ [Request.write])).1.flushed]? = some none) := by
  obtain ⟨n, c', sink', hwrite, htracks, hworking, hend⟩ := h.tracks.write h.working
  have hflushed := flushed_write hwrite
  have hafter : after slots base (rs ++ [Request.write]) = (c', sink') := by
    rw [after_concat, serve, hwrite]
  have hlast : ∀ i, lastAdded? (rs ++ [Request.write]) i = lastAdded? rs i := fun i => by
    rw [lastAdded?_concat, Request.text?, Option.none_or]
  rw [h.length] at hend
  refine ⟨⟨?_, ?_, h.length, fun i hi hlt => ?_, fun i text hi hgiven => ?_⟩, by rwa [hafter]⟩
  · rw [hafter]
    exact htracks
  · rw [hafter]
    exact hworking
  · have hi : c'.flushed ≤ i := by rwa [hafter] at hi
    rw [hlast]
    exact h.waiting i (by omega) hlt
  · by_cases hold : i < (after slots base rs).1.flushed
    · exact (h.written i text hold hgiven).concat _
    · -- Flushed just now: the text is the one that was waiting.
      have hlt : i < slots := by
        rw [← h.length]
        exact (List.getElem?_eq_some_iff.mp hgiven).1
      have hwaiting := h.waiting i (by omega) hlt
      rw [hgiven] at hwaiting
      exact ⟨rs, [], rfl, by omega, hi, (Option.some.inj hwaiting).symm⟩

theorem exists_abreast (slots : Nat) (base : String) (rs : List Request) :
    ∃ given, Abreast slots base rs given := by
  induction rs using List.reverseRecOn with
  | nil => exact ⟨_, abreast_nil slots base⟩
  | append_singleton rs r ih =>
    obtain ⟨given, h⟩ := ih
    cases r with
    | write => exact ⟨given, h.write.1⟩
    | add slot text =>
      by_cases hslot : slot < (after slots base rs).1.flushed
      · exact ⟨given, h.add_written hslot⟩
      · exact ⟨_, h.add_waiting (Nat.le_of_not_lt hslot)⟩

/-! ### What the sink holds -/

variable {given : List (Option String)}

theorem Abreast.exists_texts (h : Abreast slots base rs given) :
    ∃ texts : List String, texts.length = (after slots base rs).1.flushed ∧
      (after slots base rs).2.contents = base ++ String.join texts ∧
      ∀ i text, texts[i]? = some text → FlushedWith slots base rs i text := by
  obtain ⟨texts, htake, hcontents⟩ := h.tracks.written
  have hlength : texts.length = (after slots base rs).1.flushed := by
    have hlen := congrArg List.length htake
    rw [List.length_take, List.length_map, Nat.min_eq_left h.tracks.flushed] at hlen
    exact hlen.symm
  refine ⟨texts, hlength, hcontents, fun i text hi => ?_⟩
  have hlt : i < (after slots base rs).1.flushed := by
    rw [← hlength]
    exact (List.getElem?_eq_some_iff.mp hi).1
  refine h.written i text hlt ?_
  rw [← List.getElem?_take_of_lt hlt, htake, List.getElem?_map, hi]
  rfl

theorem Abreast.isLeast_flushed (h : Abreast slots base rs given) :
    IsLeast {i | i = slots ∨ ∀ text, .add i text ∉ rs}
      (after slots base (rs ++ [Request.write])).1.flushed := by
  obtain ⟨hwrite, hend⟩ := h.write
  have hle : (after slots base (rs ++ [Request.write])).1.flushed ≤ slots := by
    have hflushed := hwrite.tracks.flushed
    rwa [h.length] at hflushed
  refine ⟨?_, fun i hi => ?_⟩
  · rcases hend with hall | hnone
    · exact .inl hall
    · by_cases hall : (after slots base (rs ++ [Request.write])).1.flushed = slots
      · exact .inl hall
      · have hwaiting := hwrite.waiting _ (Nat.le_refl _) (by omega)
        rw [hnone] at hwaiting
        refine .inr fun text hmem => ?_
        exact lastAdded?_eq_none_iff.mp (Option.some.inj hwaiting).symm text
          (List.mem_append_left _ hmem)
  · rcases hi with rfl | hnone
    · exact hle
    · -- A slot that has been written was given a text.
      by_contra hlt
      obtain ⟨texts, hlength, -, hflushed⟩ := hwrite.exists_texts
      have hi : i < texts.length := by omega
      obtain ⟨text, hmem⟩ := (hflushed i _ (List.getElem?_eq_getElem hi)).exists_add
      exact hnone text (by simpa using hmem)

/-- **Output is written in the order of the slots, none of it lost and none of it twice.** After
any history the sink holds, slot by slot, the text that each slot held when it was written. A write
succeeds, says how many slots it wrote, and comes as far as the first slot to which nothing has
been added. A text for a slot that there is not, or that has been written, changes nothing of what is
written, whatever is asked later. -/
theorem output_in_order (slots : Nat) (base : String) (rs : List Request) :
    (∃ texts : List String, texts.length = (after slots base rs).1.flushed ∧
      (after slots base rs).2.contents = base ++ String.join texts ∧
      ∀ i text, texts[i]? = some text → FlushedWith slots base rs i text) ∧
    (∃ n, ((after slots base rs).1.write (after slots base rs).2).1 = .ok n ∧
      (after slots base (rs ++ [Request.write])).1.flushed = (after slots base rs).1.flushed + n) ∧
    IsLeast {i | i = slots ∨ ∀ text, .add i text ∉ rs}
      (after slots base (rs ++ [Request.write])).1.flushed ∧
    ∀ slot text later, slots ≤ slot ∨ slot < (after slots base rs).1.flushed →
      (after slots base (rs ++ Request.add slot text :: later)).2 =
          (after slots base (rs ++ later)).2 ∧
        (after slots base (rs ++ Request.add slot text :: later)).1.flushed =
          (after slots base (rs ++ later)).1.flushed := by
  obtain ⟨given, h⟩ := exists_abreast slots base rs
  refine ⟨h.exists_texts, ?_, h.isLeast_flushed, fun slot text later hslot => ?_⟩
  · obtain ⟨n, c', sink', hwrite, -⟩ := h.tracks.write h.working
    refine ⟨n, congrArg Prod.fst hwrite, ?_⟩
    rw [after_concat, serve, hwrite]
    exact flushed_write hwrite
  · have hsame : ((after slots base rs).1.add slot text).queue = (after slots base rs).1.queue := by
      rcases hslot with hslot | hslot
      · rw [h.tracks.add_of_length_le (by rwa [h.length]) text]
      · exact queue_add_written hslot text
    rw [after_append, after_append, List.foldl_cons, serve]
    obtain ⟨hsink, hqueue⟩ := foldl_serve_of_queue hsame (after slots base rs).2 later
    exact ⟨hsink, congrArg Queue.flushed hqueue⟩

/-- Slots filled from the last to the first, one of them twice and one with nothing. -/
def shuffled : List Request :=
  [.add 2 "c", .write, .add 1 "b", .add 1 "B", .add 0 "", .write]

/-- Of what comes later, only what is meant for the last slot is written, though a written slot
keeps what it is given. -/
theorem output_shuffled :
    (after 4 "" shuffled).1.flushed = 3 ∧ (after 4 "" shuffled).2.contents = "Bc" ∧
      (∃ texts : List String, texts.length = 3 ∧ "Bc" = "" ++ String.join texts ∧
        ∀ i text, texts[i]? = some text → FlushedWith 4 "" shuffled i text) ∧
      IsLeast {i | i = 4 ∨ ∀ text, .add i text ∉ shuffled} 3 ∧
      (after 4 "" (shuffled ++ [Request.add 1 "late"])).1.outputs =
        [none, some "late", none, none] ∧
      (after 4 "" (shuffled ++ [Request.add 1 "late", .add 3 "d", .write])).2 =
        (after 4 "" (shuffled ++ [Request.add 3 "d", .write])).2 ∧
      (after 4 "" (shuffled ++ [Request.add 7 "out", .add 3 "d", .write])).2 =
        (after 4 "" (shuffled ++ [Request.add 3 "d", .write])).2 ∧
      (after 4 "" (shuffled ++ [Request.add 3 "d", .write])).2.contents = "Bcd" := by
  have hflushed : (after 4 "" shuffled).1.flushed = 3 := by decide +kernel
  have hcontents : (after 4 "" shuffled).2.contents = "Bc" := by decide +kernel
  have hnext : (after 4 "" (shuffled ++ [Request.write])).1.flushed = 3 := by decide +kernel
  obtain ⟨htexts, -, hleast, hignored⟩ := output_in_order 4 "" shuffled
  rw [hflushed, hcontents] at htexts
  rw [hnext] at hleast
  refine ⟨hflushed, hcontents, htexts, hleast, by decide +kernel, ?_, ?_, by decide +kernel⟩
  · exact (hignored 1 "late" [.add 3 "d", .write] (.inr (by rw [hflushed]; decide))).1
  · exact (hignored 7 "out" [.add 3 "d", .write] (.inl (by decide))).1

end Verdict.Collector
