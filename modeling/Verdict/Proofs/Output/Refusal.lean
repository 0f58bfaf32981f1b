import Verdict.Proofs.Output.History

/-! What becomes of a text that is refused.

A write fails because a text is refused or because the flush in the end is (`refused_or_unflushed`).
In the second case all is written. In the first the text is gone, for a collector takes a text out
of its slot before it writes it: `refused_text_is_lost` says that this is so wherever in a write the
refusal comes. The texts before it have been written and those behind it still wait, but they wait
for good. As long as nothing is added to the slot again, whatever else is asked writes nothing and
is answered with success (`serve_of_stuck`). Only whoever still has the text can make it right, by
adding it once more. -/
namespace Verdict.Collector
variable {σ : Type} [Writable σ] {s s' : σ} {c left : Collector} {taken : List String}
  {lost : String} {rest : List (Option String)} {e : SinkError}

/-- The texts are taken, one after the other. -/
inductive Takes : σ → List String → σ → Prop
  | nil (s : σ) : Takes s [] s
  | cons {s s' s'' : σ} {text : String} {texts : List String} :
      Writable.write s text = (.ok (), s') → Takes s' texts s'' → Takes s (text :: texts) s''

/-- The first texts that wait are taken, and the next one is refused. -/
structure Refusal (c : Collector) (s : σ) (taken : List String) (lost : String)
    (rest : List (Option String)) (e : SinkError) (s' : σ) : Prop where
  waiting : c.waiting = taken.map some ++ some lost :: rest
  refused : ∃ mid, Takes s taken mid ∧ Writable.write mid lost = (.error e, s')

/-- All texts that are next in line are taken, and the flush in the end is refused. -/
structure Unflushed (c : Collector) (s : σ) (taken : List String) (left : Collector) (e : SinkError)
    (s' : σ) : Prop where
  waiting : c.waiting = taken.map some ++ left.waiting
  flushed : left.flushed = c.flushed + taken.length
  refused : ∃ mid, Takes s taken mid ∧ Writable.flush mid = (.error e, s')

/-- Texts are taken until there is none, or until one is refused. -/
theorem exists_takes (s : σ) (waiting : List (Option String)) :
    ∃ taken rest mid, waiting = taken.map some ++ rest ∧ Takes s taken mid ∧
      ((rest = [] ∨ rest.head? = some none) ∨
        ∃ lost later e s', rest = some lost :: later ∧
          Writable.write mid lost = (.error e, s')) := by
  induction waiting generalizing s with
  | nil => exact ⟨[], [], s, rfl, .nil s, .inl (.inl rfl)⟩
  | cons head rest ih =>
    cases head with
    | none => exact ⟨[], none :: rest, s, rfl, .nil s, .inl (.inr rfl)⟩
    | some text =>
      cases hwrite : Writable.write s text with
      | mk answer mid =>
        cases answer with
        | error e => exact ⟨[], _, s, rfl, .nil s, .inr ⟨text, rest, e, mid, rfl, hwrite⟩⟩
        | ok _ =>
          obtain ⟨taken, left, s', rfl, htakes, hend⟩ := ih mid
          exact ⟨text :: taken, left, s', rfl, .cons hwrite htakes, hend⟩

theorem Takes.drain (h : Takes s taken s') (flushed : Nat) (waiting : List (Option String)) :
    Queue.drain flushed s (taken.map some ++ waiting) =
      Queue.drain (flushed + taken.length) s' waiting := by
  induction h generalizing flushed with
  | nil => rfl
  | cons hwrite _ ih =>
    rw [List.map_cons, List.cons_append, Queue.drain, hwrite]
    simp only
    rw [ih, List.length_cons, Nat.add_assoc, Nat.add_comm 1]

theorem Refusal.write (h : Refusal c s taken lost rest e s') :
    c.write s = (.error e, c.withQueue ⟨c.flushed + taken.length, none :: rest⟩, s') := by
  obtain ⟨hwaiting, mid, htakes, hrefused⟩ := h
  have hqueue : c.queue.write s = (.error e, ⟨c.flushed + taken.length, none :: rest⟩, s') := by
    rw [Queue.write, queue, hwaiting, htakes.drain, Queue.drain, hrefused]
  exact write_of_queue c hqueue

/-- A write fails for a text or for the flush, and for the flush only if all has been written. -/
theorem refused_or_unflushed (h : c.write s = (.error e, left, s')) :
    (∃ taken lost rest, Refusal c s taken lost rest e s') ∨
      ∃ taken, Unflushed c s taken left e s' := by
  obtain ⟨taken, rest, mid, hwaiting, htakes, hend | ⟨lost, later, e', s'', rfl, hrefused⟩⟩ :=
    exists_takes s c.waiting
  · have hdrain : Queue.drain c.queue.flushed s c.queue.waiting =
        (none, ⟨c.flushed + taken.length, rest⟩, mid) := by
      rw [queue, hwaiting, htakes.drain]
      exact Queue.drain_of_stopped _ mid hend
    have hqueue : c.queue.write s = (.error e, left.queue, s') := by
      rw [← queue_write, h]
    rw [Queue.write, hdrain] at hqueue
    simp only at hqueue
    split at hqueue
    · cases hqueue
    · split at hqueue
      · cases hqueue
      · rename_i hflush
        obtain ⟨herror, hqueue⟩ := Prod.mk.inj hqueue
        obtain ⟨hleft, rfl⟩ := Prod.mk.inj hqueue
        cases herror
        have hrest : rest = left.waiting := congrArg Queue.waiting hleft
        exact .inr ⟨taken, hrest ▸ hwaiting, (congrArg Queue.flushed hleft).symm, mid, htakes,
          hflush⟩
  · have hrefusal : Refusal c s taken lost later e' s'' := ⟨hwaiting, mid, htakes, hrefused⟩
    rw [hrefusal.write] at h
    cases h
    exact .inl ⟨taken, lost, later, hrefusal⟩

/-! ### Waiting for good -/

/-- The slot that is next in line has no text. -/
def Stuck (c : Collector) : Prop := c.outputs[c.flushed]? = some none

theorem Stuck.write (h : c.Stuck) (s : σ) : c.write s = (.ok 0, c, s) := by
  have hhead : c.queue.waiting.head? = some none := List.head?_drop.trans h
  rw [write_of_queue c (c.queue.write_of_stopped s (.inr hhead)), withQueue_queue]

omit [Writable σ] in
theorem Stuck.add (h : c.Stuck) {slot : Nat} (hslot : slot ≠ c.flushed) (text : String) :
    (c.add slot text).Stuck :=
  (List.getElem?_set_ne hslot).trans h

/-- Without a text for the slot next in line nothing is written, and nothing fails. -/
theorem serve_of_stuck (h : c.Stuck) (s : σ) (rs : List Request)
    (hrs : ∀ text, .add c.flushed text ∉ rs) :
    ∃ later, rs.foldl serve (c, s) = (later, s) ∧ later.flushed = c.flushed ∧
      later.write s = (.ok 0, later, s) := by
  induction rs generalizing c with
  | nil => exact ⟨c, rfl, rfl, h.write s⟩
  | cons r rs ih =>
    have hrest : ∀ text, .add c.flushed text ∉ rs :=
      fun text hmem => hrs text (List.mem_cons_of_mem r hmem)
    cases r with
    | write =>
      rw [List.foldl_cons, serve, h.write s]
      exact ih h hrest
    | add slot text =>
      have hslot : slot ≠ c.flushed := by
        rintro rfl
        exact hrs text List.mem_cons_self
      have hflushed := flushed_add c slot text
      rw [List.foldl_cons, serve, ← hflushed]
      exact ih (h.add hslot text) (hflushed ▸ hrest)

/-! ### Adding the text once more -/

theorem Refusal.flushed_le (h : Refusal c s taken lost rest e s') : c.flushed ≤ c.size := by
  have hlength := congrArg List.length h.waiting
  rw [Collector.waiting, List.length_drop, List.length_append, List.length_cons] at hlength
  have hsize : c.size = c.outputs.length := rfl
  omega

/-- What is left, once the text has been added to its slot again. -/
theorem Refusal.added (h : Refusal c s taken lost rest e s') :
    (c.withQueue ⟨c.flushed + taken.length, none :: rest⟩).add (c.flushed + taken.length) lost =
      c.withQueue ⟨c.flushed + taken.length, some lost :: rest⟩ := by
  rw [withQueue_add h.flushed_le (Nat.le_add_right _ _) (Nat.le_refl _), Queue.add,
    if_neg (Nat.lt_irrefl _), Nat.sub_self]
  rfl

theorem Refusal.readded (h : Refusal c s taken lost rest e s') {sink : Sink}
    (hsink : sink.broken = false) :
    ∃ n after more,
      c.write sink = (.ok (taken.length + n), after, sink.append (String.join taken ++ more)) ∧
      (c.withQueue ⟨c.flushed + taken.length, some lost :: rest⟩).write sink =
        (.ok n, after, sink.append more) := by
  obtain ⟨texts, behind, hwaiting, hbehind⟩ := Queue.exists_next_in_line (some lost :: rest)
  have hwhole : c.waiting = (taken ++ texts).map some ++ behind := by
    rw [h.waiting, hwaiting, List.map_append, List.append_assoc]
  have hwrite := c.queue.write_of_working hsink hwhole hbehind
  rw [List.length_append, String.join_append, ← Nat.add_assoc] at hwrite
  have hwrite' := Queue.write_of_working ⟨c.flushed + taken.length, _⟩ hsink hwaiting hbehind
  exact ⟨texts.length, _, _, write_of_queue c hwrite,
    withQueue_write h.flushed_le (Nat.le_add_right _ _) hwrite'⟩

/-- **A text that is refused is lost, and holds up all that comes behind it.** Unless it is only the
flush that failed, a write that fails leaves the texts before the refused one written, its slot
empty and the others as they were. Whatever is asked from then on, of whatever sink, writes nothing,
without saying so, until a text is added to that slot again. With the same text added to it, a
working sink gets what it would have got. -/
theorem refused_text_is_lost (h : c.write s = (.error e, left, s')) :
    (∃ taken, Unflushed c s taken left e s') ∨
    ∃ taken lost rest, Refusal c s taken lost rest e s' ∧
      left.flushed = c.flushed + taken.length ∧ left.waiting = none :: rest ∧
      (∀ {τ : Type} [Writable τ] (sink : τ) (rs : List Request),
        (∀ text, .add left.flushed text ∉ rs) →
          ∃ later, rs.foldl serve (left, sink) = (later, sink) ∧ later.flushed = left.flushed ∧
            later.write sink = (.ok 0, later, sink)) ∧
      ∀ sink : Sink, sink.broken = false → ∃ n after more,
        c.write sink = (.ok (taken.length + n), after, sink.append (String.join taken ++ more)) ∧
        (left.add left.flushed lost).write sink = (.ok n, after, sink.append more) := by
  rcases refused_or_unflushed h with ⟨taken, lost, rest, hrefusal⟩ | hunflushed
  · rw [hrefusal.write] at h
    cases h
    have hqueue : (c.withQueue ⟨c.flushed + taken.length, none :: rest⟩).queue =
        ⟨c.flushed + taken.length, none :: rest⟩ :=
      queue_withQueue hrefusal.flushed_le (Nat.le_add_right _ _)
    have hwaiting := congrArg Queue.waiting hqueue
    have hstuck : Stuck (c.withQueue ⟨c.flushed + taken.length, none :: rest⟩) :=
      List.head?_drop.symm.trans (congrArg List.head? hwaiting)
    refine .inr ⟨taken, lost, rest, hrefusal, rfl, hwaiting,
      fun sink rs hrs => serve_of_stuck hstuck sink rs hrs, fun sink hsink => ?_⟩
    obtain ⟨n, after, more, hwrite, hwrite'⟩ := hrefusal.readded hsink
    rw [← hrefusal.added] at hwrite'
    exact ⟨n, after, more, hwrite, hwrite'⟩
  · exact .inl hunflushed

/-- A page with lines left. -/
structure Page where
  contents : String
  left : Nat
  deriving DecidableEq, Repr

/-- A full page takes nothing. -/
instance : Writable Page where
  write page text :=
    match page.left with
    | 0 => (.error .closed, page)
    | left + 1 => (.ok (), ⟨page.contents ++ text, left⟩)
  flush page := (.ok (), page)

/-- Three texts in their slots. -/
def filled : Collector := (after 3 "" [.add 0 "a", .add 1 "b", .add 2 "c"]).1

/-- The page is full after the first, and the others are written to no other page. -/
theorem second_of_filled_is_lost :
    filled.write (⟨"", 1⟩ : Page) = (.error .closed, ⟨1, [none, none, some "c"]⟩, ⟨"a", 0⟩) ∧
      Refusal filled (⟨"", 1⟩ : Page) ["a"] "b" [some "c"] .closed ⟨"a", 0⟩ ∧
      (∃ later : Collector, [.add 2 "C", .write].foldl serve (⟨1, [none, none, some "c"]⟩, Sink.empty) =
          (later, Sink.empty) ∧
        later.flushed = 1 ∧ later.write Sink.empty = (.ok 0, later, Sink.empty)) ∧
      ∃ n after more, filled.write Sink.empty =
          (.ok (1 + n), after, Sink.empty.append (String.join ["a"] ++ more)) ∧
        (Collector.add ⟨1, [none, none, some "c"]⟩ 1 "b").write Sink.empty =
          (.ok n, after, Sink.empty.append more) := by
  have hwrite : filled.write (⟨"", 1⟩ : Page) =
      (.error .closed, ⟨1, [none, none, some "c"]⟩, ⟨"a", 0⟩) := by
    decide +kernel
  rcases refused_text_is_lost hwrite with ⟨taken, hunflushed⟩ |
    ⟨taken, lost, rest, hrefusal, hflushed, hwaiting, hstuck, hreadded⟩
  · -- A page can always be flushed.
    obtain ⟨mid, -, hflush⟩ := hunflushed.refused
    cases hflush
  · obtain ⟨first, rfl⟩ : ∃ first, taken = [first] :=
      List.length_eq_one_iff.mp (hflushed.trans (Nat.zero_add _)).symm
    have hslots : [some "a", some "b", some "c"] = some first :: some lost :: rest :=
      hrefusal.waiting
    cases hslots
    refine ⟨hwrite, hrefusal, hstuck Sink.empty [.add 2 "C", .write] ?_, hreadded Sink.empty rfl⟩
    intro text hmem
    simp at hmem

/-- Once the sink works again, what was refused is not written, nor what comes behind it. -/
theorem refused_text_stays_lost :
    ¬ ∀ (slots : Nat) (rs : List Request) (e : SinkError) (left : Collector) (sink : Sink),
      (after slots "" rs).1.write { (after slots "" rs).2 with broken := true } =
        (.error e, left, sink) →
      (left.write { sink with broken := false }).2.2.contents =
        (after slots "" (rs ++ [Request.write])).2.contents := by
  intro h
  have hlost := h 2 [.add 0 "a", .add 1 "b"] .closed ⟨0, [none, some "b"]⟩ ⟨"", true⟩ (by decide +kernel)
  revert hlost
  decide +kernel

end Verdict.Collector
