import Verdict.Proofs.Output.Queue

/-! What a collector writes.

To a sink that works it writes all that is next in line (`write_of_working`). `Tracks` relates a
collector to the texts that have been put into its slots: it has written the first of them, in the
order of the slots, and still holds the others. As long as the sink works this is kept by every
`add` and every `write`, and after a `write` the collector waits for the first slot without a
text. -/
namespace Verdict

/-- Any sink takes nothing and is left as it is. -/
theorem Sink.write_nothing (sink : Sink) : sink.write "" = (.ok (), sink) := by
  have htakes : sink.takes "" = true := Bool.or_true _
  rw [Sink.write, htakes, if_pos rfl, Sink.append, String.append_empty]

/-- A sink loses nothing. -/
theorem Sink.write_contents (sink : Sink) (text : String) :
    ∃ more, (sink.write text).2.contents = sink.contents ++ more := by
  unfold Sink.write
  split
  · exact ⟨text, rfl⟩
  · exact ⟨"", (String.append_empty).symm⟩

namespace Collector
variable {sink : Sink}

theorem takes_of_working (hsink : sink.broken = false) (text : String) : sink.takes text = true := by
  simp [Sink.takes, hsink]

theorem writes_of_working (hsink : sink.broken = false) (text : String) :
    Writable.write sink text = (.ok (), sink.append text) := by
  show sink.write text = _
  rw [Sink.write, takes_of_working hsink, if_pos rfl]

theorem flushes_of_working (hsink : sink.broken = false) :
    Writable.flush sink = (.ok (), sink) := by
  show sink.flush = _
  rw [Sink.flush, hsink]
  rfl

end Collector

namespace Queue
variable {sink : Sink}
open Collector (writes_of_working flushes_of_working)

/-- A working sink takes all the texts that are next in line. -/
theorem drain_of_working (flushed : Nat) (hsink : sink.broken = false) (texts : List String)
    {rest : List (Option String)} (hrest : rest = [] ∨ rest.head? = some none) :
    drain flushed sink (texts.map some ++ rest) =
      (none, ⟨flushed + texts.length, rest⟩, sink.append (String.join texts)) := by
  induction texts generalizing flushed sink with
  | nil =>
    rw [String.join_nil, Sink.append, String.append_empty]
    exact drain_of_stopped flushed sink hrest
  | cons text texts ih =>
    have happended : (sink.append text).broken = false := hsink
    rw [List.map_cons, List.cons_append, drain, writes_of_working hsink]
    simp only
    rw [ih (flushed + 1) happended, List.length_cons, String.join_cons, Nat.add_assoc,
      Nat.add_comm 1, Sink.append, Sink.append, Sink.append, String.append_assoc]

theorem write_of_working (q : Queue) (hsink : sink.broken = false) {texts : List String}
    {rest : List (Option String)} (hwaiting : q.waiting = texts.map some ++ rest)
    (hrest : rest = [] ∨ rest.head? = some none) :
    q.write sink = (.ok texts.length, ⟨q.flushed + texts.length, rest⟩,
      sink.append (String.join texts)) := by
  have hdrain := drain_of_working q.flushed hsink texts hrest
  rw [← hwaiting] at hdrain
  rw [write_of_drain hdrain (flushes_of_working hsink), Nat.add_sub_cancel_left]

theorem drain_contents (flushed : Nat) (sink : Sink) (waiting : List (Option String)) :
    ∃ more, (drain flushed sink waiting).2.2.contents = sink.contents ++ more := by
  induction waiting generalizing flushed sink with
  | nil => exact ⟨"", (String.append_empty).symm⟩
  | cons head rest ih =>
    cases head with
    | none => exact ⟨"", (String.append_empty).symm⟩
    | some text =>
      obtain ⟨more, hmore⟩ : ∃ more, (Writable.write sink text).2.contents = sink.contents ++ more :=
        sink.write_contents text
      rw [drain]
      split
      · rename_i hwrite
        rw [hwrite] at hmore
        obtain ⟨later, hlater⟩ := ih (flushed + 1) _
        exact ⟨more ++ later, by rw [hlater, hmore, String.append_assoc]⟩
      · rename_i hwrite
        rw [hwrite] at hmore
        exact ⟨more, hmore⟩

theorem write_contents (q : Queue) (sink : Sink) :
    ∃ more, (q.write sink).2.2.contents = sink.contents ++ more := by
  obtain ⟨more, hmore⟩ := drain_contents q.flushed sink q.waiting
  refine ⟨more, ?_⟩
  unfold write
  split
  · rename_i hdrain
    rw [hdrain] at hmore
    exact hmore
  · rename_i after drained hdrain
    rw [hdrain] at hmore
    simp only
    split
    · exact hmore
    · split <;> rename_i hflush <;> exact congrArg Prod.snd hflush ▸ hmore

end Queue

namespace Collector

/-- A collector writes the same to any sink that works: all that is next in line. -/
theorem write_of_working (c : Collector) :
    ∃ texts rest after, c.waiting = texts.map some ++ rest ∧
      (rest = [] ∨ rest.head? = some none) ∧
      after.flushed = c.flushed + texts.length ∧ after.waiting = rest ∧
      ∀ sink : Sink, sink.broken = false →
        c.write sink = (.ok texts.length, after, sink.append (String.join texts)) := by
  obtain ⟨texts, rest, hwaiting, hrest⟩ := Queue.exists_next_in_line c.waiting
  have hqueue (sink : Sink) (hsink : sink.broken = false) :
      c.queue.write sink = _ :=
    c.queue.write_of_working hsink hwaiting hrest
  have hwrite (sink : Sink) (hsink : sink.broken = false) := c.write_of_queue (hqueue sink hsink)
  have hafter : (c.withQueue ⟨c.flushed + texts.length, rest⟩).queue =
      ⟨c.flushed + texts.length, rest⟩ := by
    have hsame := c.queue_write Sink.empty
    rw [hqueue _ rfl, hwrite _ rfl] at hsame
    exact congrArg (·.2.1) hsame
  exact ⟨texts, rest, _, hwaiting, hrest, rfl, congrArg Queue.waiting hafter, hwrite⟩

/-- Whether a sink works or not, a collector only adds to it. -/
theorem write_contents (c : Collector) (sink : Sink) :
    ∃ more, (c.write sink).2.2.contents = sink.contents ++ more := by
  have hsame : (c.write sink).2.2 = (c.queue.write sink).2.2 :=
    congrArg (·.2.2) (c.queue_write sink)
  rw [hsame]
  exact c.queue.write_contents sink

/-- These texts have been put into the slots. The first of them have been written behind
`base`, and the others are waiting. -/
structure Tracks (c : Collector) (given : List (Option String)) (base : String) (sink : Sink) :
    Prop where
  flushed : c.flushed ≤ given.length
  waiting : c.waiting = given.drop c.flushed
  written : ∃ texts, given.take c.flushed = texts.map some ∧
    sink.contents = base ++ String.join texts

variable {c : Collector} {given : List (Option String)} {base text : String} {sink : Sink}
  {slot : Nat}

theorem tracks_withSlots (n : Nat) (h : sink.contents = base) :
    (withSlots n).Tracks (List.replicate n none) base sink := by
  refine ⟨Nat.zero_le _, rfl, [], rfl, ?_⟩
  rw [h, String.join_nil, String.append_empty]

/-- A slot without a text has not been written. -/
theorem Tracks.flushed_le (h : c.Tracks given base sink) (hslot : given[slot]? = some none) :
    c.flushed ≤ slot := by
  apply Nat.le_of_not_lt
  intro hlt
  obtain ⟨texts, htake, -⟩ := h.written
  have hmem : none ∈ given.take c.flushed := by
    refine List.mem_of_getElem? (i := slot) ?_
    rw [List.getElem?_take_of_lt hlt, hslot]
  rw [htake] at hmem
  obtain ⟨_, _, h⟩ := List.mem_map.mp hmem
  cases h

/-- A slot that has not been written takes a text, in the place of the one it may hold. -/
theorem Tracks.put (h : c.Tracks given base sink) (hle : c.flushed ≤ slot) :
    (c.add slot text).Tracks (given.set slot (some text)) base sink := by
  obtain ⟨texts, htake, hcontents⟩ := h.written
  refine ⟨by rw [List.length_set]; exact h.flushed, ?_, texts, ?_, hcontents⟩
  · have hwaiting : c.outputs.drop c.flushed = given.drop c.flushed := h.waiting
    show (c.outputs.set slot (some text)).drop c.flushed =
      (given.set slot (some text)).drop c.flushed
    rw [List.drop_set, List.drop_set, hwaiting]
  · show (given.set slot (some text)).take c.flushed = _
    rw [List.take_set, List.set_eq_of_length_le (by rw [List.length_take]; omega), htake]

theorem Tracks.add (h : c.Tracks given base sink) (hslot : given[slot]? = some none) :
    (c.add slot text).Tracks (given.set slot (some text)) base sink :=
  h.put (h.flushed_le hslot)

/-- What has been put into a slot that has been written is not tracked. -/
theorem Tracks.add_written (h : c.Tracks given base sink) (hlt : slot < c.flushed) :
    (c.add slot text).Tracks given base sink := by
  refine ⟨h.flushed, ?_, h.written⟩
  show (c.outputs.set slot (some text)).drop c.flushed = _
  rw [List.drop_set, if_pos hlt]
  exact h.waiting

/-- All that is next in line is written behind the rest. -/
theorem Tracks.next_in_line (h : c.Tracks given base sink) {after : Collector}
    {texts : List String} {rest : List (Option String)}
    (hwaiting : c.waiting = texts.map some ++ rest) (hrest : rest = [] ∨ rest.head? = some none)
    (hflushed : after.flushed = c.flushed + texts.length) (hafter : after.waiting = rest) :
    after.Tracks given base (sink.append (String.join texts)) ∧
      (after.flushed = given.length ∨ given[after.flushed]? = some none) := by
  obtain ⟨before, htake, hcontents⟩ := h.written
  have hgiven : given = (before ++ texts).map some ++ rest := by
    rw [List.map_append, List.append_assoc, ← htake, ← hwaiting, h.waiting, List.take_append_drop]
  have hlength : ((before ++ texts).map some).length = after.flushed := by
    have hlen := congrArg List.length htake
    rw [List.length_take, List.length_map] at hlen
    have := h.flushed
    rw [List.length_map, List.length_append, hflushed]
    omega
  have hdrop : given.drop after.flushed = rest := by
    rw [hgiven, List.drop_left' hlength]
  refine ⟨⟨?_, hafter.trans hdrop.symm, before ++ texts, ?_, ?_⟩, ?_⟩
  · rw [hgiven, List.length_append, hlength]
    exact Nat.le_add_right _ _
  · rw [hgiven, List.take_left' hlength]
  · rw [Sink.append, hcontents, String.join_append, String.append_assoc]
  · rcases hrest with hnil | hhead
    · left
      rw [hgiven, hnil, List.append_nil, hlength]
    · right
      rw [← hhead, ← hdrop, List.head?_drop]

/-- Writing to a working sink succeeds and gets as far as there are texts. -/
theorem Tracks.write (h : c.Tracks given base sink) (hsink : sink.broken = false) :
    ∃ n c' sink', c.write sink = (.ok n, c', sink') ∧ c'.Tracks given base sink' ∧
      sink'.broken = false ∧ (c'.flushed = given.length ∨ given[c'.flushed]? = some none) := by
  obtain ⟨texts, rest, after, hwaiting, hrest, hflushed, hafter, hwrite⟩ := c.write_of_working
  obtain ⟨htracks, hend⟩ := h.next_in_line hwaiting hrest hflushed hafter
  exact ⟨_, after, _, hwrite sink hsink, htracks, hsink, hend⟩

/-- What a collector is said to have written may be kept apart from the sink it writes to, which
others write to as well. -/
theorem Tracks.write_elsewhere {own : Sink} (h : c.Tracks given base own)
    (hsink : sink.broken = false) :
    ∃ n after text, c.write sink = (.ok n, after, sink.append text) ∧
      after.Tracks given base (own.append text) ∧
      (after.flushed = given.length ∨ given[after.flushed]? = some none) := by
  obtain ⟨texts, rest, after, hwaiting, hrest, hflushed, hafter, hwrite⟩ := c.write_of_working
  obtain ⟨htracks, hend⟩ := h.next_in_line hwaiting hrest hflushed hafter
  exact ⟨_, after, _, hwrite sink hsink, htracks, hend⟩

/-- Once every slot has its text and all are written, the sink holds them in order. -/
theorem Tracks.contents_of_full {texts : List String} (h : c.Tracks (texts.map some) base sink)
    (hfull : c.flushed = (texts.map some).length) :
    sink.contents = base ++ String.join texts := by
  obtain ⟨texts', htake, hcontents⟩ := h.written
  rw [hfull, List.take_length] at htake
  rw [hcontents, (List.map_inj_right fun _ _ => Option.some.inj).mp htake]

end Collector

end Verdict
