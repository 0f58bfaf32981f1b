import Mathlib.Data.List.Basic
import Verdict.Output

/-! What a collector still has to write.

A collector keeps all its slots, and one that has been written looks like one that has not got a
text yet. Only how many slots have been written tells them apart. What a collector does is decided
by the slots from the one next in line on, its `queue`: a text for a slot that has been written
changes nothing there (`queue_add`), and a write is one of the queue, with the slots that it comes
past left empty (`write_eq`). -/
namespace Verdict

/-- How many slots have been written, and the texts in the others. -/
structure Queue where
  flushed : Nat
  waiting : List (Option String)
  deriving DecidableEq, Repr

namespace Queue
variable {σ : Type} [Writable σ]

/-- A slot that has been written takes no text. -/
def add (q : Queue) (slot : Nat) (text : String) : Queue :=
  if slot < q.flushed then q
  else { q with waiting := q.waiting.set (slot - q.flushed) (some text) }

/-- Writes the slots at the head that hold a text. -/
def drain (flushed : Nat) (sink : σ) : List (Option String) → Option SinkError × Queue × σ
  | some text :: rest =>
    match Writable.write sink text with
    | (.ok (), sink) => drain (flushed + 1) sink rest
    | (.error e, sink) => (some e, ⟨flushed, none :: rest⟩, sink)
  | waiting => (none, ⟨flushed, waiting⟩, sink)

def write (q : Queue) (sink : σ) : Except SinkError Nat × Queue × σ :=
  match drain q.flushed sink q.waiting with
  | (some e, after, sink) => (.error e, after, sink)
  | (none, after, sink) =>
    let written := after.flushed - q.flushed
    if written = 0 then (.ok 0, after, sink)
    else
      match Writable.flush sink with
      | (.ok (), sink) => (.ok written, after, sink)
      | (.error e, sink) => (.error e, after, sink)

/-- What is next in line, and what is not: the slots from the first without a text on. -/
theorem exists_next_in_line (waiting : List (Option String)) :
    ∃ (texts : List String) (rest : List (Option String)),
      waiting = texts.map some ++ rest ∧ (rest = [] ∨ rest.head? = some none) := by
  induction waiting with
  | nil => exact ⟨[], [], rfl, .inl rfl⟩
  | cons head rest ih =>
    cases head with
    | none => exact ⟨[], none :: rest, rfl, .inr rfl⟩
    | some text =>
      obtain ⟨texts, rest', rfl, hrest⟩ := ih
      exact ⟨text :: texts, rest', rfl, hrest⟩

/-- Nothing is written where nothing is in the queue, and where its head has no text. -/
theorem drain_of_stopped (flushed : Nat) (sink : σ) {waiting : List (Option String)}
    (h : waiting = [] ∨ waiting.head? = some none) :
    drain flushed sink waiting = (none, ⟨flushed, waiting⟩, sink) := by
  unfold drain
  split
  · simp at h
  · rfl

theorem write_of_stopped (q : Queue) (sink : σ)
    (h : q.waiting = [] ∨ q.waiting.head? = some none) : q.write sink = (.ok 0, q, sink) := by
  rw [write, drain_of_stopped q.flushed sink h]
  exact if_pos (Nat.sub_self q.flushed)

/-- Writing succeeds where nothing is refused, neither a text nor the flush. -/
theorem write_of_drain {q after : Queue} {s s' : σ}
    (hdrain : drain q.flushed s q.waiting = (none, after, s'))
    (hflush : Writable.flush s' = (.ok (), s')) :
    q.write s = (.ok (after.flushed - q.flushed), after, s') := by
  unfold write
  rw [hdrain]
  simp only [hflush]
  split
  · rename_i hnone
    rw [hnone]
  · rfl

theorem flushed_le_drain (flushed : Nat) (sink : σ) (waiting : List (Option String)) :
    flushed ≤ (drain flushed sink waiting).2.1.flushed := by
  induction waiting generalizing flushed sink with
  | nil => exact Nat.le_refl _
  | cons head rest ih =>
    cases head with
    | none => exact Nat.le_refl _
    | some text =>
      rw [drain]
      split
      · exact Nat.le_trans (Nat.le_succ _) (ih _ _)
      · exact Nat.le_refl _

theorem flushed_le_write (q : Queue) (sink : σ) : q.flushed ≤ (q.write sink).2.1.flushed := by
  have hle := flushed_le_drain q.flushed sink q.waiting
  unfold write
  split <;> rename_i hdrain <;> rw [hdrain] at hle
  · exact hle
  · simp only
    split
    · exact hle
    · split <;> exact hle

/-- A write says how many slots were written. -/
theorem flushed_write {q q' : Queue} {sink sink' : σ} {n : Nat}
    (h : q.write sink = (.ok n, q', sink')) : q'.flushed = q.flushed + n := by
  have hle := flushed_le_drain q.flushed sink q.waiting
  unfold write at h
  split at h
  · cases h
  · rename_i hdrain
    rw [hdrain] at hle
    simp only at h hle
    split at h
    · cases h
      omega
    · split at h
      · cases h
        omega
      · cases h

end Queue

namespace Collector
variable {σ : Type} [Writable σ] {c : Collector} {q q' : Queue}

/-- The texts in the slots that have not been written. -/
def waiting (c : Collector) : List (Option String) := c.outputs.drop c.flushed

def queue (c : Collector) : Queue := ⟨c.flushed, c.waiting⟩

/-- The slots up to this one, once all of them have been written. -/
def passed (c : Collector) (flushed : Nat) : List (Option String) :=
  c.outputs.take c.flushed ++ List.replicate (flushed - c.flushed) none

/-- What becomes of a collector when its queue becomes this one: the slots that have been written
meanwhile are empty. -/
def withQueue (c : Collector) (q : Queue) : Collector :=
  ⟨q.flushed, c.passed q.flushed ++ q.waiting⟩

theorem queue_add (c : Collector) (slot : Nat) (text : String) :
    (c.add slot text).queue = c.queue.add slot text := by
  show Queue.mk c.flushed ((c.outputs.set slot (some text)).drop c.flushed) =
    if slot < c.flushed then c.queue else _
  rw [List.drop_set]
  split <;> rfl

theorem withQueue_queue (c : Collector) : c.withQueue c.queue = c := by
  have hpassed : c.passed c.flushed = c.outputs.take c.flushed := by
    rw [passed, Nat.sub_self, List.replicate_zero, List.append_nil]
  show Collector.mk c.flushed (c.passed c.flushed ++ c.outputs.drop c.flushed) = c
  rw [hpassed, List.take_append_drop]

theorem length_passed (h : c.flushed ≤ c.size) {flushed : Nat} (hle : c.flushed ≤ flushed) :
    (c.passed flushed).length = flushed := by
  rw [passed, List.length_append, List.length_take_of_le h, List.length_replicate]
  omega

theorem queue_withQueue (h : c.flushed ≤ c.size) (hle : c.flushed ≤ q.flushed) :
    (c.withQueue q).queue = q := by
  show Queue.mk q.flushed ((c.passed q.flushed ++ q.waiting).drop q.flushed) = q
  rw [List.drop_left' (length_passed h hle)]

/-- What became of the queue in between does not show. -/
theorem withQueue_withQueue (h : c.flushed ≤ c.size) (hle : c.flushed ≤ q.flushed)
    (hle' : q.flushed ≤ q'.flushed) : (c.withQueue q).withQueue q' = c.withQueue q' := by
  have hcount : q.flushed - c.flushed + (q'.flushed - q.flushed) = q'.flushed - c.flushed := by
    omega
  have hpassed : (c.withQueue q).passed q'.flushed = c.passed q'.flushed := by
    show (c.passed q.flushed ++ q.waiting).take q.flushed ++
      List.replicate (q'.flushed - q.flushed) none = _
    rw [List.take_left' (length_passed h hle), passed, List.append_assoc,
      List.replicate_append_replicate, hcount, passed]
  rw [withQueue, hpassed, withQueue]

/-- A text for a slot that waits goes into the queue. -/
theorem withQueue_add (h : c.flushed ≤ c.size) (hle : c.flushed ≤ q.flushed) {slot : Nat}
    (hslot : q.flushed ≤ slot) (text : String) :
    (c.withQueue q).add slot text = c.withQueue (q.add slot text) := by
  have hlength := length_passed h hle
  have hset : (c.passed q.flushed ++ q.waiting).set slot (some text) =
      c.passed q.flushed ++ q.waiting.set (slot - q.flushed) (some text) := by
    rw [List.set_append_right _ _ (by rwa [hlength]), hlength]
  rw [add, withQueue, hset, Queue.add, if_neg (by omega), withQueue]

/-! ### A write is one of the queue -/

/-- The slot that is written next heads the queue. -/
theorem waiting_of_lt (h : c.flushed < c.outputs.length) :
    c.waiting = c.outputs[c.flushed] :: c.outputs.drop (c.flushed + 1) :=
  List.drop_eq_getElem_cons h

theorem withQueue_of_refused (h : c.flushed < c.outputs.length) :
    c.withQueue ⟨c.flushed, none :: c.outputs.drop (c.flushed + 1)⟩ =
      { c with outputs := c.outputs.set c.flushed none } := by
  have hset : c.outputs.set c.flushed none =
      c.outputs.take c.flushed ++ none :: c.outputs.drop (c.flushed + 1) := by
    rw [List.set_eq_take_append_cons_drop]
    exact if_pos h
  rw [hset, withQueue, passed, Nat.sub_self, List.replicate_zero, List.append_nil]

/-- A slot that has been written is one of those that are passed. -/
theorem withQueue_of_written (h : c.flushed < c.outputs.length) (hle : c.flushed + 1 ≤ q.flushed) :
    withQueue ⟨c.flushed + 1, c.outputs.set c.flushed none⟩ q = c.withQueue q := by
  have hcount : q.flushed - c.flushed = 1 + (q.flushed - (c.flushed + 1)) := by omega
  have htake : (c.outputs.set c.flushed none).take (c.flushed + 1) =
      c.outputs.take c.flushed ++ List.replicate 1 none := by
    rw [List.take_succ_eq_append_getElem (by rwa [List.length_set]),
      List.take_set_of_le (Nat.le_refl _), List.getElem_set_self]
    rfl
  rw [withQueue, withQueue, passed, passed, htake, List.append_assoc (c.outputs.take _),
    List.replicate_append_replicate, ← hcount]

/-- How a write from the slot next in line ends: with an error, or with a count. -/
def answer (e? : Option SinkError) (written : Nat) : Except SinkError Nat :=
  match e? with
  | some e => .error e
  | none => .ok written

theorem answer_of_stopped (s : σ) (written : Nat) {e? : Option SinkError} {s' : σ}
    (h : Queue.drain c.flushed s c.waiting = (e?, q, s'))
    (hstop : c.waiting = [] ∨ c.waiting.head? = some none) :
    (.ok written, c, s) = (answer e? (written + (q.flushed - c.flushed)), c.withQueue q, s') := by
  have hqueue : (none, c.queue, s) = (e?, q, s') :=
    (Queue.drain_of_stopped c.flushed s hstop).symm.trans h
  cases hqueue
  rw [withQueue_queue, queue, Nat.sub_self]
  rfl

theorem drain_of_refused {s s' : σ} {text : String} {e : SinkError} (written left : Nat)
    (h : c.outputs[c.flushed]? = some (some text)) (hwrite : Writable.write s text = (.error e, s')) :
    c.drain s written (left + 1) =
      (.error e, { c with outputs := c.outputs.set c.flushed none }, s') := by
  rw [drain, h]
  simp only [hwrite]

theorem drain_of_taken {s s' : σ} {text : String} (written left : Nat)
    (h : c.outputs[c.flushed]? = some (some text)) (hwrite : Writable.write s text = (.ok (), s')) :
    c.drain s written (left + 1) =
      drain ⟨c.flushed + 1, c.outputs.set c.flushed none⟩ s' (written + 1) left := by
  rw [drain, h]
  simp only [hwrite]

/-- The induction is on how many slots there are from the one next in line on: each text that is
taken leaves one fewer, and the queue without its head. -/
theorem drain_of_queue (s : σ) (written left : Nat) (hleft : c.size - c.flushed = left)
    {e? : Option SinkError} {s' : σ} (h : Queue.drain c.flushed s c.waiting = (e?, q, s')) :
    c.drain s written left =
      (answer e? (written + (q.flushed - c.flushed)), c.withQueue q, s') := by
  induction left generalizing c s written with
  | zero =>
    exact answer_of_stopped s written h
      (.inl (List.drop_eq_nil_of_le (Nat.sub_eq_zero_iff_le.mp hleft)))
  | succ left ih =>
    have hlt : c.flushed < c.outputs.length := by
      have hsize : c.size = c.outputs.length := rfl
      omega
    have hwaiting := waiting_of_lt hlt
    have hnext := List.getElem?_eq_getElem hlt
    cases htext : c.outputs[c.flushed] with
    | none =>
      rw [drain, hnext, htext]
      refine answer_of_stopped s written h (.inr ?_)
      rw [hwaiting, htext, List.head?_cons]
    | some text =>
      rw [htext] at hwaiting hnext
      rw [hwaiting, Queue.drain] at h
      cases hwrite : Writable.write s text with
      | mk taken mid =>
        rw [hwrite] at h
        cases taken with
        | error e =>
          cases h
          rw [drain_of_refused written left hnext hwrite, withQueue_of_refused hlt]
          rfl
        | ok _ =>
          let c' : Collector := ⟨c.flushed + 1, c.outputs.set c.flushed none⟩
          have hwaiting' : c'.waiting = c.outputs.drop (c.flushed + 1) := by
            show (c.outputs.set c.flushed none).drop (c.flushed + 1) = _
            rw [List.drop_set, if_pos (Nat.lt_succ_self _)]
          have hleft' : c'.size - c'.flushed = left := by
            have hsize : c'.size = c.size := List.length_set
            have hflushed : c'.flushed = c.flushed + 1 := rfl
            omega
          have h' : Queue.drain c'.flushed mid c'.waiting = (e?, q, s') := by
            rw [hwaiting']
            exact h
          have hle : c.flushed + 1 ≤ q.flushed := by
            have hle := Queue.flushed_le_drain c'.flushed mid c'.waiting
            rwa [h'] at hle
          have hcount : written + 1 + (q.flushed - c'.flushed) =
              written + (q.flushed - c.flushed) := by
            have hflushed : c'.flushed = c.flushed + 1 := rfl
            omega
          rw [drain_of_taken written left hnext hwrite, ih mid (written + 1) hleft' h', hcount,
            withQueue_of_written hlt hle]

/-- **A collector writes what its queue does.** The slots that it comes past are left empty. -/
theorem write_of_queue (c : Collector) {s s' : σ} {written : Except SinkError Nat}
    (h : c.queue.write s = (written, q, s')) : c.write s = (written, c.withQueue q, s') := by
  cases hdrain : Queue.drain c.flushed s c.waiting with
  | mk e? rest =>
    obtain ⟨after, mid⟩ := rest
    have hqueue : Queue.drain c.queue.flushed s c.queue.waiting = (e?, after, mid) := hdrain
    rw [Queue.write, hqueue] at h
    rw [write, drain_of_queue s 0 _ rfl hdrain, Nat.zero_add]
    cases e? with
    | some e =>
      cases h
      rfl
    | none =>
      rw [answer]
      simp only at h ⊢
      have hflushed : c.queue.flushed = c.flushed := rfl
      rw [hflushed] at h
      by_cases hnone : after.flushed - c.flushed = 0
      · rw [if_pos hnone] at h ⊢
        cases h
        rfl
      · rw [if_neg hnone] at h ⊢
        cases hflush : Writable.flush mid with
        | mk taken s'' =>
          rw [hflush] at h
          cases taken <;> cases h <;> rfl

/-- The queue knows nothing of the slots that have been written. -/
theorem queue_write (c : Collector) (s : σ) :
    ((c.write s).1, (c.write s).2.1.queue, (c.write s).2.2) = c.queue.write s := by
  have hwrite : c.write s =
      ((c.queue.write s).1, c.withQueue (c.queue.write s).2.1, (c.queue.write s).2.2) :=
    c.write_of_queue rfl
  by_cases h : c.flushed ≤ c.size
  · rw [hwrite, queue_withQueue h (Queue.flushed_le_write c.queue s)]
  · -- Nothing is left.
    have hempty : c.queue.waiting = [] := List.drop_eq_nil_of_le (Nat.le_of_not_le h)
    rw [hwrite, c.queue.write_of_stopped s (.inl hempty), withQueue_queue]

theorem withQueue_write (h : c.flushed ≤ c.size) (hle : c.flushed ≤ q.flushed) {s s' : σ}
    {written : Except SinkError Nat} (hwrite : q.write s = (written, q', s')) :
    (c.withQueue q).write s = (written, c.withQueue q', s') := by
  have hle' : q.flushed ≤ q'.flushed := by
    have hle' := q.flushed_le_write s
    rwa [hwrite] at hle'
  rw [← queue_withQueue h hle] at hwrite
  rw [write_of_queue _ hwrite, withQueue_withQueue h hle hle']

/-- A write that succeeds says how many slots were written. -/
theorem flushed_write {s s' : σ} {n : Nat} {c' : Collector} (h : c.write s = (.ok n, c', s')) :
    c'.flushed = c.flushed + n := by
  have hqueue := c.queue_write s
  rw [h] at hqueue
  exact Queue.flushed_write hqueue.symm

end Collector

end Verdict
