import Mathlib.Data.List.Nodup
import Verdict.Proofs.Engine.Backing
import Verdict.Proofs.Engine.Earned
import Verdict.Proofs.Engine.Interleaving

/-! A program that is verified twice.

Once a program has been verified without a fault, the cache has the results of all of its
implementations (`backed_report`). As long as they stay there, another verification finds each of
them at the first look. No attempt goes on to ask for a session, so that whatever happens is a
schedule of an undisturbed batch (`schedule_of_served`), and what such a batch leaves is known
(`OnWay.leaves`). -/
namespace Verdict

theorem exists_getElem?_forall₂ {α β : Type} {R : α → β → Prop} {l : List α} {l' : List β}
    (h : List.Forall₂ R l l') {i : Nat} {x : α} (hx : l[i]? = some x) :
    ∃ y, l'[i]? = some y ∧ R x y := by
  obtain ⟨hi, rfl⟩ := List.getElem?_eq_some_iff.mp hx
  exact ⟨_, List.getElem?_eq_getElem (h.length_eq ▸ hi), h.get hi _⟩

theorem exists_of_mem_forall₂ {α β : Type} {R : α → β → Prop} {l : List α} {l' : List β}
    (h : List.Forall₂ R l l') {x : α} (hx : x ∈ l) : ∃ y ∈ l', R x y := by
  obtain ⟨i, hi⟩ := List.mem_iff_getElem?.mp hx
  obtain ⟨y, hy, hxy⟩ := exists_getElem?_forall₂ h hi
  exact ⟨y, List.mem_of_getElem? hy, hxy⟩

theorem forall₂_of_getElem? {α β : Type} {R : α → β → Prop} {l : List α} {l' : List β}
    (hlength : l.length = l'.length)
    (h : ∀ (i : Nat) x y, l[i]? = some x → l'[i]? = some y → R x y) : List.Forall₂ R l l' :=
  List.forall₂_iff_get.mpr ⟨hlength, fun i hi hi' =>
    h i _ _ (List.getElem?_eq_getElem hi) (List.getElem?_eq_getElem hi')⟩

/-! ### Counts -/

namespace Cache

/-- What the result under this key counts for. -/
def tally (c : Cache) (key : CacheKey) : Tally :=
  ((key.checksum.bind fun checksum => c.entries.lookup checksum).map fun e =>
    (Statistics.ofRun e.result).all).getD 0

theorem Backs.tally {c : Cache} {key : CacheKey} {r : Result} (h : c.Backs key r) :
    c.tally key = (Statistics.ofRun r).all := by
  obtain ⟨checksum, kept, hc, hl, -, hout, hcex⟩ := h
  simp only [Cache.tally, hc, Option.bind_some, hl, Option.map_some, Option.getD_some,
    Statistics.ofRun, Statistics.record, Result.errorCount, Result.errors, hout, hcex]

end Cache

/-- An attempt completed with what the cache has under this key. -/
def Ending.Backed (c : Cache) (key : CacheKey) (x : Ending) : Prop :=
  ∃ r, x = .completed r ∧ c.Backs key r

/-- What a batch counts is what the cache has for it. -/
theorem tally_of_backed {c : Cache} {key : DeclId → CacheKey} {ids : List DeclId} {xs : List Ending}
    (h : List.Forall₂ (fun id x => x.Backed c (key id)) ids xs) :
    ((xs.filterMap Ending.result?).map Statistics.ofRun).sum.all =
      (ids.map fun id => c.tally (key id)).sum := by
  induction h with
  | nil => rfl
  | cons hfirst _ ih =>
    obtain ⟨r, rfl, hbacks⟩ := hfirst
    rw [List.map_cons, List.sum_cons, ← ih, hbacks.tally]
    rfl

/-! ### An attempt that is served -/

/-- Only an attempt that has a session, or waits for one, is told anything. -/
theorem Attempt.Turn.advance_of_idle {k : Ticket} {slot : Nat} {s s' : Shared} {tray tray' : Tray}
    {a a' : Attempt} {q : Prompt} (h : Turn k slot s tray a q s' tray' a')
    (hsession : a.phase.session? = none) (hopening : a.phase.isOpening = false) : q = .advance := by
  cases h with
  | equip hp | refuse hp =>
    rw [hp] at hopening
    cases hopening
  | find hp | fault hp | crash hp =>
    rw [hp] at hsession
    cases hsession
  | _ => rfl

namespace Setting
open Engine

variable {x : Setting} {ts : List Target} {base : String} {g₀ n : Nat} {s : Shared} {a : Attempt}
  {b : Batch} {e e' e₀ : Engine} {m : Move} {ms : List Move} {t : Target} {p : Pending}
  {ids : List DeclId} {analysis : Analysis} {r : Result}

/-- The cache has a result for each of these targets. -/
def Served (x : Setting) (ts : List Target) : Prop := ∀ t ∈ ts, (x.found? t).isSome

theorem Expected.idle (h : x.Expected a) (served : (x.found? a.target).isSome) :
    a.phase.session? = none ∧ a.phase.isOpening = false := by
  have hfound : x.found? a.target ≠ none := Option.isSome_iff_ne_none.mp served
  unfold Expected at h
  cases hp : a.phase with
  | opening | equipped =>
    rw [hp] at h
    exact absurd h hfound
  | verifying =>
    rw [hp] at h
    exact absurd h.1 hfound
  | _ => exact ⟨rfl, rfl⟩

theorem OnWay.idle (h : x.OnWay ts base g₀ s b) (served : x.Served ts) {slot : Nat}
    (ha : b.attempts[slot]? = some a) : a.phase.session? = none ∧ a.phase.isOpening = false := by
  refine (h.expected slot a ha).idle (served _ ?_)
  rw [← h.targets]
  exact List.mem_map_of_mem (List.mem_of_getElem? ha)

/-- Whatever move of its own a served batch can make, it makes undisturbed. -/
theorem OnWay.conforms (h : x.OnWay ts base g₀ e.shared b) (served : x.Served ts)
    (hb : e.batches[n]? = some b) (hm : m.batch? = some n) (hstep : e.step m = some e') :
    Conforms x.verifier n e m := by
  cases transition_of_step hstep with
  | @attempt m id q b₁ a a' s' tray' hprompt hb₁ ha hturn =>
    obtain rfl : id.batch = n := Option.some.inj ((Move.batch?_of_prompt? hprompt).symm.trans hm)
    cases hb.symm.trans hb₁
    obtain ⟨hsession, hopening⟩ := h.idle served ha
    obtain rfl := hturn.advance_of_idle hsession hopening
    rw [Move.eq_advance hprompt]
    exact .advance id.slot
  | @batch m i c b₁ b' s' hcall =>
    obtain rfl : i = n := Option.some.inj ((Move.batch?_of_call? hcall).symm.trans hm)
    cases m <;> cases hcall
    · exact .await
    · exact .conclude
    · exact .finish
  | submit | cancel | clearCache | breakSink => cases hm

/-- Every run of a served batch alone is a schedule of it. -/
theorem OnWay.schedule_of_served (h : x.OnWay ts base g₀ e₀.shared b) (apart : x.Apart ts)
    (lasting : x.verifier.Lasting) (served : x.Served ts) (hb : e₀.batches[n]? = some b)
    (ran : e₀.run ms = some e) (own : ∀ m ∈ ms, m.batch? = some n) :
    Schedule x.verifier n e₀ ms e := by
  refine run_induction (P := fun ms e => (∀ m ∈ ms, m.batch? = some n) →
    Schedule x.verifier n e₀ ms e) ?_ ?_ ran own
  · exact fun _ => .nil
  · intro ms m e₁ e₂ _ ih hstep _ own
    have hschedule := ih fun m' hm' => own m' (List.mem_append_left _ hm')
    obtain ⟨b₁, hb₁, h₁, -⟩ := h.schedule apart lasting hb hschedule
    have hm := own m (List.mem_append_right _ List.mem_cons_self)
    exact .concat hschedule (h₁.conforms served hb₁ hm hstep) hstep

/-- What comes of a target that is served is what the cache has for it. -/
theorem Comes.of_served (h : x.Comes t p) (served : (x.found? t).isSome) :
    p.result.wasCached = true ∧ x.cache.Backs (x.key t) p.result := by
  obtain ⟨r, hr⟩ := Option.isSome_iff_exists.mp served
  have hresult : p.result = { r with requestId := x.ticket.requestId } := by
    cases h with
    | served hr' =>
      cases hr.symm.trans hr'
      rfl
    | found _ hnone => cases hr.symm.trans hnone
    | faulted hnone => cases hr.symm.trans hnone
  have hl : (x.cache.lookup (x.key t) x.options.cacheMode.serves).1 = some r := by
    unfold found? at hr
    split at hr
    · exact hr
    · cases hr
  obtain ⟨_, _, _, _, _, _, _, hcached⟩ := Cache.of_served hl
  obtain ⟨checksum, kept, hknown⟩ := Cache.backs_of_served hl
  rw [hresult]
  exact ⟨by rw [hcached], checksum, kept, hknown⟩

/-! ### A batch for a program -/

theorem key_ofSubmit {v : Verifier} {requestId : String} {id : DeclId} (h : Names analysis id t) :
    (ofSubmit v e requestId analysis).key t = analysis.keyOf id := by
  show (prepare e.shared.options analysis).key t.id t.declaration.name = _
  rw [Analysis.key_prepare, h.1, Analysis.keyOf, Program.nameOf, h.2]
  rfl

theorem keys_ofSubmit {v : Verifier} {requestId : String}
    (names : List.Forall₂ (Names analysis) ids ts) :
    ts.map (ofSubmit v e requestId analysis).key = ids.map analysis.keyOf := by
  induction names with
  | nil => rfl
  | cons h _ ih => rw [List.map_cons, List.map_cons, key_ofSubmit h, ih]

/-- Targets whose keys are distinct are apart. -/
theorem apart_ofSubmit {v : Verifier} {requestId : String}
    (names : List.Forall₂ (Names analysis) ids ts) (distinct : analysis.Distinct ids)
    (nodup : ids.Nodup) : (ofSubmit v e requestId analysis).Apart ts := by
  have hkeys : ts.map (ofSubmit v e requestId analysis).key = ids.map analysis.keyOf :=
    keys_ofSubmit names
  constructor
  case names =>
    have hnames : ts.map (·.declaration.name) = ids.map fun id => (analysis.keyOf id).name := by
      have h := congrArg (List.map CacheKey.name) hkeys
      rw [List.map_map, List.map_map] at h
      exact h
    rw [hnames]
    exact List.Nodup.map_on distinct.names nodup
  case checksums =>
    have hchecksums :
        (ts.map fun t => ((ofSubmit v e requestId analysis).key t).checksum).Nodup := by
      have h := congrArg (List.map CacheKey.checksum) hkeys
      rw [List.map_map, List.map_map] at h
      rw [show (ts.map fun t => ((ofSubmit v e requestId analysis).key t).checksum) = _ from h]
      exact List.Nodup.map_on distinct.checksums nodup
    refine (List.pairwise_map.mp hchecksums).imp fun hne checksum hc hc' => hne ?_
    rw [hc, hc']

end Setting

namespace Engine

/-! ### Later states -/

/-- What may become of an engine: it makes moves, request ids are made up and verifications signed
off, and whoever has its cache may do with that as they please. -/
inductive Later (e : Engine) : Engine → Prop
  | refl : Later e e
  | step {e' e'' : Engine} {m : Move} : Later e e' → e'.step m = some e'' → Later e e''
  | freshRequestId {e' : Engine} : Later e e' → Later e e'.freshRequestId.2
  | signOff {e' : Engine} (r : BatchReport) : Later e e' → Later e (e'.signOff r).2
  | withCache {e' : Engine} (c : Cache) : Later e e' → Later e (e'.withCache c)

variable {e e' e₀ e₁ e₂ e₃ : Engine} {a a' : Analysis} {ms ms' : List Move} {n : Nat}
  {r : BatchReport} {ids : List DeclId} {ts : List Target} {requestId : String}

theorem signOff_cases (e : Engine) (r : BatchReport) :
    ∃ sink, (e.signOff r).2 = { e with shared := { e.shared with sink } } := by
  unfold signOff
  split
  · exact ⟨e.shared.sink, rfl⟩
  · split
    rename_i written sink hwrite
    cases written <;> exact ⟨sink, rfl⟩

theorem Later.orderly (h : Later e e') (orderly : e.Orderly) : e'.Orderly := by
  induction h with
  | refl => exact orderly
  | step _ hstep ih => exact (transition_of_step hstep).orderly ih
  | freshRequestId _ ih => exact ⟨ih.permits, ih.requests, ih.roster, ih.awaits⟩
  | @signOff e' r _ ih =>
    obtain ⟨sink, hsink⟩ := e'.signOff_cases r
    rw [hsink]
    exact ⟨ih.permits, ih.requests, ih.roster, ih.awaits⟩
  | withCache _ _ ih => exact ⟨ih.permits, ih.requests, ih.roster, ih.awaits⟩

theorem Later.options (h : Later e e') : e'.shared.options = e.shared.options := by
  induction h with
  | refl => rfl
  | step _ hstep ih => exact (transition_of_step hstep).grows.options.trans ih
  | freshRequestId _ ih => exact ih
  | @signOff e' r _ ih =>
    obtain ⟨sink, hsink⟩ := e'.signOff_cases r
    rw [hsink]
    exact ih
  | withCache _ _ ih => exact ih

theorem Later.trans (h : Later e e₁) (h' : Later e₁ e₂) : Later e e₂ := by
  induction h' with
  | refl => exact h
  | step _ hstep ih => exact .step ih hstep
  | freshRequestId _ ih => exact .freshRequestId ih
  | signOff r _ ih => exact .signOff r ih
  | withCache c _ ih => exact .withCache c ih

theorem later_run (ran : e.run ms = some e') : Later e e' :=
  run_induction (P := fun _ e' => Later e e') .refl (fun _ ih hstep _ => .step ih hstep) ran

theorem later_verify (e : Engine) (a : Analysis) : Later e (e.verify a).2 := by
  obtain ⟨ts, -, hverify⟩ := e.verify_eq a
  rw [hverify]
  exact .step (m := .submit e.freshRequestId.1 a ts) (.freshRequestId .refl) rfl

/-! ### The first verification -/

/-- After a batch without a fault the cache has all that was reported. -/
theorem backed_report (mode : e.shared.options.cacheMode = .on)
    (names : List.Forall₂ (Names a) ids ts) (nodup : ids.Nodup) (distinct : a.Distinct ids)
    (ran : (e.submit requestId a ts).run ms = some e₁)
    (untouched : (e.submit requestId a ts).Untouched e.batches.length ms)
    (faultless : ∀ i f, ¬Receives ms ⟨e.batches.length, i⟩ f)
    (done : e₁.outcome? e.batches.length = some (.ok r)) (completed : r.outcome = .completed) :
    List.Forall₂ (fun id x => x.Backed e₁.shared.cache (a.keyOf id)) ids r.endings ∧
      r.statistics = (r.results.map Statistics.ofRun).sum := by
  let x := Setting.ofSubmit (fun _ => .ok (.bare .correct)) e requestId a
  have hkey : ∀ {id t}, Names a id t → x.key t = a.keyOf id := fun h => Setting.key_ofSubmit h
  have hkeeps : e.shared.usesCache = true := by
    rw [Shared.usesCache, mode]
    rfl
  have hdefined : ∀ t ∈ ts, (x.key t).checksum.isSome := by
    intro t ht
    obtain ⟨id, hid, hname⟩ := exists_of_mem_forall₂ names.flip ht
    rw [hkey hname]
    exact (distinct.defined id hid).1
  have hfirst : (e.submit requestId a ts).batches[e.batches.length]? =
      some (.scheduled x.ticket ts) := List.getElem?_concat_length
  obtain ⟨b, hb, hbacked⟩ := backed_of_run hfirst (x.backed_scheduled ts _)
    (Setting.apart_ofSubmit names distinct nodup) hkeeps hdefined ran faultless untouched
  rw [outcome?, hb, Option.bind_some] at done
  obtain ⟨hbooked, hall, rfl⟩ := booked_report ran hb done
  refine ⟨forall₂_of_getElem? (names.length_eq.trans (hbooked.length_eq hall).symm) ?_,
    hbooked.counts hall⟩
  intro i id x' hid hx'
  obtain ⟨result, rfl⟩ :=
    BatchOutcome.ofEndings_eq_completed.mp completed x' (List.mem_of_getElem? hx')
  obtain ⟨a₁, ha₁, hfinal⟩ := hbooked.endings i _ hx'
  have hphase := Phase.eq_ended_of_final? hfinal
  have htarget : ts[i]? = some a₁.target := by
    rw [← hbooked.targets, List.getElem?_map, ha₁]
    rfl
  refine ⟨result, rfl, ?_⟩
  rw [← hkey (getElem?_forall₂ names hid htarget)]
  refine hbacked.backs i a₁ result ha₁ (by rw [hphase]; rfl) fun r' hr' => ?_
  rw [hphase] at hr'
  cases hr'

/-! ### The second verification -/

/-- How far the verification of a program has come whose results the cache has: nothing is asked of
a verifier, the moves that are left are bounded, one of them is possible until there is a report,
and then all of the results are those of the cache. -/
structure Recalls (c : Cache) (a : Analysis) (ids : List DeclId) (n : Nat) (ms : List Move)
    (e : Engine) : Prop where
  idle : ∀ slot attempt, e.attempt? ⟨n, slot⟩ = some attempt →
    attempt.phase.session? = none ∧ attempt.phase.isOpening = false
  bounded : ms.length ≤ 15 * ids.length + 2
  progress : e.outcome? n = none → ∃ m e', m.batch? = some n ∧ e.step m = some e'
  report : ∀ result, e.outcome? n = some result → ∃ r, result = .ok r ∧
    (e.signOff r).1 = .ok r ∧ r.outcome = .completed ∧
    List.Forall₂ (fun id x => ∃ result, x = .completed result ∧ result.wasCached = true ∧
      c.Backs (a.keyOf id) result) ids r.endings ∧
    r.statistics = (r.results.map Statistics.ofRun).sum

theorem batch?_of_conforms {v : Verifier} {m : Move} (h : Conforms v n e m) :
    m.batch? = some n := by
  cases h <;> rfl

theorem signOff_of_working (h : e.shared.sink.broken = false) : (e.signOff r).1 = .ok r := by
  unfold signOff
  split
  · rfl
  · rw [Sink.write, if_pos (Collector.takes_of_working h _)]

theorem recalls_of_run (mode : e.shared.options.cacheMode = .on)
    (names : List.Forall₂ (Names a) ids ts) (nodup : ids.Nodup) (distinct : a.Distinct ids)
    (held : ∀ id ∈ ids, ∃ r, e.shared.cache.Backs (a.keyOf id) r) (orderly : e.Orderly)
    (rest : ∀ b ∈ e.batches, b.outcome?.isSome = true) (working : e.shared.sink.broken = false)
    (ran : (e.submit requestId a ts).run ms = some e₁)
    (own : ∀ m ∈ ms, m.batch? = some e.batches.length) :
    Recalls e.shared.cache a ids e.batches.length ms e₁ := by
  let v : Verifier := fun _ => .ok (.bare .correct)
  let x := Setting.ofSubmit v e requestId a
  have hkey : ∀ {id t}, Names a id t → x.key t = a.keyOf id := fun h => Setting.key_ofSubmit h
  have hlasting : v.Lasting := by
    intro job reason h
    cases h
  have hapart : x.Apart ts := Setting.apart_ofSubmit names distinct nodup
  have hserved : x.Served ts := by
    intro t ht
    obtain ⟨id, hid, hname⟩ := exists_of_mem_forall₂ names.flip ht
    obtain ⟨r, hr⟩ := held id hid
    have hmode : x.options.cacheMode = .on := mode
    rw [← hkey hname] at hr
    have hdep : (x.key t).dependencyChecksum.isSome := by
      rw [hkey hname]
      exact (distinct.defined id hid).2
    obtain ⟨served, hl⟩ := hr.served hdep x.options.cacheMode.serves fun _ => by
      rw [hmode]
      rfl
    rw [Setting.found?, if_pos (by rw [hmode]; decide)]
    exact Option.isSome_iff_exists.mpr ⟨served, hl⟩
  have hfirst : (e.submit requestId a ts).batches[e.batches.length]? =
      some (.scheduled (e.ticketFor requestId a) ts) := List.getElem?_concat_length
  have hstart := Setting.onWay_submit v requestId a ts orderly rest working
  have hschedule := hstart.schedule_of_served hapart hlasting hserved hfirst ran own
  obtain ⟨b, hb, hway, hle⟩ := hstart.schedule hapart hlasting hfirst hschedule
  constructor
  case idle =>
    intro slot attempt h
    rw [attempt?, hb, Option.bind_some] at h
    exact hway.idle hserved h
  case bounded =>
    have hremaining := Batch.remaining_scheduled (e.ticketFor requestId a) ts
    rw [names.length_eq]
    omega
  case progress =>
    intro hopen
    rw [outcome?, hb, Option.bind_some] at hopen
    obtain ⟨m, e', hm, hstep⟩ := hway.progress hb hopen
    exact ⟨m, e', batch?_of_conforms hm, hstep⟩
  case report =>
    intro result hdone
    rw [outcome?, hb, Option.bind_some] at hdone
    obtain ⟨r, ps, hr, hleaves⟩ := hway.leaves (by rw [hdone]; rfl)
    cases hdone.symm.trans hr
    refine ⟨r, rfl, signOff_of_working hway.working, hleaves.outcome, ?_, ?_⟩
    · rw [hleaves.endings]
      refine forall₂_of_getElem? ?_ fun i id x' hid hx' => ?_
      · rw [List.length_map, ← hleaves.comes.length_eq, names.length_eq]
      · rw [List.getElem?_map] at hx'
        obtain ⟨p, hp, rfl⟩ := Option.map_eq_some_iff.mp hx'
        obtain ⟨t, ht, hname⟩ := exists_getElem?_forall₂ names hid
        obtain ⟨hcached, hbacks⟩ := (getElem?_forall₂ hleaves.comes ht hp).of_served
          (hserved _ (List.mem_of_getElem? ht))
        rw [hkey hname] at hbacks
        exact ⟨p.result, rfl, hcached, hbacks⟩
    · rw [hleaves.statistics, hleaves.results, List.map_map]
      rfl

/-! ### Both -/

/-- The second report says of every implementation what the first one says, and that it comes from
the cache. -/
structure Repeats (ids : List DeclId) (r : BatchReport) (ids' : List DeclId) (r' : BatchReport) :
    Prop where
  completed : r'.outcome = .completed
  length : r'.endings.length = ids'.length
  results : ∀ (i : Nat) id, ids'[i]? = some id → ∃ (j : Nat) (result result' : Result),
    ids[j]? = some id ∧ r.endings[j]? = some (.completed result) ∧
      r'.endings[i]? = some (.completed result') ∧ result'.wasCached = true ∧
      result'.outcome = result.outcome ∧ result'.counterexamples = result.counterexamples
  cached : r'.statistics.cached = r'.statistics.all
  counts : r'.statistics.all = r.statistics.all

theorem repeats_of_backed {c : Cache} {ids' : List DeclId} {r' : BatchReport}
    {key : DeclId → CacheKey} (same : ids'.Perm ids) (completed : r'.outcome = .completed)
    (first : List.Forall₂ (fun id x => x.Backed c (key id)) ids r.endings)
    (second : List.Forall₂ (fun id x => ∃ result, x = .completed result ∧
      result.wasCached = true ∧ c.Backs (key id) result) ids' r'.endings)
    (counted : r.statistics = (r.results.map Statistics.ofRun).sum)
    (counted' : r'.statistics = (r'.results.map Statistics.ofRun).sum) : Repeats ids r ids' r' := by
  have hbacked : List.Forall₂ (fun id x => x.Backed c (key id)) ids' r'.endings :=
    second.imp fun _ _ ⟨result, hx, _, hbacks⟩ => ⟨result, hx, hbacks⟩
  refine ⟨completed, second.length_eq.symm, fun i id hid => ?_, ?_, ?_⟩
  · obtain ⟨j, hj⟩ := List.mem_iff_getElem?.mp (same.mem_iff.mp (List.mem_of_getElem? hid))
    obtain ⟨_, hx, result, rfl, hbacks⟩ := exists_getElem?_forall₂ first hj
    obtain ⟨_, hx', result', rfl, hcached, hbacks'⟩ := exists_getElem?_forall₂ second hid
    exact ⟨j, result, result', hj, hx, hx', hcached, hbacks.agree hbacks'⟩
  · rw [counted']
    apply Statistics.cached_sum
    intro result hresult
    obtain ⟨x, hx, hsome⟩ := List.mem_filterMap.mp hresult
    obtain ⟨_, -, result', rfl, hcached, -⟩ := exists_of_mem_forall₂ second.flip hx
    cases hsome
    exact hcached
  · rw [counted, counted']
    exact (tally_of_backed hbacked).trans
      ((same.map fun id => c.tally (key id)).sum_eq.trans (tally_of_backed first).symm)

/-- **To verify a program again costs nothing and finds the same.** On an engine that serves what it
keeps, with any cache and in any state, let a program be verified of which no two selected
implementations have a name or a checksum in common and all checksums are defined. Let this be
reported complete, and no attempt of it have been told of a fault. Anything else may happen at the
same time and afterwards, as long as the entries of the cache stay as they are. Once all batches
have finished, let the program be verified again. Then the same implementations are selected, and
none of them ever gets a session or waits for one to be opened, so that the verifier is not called.
Some move is possible until there is a report, and only boundedly many are. The report is signed
off. It has a result from the cache for each implementation, with the outcome and the
counterexamples of the first time. All that it counts is counted as cached, and it counts what was
counted the first time. -/
theorem verify_again {o : Options} (created : create o = .ok e₀) (mode : o.cacheMode = .on)
    (before : Later e₀ e) (current : Analysis.Current { a with graph := none })
    (distinct : a.Distinct (e.shared.select a)) (ran : (e.verify a).2.run ms = some e₁)
    (untouched : (e.verify a).2.Untouched e.batches.length ms)
    (faultless : ∀ i f, ¬Receives ms ⟨e.batches.length, i⟩ f)
    (done : e₁.outcome? e.batches.length = some (.ok r)) (completed : r.outcome = .completed)
    (between : Later e₁ e₂) (kept : e₂.shared.cache.entries = e₁.shared.cache.entries)
    (rest : ∀ b ∈ e₂.batches, b.outcome?.isSome = true) (working : e₂.shared.sink.broken = false)
    (current' : Analysis.Current { a' with graph := none }) (program : a'.program = a.program) :
    let n := e₂.batches.length
    (e₂.shared.select a').Perm (e.shared.select a) ∧ (e₂.verify a').1 = .ok () ∧
    ∀ ms' e₃, (e₂.verify a').2.run ms' = some e₃ → (∀ m ∈ ms', m.batch? = some n) →
      (∀ slot attempt, e₃.attempt? ⟨n, slot⟩ = some attempt →
        attempt.phase.session? = none ∧ attempt.phase.isOpening = false) ∧
      ms'.length ≤ 15 * (e₂.shared.select a').length + 2 ∧
      (e₃.outcome? n = none → ∃ m e₄, m.batch? = some n ∧ e₃.step m = some e₄) ∧
      ∀ result, e₃.outcome? n = some result → ∃ r', result = .ok r' ∧
        (e₃.signOff r').1 = .ok r' ∧ Repeats (e.shared.select a) r (e₂.shared.select a') r' := by
  intro n
  have hlater : Later e₀ e₂ :=
    before.trans ((e.later_verify a).trans ((later_run ran).trans between))
  obtain ⟨ts, hnames, hverify⟩ := e.verify_eq a
  obtain ⟨ts', hnames', hverify'⟩ := e₂.verify_eq a'
  rw [hverify] at ran untouched
  rw [hverify']
  have hcreated := eq_of_create created
  have hoptions : e.shared.options = o := by
    rw [before.options, hcreated]
    rfl
  have hoptions' : e₂.shared.options = o := by
    rw [hlater.options, hcreated]
    rfl
  have hsame : (e₂.shared.select a').Perm (e.shared.select a) :=
    Shared.select_perm (hoptions'.trans hoptions.symm) program
  have hkeys := Analysis.keyOf_congr current current' program
  obtain ⟨hreported, hcounted⟩ := backed_report (e := e.freshRequestId.2)
    ((congrArg _ hoptions).trans mode) hnames (e.shared.nodup_select a) distinct ran untouched
    faultless done completed
  have hbacked : List.Forall₂ (fun id x => x.Backed e₂.shared.cache (a'.keyOf id))
      (e.shared.select a) r.endings := by
    refine hreported.imp fun id x hx => ?_
    obtain ⟨result, rfl, hbacks⟩ := hx
    rw [hkeys]
    exact ⟨result, rfl, hbacks.congr fun _ _ => by rw [kept]⟩
  have hheld : ∀ id ∈ e₂.shared.select a', ∃ r, e₂.shared.cache.Backs (a'.keyOf id) r := by
    intro id hid
    obtain ⟨_, -, result, -, hbacks⟩ := exists_of_mem_forall₂ hbacked (hsame.mem_iff.mp hid)
    exact ⟨result, hbacks⟩
  have horderly := hlater.orderly (orderly_of_create created e₀.shared.cache)
  refine ⟨hsame, rfl, fun ms' e₃ ran' own => ?_⟩
  obtain ⟨hidle, hbounded, hprogress, hreport⟩ := recalls_of_run (e := e₂.freshRequestId.2)
    ((congrArg _ hoptions').trans mode) hnames' (e₂.shared.nodup_select a')
    (distinct.congr hkeys hsame) hheld (Later.orderly (.freshRequestId .refl) horderly) rest working
    ran' own
  refine ⟨hidle, hbounded, hprogress, fun result hdone => ?_⟩
  obtain ⟨r', rfl, hsigned, hcompleted, hrecalled, hcounted'⟩ := hreport result hdone
  exact ⟨r', rfl, hsigned,
    repeats_of_backed hsame hcompleted hbacked hrecalled hcounted hcounted'⟩

end Engine

def keeping : Options := { Options.standard 1 with cacheMode := .on }

/-- A verifier runs out of time over the only implementation. -/
def timedOutOnce : List Move :=
  List.replicate 4 (.advance ⟨0, 0⟩) ++ [.opened ⟨0, 0⟩ (.ok ()), .advance ⟨0, 0⟩,
    .answered ⟨0, 0⟩ (.findings (.bare .timedOut) 7)] ++
    List.replicate 7 (.advance ⟨0, 0⟩) ++ [.await 0, .conclude 0, .finish 0]

theorem timedOutOnce_is_recalled : ∃ e₀ e₁ r, Engine.create keeping = .ok e₀ ∧
    (e₀.verify loneAnalysis).2.run timedOutOnce = some e₁ ∧ e₁.outcome? 0 = some (.ok r) ∧
    r.statistics.all.timedOut = 1 ∧
    ∀ ms e₂, (e₁.verify (.ofProgram lone)).2.run ms = some e₂ →
      (∀ m ∈ ms, m.batch? = some e₁.batches.length) →
      ms.length ≤ 17 ∧ ∀ result, e₂.outcome? e₁.batches.length = some result →
        ∃ r', result = .ok r' ∧ r'.statistics.cached.timedOut = 1 := by
  let e₀ : Engine := ⟨.fresh keeping, [], 0⟩
  have hprogram : loneAnalysis.program = lone := by rw [loneAnalysis_eq]
  have hselect : e₀.shared.select loneAnalysis = [⟨1⟩] := by
    refine List.perm_singleton.mp ((e₀.shared.select_perm_idsWhere loneAnalysis).trans ?_)
    rw [hprogram]
    decide +kernel
  have hverify : (e₀.verify loneAnalysis).2 =
      e₀.freshRequestId.2.submit e₀.freshRequestId.1 loneAnalysis [loneTarget] := by
    rw [Engine.verify, hselect, loneAnalysis_eq]
    rfl
  have hran : ((e₀.verify loneAnalysis).2.run timedOutOnce).bind (fun e₁ =>
      (e₁.outcome? 0).bind fun x => x.toOption.map fun r =>
        r.outcome = .completed && r.statistics.all.timedOut = 1 &&
          e₁.batches.all (·.outcome?.isSome) && !e₁.shared.sink.broken) = some true := by
    rw [hverify, loneAnalysis_eq]
    decide +kernel
  obtain ⟨e₁, ran, hdone⟩ := Option.bind_eq_some_iff.mp hran
  obtain ⟨x, done, hreported⟩ := Option.bind_eq_some_iff.mp hdone
  obtain ⟨r, hr, hchecked⟩ := Option.map_eq_some_iff.mp hreported
  obtain rfl : x = .ok r := by
    cases x <;> cases hr
    rfl
  simp only [Bool.and_eq_true, decide_eq_true_eq, List.all_eq_true, Bool.not_eq_true'] at hchecked
  obtain ⟨⟨⟨completed, htimedOut⟩, rest⟩, working⟩ := hchecked
  have hcurrent : loneAnalysis.Current := (Analysis.current_ofProgram lone).dependencyChecksum ⟨1⟩
  have hdistinct : loneAnalysis.Distinct (e₀.shared.select loneAnalysis) := by
    rw [hselect]
    refine ⟨?_, ?_, ?_⟩
    · simp
    · simp
    · rw [loneAnalysis_eq]
      decide +kernel
  have hfaults : ∀ m ∈ timedOutOnce, m.fault? = none := by decide
  have hown : ∀ m ∈ timedOutOnce, m.batch? = some 0 := by decide
  obtain ⟨hsame, -, hagain⟩ := Engine.verify_again (o := keeping) rfl rfl .refl
    hcurrent.withoutGraph hdistinct ran (Engine.untouched_of_own ran hown)
    (fun i f ⟨m, hm, hf⟩ => by rw [hfaults m hm] at hf; cases hf) done completed .refl rfl rest
    working (Analysis.current_ofProgram lone).withoutGraph hprogram.symm
  refine ⟨e₀, e₁, r, rfl, ran, done, htimedOut, fun ms e₂ ran' own => ?_⟩
  obtain ⟨-, hbounded, -, hreport⟩ := hagain ms e₂ ran' own
  rw [hsame.length_eq, hselect] at hbounded
  refine ⟨hbounded, fun result hresult => ?_⟩
  obtain ⟨r', hr', -, hrepeats⟩ := hreport result hresult
  refine ⟨r', hr', ?_⟩
  rw [hrepeats.cached, hrepeats.counts, htimedOut]

end Verdict
