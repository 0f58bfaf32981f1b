import Mathlib.Data.List.Forall2
import Verdict.Fingerprint

/-! Texts that can be taken apart again.

A text that is written in parts with a separator between them determines the parts, as long as
the separator does not occur in them where it would be mistaken for the other: not in what
stands before its first occurrence, not in what stands behind its last. A first
word ends where something else than a letter follows. Numerals consist of digits, and so
do not get in the way of any separator. -/
namespace Verdict.Text
variable {α : Type}

/-! ### Lists -/

theorem append_cons_inj_of_first {l l' r r' : List α} {c : α} (hl : c ∉ l) (hl' : c ∉ l')
    (h : l ++ c :: r = l' ++ c :: r') : l = l' ∧ r = r' := by
  induction l generalizing l' with
  | nil =>
    cases l' with
    | nil => exact ⟨rfl, (List.cons.inj h).2⟩
    | cons x l' =>
      obtain ⟨rfl, -⟩ := List.cons.inj h
      exact absurd List.mem_cons_self hl'
  | cons x l ih =>
    cases l' with
    | nil =>
      obtain ⟨rfl, -⟩ := List.cons.inj h
      exact absurd List.mem_cons_self hl
    | cons y l' =>
      obtain ⟨rfl, htail⟩ := List.cons.inj h
      obtain ⟨rfl, hr⟩ := ih (mt (List.mem_cons_of_mem x) hl) (mt (List.mem_cons_of_mem x) hl') htail
      exact ⟨rfl, hr⟩

theorem append_cons_inj_of_last {l l' r r' : List α} {c : α} (hr : c ∉ r) (hr' : c ∉ r')
    (h : l ++ c :: r = l' ++ c :: r') : l = l' ∧ r = r' := by
  have hmirror : r.reverse ++ c :: l.reverse = r'.reverse ++ c :: l'.reverse := by
    have hrev := congrArg List.reverse h
    simpa only [List.reverse_append, List.reverse_cons, List.append_assoc, List.singleton_append]
      using hrev
  obtain ⟨hright, hleft⟩ := append_cons_inj_of_first (mt List.mem_reverse.mp hr)
    (mt List.mem_reverse.mp hr') hmirror
  exact ⟨List.reverse_inj.mp hleft, List.reverse_inj.mp hright⟩

theorem append_inj_of_takeWhile {p : α → Bool} {w w' r r' : List α} (hw : ∀ c ∈ w, p c = true)
    (hw' : ∀ c ∈ w', p c = true) (hr : r.takeWhile p = []) (hr' : r'.takeWhile p = [])
    (h : w ++ r = w' ++ r') : w = w' ∧ r = r' := by
  have htake := congrArg (List.takeWhile p) h
  rw [List.takeWhile_append_of_pos hw, List.takeWhile_append_of_pos hw', hr, hr', List.append_nil,
    List.append_nil] at htake
  subst htake
  exact ⟨rfl, List.append_cancel_left h⟩

theorem flatMap_eq_of_forall₂ {β : Type} {R : α → α → Prop} (f : α → List β)
    (hf : ∀ {x y}, R x y → f x = f y) {l l' : List α} (h : List.Forall₂ R l l') :
    l.flatMap f = l'.flatMap f := by
  induction h with
  | nil => rfl
  | cons hfirst _ ih => rw [List.flatMap_cons, List.flatMap_cons, hf hfirst, ih]

/-! ### Parts -/

section Parts
variable {β : Type} {ok : α → Prop} {follows : List β → Prop} {R : α → α → Prop} {f : α → List β}
  {l l' : List α} {r r' : List β}

/-- What `f` writes of a thing can be read back, up to `R`, off the front of what is written,
if the thing is `ok` and so is what `follows`. -/
def ReadsBack (ok : α → Prop) (follows : List β → Prop) (R : α → α → Prop) (f : α → List β) : Prop :=
  ∀ ⦃a a' : α⦄ ⦃r r' : List β⦄, ok a → ok a' → follows r → follows r' → f a ++ r = f a' ++ r' →
    R a a' ∧ r = r'

/-- Where their number is known, the parts are read one by one. -/
theorem ReadsBack.of_length (h : ReadsBack ok follows R f)
    (hfollows : ∀ a r, ok a → follows (f a ++ r)) (hl : ∀ a ∈ l, ok a) (hl' : ∀ a ∈ l', ok a)
    (hr : follows r) (hr' : follows r') (hlength : l.length = l'.length)
    (heq : l.flatMap f ++ r = l'.flatMap f ++ r') : List.Forall₂ R l l' ∧ r = r' := by
  have hnext : ∀ {l : List α} {r : List β}, (∀ a ∈ l, ok a) → follows r →
      follows (l.flatMap f ++ r) := by
    intro l r hl hr
    cases l with
    | nil => exact hr
    | cons a l =>
      rw [List.flatMap_cons, List.append_assoc]
      exact hfollows a _ (hl a List.mem_cons_self)
  induction l generalizing l' with
  | nil =>
    rw [List.length_eq_zero_iff.mp hlength.symm] at heq ⊢
    exact ⟨.nil, heq⟩
  | cons a l ih =>
    cases l' with
    | nil => cases hlength
    | cons a' l' =>
      obtain ⟨ha, hl⟩ := List.forall_mem_cons.mp hl
      obtain ⟨ha', hl'⟩ := List.forall_mem_cons.mp hl'
      rw [List.flatMap_cons, List.flatMap_cons, List.append_assoc, List.append_assoc] at heq
      obtain ⟨hfirst, heq⟩ := h ha ha' (hnext hl hr) (hnext hl' hr') heq
      obtain ⟨hothers, hrest⟩ := ih hl hl' (Nat.succ.inj hlength) heq
      exact ⟨.cons hfirst hothers, hrest⟩

/-- Where it is not, they are read up to what ends them, which is not how a part begins. -/
theorem ReadsBack.of_ends (h : ReadsBack ok (fun _ => True) R f) (ends : List β → Prop)
    (hends : ∀ a r, ¬ends (f a ++ r)) (hl : ∀ a ∈ l, ok a) (hl' : ∀ a ∈ l', ok a) (hr : ends r)
    (hr' : ends r') (heq : l.flatMap f ++ r = l'.flatMap f ++ r') :
    List.Forall₂ R l l' ∧ r = r' := by
  have hmore : ∀ {a : α} {l : List α} {r r' : List β}, ends r → r ≠ (a :: l).flatMap f ++ r' := by
    rintro a l r r' hr rfl
    rw [List.flatMap_cons, List.append_assoc] at hr
    exact hends a _ hr
  induction l generalizing l' with
  | nil =>
    cases l' with
    | nil => exact ⟨.nil, heq⟩
    | cons a' l' => exact absurd heq (hmore hr)
  | cons a l ih =>
    cases l' with
    | nil => exact absurd heq.symm (hmore hr')
    | cons a' l' =>
      obtain ⟨ha, hl⟩ := List.forall_mem_cons.mp hl
      obtain ⟨ha', hl'⟩ := List.forall_mem_cons.mp hl'
      rw [List.flatMap_cons, List.flatMap_cons, List.append_assoc, List.append_assoc] at heq
      obtain ⟨hfirst, heq⟩ := h ha ha' trivial trivial heq
      obtain ⟨hothers, hrest⟩ := ih hl hl' heq
      exact ⟨.cons hfirst hothers, hrest⟩

/-- Where they are not ended at all, the longer list goes on with what follows the shorter one. -/
theorem ReadsBack.exists_append (h : ReadsBack ok (fun _ => True) Eq f) (hl : ∀ a ∈ l, ok a)
    (hl' : ∀ a ∈ l', ok a) (heq : l.flatMap f ++ r = l'.flatMap f ++ r') :
    ∃ more more' rest, l ++ more = l' ++ more' ∧ r = more.flatMap f ++ rest ∧
      r' = more'.flatMap f ++ rest := by
  induction l generalizing l' with
  | nil => exact ⟨l', [], r', (List.append_nil l').symm, heq, rfl⟩
  | cons a l ih =>
    cases l' with
    | nil => exact ⟨[], a :: l, r, List.append_nil _, rfl, heq.symm⟩
    | cons a' l' =>
      obtain ⟨ha, hothers⟩ := List.forall_mem_cons.mp hl
      obtain ⟨ha', hothers'⟩ := List.forall_mem_cons.mp hl'
      rw [List.flatMap_cons, List.flatMap_cons, List.append_assoc, List.append_assoc] at heq
      obtain ⟨rfl, htail⟩ := h ha ha' trivial trivial heq
      obtain ⟨more, more', rest, hmore, hr⟩ := ih hothers hothers' htail
      exact ⟨more, more', rest, congrArg (a :: ·) hmore, hr⟩

/-- What can be read back from parts can be read back from what is written of the parts. -/
theorem ReadsBack.flatMap {γ : Type} {okPart : β → Prop} {g : β → List γ}
    (hparts : ReadsBack okPart (fun _ => True) Eq g) (h : ReadsBack ok (fun _ => True) R f) :
    ReadsBack (fun a => ok a ∧ ∀ b ∈ f a, okPart b) (fun _ => True) R
      fun a => (f a).flatMap g := by
  rintro a a' r r' ⟨ha, hclosed⟩ ⟨ha', hclosed'⟩ - - heq
  obtain ⟨more, more', rest, hmore, rfl, rfl⟩ := hparts.exists_append hclosed hclosed' heq
  obtain ⟨hR, rfl⟩ := h ha ha' trivial trivial hmore
  exact ⟨hR, rfl⟩

end Parts

/-! ### Texts -/

variable {a a' b b' s s' : String} {sep : String} {c : Char}

theorem eq_of_first (hsep : sep.toList = [c]) (ha : c ∉ a.toList) (ha' : c ∉ a'.toList)
    (h : a ++ sep ++ b = a' ++ sep ++ b') : a = a' ∧ b = b' := by
  have hlist := congrArg String.toList h
  simp only [String.toList_append, hsep, List.append_assoc, List.singleton_append] at hlist
  obtain ⟨hleft, hright⟩ := append_cons_inj_of_first ha ha' hlist
  exact ⟨String.ext hleft, String.ext hright⟩

theorem eq_of_last (hsep : sep.toList = [c]) (hb : c ∉ b.toList) (hb' : c ∉ b'.toList)
    (h : a ++ sep ++ b = a' ++ sep ++ b') : a = a' ∧ b = b' := by
  have hlist := congrArg String.toList h
  simp only [String.toList_append, hsep, List.append_assoc, List.singleton_append] at hlist
  obtain ⟨hleft, hright⟩ := append_cons_inj_of_last hb hb' hlist
  exact ⟨String.ext hleft, String.ext hright⟩

theorem notMem_append (ha : c ∉ a.toList) (hb : c ∉ b.toList) : c ∉ (a ++ b).toList := by
  rw [String.toList_append, List.mem_append, not_or]
  exact ⟨ha, hb⟩

/-- A word of letters. -/
def IsWord (w : String) : Prop := ∀ c ∈ w.toList, c.isAlpha = true

theorem isWord_of_all {w : String} (h : w.toList.all Char.isAlpha = true) : IsWord w :=
  List.all_eq_true.mp h

/-- Nothing that would go on with a word. -/
def EndsWord (s : String) : Prop := s.toList.takeWhile Char.isAlpha = []

theorem endsWord_append (ha : a ≠ "") (h : EndsWord a) : EndsWord (a ++ b) := by
  unfold EndsWord at h ⊢
  rw [String.toList_append]
  cases hlist : a.toList with
  | nil => exact absurd (String.toList_eq_nil_iff.mp hlist) ha
  | cons x rest =>
    rw [hlist, List.takeWhile_cons] at h
    split at h
    · cases h
    · rename_i hx
      rw [List.cons_append, List.takeWhile_cons, if_neg hx]

/-- The text begins with the word, and with no longer one. -/
def FirstWord (w s : String) : Prop := IsWord w ∧ ∃ r, s = w ++ r ∧ EndsWord r

theorem firstWord_self {w : String} (hw : IsWord w) : FirstWord w w :=
  ⟨hw, "", String.append_empty.symm, rfl⟩

theorem firstWord_append {w : String} (hw : IsWord w) (sep rest : String) (hne : sep ≠ "")
    (hends : EndsWord sep) : FirstWord w (w ++ sep ++ rest) :=
  ⟨hw, sep ++ rest, String.append_assoc, endsWord_append hne hends⟩

theorem FirstWord.append {w : String} (h : FirstWord w a) (hends : EndsWord b) :
    FirstWord w (a ++ b) := by
  obtain ⟨hw, r, rfl, hr⟩ := h
  refine ⟨hw, r ++ b, String.append_assoc, ?_⟩
  by_cases hempty : r = ""
  · rwa [hempty, String.empty_append]
  · exact endsWord_append hempty hr

theorem FirstWord.eq {w w' : String} (h : FirstWord w s) (h' : FirstWord w' s) : w = w' := by
  obtain ⟨hw, r, hr, hends⟩ := h
  obtain ⟨hw', r', hr', hends'⟩ := h'
  have hlist := congrArg String.toList (hr.symm.trans hr')
  rw [String.toList_append, String.toList_append] at hlist
  exact String.ext (append_inj_of_takeWhile hw hw' hends hends' hlist).1

/-! ### Numerals -/

theorem isDigit_of_mem_toString {n : Nat} (h : c ∈ (toString n).toList) : c.isDigit = true := by
  have h : c ∈ n.repr.toList := h
  rw [Nat.toList_repr] at h
  exact Nat.isDigit_of_mem_toDigits (by decide) (by decide) h

theorem notMem_toString (n : Nat) (hc : c.isDigit = false) : c ∉ (toString n).toList := by
  intro h
  rw [isDigit_of_mem_toString h] at hc
  cases hc

theorem toString_ne_empty (n : Nat) : toString n ≠ "" := Nat.repr_ne_empty

theorem toString_inj {n m : Nat} (h : toString n = toString m) : n = m := by
  have hdigits : Nat.toDigits 10 n = Nat.toDigits 10 m := by
    rw [← Nat.toList_repr, ← Nat.toList_repr]
    exact congrArg String.toList h
  have hread := congrArg (Nat.ofDigitChars 10 · 0) hdigits
  simpa only [Nat.ofDigitChars_ten_toDigits] using hread

/-- A sign is no digit. -/
theorem toString_ne_minus (n : Nat) (s : String) : toString n ≠ "-" ++ s := by
  intro h
  have hsign : '-' ∈ (toString n).toList := by
    rw [h, String.toList_append]
    exact List.mem_append_left _ List.mem_cons_self
  exact notMem_toString n rfl hsign

theorem toString_eq_cases (n : Int) : ∃ m : Nat, toString n = toString m ∨ toString n = "-" ++ toString m := by
  cases n with
  | ofNat m => exact ⟨m, .inl rfl⟩
  | negSucc m => exact ⟨m + 1, .inr rfl⟩

theorem notMem_toString_int (n : Int) (hc : c.isDigit = false) (hsign : c ≠ '-') :
    c ∉ (toString n).toList := by
  obtain ⟨m, h | h⟩ := toString_eq_cases n
  · rw [h]
    exact notMem_toString m hc
  · rw [h]
    exact notMem_append (fun hmem => hsign (List.mem_singleton.mp hmem)) (notMem_toString m hc)

theorem toString_int_inj {n m : Int} (h : toString n = toString m) : n = m := by
  cases n with
  | ofNat n =>
    cases m with
    | ofNat m => exact congrArg Int.ofNat (toString_inj h)
    | negSucc m => exact absurd h (toString_ne_minus n (toString (m + 1)))
  | negSucc n =>
    cases m with
    | ofNat m => exact absurd h.symm (toString_ne_minus m (toString (n + 1)))
    | negSucc m =>
      have hsucc : n + 1 = m + 1 := toString_inj ((String.append_right_inj "-").mp h)
      exact congrArg Int.negSucc (Nat.succ.inj hsucc)

/-! ### Truth values -/

theorem toString_bool_inj {b b' : Bool} (h : toString b = toString b') : b = b' := by
  cases b <;> cases b'
  · rfl
  · exact absurd h (by decide)
  · exact absurd h (by decide)
  · rfl

theorem notMem_toString_bool (b : Bool) (hc : c.isAlpha = false) : c ∉ (toString b).toList := by
  intro h
  have hword : IsWord (toString b) := by
    cases b <;> exact isWord_of_all rfl
  rw [hword c h] at hc
  cases hc

end Verdict.Text

namespace Verdict.Fingerprint
open Text

/-! ### Names with commas between them -/

/-- A name that can stand in a list of names. -/
def IsEntry (name : String) : Prop := name ≠ "" ∧ ',' ∉ name.toList

theorem toList_commaList (names : List String) :
    (commaList names).toList = [','].intercalate (names.map String.toList) :=
  String.toList_intercalate

theorem mem_commaList {names : List String} {c : Char} (h : c ∈ (commaList names).toList) :
    c = ',' ∨ ∃ name ∈ names, c ∈ name.toList := by
  rw [toList_commaList] at h
  induction names with
  | nil => cases h
  | cons name rest ih =>
    cases rest with
    | nil =>
      refine .inr ⟨name, List.mem_singleton_self name, ?_⟩
      simpa [List.intercalate] using h
    | cons next rest =>
      simp only [List.map_cons, List.intercalate_cons_cons, List.mem_append,
        List.mem_singleton] at h ih
      rcases h with (h | h) | h
      · exact .inr ⟨name, List.mem_cons_self, h⟩
      · exact .inl h
      · exact (ih h).imp_right fun ⟨other, hmem, hc⟩ => ⟨other, List.mem_cons_of_mem name hmem, hc⟩

theorem notMem_commaList {names : List String} {c : Char} (hc : c ≠ ',')
    (h : ∀ name ∈ names, c ∉ name.toList) : c ∉ (commaList names).toList := by
  intro hmem
  rcases mem_commaList hmem with hcomma | ⟨name, hname, hin⟩
  · exact hc hcomma
  · exact h name hname hin

theorem splitOn_commaList {names : List String} (h : ∀ name ∈ names, IsEntry name)
    (hne : names ≠ []) :
    (commaList names).toList.splitOn ',' = names.map String.toList := by
  rw [toList_commaList]
  apply List.splitOn_intercalate
  · intro l hl
    obtain ⟨name, hname, rfl⟩ := List.mem_map.mp hl
    exact (h name hname).2
  · exact mt List.map_eq_nil_iff.mp hne

theorem commaList_ne_empty {names : List String} (h : ∀ name ∈ names, IsEntry name)
    (hne : names ≠ []) : commaList names ≠ "" := by
  intro hempty
  have hsplit := splitOn_commaList h hne
  have hnil : ("" : String).toList.splitOn ',' = [[]] := rfl
  rw [hempty, hnil] at hsplit
  -- The one part of an empty text is an empty name.
  cases names with
  | nil => exact hne rfl
  | cons name rest =>
    have hname := (List.cons.inj hsplit).1
    exact (h name List.mem_cons_self).1 (String.toList_eq_nil_iff.mp hname.symm)

theorem commaList_inj {names names' : List String} (h : ∀ name ∈ names, IsEntry name)
    (h' : ∀ name ∈ names', IsEntry name) (heq : commaList names = commaList names') :
    names = names' := by
  have hnil : commaList [] = "" := rfl
  by_cases hne : names = []
  · by_cases hne' : names' = []
    · rw [hne, hne']
    · rw [hne, hnil] at heq
      exact absurd heq.symm (commaList_ne_empty h' hne')
  · by_cases hne' : names' = []
    · rw [hne', hnil] at heq
      exact absurd heq (commaList_ne_empty h hne)
    · have hsplit := splitOn_commaList h hne
      rw [heq, splitOn_commaList h' hne'] at hsplit
      exact (List.map_injective_iff.mpr fun _ _ => String.ext) hsplit.symm

end Verdict.Fingerprint
