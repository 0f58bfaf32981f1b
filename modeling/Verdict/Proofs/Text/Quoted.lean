import Mathlib.Data.Nat.Init
import Verdict.Proofs.Text.Separated

/-! A quoted text determines the text.

What stands for a character inside the quotes is the character itself, a backslash and a letter, or a
code point in braces. Only a backslash begins one of the latter two, no short form is a `u`,
and the closing brace is no digit, so that none of them goes on where another ends. -/
namespace Verdict.Text

/-! ### Hexadecimal digits -/

theorem digitChar_inj : ∀ a < 16, ∀ b < 16, Nat.digitChar a = Nat.digitChar b → a = b := by
  decide

theorem exists_digitChar {n : Nat} {c : Char} (h : c ∈ Nat.toDigits 16 n) :
    ∃ d < 16, c = Nat.digitChar d := by
  induction n using Nat.strong_induction_on with
  | _ n ih =>
    rw [Nat.toDigits_eq_if (by decide)] at h
    split at h
    · rename_i hlt
      exact ⟨n, hlt, List.mem_singleton.mp h⟩
    · rename_i hle
      rcases List.mem_append.mp h with h | h
      · exact ih (n / 16) (by omega) h
      · exact ⟨n % 16, Nat.mod_lt n (by decide), List.mem_singleton.mp h⟩

theorem toDigits_append_ne (n : Nat) (d d' : Char) : ¬[d] = Nat.toDigits 16 n ++ [d'] := by
  intro h
  have hlength := congrArg List.length h
  have := @Nat.length_toDigits_pos 16 n
  rw [List.length_append, List.length_singleton, List.length_singleton] at hlength
  omega

theorem toDigits_inj {n m : Nat} (h : Nat.toDigits 16 n = Nat.toDigits 16 m) : n = m := by
  induction n using Nat.strong_induction_on generalizing m with
  | _ n ih =>
    rw [Nat.toDigits_eq_if (b := 16) (n := n) (by decide),
      Nat.toDigits_eq_if (b := 16) (n := m) (by decide)] at h
    split at h
    · rename_i hn
      split at h
      · rename_i hm
        exact digitChar_inj n hn m hm (List.singleton_inj.mp h)
      · exact absurd h (toDigits_append_ne _ _ _)
    · rename_i hn
      split at h
      · exact absurd h.symm (toDigits_append_ne _ _ _)
      · obtain ⟨hhigh, hlow⟩ := List.append_inj' h rfl
        have hquotient : n / 16 = m / 16 := ih (n / 16) (by omega) hhigh
        have hrest : n % 16 = m % 16 := digitChar_inj _ (Nat.mod_lt n (by decide)) _
          (Nat.mod_lt m (by decide)) (List.singleton_inj.mp hlow)
        omega

/-! ### Characters -/

/-- The characters with a short form behind a backslash. -/
def shortForms : List (Char × Char) :=
  [('\x00', '0'), ('\t', 't'), ('\r', 'r'), ('\n', 'n'), ('\\', '\\'), ('"', '"')]

theorem shortForms_inj : ∀ p ∈ shortForms, ∀ q ∈ shortForms, p.2 = q.2 → p.1 = q.1 := by decide

theorem shortForms_ne : ∀ p ∈ shortForms, p.2 ≠ 'u' ∧ p.2 ≠ '\x00' := by decide

/-- The three ways to write a character. -/
inductive Escaped (c : Char) : List Char → Prop
  | short {x : Char} : (c, x) ∈ shortForms → Escaped c ['\\', x]
  | plain : c ≠ '\\' → c ≠ '\x00' → Escaped c [c]
  | codePoint : Escaped c ('\\' :: 'u' :: '\x7b' :: (Nat.toDigits 16 c.toNat ++ ['\x7d']))

theorem toList_codePoint (c : Char) : (codePoint c).toList =
    '\\' :: 'u' :: '\x7b' :: (Nat.toDigits 16 c.toNat ++ ['\x7d']) := by
  rw [codePoint, String.toList_append, String.toList_append, List.append_assoc]
  show ['\\', 'u', '\x7b'] ++ ((hexadecimal c.toNat).toList ++ ['\x7d']) = _
  rw [hexadecimal, String.toList_ofList]
  rfl

theorem escaped_escape (c : Char) : Escaped c (escape c).toList := by
  have short : ∀ {c' x}, c = c' → (c', x) ∈ shortForms → Escaped c ['\\', x] := by
    rintro _ x rfl hx
    exact .short hx
  unfold escape
  split_ifs with hnul htab hreturn hfeed hbackslash hquote hshown
  · exact short hnul (by decide)
  · exact short htab (by decide)
  · exact short hreturn (by decide)
  · exact short hfeed (by decide)
  · exact short hbackslash (by decide)
  · exact short hquote (by decide)
  · rw [Char.toString, String.toList_singleton]
    exact .plain hbackslash hnul
  · rw [toList_codePoint]
    exact .codePoint

theorem notMem_toDigits {n : Nat} {c : Char} (hc : ∀ d < 16, c ≠ Nat.digitChar d) :
    c ∉ Nat.toDigits 16 n := by
  intro h
  obtain ⟨d, hd, heq⟩ := exists_digitChar h
  exact hc d hd heq

/-- What stands for a character ends by itself. -/
theorem Escaped.inj {c c' : Char} {l l' r r' : List Char} (h : Escaped c l) (h' : Escaped c' l')
    (heq : l ++ r = l' ++ r') : c = c' ∧ r = r' := by
  cases h with
  | short hx =>
    cases h' with
    | short hx' =>
      obtain ⟨-, hrest⟩ := List.cons.inj heq
      obtain ⟨hsame, hrest⟩ := List.cons.inj hrest
      exact ⟨shortForms_inj _ hx _ hx' hsame, hrest⟩
    | plain hne => exact absurd (List.cons.inj heq).1.symm hne
    | codePoint =>
      obtain ⟨-, hrest⟩ := List.cons.inj heq
      exact absurd (List.cons.inj hrest).1 (shortForms_ne _ hx).1
  | plain hne =>
    cases h' with
    | short => exact absurd (List.cons.inj heq).1 hne
    | plain => exact List.cons.inj heq
    | codePoint => exact absurd (List.cons.inj heq).1 hne
  | codePoint =>
    cases h' with
    | short hx' =>
      obtain ⟨-, hrest⟩ := List.cons.inj heq
      exact absurd (List.cons.inj hrest).1.symm (shortForms_ne _ hx').1
    | plain hne => exact absurd (List.cons.inj heq).1.symm hne
    | codePoint =>
      have hbrace : ∀ n, '\x7d' ∉ Nat.toDigits 16 n := fun n => notMem_toDigits (by decide)
      simp only [List.cons_append, List.append_assoc, List.nil_append, List.cons.injEq,
        true_and] at heq
      obtain ⟨hdigits, hrest⟩ := append_cons_inj_of_first (hbrace _) (hbrace _) heq
      exact ⟨Char.toNat_inj.mp (toDigits_inj hdigits), hrest⟩

theorem Escaped.ne_nil {c : Char} {l : List Char} (h : Escaped c l) : l ≠ [] := by
  cases h <;> exact List.cons_ne_nil _ _

theorem Escaped.notMem_nul {c : Char} {l : List Char} (h : Escaped c l) : '\x00' ∉ l := by
  cases h with
  | @short x hx =>
    have := (shortForms_ne _ hx).2
    simp [this.symm]
  | plain _ hne => simpa using hne.symm
  | codePoint =>
    have hdigits : '\x00' ∉ Nat.toDigits 16 c.toNat := notMem_toDigits (by decide)
    simp [hdigits]

/-! ### Texts -/

theorem flatMap_escape_inj {l l' : List Char}
    (h : l.flatMap (fun c => (escape c).toList) = l'.flatMap fun c => (escape c).toList) : l = l' := by
  induction l generalizing l' with
  | nil =>
    cases l' with
    | nil => rfl
    | cons c' l' =>
      rw [List.flatMap_nil, List.flatMap_cons] at h
      exact absurd (List.append_eq_nil_iff.mp h.symm).1 (escaped_escape c').ne_nil
  | cons c l ih =>
    cases l' with
    | nil =>
      rw [List.flatMap_nil, List.flatMap_cons] at h
      exact absurd (List.append_eq_nil_iff.mp h).1 (escaped_escape c).ne_nil
    | cons c' l' =>
      rw [List.flatMap_cons, List.flatMap_cons] at h
      obtain ⟨rfl, hrest⟩ := (escaped_escape c).inj (escaped_escape c') h
      rw [ih hrest]

theorem toList_quote (s : String) : (quote s).toList =
    '"' :: (s.toList.flatMap (fun c => (escape c).toList) ++ ['"']) := by
  rw [quote, String.toList_append, String.toList_append, String.toList_join, List.flatMap_map]
  rfl

theorem quote_inj {s s' : String} (h : quote s = quote s') : s = s' := by
  have hlist := congrArg String.toList h
  rw [toList_quote, toList_quote] at hlist
  have hinner := List.append_cancel_right (List.cons.inj hlist).2
  exact String.ext (flatMap_escape_inj hinner)

theorem notMem_nul_quote (s : String) : '\x00' ∉ (quote s).toList := by
  have hinner : '\x00' ∉ s.toList.flatMap fun c => (escape c).toList := by
    intro h
    obtain ⟨c, -, hc⟩ := List.mem_flatMap.mp h
    exact (escaped_escape c).notMem_nul hc
  rw [toList_quote]
  simp [hinner]

end Verdict.Text
