import Mathlib.Data.List.Basic
import TieredState.Text.Quoted

/-!
# Texts that can be told apart

A text that is put together from parts is unambiguous if each part can be told from what follows it. Some
parts end at a character that they do not contain, others have an end of their own, and of a list of such
parts one has to know only where it stops.

* `Text.Separable` — what is put in front of a text can be told from it.
* `Text.Separable.list` — so can a list of such things, up to a text that none of them begins.
* `Text.eq_of_append_mark` — a part that ends at a mark.
* `Text.quote_separable` — quoted text, whatever characters are in it.
-/

namespace TieredState.Text

variable {α β τ : Type}

/-- Things that are put in front of a text can be told from it, as far as `shown` goes. -/
def Separable (good : α → Prop) (put : α → τ → τ) (shown : α → β) : Prop :=
  ∀ ⦃x y r s⦄, good x → good y → put x r = put y s → shown x = shown y ∧ r = s

/-- One thing after another can be told apart if it can be seen where they end. -/
theorem Separable.list {good : α → Prop} {put : α → τ → τ} {shown : α → β}
    (h : Separable good put shown) (ends : τ → Prop) (hends : ∀ x r, good x → ¬ends (put x r))
    {xs ys : List α} {r s : τ} (hxs : ∀ x ∈ xs, good x) (hys : ∀ y ∈ ys, good y) (hr : ends r)
    (hs : ends s) (heq : xs.foldr put r = ys.foldr put s) : xs.map shown = ys.map shown ∧ r = s := by
  induction xs generalizing ys with
  | nil =>
    cases ys with
    | nil => exact ⟨rfl, heq⟩
    | cons y ys =>
      rw [show r = put y (ys.foldr put s) from heq] at hr
      exact absurd hr (hends y _ (hys y List.mem_cons_self))
  | cons x xs ih =>
    have hgood := hxs x List.mem_cons_self
    cases ys with
    | nil =>
      rw [show s = put x (xs.foldr put r) from heq.symm] at hs
      exact absurd hs (hends x _ hgood)
    | cons y ys =>
      obtain ⟨hshown, hrest⟩ := h hgood (hys y List.mem_cons_self) heq
      obtain ⟨htail, hend⟩ := ih (fun x hx => hxs x (.tail _ hx)) (fun y hy => hys y (.tail _ hy)) hrest
      exact ⟨by rw [List.map_cons, List.map_cons, hshown, htail], hend⟩

/-- Texts that are joined stand one in front of the other. -/
theorem join_append (text : α → String) (xs : List α) (r : String) :
    String.join (xs.map text) ++ r = xs.foldr (fun x r => text x ++ r) r := by
  induction xs with
  | nil => simp
  | cons x xs ih => rw [List.map_cons, String.join_cons, String.append_assoc, ih, List.foldr_cons]

/-- Characters that are strung together stand one in front of the other. -/
theorem flatMap_append (text : α → List Char) (xs : List α) (r : List Char) :
    xs.flatMap text ++ r = xs.foldr (fun x r => text x ++ r) r := by
  induction xs with
  | nil => rfl
  | cons x xs ih => rw [List.flatMap_cons, List.append_assoc, ih, List.foldr_cons]

/-! ## Parts that end at a mark -/

/-- What ends at the first mark of its kind can be told from what follows. -/
theorem eq_of_append_cons {c : Char} {xs ys r s : List Char} (hx : c ∉ xs) (hy : c ∉ ys)
    (h : xs ++ c :: r = ys ++ c :: s) : xs = ys ∧ r = s := by
  induction xs generalizing ys with
  | nil =>
    cases ys with
    | nil => exact ⟨rfl, (List.cons.inj h).2⟩
    | cons d ds => exact absurd ((List.cons.inj h).1 ▸ List.mem_cons_self) hy
  | cons d ds ih =>
    cases ys with
    | nil => exact absurd ((List.cons.inj h).1 ▸ List.mem_cons_self) hx
    | cons e es =>
      obtain ⟨rfl, hrest⟩ := List.cons.inj h
      obtain ⟨rfl, hend⟩ := ih (fun hc => hx (.tail _ hc)) (fun hc => hy (.tail _ hc)) hrest
      exact ⟨rfl, hend⟩

/-- A mark is in neither part of a text that it is not in. -/
theorem not_mem_append {x y : String} {c : Char} :
    c ∉ (x ++ y).toList ↔ c ∉ x.toList ∧ c ∉ y.toList := by
  rw [String.toList_append, List.mem_append, not_or]

/-- A text begins with its first part. -/
theorem prefix_append (x r : String) : x.toList <+: (x ++ r).toList := by
  rw [String.toList_append]
  exact List.prefix_append _ _

/-- A text begins with nothing that begins with another character. -/
theorem not_prefix_of_head_ne {x r : String} {c : Char} (hx : x.toList.head? = some c)
    (hr : r.toList.head? ≠ some c) : ¬x.toList <+: r.toList := by
  rintro ⟨rest, heq⟩
  obtain ⟨cs, hcs⟩ := List.head?_eq_some_iff.1 hx
  rw [← heq, hcs] at hr
  exact hr rfl

/-- A text begins as its first part does. -/
theorem head?_append {x r : String} {c : Char} (h : x.toList.head? = some c) :
    (x ++ r).toList.head? = some c := by
  rw [String.toList_append, List.head?_append, h]
  rfl

/-- A part that does not contain the first character of the mark behind it. -/
theorem eq_of_append_mark {mark x y r s : String} {c : Char} (hmark : mark.toList.head? = some c)
    (hx : c ∉ x.toList) (hy : c ∉ y.toList) (h : x ++ (mark ++ r) = y ++ (mark ++ s)) :
    x = y ∧ r = s := by
  obtain ⟨cs, hcs⟩ := List.head?_eq_some_iff.1 hmark
  have hlists := congrArg String.toList h
  simp only [String.toList_append, hcs, List.cons_append] at hlists
  obtain ⟨hxy, hrest⟩ := eq_of_append_cons hx hy hlists
  exact ⟨String.toList_inj.1 hxy, String.toList_inj.1 (List.append_cancel_left hrest)⟩

/-! ## Numbers -/

/-- Hexadecimal digits are told apart. -/
theorem digitChar_injOn {m n : Nat} (hm : m < 16) (hn : n < 16) (h : m.digitChar = n.digitChar) :
    m = n := by
  have hall : ∀ m < 16, ∀ n < 16, m.digitChar = n.digitChar → m = n := by decide
  exact hall m hm n hn h

/-- A small number has one hexadecimal digit. -/
theorem hexDigits_of_lt {n : Nat} (h : n < 16) : hexDigits n = [n.digitChar] :=
  Nat.toDigits_of_lt_base h

/-- Any other number has one digit more than its sixteenth. -/
theorem hexDigits_of_ge {n : Nat} (h : 16 ≤ n) :
    hexDigits n = hexDigits (n / 16) ++ [(n % 16).digitChar] :=
  Nat.toDigits_of_base_le (by decide) h

/-- A number of more than one digit does not look like one of a single digit. -/
theorem hexDigits_ne {m n : Nat} (hm : m < 16) (hn : 16 ≤ n) : hexDigits m ≠ hexDigits n := by
  intro h
  rw [hexDigits_of_lt hm, hexDigits_of_ge hn, List.singleton_eq_append_iff] at h
  rcases h with ⟨hnil, -⟩ | ⟨-, hnil⟩
  · exact Nat.toDigits_ne_nil hnil
  · cases hnil

/-- Numbers have different digits. -/
theorem hexDigits_injective : Function.Injective hexDigits := by
  intro m n h
  induction m using Nat.strongRecOn generalizing n with
  | ind m ih =>
    rcases Nat.lt_or_ge m 16 with hm | hm <;> rcases Nat.lt_or_ge n 16 with hn | hn
    · rw [hexDigits_of_lt hm, hexDigits_of_lt hn] at h
      exact digitChar_injOn hm hn (List.cons.inj h).1
    · exact absurd h (hexDigits_ne hm hn)
    · exact absurd h.symm (hexDigits_ne hn hm)
    · rw [hexDigits_of_ge hm, hexDigits_of_ge hn] at h
      obtain ⟨hhigh, hlow⟩ := List.append_inj' h rfl
      have hlow' := digitChar_injOn (Nat.mod_lt m (by decide)) (Nat.mod_lt n (by decide))
        (List.cons.inj hlow).1
      have hhigh' := ih (m / 16) (by omega) hhigh
      omega

/-- Hexadecimal digits end where the brace is. -/
theorem brace_not_mem_hexDigits (n : Nat) : '\x7d' ∉ hexDigits n := by
  have hdigit : ∀ m < 16, '\x7d' ∉ [m.digitChar] := by decide
  induction n using Nat.strongRecOn with
  | ind n ih =>
    rcases Nat.lt_or_ge n 16 with hn | hn
    · rw [hexDigits_of_lt hn]
      exact hdigit n hn
    · rw [hexDigits_of_ge hn, List.mem_append, not_or]
      exact ⟨ih (n / 16) (by omega), hdigit _ (Nat.mod_lt n (by decide))⟩

/-- A number is written in digits only. -/
theorem isDigit_of_mem_toString {n : Nat} {c : Char} (h : c ∈ (toString n).toList) :
    c.isDigit = true := by
  rw [Nat.toString_eq_repr, Nat.toList_repr] at h
  exact Nat.isDigit_of_mem_toDigits (by decide) (by decide) h

/-- A number can be read off its digits. -/
theorem eq_of_toString {m n : Nat} (h : toString m = toString n) : m = n := by
  rw [Nat.toString_eq_ofList_toDigits, Nat.toString_eq_ofList_toDigits, String.ofList_inj] at h
  have hread := congrArg (Nat.ofDigitChars 10 · 0) h
  rwa [Nat.ofDigitChars_ten_toDigits, Nat.ofDigitChars_ten_toDigits] at hread

/-! ## Quoted text -/

/-- The character that an escape of one letter stands for. -/
def meaning : Char → Option Char
  | '"' => some '"'
  | '\\' => some '\\'
  | 't' => some '\t'
  | 'n' => some '\n'
  | 'r' => some '\r'
  | '0' => some '\x00'
  | _ => none

/-- The ways to write a character between quotes. -/
inductive Escaped (c : Char) : List Char → Prop where
  | letter (x : Char) (h : meaning x = some c) : Escaped c ['\\', x]
  | plain (hquote : c ≠ '"') (hslash : c ≠ '\\') : Escaped c [c]
  | code : Escaped c ('\\' :: 'u' :: '\x7b' :: (hexDigits c.toNat ++ ['\x7d']))

/-- Every character is written in one of these ways. -/
theorem escaped (c : Char) : Escaped c (escape c) := by
  unfold escape
  split
  · next h => exact .letter '"' (by rw [h]; rfl)
  split
  · next h => exact .letter '\\' (by rw [h]; rfl)
  split
  · next h => exact .letter 't' (by rw [h]; rfl)
  split
  · next h => exact .letter 'n' (by rw [h]; rfl)
  split
  · next h => exact .letter 'r' (by rw [h]; rfl)
  split
  · next h =>
    refine .letter '0' ?_
    rw [show c = '\x00' from Char.toNat_inj.1 h]
    rfl
  split
  · exact .plain ‹_› ‹_›
  · exact .code

/-- A letter behind a backslash stands for itself in no other way to write a character. -/
theorem Escaped.separable {c d : Char} {xs ys r s : List Char} (hx : Escaped c xs)
    (hy : Escaped d ys) (h : xs ++ r = ys ++ s) : c = d ∧ r = s := by
  -- after a backslash stands a letter of the table, or the one that begins a code, which is none of
  -- them
  cases hx with
  | letter x hx =>
    cases hy with
    | letter y hy =>
      obtain ⟨rfl, rfl⟩ : x = y ∧ r = s := by simpa using h
      exact ⟨Option.some.inj (hx.symm.trans hy), rfl⟩
    | plain hquote hslash => exact absurd (List.cons.inj h).1.symm hslash
    | code =>
      obtain ⟨rfl, -⟩ := List.cons.inj (List.cons.inj h).2
      cases hx
  | plain hquote hslash =>
    cases hy with
    | letter y hy => exact absurd (List.cons.inj h).1 hslash
    | plain => exact List.cons.inj h
    | code => exact absurd (List.cons.inj h).1 hslash
  | code =>
    cases hy with
    | letter y hy =>
      obtain ⟨rfl, -⟩ := List.cons.inj (List.cons.inj h).2
      cases hy
    | plain hquote hslash => exact absurd (List.cons.inj h).1.symm hslash
    | code =>
      have hdigits : hexDigits c.toNat ++ '\x7d' :: r = hexDigits d.toNat ++ '\x7d' :: s := by
        simpa using h
      obtain ⟨heq, hrest⟩ :=
        eq_of_append_cons (brace_not_mem_hexDigits _) (brace_not_mem_hexDigits _) hdigits
      exact ⟨Char.toNat_inj.1 (hexDigits_injective heq), hrest⟩

/-- No character between quotes begins with a quote. -/
theorem Escaped.head_ne {c : Char} {xs r : List Char} (h : Escaped c xs) :
    ¬(xs ++ r).head? = some '"' := by
  cases h with
  | letter x hx => simp
  | plain hquote hslash => simpa using hquote
  | code => simp

/-- Quoted text ends at the first quote that is not written as part of an escape. -/
theorem quote_separable : Separable (fun _ => True) (fun s r => quote s ++ r) id := by
  intro x y r s _ _ h
  have hlists := congrArg String.toList h
  unfold quote at hlists
  simp only [String.toList_append, String.toList_ofList, List.cons_append, List.append_assoc,
    List.nil_append, List.cons.injEq, true_and] at hlists
  rw [flatMap_append, flatMap_append] at hlists
  have hcharacters : Separable (fun _ => True) (fun c r => escape c ++ r) id :=
    fun _ _ _ _ _ _ => (escaped _).separable (escaped _)
  obtain ⟨hmap, hrest⟩ := hcharacters.list (fun r => r.head? = some '"')
    (fun c r _ => (escaped c).head_ne) (fun _ _ => trivial) (fun _ _ => trivial) rfl rfl hlists
  rw [List.map_id, List.map_id] at hmap
  exact ⟨String.toList_inj.1 hmap, String.toList_inj.1 (List.cons.inj hrest).2⟩

end TieredState.Text
