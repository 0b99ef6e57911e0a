import TieredState.Session.Foreign

/-!
# Texts as C strings

A text goes through the C interface as its bytes, and whoever reads them stops at the first zero. So a
text that has a zero in it would come out short, and is not given out at all.

* `readForeign_eq_some` — what is read is the text that the bytes spell, if there is one.
* `spells_closed` — the bytes of a text with a zero after them spell it, unless it has one itself.
-/

namespace TieredState.Session

/-- The bytes of a text. -/
def utf8 (s : String) : List UInt8 := s.toUTF8.data.toList

/-- The bytes up to the first zero are those of the text. -/
def Spells (bytes : List UInt8) (s : String) : Prop := bytes.takeWhile (· ≠ 0) = utf8 s

/-- A zero is among the characters. -/
def HasZero (s : String) : Prop := ∃ c ∈ s.toList, c.toNat = 0

instance (s : String) : Decidable (HasZero s) := List.decidableBEx (fun c : Char => c.toNat = 0) s.toList

variable {bytes : List UInt8} {s : String}

/-- Bytes are read as the text that they spell. -/
theorem readForeign_eq_some : readForeign bytes = some s ↔ Spells bytes s := by
  unfold readForeign String.fromUTF8? Spells
  constructor
  · intro h
    split at h
    · rw [← Option.some.inj h]
      rfl
    · cases h
  · intro h
    have hbytes : (⟨(bytes.takeWhile (· ≠ 0)).toArray⟩ : ByteArray) = s.toByteArray := by
      rw [h]
      rfl
    rw [hbytes, dif_pos s.isValidUTF8]
    rfl

/-- The bytes of a text are those of its characters. -/
theorem utf8_eq_flatMap (s : String) : utf8 s = s.toList.flatMap String.utf8EncodeChar := by
  have hbytes : s.toByteArray = (s.toList.flatMap String.utf8EncodeChar).toByteArray :=
    (congrArg String.toByteArray String.ofList_toList).symm.trans String.toByteArray_ofList
  unfold utf8
  rw [String.toUTF8_eq_toByteArray, hbytes, List.data_toByteArray]

/-- Only the character zero has a zero among its bytes. -/
theorem zero_mem_utf8EncodeChar {c : Char} : 0 ∈ String.utf8EncodeChar c ↔ c.toNat = 0 := by
  have hbyte : ∀ n, (0 : UInt8) = UInt8.ofNat n ↔ n % 256 = 0 := by
    intro n
    rw [← UInt8.toNat_inj, UInt8.toNat_ofNat']
    exact eq_comm
  rw [← Char.toNat_val]
  unfold String.utf8EncodeChar
  dsimp only
  -- every byte has its highest bit set, unless there is a single one
  repeat' split
  all_goals
    simp only [List.mem_cons, List.not_mem_nil, or_false, hbyte]
    omega

/-- A text has a zero byte if it has a zero character. -/
theorem zero_mem_utf8 : 0 ∈ utf8 s ↔ HasZero s := by
  rw [utf8_eq_flatMap, List.mem_flatMap]
  exact exists_congr fun c => and_congr_right fun _ => zero_mem_utf8EncodeChar

/-- What is spelled by bytes that end at a zero has none itself. -/
theorem not_hasZero_of_spells (h : Spells bytes s) : ¬HasZero s := by
  rw [← zero_mem_utf8, ← h]
  intro hmem
  have hne := List.all_eq_true.1 List.all_takeWhile 0 hmem
  exact absurd rfl (of_decide_eq_true hne)

/-- The bytes of a text with a zero behind them spell it, unless it has a zero itself. -/
theorem spells_closed (rest : List UInt8) : Spells (utf8 s ++ 0 :: rest) s ↔ ¬HasZero s := by
  refine ⟨not_hasZero_of_spells, fun hnone => ?_⟩
  have hbytes : ∀ b ∈ utf8 s, decide (b ≠ 0) = true := by
    intro b hb
    refine decide_eq_true fun hzero => ?_
    exact hnone (zero_mem_utf8.1 (hzero ▸ hb))
  unfold Spells
  rw [List.takeWhile_append_of_pos hbytes, List.takeWhile_cons_of_neg (by simp), List.append_nil]

/-- A text with a zero cannot be given to foreign code. -/
theorem foreignText_of_hasZero (h : HasZero s) : foreignText s = none := by
  obtain ⟨c, hc, hzero⟩ := h
  exact if_pos (List.any_eq_true.2 ⟨c, hc, decide_eq_true hzero⟩)

/-- A text without a zero is given to foreign code as it is. -/
theorem foreignText_of_not_hasZero (h : ¬HasZero s) : foreignText s = some s := by
  refine if_neg fun hany => h ?_
  obtain ⟨c, hc, hzero⟩ := List.any_eq_true.1 hany
  exact ⟨c, hc, of_decide_eq_true hzero⟩

end TieredState.Session
