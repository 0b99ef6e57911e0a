import TieredState.Proofs.GeneratedModule
import TieredState.Proofs.Unambiguous

/-!
# The clauses of the generated module

Types, initial values and conditions are free text, which a clause has as it stands. If a type has no
equals sign, an initial value no arrow, and neither initial values nor conditions go over several lines,
each part of a clause ends where it seems to. So the clause can be told from what follows it, and
everything that the field has can be read off it, but for its tier and for what its lock has beside the
name of its constant.

* `Accessors.Clear` — the free text that keeps to this.
* `Accessors.eq_of_conditionLine`, `Accessors.eq_of_flagMarks`, `Accessors.eq_of_protectionClause` — the
  parts that a field may have or not.
* `Accessors.fieldClause_separable` — clauses can be told from what follows them.
-/

namespace TieredState

namespace Identifier

variable {name : String} {c : Char}

/-- Names have letters, digits and underscores only. -/
theorem Legal.not_mem (h : Legal name) (hc : c.isAlphanum = false) (hne : c ≠ '_') :
    c ∉ name.toList := by
  obtain ⟨d, ds, hname, hfirst, hrest⟩ := h.shape
  have hall : ∀ e ∈ name.toList, e.isAlphanum = true ∨ e = '_' := by
    intro e he
    rw [hname] at he
    rcases List.mem_cons.1 he with rfl | he
    · exact hfirst.imp_left fun halpha => Bool.or_eq_true_iff.2 (.inl halpha)
    · exact hrest e he
  intro hmem
  rcases hall c hmem with halnum | hunderscore
  · rw [hc] at halnum
    cases halnum
  · exact hne hunderscore

/-- What begins with a name begins with a character of names. -/
theorem Legal.head_ne (h : Legal name) (hc : c.isAlphanum = false) (hne : c ≠ '_') (r : String) :
    (name ++ r).toList.head? ≠ some c := by
  obtain ⟨d, ds, hname, -⟩ := h.shape
  intro hhead
  rw [String.toList_append, hname] at hhead
  obtain rfl := Option.some.inj hhead
  exact h.not_mem hc hne (hname ▸ List.mem_cons_self)

end Identifier

/-- The lock as far as its constant tells. -/
def Lock.named (l : Lock) : Lock := ⟨l.constantName, 0⟩

/-- The protection as far as it is written. -/
def Protection.named : Protection → Protection
  | unlocked => unlocked
  | mutex l => mutex l.named
  | readMostly l => readMostly l.named

/-- Protections by locks with different constants are written differently. -/
theorem Protection.eq_of_named {a b : Protection}
    (h : ∀ l m, a.lock? = some l → b.lock? = some m → l.named = m.named → l = m)
    (heq : a.named = b.named) : a = b := by
  cases a with
  | unlocked =>
    cases b with
    | unlocked => rfl
    | mutex m | readMostly m => cases heq
  | mutex l =>
    cases b with
    | mutex m => exact congrArg mutex (h l m rfl rfl (mutex.inj heq))
    | unlocked | readMostly m => cases heq
  | readMostly l =>
    cases b with
    | readMostly m => exact congrArg readMostly (h l m rfl rfl (readMostly.inj heq))
    | unlocked | mutex m => cases heq

/-- The free text of a field keeps clear of what is written around it: types end at the equals sign,
initial values at the arrow, clauses and conditions at the end of the line. -/
structure Accessors.Clear (type : String) (initial? condition? : Option String) : Prop where
  type : '=' ∉ type.toList
  initial : ∀ v, initial? = some v → '\n' ∉ v.toList ∧ ¬"=>".toList <:+: v.toList
  condition : ∀ c, condition? = some c → '\n' ∉ c.toList

namespace Field

/-- The field with the initial value that is written for it. -/
def completed (f : Field) : Field :=
  { f with initial? := some (f.initial?.getD Accessors.defaultInitial) }

/-- The field as far as it is written. -/
def written (f : Field) : Field := { f.completed with protection := f.protection.named }

/-- Generated code can declare the field, and its free text keeps clear of what is written around it. -/
structure Plain (f : Field) : Prop where
  name : Identifier.Legal f.name
  text : Accessors.Clear f.type f.initial? f.condition?

end Field

namespace Accessors

open Text

variable {f g : Field} {r s : String}

/-! ## The parts of a clause -/

/-- The parts of a clause, each with the mark at which it ends, and what follows. -/
theorem fieldClause_eq (f : Field) (r : String) : fieldClause f ++ r =
    conditionLine f.condition? ++ ("        " ++ (flagMarks f ++ (f.name ++ (": " ++
      (f.type ++ " " ++ ("= " ++ (initialText f ++ protectionClause f.protection ++ "," ++
        ("\n" ++ r)))))))) := by
  have hequals : " = " = " " ++ "= " := by decide
  have hend : ",\n" = "," ++ "\n" := by decide
  -- each part stands with what it has before the mark at which it ends
  rw [fieldClause_parts, hequals, hend]
  simp only [String.append_assoc]

/-- A condition begins with a character that no clause begins with. -/
theorem eq_of_conditionLine {c d : Option String} (hc : ∀ x, c = some x → '\n' ∉ x.toList)
    (hd : ∀ x, d = some x → '\n' ∉ x.toList) (hr : r.toList.head? ≠ some '#')
    (hs : s.toList.head? ≠ some '#')
    (h : conditionLine c ++ ("        " ++ r) = conditionLine d ++ ("        " ++ s)) :
    c = d ∧ r = s := by
  -- behind the blanks a condition has a mark of its own, and ends with its line
  have hline : ∀ x t, conditionLine (some x) ++ t =
      "        " ++ ("#[cfg(" ++ (x ++ ")]" ++ ("\n" ++ t))) := by
    intro x t
    have hstart : "        #[cfg(" = "        " ++ "#[cfg(" := by decide
    have hend : ")]\n" = ")]" ++ "\n" := by decide
    unfold conditionLine
    rw [hstart, hend]
    simp only [String.append_assoc]
  have hnone : ∀ t, conditionLine none ++ t = t := by
    intro t
    unfold conditionLine
    exact String.empty_append
  have hout : ∀ {x : String}, '\n' ∉ x.toList → '\n' ∉ (x ++ ")]").toList := by
    intro x hx
    simp [hx]
  cases c with
  | none =>
    cases d with
    | none => exact ⟨rfl, (String.append_right_inj _).1 h⟩
    | some y =>
      rw [hnone, hline, String.append_right_inj] at h
      rw [h] at hr
      simp at hr
  | some x =>
    cases d with
    | none =>
      rw [hnone, hline, String.append_right_inj] at h
      rw [← h] at hs
      simp at hs
    | some y =>
      rw [hline, hline, String.append_right_inj, String.append_right_inj] at h
      obtain ⟨hxy, hrest⟩ := eq_of_append_mark (c := '\n') rfl (hout (hc x rfl)) (hout (hd y rfl)) h
      exact ⟨congrArg some ((String.append_left_inj _).1 hxy), (String.append_right_inj _).1 hrest⟩

/-- A word that is there or not can be told from a text that does not begin with it. -/
theorem eq_of_optional {word : String} {a b : Bool} (hr : ¬word.toList <+: r.toList)
    (hs : ¬word.toList <+: s.toList)
    (h : (if a then word else "") ++ r = (if b then word else "") ++ s) : a = b ∧ r = s := by
  cases a <;> cases b <;>
    simp only [Bool.false_eq_true, if_true, if_false, String.empty_append] at h
  · exact ⟨rfl, h⟩
  · exact absurd (h ▸ prefix_append word s) hr
  · exact absurd (h ▸ prefix_append word r) hs
  · exact ⟨rfl, (String.append_right_inj _).1 h⟩

/-- Flags come before what does not look like one. -/
theorem eq_of_flagMarks (hr : r.toList.head? ≠ some '@') (hs : s.toList.head? ≠ some '@')
    (h : flagMarks f ++ r = flagMarks g ++ s) :
    f.exported = g.exported ∧ f.persistent = g.persistent ∧ f.constant = g.constant ∧ r = s := by
  -- no mark begins what may follow it, which is one of the marks behind it or `r`
  have hconstant : ∀ (b : Bool) {t : String}, t.toList.head? ≠ some '@' →
      ¬"@persistent ".toList <+: ((if b then "@constant " else "") ++ t).toList := by
    intro b t ht
    cases b with
    | false => simpa using not_prefix_of_head_ne (x := "@persistent ") rfl ht
    | true => simp
  have hpersistent : ∀ (a b : Bool) {t : String}, t.toList.head? ≠ some '@' →
      ¬"@export ".toList <+:
        ((if a then "@persistent " else "") ++ ((if b then "@constant " else "") ++ t)).toList := by
    intro a b t ht
    cases a with
    | false =>
      cases b with
      | false => simpa using not_prefix_of_head_ne (x := "@export ") rfl ht
      | true => simp
    | true => simp
  unfold flagMarks at h
  simp only [String.append_assoc] at h
  obtain ⟨hexported, h⟩ := eq_of_optional (hpersistent _ _ hr) (hpersistent _ _ hs) h
  obtain ⟨hpersistent, h⟩ := eq_of_optional (hconstant _ hr) (hconstant _ hs) h
  obtain ⟨hconstant, h⟩ := eq_of_optional (not_prefix_of_head_ne rfl hr) (not_prefix_of_head_ne rfl hs) h
  exact ⟨hexported, hpersistent, hconstant, h⟩

/-! ## The end of a clause -/

/-- A text without an arrow does not reach beyond the arrow that stands behind a shorter one. -/
theorem eq_nil_of_append_arrow {xs ys zs r s : List Char} (hy : ¬['=', '>'] <:+: ys)
    (hxy : ys = xs ++ zs) (h : ' ' :: '=' :: '>' :: r = zs ++ ' ' :: '=' :: '>' :: s) : zs = [] := by
  -- shorter than the arrow, it would have one of its signs where the arrow has its blank
  match zs, h with
  | [], _ => rfl
  | [_], h => simp at h
  | [_, _], h => simp at h
  | c :: d :: e :: zs, h =>
    obtain ⟨rfl, rfl, rfl, -⟩ : ' ' = c ∧ '=' = d ∧ '>' = e ∧ _ := by simpa using h
    exact absurd ⟨xs ++ [' '], zs, by simp [hxy]⟩ hy

/-- Text without an arrow ends where the first arrow begins. -/
theorem eq_of_append_arrow {xs ys r s : List Char} (hx : ¬['=', '>'] <:+: xs)
    (hy : ¬['=', '>'] <:+: ys) (h : xs ++ ' ' :: '=' :: '>' :: r = ys ++ ' ' :: '=' :: '>' :: s) :
    xs = ys ∧ r = s := by
  rcases List.append_eq_append_iff.1 h with ⟨zs, hys, hrest⟩ | ⟨zs, hxs, hrest⟩
  · obtain rfl := eq_nil_of_append_arrow hy hys hrest
    exact ⟨by simpa using hys.symm, by simpa using hrest⟩
  · obtain rfl := eq_nil_of_append_arrow hx hxs hrest
    exact ⟨by simpa using hxs, by simpa using hrest.symm⟩

/-- What stands behind the arrow of a clause, if it has one. -/
def guardText : Protection → Option String
  | .unlocked => none
  | .mutex l => some (" locked(" ++ l.constantName ++ ")")
  | .readMostly l => some (" read_mostly(" ++ l.constantName ++ ")")

/-- A clause has an arrow and what stands behind it, or nothing. -/
theorem protectionClause_eq_guardText (protection : Protection) :
    protectionClause protection = ((guardText protection).map (" =>" ++ ·)).getD "" := by
  have hmutex : " => locked(" = " =>" ++ " locked(" := by decide
  have hreadMostly : " => read_mostly(" = " =>" ++ " read_mostly(" := by decide
  cases protection with
  | unlocked => rfl
  | mutex l =>
    show " => locked(" ++ l.constantName ++ ")" = " =>" ++ (" locked(" ++ l.constantName ++ ")")
    rw [hmutex]
    simp only [String.append_assoc]
  | readMostly l =>
    show " => read_mostly(" ++ l.constantName ++ ")" =
      " =>" ++ (" read_mostly(" ++ l.constantName ++ ")")
    rw [hreadMostly]
    simp only [String.append_assoc]

/-- The word that stands before a constant tells the kind of protection. -/
theorem named_of_guardText {a b : Protection} (h : guardText a = guardText b) :
    a.named = b.named := by
  -- the word and the bracket are the same, so the constants are
  have hconstant : ∀ {l m : Lock} {word : String},
      word ++ l.constantName ++ ")" = word ++ m.constantName ++ ")" → l.named = m.named := by
    intro l m word heq
    rw [String.append_left_inj, String.append_right_inj] at heq
    exact congrArg (Lock.mk · 0) heq
  have hword : ∀ l m : Lock,
      " locked(" ++ l.constantName ++ ")" ≠ " read_mostly(" ++ m.constantName ++ ")" := by
    intro l m heq
    have hlists := congrArg String.toList heq
    simp [String.toList_append] at hlists
  cases a with
  | unlocked =>
    cases b with
    | unlocked => rfl
    | mutex m | readMostly m => cases h
  | mutex l =>
    cases b with
    | unlocked => cases h
    | mutex m => exact congrArg Protection.mutex (hconstant (Option.some.inj h))
    | readMostly m => exact absurd (Option.some.inj h) (hword l m)
  | readMostly l =>
    cases b with
    | unlocked => cases h
    | mutex m => exact absurd (Option.some.inj h).symm (hword m l)
    | readMostly m => exact congrArg Protection.readMostly (hconstant (Option.some.inj h))

/-- An initial value without an arrow ends where the clause has its arrow, or at its end. -/
theorem eq_of_protectionClause {x y : String} {a b : Protection} (hx : ¬"=>".toList <:+: x.toList)
    (hy : ¬"=>".toList <:+: y.toList) (h : x ++ protectionClause a = y ++ protectionClause b) :
    x = y ∧ a.named = b.named := by
  -- where there is an arrow behind one of the values, there has to be one behind the other
  have hout : ∀ {x y t : String}, ¬"=>".toList <:+: y.toList → x ++ (" =>" ++ t) ≠ y := by
    rintro x y t hy rfl
    exact hy ⟨x.toList ++ [' '], t.toList, by simp⟩
  rw [protectionClause_eq_guardText, protectionClause_eq_guardText] at h
  cases ha : guardText a with
  | none =>
    cases hb : guardText b with
    | none =>
      refine ⟨?_, named_of_guardText (ha.trans hb.symm)⟩
      simpa [ha, hb] using h
    | some u =>
      refine absurd ?_ (hout (x := y) (t := u) hx)
      simpa [ha, hb] using h.symm
  | some t =>
    cases hb : guardText b with
    | none =>
      refine absurd ?_ (hout (x := x) (t := t) hy)
      simpa [ha, hb] using h
    | some u =>
      have hlists : x.toList ++ ' ' :: '=' :: '>' :: t.toList =
          y.toList ++ ' ' :: '=' :: '>' :: u.toList := by
        simpa [ha, hb] using congrArg String.toList h
      obtain ⟨hxy, htu⟩ := eq_of_append_arrow hx hy hlists
      have hguard : guardText a = guardText b := by rw [ha, hb, String.toList_inj.1 htu]
      exact ⟨String.toList_inj.1 hxy, named_of_guardText hguard⟩

/-! ## Clauses -/

/-- The free text of a clause has none of the marks that come after it. -/
theorem mem_clauseEnd (h : f.Plain) :
    '\n' ∉ (initialText f ++ protectionClause f.protection ++ ",").toList ∧
      ¬"=>".toList <:+: (initialText f).toList := by
  have hinitial : '\n' ∉ (initialText f).toList ∧ ¬"=>".toList <:+: (initialText f).toList := by
    unfold initialText
    cases hvalue : f.initial? with
    | none => decide
    | some v => exact h.text.initial v hvalue
  have hprotection : '\n' ∉ (protectionClause f.protection).toList := by
    have hname : ∀ l : Lock, '\n' ∉ l.constantName.toList :=
      fun l => (Lock.legal_constantName l).not_mem (by decide) (by decide)
    cases f.protection with
    | unlocked => exact List.not_mem_nil
    | mutex l | readMostly l =>
      exact not_mem_append.2 ⟨not_mem_append.2 ⟨by decide, hname l⟩, by decide⟩
  exact ⟨not_mem_append.2 ⟨not_mem_append.2 ⟨hinitial.1, hprotection⟩, by decide⟩, hinitial.2⟩

/-- Flags do not look like a condition. -/
theorem head_flagMarks_ne (hr : r.toList.head? ≠ some '#') :
    (flagMarks f ++ r).toList.head? ≠ some '#' := by
  unfold flagMarks
  cases f.exported <;> cases f.persistent <;> cases f.constant <;> simp [hr]

/-- Fields that agree in all that is written are written alike. -/
theorem written_eq (htier : f.tier = g.tier) (hcondition : f.condition? = g.condition?)
    (hexported : f.exported = g.exported) (hpersistent : f.persistent = g.persistent)
    (hconstant : f.constant = g.constant) (hname : f.name = g.name) (htype : f.type = g.type)
    (hinitial : initialText f = initialText g) (hguard : f.protection.named = g.protection.named) :
    f.written = g.written := by
  unfold Field.written Field.completed
  rw [Field.mk.injEq]
  exact ⟨hname, htier, htype, congrArg some hinitial, hcondition, hguard, hexported, hpersistent,
    hconstant⟩

/-- A clause can be told from what follows it, but for the tier of its field, which it does not tell. -/
theorem fieldClause_separable (t : Tier) :
    Separable (fun f => f.tier = t ∧ f.Plain) (fun f r => fieldClause f ++ r) Field.written := by
  rintro f g r s ⟨hftier, hf⟩ ⟨hgtier, hg⟩ h
  dsimp only at h
  rw [fieldClause_eq, fieldClause_eq] at h
  -- above the clause there may be a condition
  have hhash : ∀ {f : Field}, f.Plain → ∀ r : String,
      (flagMarks f ++ (f.name ++ r)).toList.head? ≠ some '#' :=
    fun hf r => head_flagMarks_ne (hf.name.head_ne (by decide) (by decide) r)
  obtain ⟨hcondition, h⟩ :=
    eq_of_conditionLine hf.text.condition hg.text.condition (hhash hf _) (hhash hg _) h
  obtain ⟨hexported, hpersistent, hconstant, h⟩ := eq_of_flagMarks
    (hf.name.head_ne (by decide) (by decide) _) (hg.name.head_ne (by decide) (by decide) _) h
  -- the name ends at the colon and the type at the equals sign
  obtain ⟨hname, h⟩ := eq_of_append_mark (c := ':') rfl (hf.name.not_mem (by decide) (by decide))
    (hg.name.not_mem (by decide) (by decide)) h
  obtain ⟨htype, h⟩ := eq_of_append_mark (c := '=') rfl (by simpa using hf.text.type)
    (by simpa using hg.text.type) h
  -- the rest is the line up to its end
  obtain ⟨hfend, hfinitial⟩ := mem_clauseEnd hf
  obtain ⟨hgend, hginitial⟩ := mem_clauseEnd hg
  obtain ⟨hline, hrest⟩ := eq_of_append_mark (c := '\n') rfl hfend hgend h
  obtain ⟨hinitial, hguard⟩ :=
    eq_of_protectionClause hfinitial hginitial ((String.append_left_inj _).1 hline)
  exact ⟨written_eq (hftier.trans hgtier.symm) hcondition hexported hpersistent hconstant hname
    ((String.append_left_inj _).1 htype) hinitial hguard, hrest⟩

end Accessors

end TieredState
