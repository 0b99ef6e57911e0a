import Mathlib.Data.List.Infix
import TieredState.Proofs.GeneratedItems

/-!
# The generated module is closed

Fields refer to locks by the names of constants. Such a name keeps only the letters and digits of the
lock's name, so different locks could share one, and a field would then be guarded by a lock that is
not its own. The linker script refers to fields by name. Here it is shown that each of these
references leads where the policy says.

* `Lock.legal_constantName` — whatever a lock is called, its constant can be declared.
* `Accessors.Closed` — a module declares each lock and each field of its policy once, on lines of a
  fixed shape, and every constant that it names is that of the lock that is meant.
* `Manifest.closed_module` — the module of every manifest that is accepted is closed, and the script
  lists the fields that the module marks for export.
-/

namespace TieredState

namespace Lock

/-- A letter or digit is one in upper case too. -/
theorem isAlphanum_toUpper {c : Char} (h : c.isAlphanum = true) : c.toUpper.isAlphanum = true := by
  unfold Char.toUpper
  split
  · next hlower =>
    -- the letters from `a` to `z` go to those from `A` to `Z`
    refine Bool.or_eq_true_iff.2 (.inl (Bool.or_eq_true_iff.2 (.inl (decide_eq_true ?_))))
    have hfirst := UInt32.le_iff_toNat_le.1 hlower.1
    have hlast := UInt32.le_iff_toNat_le.1 hlower.2
    grind [UInt32.toNat_add]
  · exact h

/-- The name of a constant ends in the same way for all locks. What stands before that begins with a
letter or an underscore and has letters, digits and underscores. -/
theorem exists_stem (l : Lock) : ∃ stem, l.constantName.toList = stem ++ "_LOCK".toList ∧
    (∀ c ∈ stem, c.isAlphanum ∨ c = '_') ∧ ∀ c cs, stem = c :: cs → c.isAlpha ∨ c = '_' := by
  have hchar : ∀ c : Char, (if c.isAlphanum then c.toUpper else '_').isAlphanum ∨
      (if c.isAlphanum then c.toUpper else '_') = '_' := by
    intro c
    split
    · next halnum => exact .inl (isAlphanum_toUpper halnum)
    · exact .inr rfl
  unfold constantName
  generalize hstem : l.name.toList.map (fun c => if c.isAlphanum then c.toUpper else '_') = stem
  have hall : ∀ c ∈ stem, c.isAlphanum ∨ c = '_' := by
    intro c hc
    rw [← hstem] at hc
    obtain ⟨d, -, rfl⟩ := List.mem_map.1 hc
    exact hchar d
  cases stem with
  | nil => exact ⟨[], by simp, nofun, nofun⟩
  | cons c cs =>
    -- only where a digit would come first there is one more character
    by_cases hdigit : c.isDigit = true
    · refine ⟨'_' :: c :: cs, by simp [hdigit], fun d hd => ?_, fun d ds heq => ?_⟩
      · rcases List.mem_cons.1 hd with rfl | hd
        · exact .inr rfl
        · exact hall d hd
      · exact .inr (List.cons.inj heq).1.symm
    · refine ⟨c :: cs, by simp [hdigit], hall, fun d ds heq => ?_⟩
      obtain ⟨rfl, -⟩ := List.cons.inj heq
      exact (hall c List.mem_cons_self).imp_left fun halnum =>
        (Bool.or_eq_true_iff.1 halnum).resolve_right hdigit

/-- Whatever a lock is called, its constant has a name that generated code can declare. -/
theorem legal_constantName (l : Lock) : Identifier.Legal l.constantName := by
  obtain ⟨stem, hname, hall, hfirst⟩ := l.exists_stem
  -- no reserved word ends as these names do
  have hends : ∀ w ∈ "_" :: Identifier.keywords, ¬"_LOCK".toList <:+ w.toList := by decide
  have hout : l.constantName ∉ "_" :: Identifier.keywords := by
    intro hin
    refine hends _ hin ?_
    rw [hname]
    exact List.suffix_append _ _
  have hend : "_LOCK".toList.all (fun d => d.isAlphanum || d = '_') = true := by decide
  have hrest : ∀ d ∈ l.constantName.toList, d.isAlphanum ∨ d = '_' := by
    intro d hd
    rw [hname] at hd
    rcases List.mem_append.1 hd with hstem | hlast
    · exact hall d hstem
    · simpa using List.all_eq_true.1 hend d hlast
  refine ⟨?_, fun hlone => hout (hlone ▸ List.mem_cons_self), fun hin => hout (.tail _ hin)⟩
  cases htext : l.constantName.toList with
  | nil =>
    rw [htext] at hname
    exact absurd (List.append_eq_nil_iff.1 hname.symm).2 (by decide)
  | cons c cs =>
    refine ⟨c, cs, rfl, ?_, fun d hd => hrest d (htext ▸ .tail c hd)⟩
    rw [htext] at hname
    cases stem with
    | nil => exact .inr (List.cons.inj hname).1
    | cons d ds => exact hfirst c ds (by rw [(List.cons.inj hname).1])

end Lock

namespace Accessors

namespace Item

/-- The lock that the item declares. -/
def constant? : Item → Option Lock
  | constant l => some l
  | lockType | struct _ _ _ => none

/-- The fields that the item lists. -/
def fields : Item → List Field
  | struct _ _ fields => fields
  | lockType | constant _ => []

end Item

/-- The line above a clause. -/
def conditionLine : Option String → String
  | some c => "        #[cfg(" ++ c ++ ")]\n"
  | none => ""

/-- The initial value that is written. -/
def initialText (f : Field) : String := f.initial?.getD defaultInitial

/-- The clause marks the field for export. -/
def Marked (f : Field) : Prop := "@export ".toList <+: (flagMarks f).toList

instance (f : Field) : Decidable (Marked f) :=
  inferInstanceAs (Decidable (_ <+: _))

/-- The fields that are marked for export, in the order in which the items list them. -/
def markedFields (is : List Item) : List Field := (is.flatMap Item.fields).filter fun f => Marked f

/-- The text of the linker script that keeps the symbols visible. -/
def scriptText (symbols : List String) : String :=
  "/* @generated by tierstate. Do not edit. */\n\x7b\n" ++
    (match symbols with
      | [] => ""
      | symbols => "  global:\n" ++ String.join (symbols.map fun s => "    " ++ s ++ ";\n")) ++
    "  local:\n    *;\n\x7d;\n"

/-- The word before the constant in a clause. -/
def guardWord : Protection.Kind → String
  | .unlocked => ""
  | .mutex => "locked"
  | .readMostly => "read_mostly"

/-- The module declares the locks and the fields of the policy and refers to nothing else. The constants
come by rank and have names of their own, each on a line with the name and the rank of its lock; each
structure has the fields of its tier in the order of their declaration, and every field is in one
structure, on a line that has its marks in front of its name and its clause behind its initial value;
the constant that a clause names is that of the field's own lock and of no other; only structures of
the global tier mark fields for export. -/
structure Closed (p : Policy) (build : BuildOptions) : Prop where
  constants : (items p build).filterMap Item.constant? = p.locks
  constantLines : ∀ l ∈ p.locks, (Item.constant l).text =
    "pub const " ++ l.constantName ++ ": LockId = LockId::new(" ++ Text.quote l.name ++ ", " ++
      toString l.rank ++ ");\n"
  ranks : p.locks.Pairwise (·.rank < ·.rank)
  constantNames : (p.locks.map (·.constantName)).Nodup
  structs : ∀ name t fields, Item.struct name t fields ∈ items p build →
    name = build.structName t ∧ fields = p.fields.filter (·.tier = t)
  once : ((items p build).flatMap Item.fields).Perm p.fields
  fieldLines : ∀ f ∈ p.fields, fieldClause f =
    conditionLine f.condition? ++ "        " ++ flagMarks f ++ f.name ++ ": " ++ f.type ++ " = " ++
      initialText f ++ protectionClause f.protection ++ ",\n"
  clauses : ∀ f ∈ p.fields, f.lock? = none ∧ protectionClause f.protection = "" ∨
    ∃ l, f.lock? = some l ∧
      protectionClause f.protection =
        " => " ++ guardWord f.protection.kind ++ "(" ++ l.constantName ++ ")" ∧
      ∀ l', l' = l ↔ Item.constant l' ∈ items p build ∧ l'.constantName = l.constantName
  marks : ∀ name t fields, Item.struct name t fields ∈ items p build → ∀ f ∈ fields, Marked f →
    t = .global

variable {p : Policy} {build : BuildOptions} {f : Field} {l : Lock}

/-- The parts of a field's line: its marks stand in front of its name, its clause at the end. -/
theorem fieldClause_parts : fieldClause f =
    conditionLine f.condition? ++ "        " ++ flagMarks f ++ f.name ++ ": " ++ f.type ++ " = " ++
      initialText f ++ protectionClause f.protection ++ ",\n" := by
  unfold fieldClause conditionLine initialText
  cases f.condition? <;> rfl

/-- A clause names the constant of the field's lock. -/
theorem protectionClause_eq {protection : Protection} (h : protection.lock? = some l) :
    protectionClause protection =
      " => " ++ guardWord protection.kind ++ "(" ++ l.constantName ++ ")" := by
  cases protection with
  | unlocked => cases h
  | mutex _ | readMostly _ =>
    obtain rfl := Option.some.inj h
    rfl

/-- A field without a lock has no clause. -/
theorem protectionClause_eq_empty {protection : Protection} (h : protection.lock? = none) :
    protectionClause protection = "" := by
  cases protection with
  | unlocked => rfl
  | mutex _ | readMostly _ => cases h

/-- What is marked for export is what is exported. -/
theorem marked_iff : Marked f ↔ f.exported = true := by
  unfold Marked flagMarks
  cases f.exported <;> cases f.persistent <;> cases f.constant <;> decide

/-- The linker script lists the exported fields, with their prefix. -/
theorem renderExportScript_eq {symbolStart : String} : renderExportScript p symbolStart =
    scriptText (p.exports.map fun f => symbolStart ++ f.name) := by
  have hlines : ∀ fs : List Field, (fs.map fun f => "    " ++ symbolStart ++ f.name ++ ";\n") =
      (fs.map fun f => symbolStart ++ f.name).map fun s => "    " ++ s ++ ";\n" := by
    intro fs
    simp only [List.map_map, Function.comp_def, String.append_assoc]
  unfold renderExportScript scriptText
  cases hexports : p.exports with
  | nil => rfl
  | cons f fs =>
    simp only [hlines]
    rfl

/-! ## Constants and structures -/

/-- The module declares the locks of the policy, in their order. -/
theorem constants_eq : (items p build).filterMap Item.constant? = p.locks := by
  have hlocks : (lockItems p).filterMap Item.constant? = p.locks := by
    unfold lockItems
    cases p.locks with
    | nil => rfl
    | cons l ls =>
      rw [List.filterMap_cons_none rfl, List.filterMap_map]
      exact List.filterMap_some
  have hstructs : ((usedTiers p).map (structItem p build)).filterMap Item.constant? = [] := by
    simp [structItem, Item.constant?]
  unfold items
  rw [List.filterMap_append, hlocks, hstructs, List.append_nil]

/-- The fields of the tiers are the fields of the policy. -/
theorem perm_tiers (fs : List Field) :
    (Tier.all.flatMap fun t => fs.filter (·.tier = t)).Perm fs := by
  induction fs with
  | nil => exact .nil
  | cons f fs ih =>
    simp only [Tier.all, List.flatMap_cons, List.flatMap_nil, List.append_nil] at ih ⊢
    cases ht : f.tier with
    | global => simpa [ht] using ih
    | perInstance => simpa [ht] using List.perm_middle.trans (ih.cons f)
    | perThread =>
      rw [← List.append_assoc] at ih ⊢
      simpa [ht] using List.perm_middle.trans (ih.cons f)

/-- A tier without fields has no structure and would list nothing. -/
theorem flatMap_fields_eq : (items p build).flatMap Item.fields = Tier.all.flatMap p.tierFields := by
  have hlocks : (lockItems p).flatMap Item.fields = [] := by
    unfold lockItems
    cases p.locks <;> simp [Item.fields]
  have hstructs : ∀ ts : List Tier, ((ts.filter fun t => !(p.tierFields t).isEmpty).map
      (structItem p build)).flatMap Item.fields = ts.flatMap p.tierFields := by
    intro ts
    induction ts with
    | nil => rfl
    | cons t ts ih =>
      rw [List.flatMap_cons, ← ih]
      cases hfields : p.tierFields t <;> simp [hfields, structItem, Item.fields]
  unfold items usedTiers
  rw [List.flatMap_append, hlocks, hstructs, List.nil_append]

/-- The fields that the items mark are those that the policy exports, in the same order. -/
theorem markedFields_eq (h : p.Sound) : markedFields (items p build) = p.exports := by
  have hexported : ∀ fs : List Field, (fs.filter fun f => Marked f) = fs.filter (·.exported) :=
    fun fs => List.filter_congr fun f _ => by simp [marked_iff]
  -- what is exported is global, so the other structures mark nothing
  have hothers : ∀ t, t ≠ .global → (p.tierFields t).filter (·.exported) = [] := by
    refine fun t hne => List.filter_eq_nil_iff.2 fun f hf hexp => hne ?_
    obtain ⟨hin, ht⟩ := List.mem_filter.1 hf
    exact (of_decide_eq_true ht).symm.trans ((h.lawful f hin).exported hexp)
  unfold markedFields
  rw [flatMap_fields_eq, hexported, h.exports_eq, Tier.all, List.flatMap_cons, List.flatMap_cons,
    List.flatMap_singleton, List.filter_append, List.filter_append, hothers .perInstance (by decide),
    hothers .perThread (by decide), List.append_nil, List.append_nil]

end Accessors

namespace Manifest

open Accessors

variable {m : Manifest} {p : Policy}

/-- The module of the policy is closed. -/
theorem closed (h : m.policy = .ok p) : Closed p m.build := by
  have hsound := (policy_parts h).madeOf.sound
  have hlocks := (policy_parts h).madeOf.locks
  have hnames : (p.locks.map (·.constantName)).Nodup :=
    (hlocks.map _).nodup_iff.2 (policy_ok_iff.1 ⟨p, h⟩).lockConstants
  refine ⟨constants_eq, fun _ _ => rfl, hsound.ranks, hnames, ?structs, ?once,
    fun _ _ => fieldClause_parts, ?clauses, ?marks⟩
  case structs =>
    intro name t fields hin
    exact (struct_mem_items.1 hin).2
  case once =>
    rw [flatMap_fields_eq]
    exact perm_tiers p.fields
  case clauses =>
    intro f hf
    cases hlock : f.lock? with
    | none => exact .inl ⟨rfl, protectionClause_eq_empty hlock⟩
    | some l =>
      refine .inr ⟨l, rfl, protectionClause_eq hlock, fun l' => ?_⟩
      have hl : l ∈ p.locks := ((hsound.lawful f hf).locked l hlock).2.2
      rw [constant_mem_items]
      constructor
      · rintro rfl
        exact ⟨hl, rfl⟩
      · -- another lock with this constant would have been refused
        rintro ⟨hl', hname⟩
        exact List.inj_on_of_nodup_map hnames hl' hl hname
  case marks =>
    intro name t fields hin f hf hmarked
    obtain ⟨-, -, rfl⟩ := struct_mem_items.1 hin
    obtain ⟨hin', ht⟩ := List.mem_filter.1 hf
    have hglobal := (hsound.lawful f hin').exported (marked_iff.1 hmarked)
    exact (of_decide_eq_true ht).symm.trans hglobal

/-- Whatever the locks of a manifest are called, their constants can be declared. The module of a
manifest that is accepted is closed, and the script lists the fields that the module marks for export,
in the same order. -/
theorem closed_module {source symbolStart : String} {a : Accessors}
    (h : m.accessors source symbolStart = .ok a) :
    (∀ l : Lock, Identifier.Legal l.constantName) ∧ ∃ p, m.policy = .ok p ∧
      p.locks.Perm m.lockList ∧
      a.declarations = heading source ++ String.join ((items p m.build).map Item.text) ∧
      Closed p m.build ∧
      a.exportScript =
        scriptText ((markedFields (items p m.build)).map fun f => symbolStart ++ f.name) := by
  obtain ⟨p, hp, hdeclarations, hscript⟩ := accessors_parts h
  have hmade := (policy_parts hp).madeOf
  refine ⟨Lock.legal_constantName, p, hp, hmade.locks, hdeclarations, closed hp, ?_⟩
  rw [hscript, renderExportScript_eq, markedFields_eq hmade.sound]

/-- A manifest whose locks have names that are no identifiers. -/
def ofOddNames : Manifest where
  locks := [⟨"naïve", 70⟩, ⟨"", 10⟩, ⟨"2nd", 30⟩]
  fields := [
    { name := "depth", perThread? := some true, type := "usize" },
    { name := "limit", tier? := some .global, type := "usize", lock? := some "2nd",
      exported := true },
    { name := "table", tier? := some .global, type := "Table", lock? := some "", readMostly := true }]

/-- The constants can be declared and told apart, and each field refers to that of its lock. -/
theorem ofOddNames_closed : ∃ a p, ofOddNames.accessors "m.toml" "PL_" = .ok a ∧
    ofOddNames.policy = .ok p ∧ Closed p ofOddNames.build ∧
    p.locks.map (·.constantName) = ["_LOCK", "_2ND_LOCK", "NA_VE_LOCK"] ∧
    p.fields.map (fun f => protectionClause f.protection) =
      ["", " => locked(_2ND_LOCK)", " => read_mostly(_LOCK)"] ∧
    a.exportScript = scriptText ["PL_limit"] := by
  obtain ⟨-, p, hp, -, -, hclosed, hscript⟩ :=
    closed_module (show ofOddNames.accessors "m.toml" "PL_" = .ok _ from rfl)
  refine ⟨_, p, rfl, hp, hclosed, ?_, ?_, hscript.trans ?_⟩ <;> cases hp <;> decide

end Manifest

end TieredState
