import TieredState.Proofs.GeneratedClauses

/-!
# The generated text loses no declaration

What is written for a manifest can be read off the text again: the items are told from one another by
their first characters, each ends in a way of its own, and the constants, which fields name for their
locks, are those of different locks.

* `Accessors.item_separable` — items can be told from what follows them.
* `Accessors.written_of_text` — two texts are equal only if the items are, as far as they are written.
* `Accessors.completed_of_written` — fields that are written alike are the same, but that one of them may
  say what is the other's initial value by default.
* `Manifest.declarations_of_text` — manifests with one text have the same locks, fields and structures.
-/

namespace TieredState

namespace Accessors

open Text

variable {r s : String} {f g : Field}

/-! ## Items -/

namespace Item

/-- The item as far as it is written. -/
def written : Item → Item
  | lockType => lockType
  | constant l => constant l
  | struct name t fields => struct name t (fields.map Field.written)

/-- The structure has a name that can be declared and fields of its tier, whose free text keeps clear of
what is written around it. -/
def Plain : Item → Prop
  | lockType | constant _ => True
  | struct name t fields => Identifier.Legal name ∧ ∀ f ∈ fields, f.tier = t ∧ f.Plain

/-- The character that the item's text begins with. -/
def start : Item → Char
  | lockType => 'u'
  | constant _ => 'p'
  | struct _ _ _ => '\n'

/-- The first character of an item tells its kind. -/
theorem head_text (i : Item) (r : String) : (i.text ++ r).toList.head? = some i.start := by
  cases i with
  | lockType => exact head?_append rfl
  | constant l =>
    unfold text lockLine
    simp only [String.append_assoc]
    exact head?_append rfl
  | struct name t fields =>
    unfold text
    simp only [String.append_assoc]
    exact head?_append rfl

end Item

/-- The line of a constant ends where the next item begins. -/
theorem lockLine_eq (l : Lock) (r : String) : lockLine l ++ r =
    "pub const " ++ (l.constantName ++ (": LockId = LockId::new(" ++ (Text.quote l.name ++
      (", " ++ (toString l.rank ++ (");\n" ++ r)))))) := by
  unfold lockLine
  simp only [String.append_assoc]

/-- The name of the constant does not tell the lock, but its name is written beside it. -/
theorem eq_of_lockLine {l m : Lock} (h : lockLine l ++ r = lockLine m ++ s) : l = m ∧ r = s := by
  rw [lockLine_eq, lockLine_eq, String.append_right_inj] at h
  have hcolon : ∀ l : Lock, ':' ∉ l.constantName.toList :=
    fun l => (Lock.legal_constantName l).not_mem (by decide) (by decide)
  have hbracket : ∀ n : Nat, ')' ∉ (toString n).toList :=
    fun n hmem => absurd (isDigit_of_mem_toString hmem) (by decide)
  obtain ⟨-, h⟩ := eq_of_append_mark (c := ':') rfl (hcolon l) (hcolon m) h
  obtain ⟨hname, h⟩ := quote_separable trivial trivial h
  rw [String.append_right_inj] at h
  obtain ⟨hrank, hrest⟩ := eq_of_append_mark (c := ')') rfl (hbracket _) (hbracket _) h
  cases l
  cases m
  exact ⟨congrArg₂ Lock.mk hname (eq_of_toString hrank), hrest⟩

/-- The lines behind the last clause of a structure. -/
def structEnd : String := "    \x7d\n\x7d\n"

/-- The text of a structure ends where the next item begins. -/
theorem structText_eq (name : String) (t : Tier) (fields : List Field) (r : String) :
    (Item.struct name t fields).text ++ r =
      "\ntierstate::state_vars! \x7b\n    pub struct " ++ (name ++ (": " ++ (t.title ++ (" \x7b\n" ++
        fields.foldr (fun f r => fieldClause f ++ r) (structEnd ++ r))))) := by
  unfold Item.text structEnd
  simp only [String.append_assoc, ← join_append]

/-- No clause looks like the end of its structure. -/
theorem fieldClause_ne_structEnd (f : Field) (r : String) :
    ¬structEnd.toList <+: (fieldClause f ++ r).toList := by
  have hstart : ∃ x, fieldClause f ++ r = "        " ++ x := by
    unfold fieldClause
    cases f.condition? with
    | none =>
      simp only [String.append_assoc, String.empty_append]
      exact ⟨_, rfl⟩
    | some c =>
      have hbracket : "        #[cfg(" = "        " ++ "#[cfg(" := by decide
      simp only [String.append_assoc, hbracket]
      exact ⟨_, rfl⟩
  obtain ⟨x, hx⟩ := hstart
  rw [hx, String.toList_append]
  rintro ⟨rest, heq⟩
  -- the fifth character is the brace in the one and a blank in the other
  have hfifth := congrArg (·[4]?) heq
  rw [List.getElem?_append_left (by decide), List.getElem?_append_left (by decide)] at hfifth
  exact absurd hfifth (by decide)

/-- The title of a tier is one word. -/
theorem blank_not_mem_title (t : Tier) : ' ' ∉ t.title.toList := by
  cases t <;> decide

/-- Tiers are told apart by their titles. -/
theorem title_injective : Function.Injective Tier.title := by
  intro t u h
  cases t <;> cases u <;> first | rfl | exact absurd h (by decide)

/-- A structure can be told from its text, as far as it is written. -/
theorem eq_of_structText {name name' : String} {t t' : Tier} {fields fields' : List Field}
    (hi : (Item.struct name t fields).Plain) (hj : (Item.struct name' t' fields').Plain)
    (h : (Item.struct name t fields).text ++ r = (Item.struct name' t' fields').text ++ s) :
    (name = name' ∧ t = t' ∧ fields.map Field.written = fields'.map Field.written) ∧ r = s := by
  rw [structText_eq, structText_eq, String.append_right_inj] at h
  obtain ⟨hname, h⟩ := eq_of_append_mark (c := ':') rfl (hi.1.not_mem (by decide) (by decide))
    (hj.1.not_mem (by decide) (by decide)) h
  obtain ⟨htitle, hblock⟩ := eq_of_append_mark (c := ' ') rfl (blank_not_mem_title t)
    (blank_not_mem_title t') h
  obtain rfl := title_injective htitle
  obtain ⟨hfields, hrest⟩ := (fieldClause_separable t).list (fun r => structEnd.toList <+: r.toList)
    (fun f r _ => fieldClause_ne_structEnd f r) hi.2 hj.2 (prefix_append _ r)
    (prefix_append _ s) hblock
  exact ⟨⟨hname, rfl, hfields⟩, (String.append_right_inj _).1 hrest⟩

/-- An item can be told from what follows it. -/
theorem item_separable : Separable Item.Plain (fun i r => i.text ++ r) Item.written := by
  intro i j r s hi hj h
  dsimp only at h
  have hstart : i.start = j.start :=
    Option.some.inj ((i.head_text r).symm.trans (h ▸ j.head_text s))
  -- items of different kinds begin with different characters, so only equal kinds are left
  cases i with
  | lockType =>
    cases j with
    | lockType => exact ⟨rfl, (String.append_right_inj _).1 h⟩
    | constant m | struct name' t' fields' => exact absurd hstart (by simp [Item.start])
  | constant l =>
    cases j with
    | constant m =>
      obtain ⟨rfl, hrest⟩ := eq_of_lockLine h
      exact ⟨rfl, hrest⟩
    | lockType | struct name' t' fields' => exact absurd hstart (by simp [Item.start])
  | struct name t fields =>
    cases j with
    | struct name' t' fields' =>
      obtain ⟨⟨rfl, rfl, hfields⟩, hrest⟩ := eq_of_structText hi hj h
      exact ⟨congrArg (Item.struct name t) hfields, hrest⟩
    | lockType | constant m => exact absurd hstart (by simp [Item.start])

/-- The items can be read off the text, as far as they are written. -/
theorem written_of_text {is js : List Item} (his : ∀ i ∈ is, i.Plain) (hjs : ∀ j ∈ js, j.Plain)
    (h : String.join (is.map Item.text) = String.join (js.map Item.text)) :
    is.map Item.written = js.map Item.written := by
  rw [← String.append_empty (s := String.join (is.map _)), join_append,
    ← String.append_empty (s := String.join (js.map _)), join_append] at h
  have hmore : ∀ (i : Item) r, i.Plain → ¬i.text ++ r = "" := by
    intro i r _ hempty
    have hhead := i.head_text r
    rw [hempty] at hhead
    cases hhead
  exact (item_separable.list (· = "") hmore his hjs rfl rfl h).1

/-! ## Policies with one text -/

variable {p p' : Policy} {build build' : BuildOptions} {locks : List Lock} {t : Tier}

/-- All items of a policy are plain if its names can be declared and its free text keeps clear. -/
theorem plain_items (hstructs : ∀ t, Identifier.Legal (build.structName t))
    (hfields : ∀ f ∈ p.fields, f.Plain) : ∀ i ∈ items p build, i.Plain := by
  intro i hi
  cases i with
  | lockType | constant l => exact trivial
  | struct name t fields =>
    obtain ⟨-, rfl, rfl⟩ := struct_mem_items.1 hi
    refine ⟨hstructs t, fun f hf => ?_⟩
    obtain ⟨hin, ht⟩ := List.mem_filter.1 hf
    exact ⟨of_decide_eq_true ht, hfields f hin⟩

/-- The constants are written as they are. -/
theorem locks_eq_of_written
    (h : (items p build).map Item.written = (items p' build').map Item.written) :
    p.locks = p'.locks := by
  have hconstants : ∀ is : List Item,
      (is.map Item.written).filterMap Item.constant? = is.filterMap Item.constant? := by
    intro is
    rw [List.filterMap_map]
    exact List.filterMap_congr fun i _ => by cases i <;> rfl
  calc
    p.locks = ((items p build).map Item.written).filterMap Item.constant? := by
      rw [hconstants, constants_eq]
    _ = p'.locks := by rw [h, hconstants, constants_eq]

/-- What is written for a tier is written for it in the other text. -/
theorem struct_of_written
    (h : (items p build).map Item.written = (items p' build').map Item.written)
    (ht : t ∈ usedTiers p) : t ∈ usedTiers p' ∧ build.structName t = build'.structName t ∧
      (p.tierFields t).map Field.written = (p'.tierFields t).map Field.written := by
  have hmem : Item.struct (build.structName t) t (p.tierFields t) ∈ items p build :=
    struct_mem_items.2 ⟨ht, rfl, rfl⟩
  have hwritten := List.mem_map_of_mem (f := Item.written) hmem
  rw [h] at hwritten
  obtain ⟨i, hi, heq⟩ := List.mem_map.1 hwritten
  cases i with
  | lockType | constant l => cases heq
  | struct name t' fields =>
    obtain ⟨rfl, rfl, hfields⟩ := Item.struct.inj heq
    obtain ⟨ht', hname, rfl⟩ := struct_mem_items.1 hi
    exact ⟨ht', hname, hfields.symm⟩

/-- A tier that is not used has no fields. -/
theorem tierFields_eq_nil (h : t ∉ usedTiers p) : p.tierFields t = [] := by
  refine List.filter_eq_nil_iff.2 fun f hf ht => h ?_
  exact mem_usedTiers.2 ⟨f, hf, of_decide_eq_true ht⟩

/-- Where no two locks share a constant, a field is known by what is written for it. -/
theorem completed_of_written (hconstants : (locks.map (·.constantName)).Nodup)
    (hf : ∀ l, f.lock? = some l → l ∈ locks) (hg : ∀ l, g.lock? = some l → l ∈ locks)
    (h : f.written = g.written) : f.completed = g.completed := by
  have hprotection : f.protection = g.protection := by
    refine Protection.eq_of_named (fun l m hl hm hnamed => ?_) (congrArg Field.protection h)
    exact List.inj_on_of_nodup_map hconstants (hf l hl) (hg m hm) (congrArg Lock.name hnamed)
  calc
    f.completed = { f.written with protection := f.protection } := rfl
    _ = { g.written with protection := g.protection } := by rw [h, hprotection]
    _ = g.completed := rfl

/-- Fields that are written alike are alike, where no two locks share a constant. -/
theorem map_completed_of_map_written (hconstants : (locks.map (·.constantName)).Nodup)
    {fs gs : List Field} (hfs : ∀ f ∈ fs, ∀ l, f.lock? = some l → l ∈ locks)
    (hgs : ∀ g ∈ gs, ∀ l, g.lock? = some l → l ∈ locks)
    (h : fs.map Field.written = gs.map Field.written) :
    fs.map Field.completed = gs.map Field.completed := by
  induction fs generalizing gs with
  | nil =>
    obtain rfl := List.map_eq_nil_iff.1 h.symm
    rfl
  | cons f fs ih =>
    cases gs with
    | nil => cases h
    | cons g gs =>
      obtain ⟨hhead, htail⟩ := List.cons.inj h
      rw [List.map_cons, List.map_cons, completed_of_written hconstants (hfs f List.mem_cons_self)
        (hgs g List.mem_cons_self) hhead, ih (fun f hf => hfs f (.tail _ hf))
        (fun g hg => hgs g (.tail _ hg)) htail]

/-- What can be read off the text is all that the text depends on. -/
theorem text_of_completed {source : String} (hlocks : p.locks = p'.locks)
    (htiers : ∀ t, (p.tierFields t).map Field.completed = (p'.tierFields t).map Field.completed ∧
      (p.tierFields t ≠ [] → build.structName t = build'.structName t)) :
    renderDeclarations p build source = renderDeclarations p' build' source := by
  -- a line reads no more of a field than its completion
  have hclauses : ∀ fs : List Field, fs.map fieldClause = (fs.map Field.completed).map fieldClause :=
    fun fs => List.map_map.symm ▸ rfl
  have hblocks : tierBlock p build = tierBlock p' build' := by
    funext t
    obtain ⟨hfields, hname⟩ := htiers t
    unfold tierBlock
    cases hp : p.tierFields t with
    | nil =>
      rw [hp] at hfields
      rw [List.map_eq_nil_iff.1 hfields.symm]
    | cons f fs =>
      rw [hp] at hfields hname
      cases hp' : p'.tierFields t with
      | nil =>
        rw [hp'] at hfields
        cases hfields
      | cons f' fs' =>
        rw [hp'] at hfields
        simp only [hclauses (f :: fs), hclauses (f' :: fs'), hfields, hname (List.cons_ne_nil _ _)]
  unfold renderDeclarations lockBlock
  rw [hlocks, hblocks]

end Accessors

namespace Manifest

open Accessors

variable {m m' : Manifest} {p p' : Policy}

/-- The fields of a policy are plain if the free text of the manifest keeps clear. -/
theorem plain_fields (h : m.policy = .ok p)
    (hclear : ∀ e ∈ m.fields, Clear e.type e.initial? e.condition?) : ∀ f ∈ p.fields, f.Plain := by
  intro f hf
  obtain ⟨e, he, hd⟩ := exists_entry (policy_parts h).describes hf
  have hvalid := policy_ok_iff.1 ⟨p, h⟩
  refine ⟨hd.name ▸ (hvalid.entries.each e he).identifier, ?_⟩
  rw [hd.type, hd.initial, hd.condition]
  exact hclear e he

/-- Manifests with one text of declarations, made from a file of the same name, have the same locks, for
every tier the same fields in the same order, each with the initial value that is written for it, and
the same name for the structure of every tier that has fields. For this types may have no equals sign,
initial values no arrow, and neither initial values nor conditions a line break. -/
theorem declarations_of_text {source start start' : String} {a a' : Accessors}
    (h : m.accessors source start = .ok a) (h' : m'.accessors source start' = .ok a')
    (hclear : ∀ e ∈ m.fields, Clear e.type e.initial? e.condition?)
    (hclear' : ∀ e ∈ m'.fields, Clear e.type e.initial? e.condition?)
    (htext : a.declarations = a'.declarations) :
    ∃ p p', m.policy = .ok p ∧ m'.policy = .ok p' ∧
      m.lockList.Perm m'.lockList ∧ p.locks = p'.locks ∧
      ∀ t, (p.tierFields t).map Field.completed = (p'.tierFields t).map Field.completed ∧
        (p.tierFields t ≠ [] → m.build.structName t = m'.build.structName t) := by
  obtain ⟨p, hp, hdeclarations, -⟩ := accessors_parts h
  obtain ⟨p', hp', hdeclarations', -⟩ := accessors_parts h'
  have hvalid := policy_ok_iff.1 ⟨p, hp⟩
  have hvalid' := policy_ok_iff.1 ⟨p', hp'⟩
  have hmade := (policy_parts hp).madeOf
  have hmade' := (policy_parts hp').madeOf
  rw [hdeclarations, hdeclarations', String.append_right_inj] at htext
  -- nothing that an item is made of holds the mark that the item ends with
  have hwritten := written_of_text (plain_items hvalid.structNames (plain_fields hp hclear))
    (plain_items hvalid'.structNames (plain_fields hp' hclear')) htext
  have hlocks := locks_eq_of_written hwritten
  have hconstants : (p.locks.map (·.constantName)).Nodup :=
    (hmade.locks.map _).nodup_iff.2 hvalid.lockConstants
  refine ⟨p, p', hp, hp', ?_, hlocks, fun t => ?_⟩
  · exact hmade.locks.symm.trans (hlocks ▸ hmade'.locks)
  · by_cases ht : t ∈ usedTiers p
    · obtain ⟨-, hname, hfields⟩ := struct_of_written hwritten ht
      refine ⟨?_, fun _ => hname⟩
      have hdeclared : ∀ f ∈ p.tierFields t, ∀ l, f.lock? = some l → l ∈ p.locks :=
        fun f hf l hl => ((hmade.sound.lawful f (List.mem_filter.1 hf).1).locked l hl).2.2
      have hdeclared' : ∀ f ∈ p'.tierFields t, ∀ l, f.lock? = some l → l ∈ p.locks :=
        fun f hf l hl => hlocks ▸ ((hmade'.sound.lawful f (List.mem_filter.1 hf).1).locked l hl).2.2
      exact map_completed_of_map_written hconstants hdeclared hdeclared' hfields
    -- a tier that has no structure in the one text has none in the other
    · have ht' : t ∉ usedTiers p' := fun hin => ht (struct_of_written hwritten.symm hin).1
      rw [tierFields_eq_nil ht, tierFields_eq_nil ht']
      exact ⟨rfl, fun hne => absurd rfl hne⟩

/-- A manifest that leaves to defaults what it can. -/
def ofDefaults : Manifest where
  locks := [⟨"alloc", 60⟩, ⟨"\"late\" hooks", 20⟩]
  fields := [
    { name := "depth", perThread? := some true, type := "usize" },
    { name := "limit", tier? := some .global, type := "Option<usize>", initial? := some "None",
      condition? := some "feature = \"stats\"", lock? := some "alloc", exported := true }]

/-- A manifest that says the same in other words and in another order, with a name for a structure that
nothing is written of. -/
def ofFullText : Manifest where
  build := { instanceStruct := "Nothing" }
  locks := [⟨"\"late\" hooks", 20⟩, ⟨"alloc", 60⟩]
  fields := [
    { name := "limit", beforeInstance? := some true, type := "Option<usize>", initial? := some "None",
      condition? := some "feature = \"stats\"", lock? := some "alloc", exported := true },
    { name := "depth", tier? := some .perThread, type := "usize",
      initial? := some "Default::default()" }]

/-- The texts are equal, and so is what can be read off them. -/
theorem ofDefaults_fullText : ∃ a a' p p',
    ofDefaults.accessors "m.toml" "PL_" = .ok a ∧ ofFullText.accessors "m.toml" "" = .ok a' ∧
      a.declarations = a'.declarations ∧ ofDefaults.policy = .ok p ∧ ofFullText.policy = .ok p' ∧
      p.locks = p'.locks ∧
      ∀ t, (p.tierFields t).map Field.completed = (p'.tierFields t).map Field.completed := by
  -- the conditions on the texts are checked field by field
  have hnone : ∀ {P : String → Prop} v, none = some v → P v := by
    rintro P v ⟨⟩
  have hsome : ∀ {P : String → Prop} {text}, P text → ∀ v, some text = some v → P v := by
    rintro P text h v ⟨⟩
    exact h
  have hdepth : Clear "usize" none none := ⟨by decide, hnone, hnone⟩
  have hdepth' : Clear "usize" (some "Default::default()") none :=
    ⟨by decide, hsome (by decide), hnone⟩
  have hlimit : Clear "Option<usize>" (some "None") (some "feature = \"stats\"") :=
    ⟨by decide, hsome (by decide), hsome (by decide)⟩
  have hclear : ∀ e ∈ ofDefaults.fields, Clear e.type e.initial? e.condition? :=
    List.forall_mem_cons.2 ⟨hdepth, List.forall_mem_cons.2 ⟨hlimit, List.forall_mem_nil _⟩⟩
  have hclear' : ∀ e ∈ ofFullText.fields, Clear e.type e.initial? e.condition? :=
    List.forall_mem_cons.2 ⟨hlimit, List.forall_mem_cons.2 ⟨hdepth', List.forall_mem_nil _⟩⟩
  obtain ⟨p, hp⟩ : ∃ p, ofDefaults.policy = .ok p := ⟨_, rfl⟩
  obtain ⟨p', hp'⟩ : ∃ p, ofFullText.policy = .ok p := ⟨_, rfl⟩
  have htext : renderDeclarations p ofDefaults.build "m.toml" =
      renderDeclarations p' ofFullText.build "m.toml" := by
    cases hp
    cases hp'
    refine text_of_completed rfl fun t => ?_
    cases t <;> exact ⟨rfl, fun h => by first | rfl | exact absurd rfl h⟩
  have haccessors : ofDefaults.accessors "m.toml" "PL_" =
      .ok ⟨renderDeclarations p ofDefaults.build "m.toml", renderExportScript p "PL_"⟩ :=
    accessors_eq_ok_iff.2 ⟨p, hp, rfl⟩
  have haccessors' : ofFullText.accessors "m.toml" "" =
      .ok ⟨renderDeclarations p' ofFullText.build "m.toml", renderExportScript p' ""⟩ :=
    accessors_eq_ok_iff.2 ⟨p', hp', rfl⟩
  obtain ⟨q, q', hq, hq', -, hlocks, htiers⟩ :=
    declarations_of_text haccessors haccessors' hclear hclear' htext
  exact ⟨_, _, q, q', haccessors, haccessors', htext, hq, hq', hlocks, fun t => (htiers t).1⟩

end Manifest

end TieredState
