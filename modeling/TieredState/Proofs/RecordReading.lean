import TieredState.Proofs.Chains
import TieredState.Proofs.DistinctKeys
import TieredState.Toml.Record

/-!
# Reading records

A record is read entry by entry in the order of the document, and reading stops at the first entry
that it refuses. What comes of it does not depend on that order. `RecordFormat` says what a record of
plain values is written as, without saying how it is read: the declared keys with the kind of their
values, those that have to be there, the values taken for the others, and what a record has under each
key.

* `isOk_ofEntries_iff` — a record is read exactly when every entry can be stored and no required key
  is absent.
* `stored_of_ofEntries` — the record then has what the entries say under every key.
* `RecordFormat.ofEntries_iff` — the two together for a record of plain values.
* `RecordFormat.read_iff`, `RecordFormat.isOk_asList_iff` — the same for a value that is read as such a
  record, and for an array that is read as a list of them.
-/

namespace TieredState.Toml

/-! ## Entries in any order -/

namespace RecordShape

variable {σ : Type} {shape : RecordShape σ} {es : Entries} {r : σ}

/-- No key is missing if all that are required stand in the table. -/
theorem missing?_eq_none :
    shape.missing? es = none ↔ ∀ key ∈ shape.keys, key.required = true → key.name ∈ es.map (·.1) := by
  unfold missing?
  rw [List.find?_eq_none]
  refine forall₂_congr fun key _ => ?_
  rw [Bool.and_eq_true, not_and, Bool.not_eq_true, Option.isNone_eq_false_iff,
    ← Option.ne_none_iff_isSome]
  refine forall_congr' fun _ => ?_
  rw [Ne, Entries.find?_eq_none, not_not]

/-- A record is read if each entry can be stored and no key is missing. -/
theorem ofEntries_eq_ok : shape.ofEntries es = .ok r ↔
    es.foldlM shape.storeEntry shape.start = .ok r ∧
      ∀ key ∈ shape.keys, key.required = true → key.name ∈ es.map (·.1) := by
  unfold ofEntries
  rw [bind_eq_ok, ← missing?_eq_none]
  constructor
  · rintro ⟨r', hfold, hok⟩
    split at hok
    · cases hok
    · next hnone => exact ⟨Except.ok.inj hok ▸ hfold, hnone⟩
  · rintro ⟨hfold, hnone⟩
    refine ⟨r, hfold, ?_⟩
    rw [hnone]
    rfl

/-- Whether an entry can be stored does not depend on what was stored before it. So a record is read
exactly when each entry is one that it takes and no required key is absent. -/
theorem isOk_ofEntries_iff {accepts : String → Value → Prop}
    (haccepts : ∀ k v, (k, v) ∈ es → ∀ r, (∃ r', shape.storeEntry r (k, v) = .ok r') ↔ accepts k v) :
    (∃ r, shape.ofEntries es = .ok r) ↔
      (∀ k v, (k, v) ∈ es → accepts k v) ∧
        ∀ key ∈ shape.keys, key.required = true → key.name ∈ es.map (·.1) := by
  -- the fold goes from record to record, so it is looked at from any record
  have hfold : ∀ r, (∃ r', es.foldlM shape.storeEntry r = .ok r') ↔
      ∀ k v, (k, v) ∈ es → accepts k v := by
    induction es with
    | nil => exact fun r => ⟨fun _ _ _ => nofun, fun _ => ⟨r, rfl⟩⟩
    | cons e es ih =>
      obtain ⟨j, u⟩ := e
      have htail := ih fun k v hmem => haccepts k v (List.mem_cons_of_mem _ hmem)
      intro r
      constructor
      · rintro ⟨r', hok⟩ k v hmem
        rw [List.foldlM_cons, bind_eq_ok] at hok
        obtain ⟨r₁, hstore, hrest⟩ := hok
        rcases List.mem_cons.1 hmem with heq | hmem'
        · obtain ⟨rfl, rfl⟩ := Prod.mk.inj heq
          exact (haccepts _ _ hmem r).1 ⟨r₁, hstore⟩
        · exact (htail r₁).1 ⟨r', hrest⟩ k v hmem'
      · intro hall
        obtain ⟨r₁, hstore⟩ := (haccepts j u List.mem_cons_self r).2 (hall j u List.mem_cons_self)
        obtain ⟨r', hrest⟩ := (htail r₁).2 fun k v hmem => hall k v (List.mem_cons_of_mem _ hmem)
        refine ⟨r', ?_⟩
        rw [List.foldlM_cons, bind_eq_ok]
        exact ⟨r₁, hstore, hrest⟩
  constructor
  · rintro ⟨r, hok⟩
    obtain ⟨hok, hpresent⟩ := ofEntries_eq_ok.1 hok
    exact ⟨(hfold _).1 ⟨r, hok⟩, hpresent⟩
  · rintro ⟨hall, hpresent⟩
    obtain ⟨r, hok⟩ := (hfold shape.start).2 hall
    exact ⟨r, ofEntries_eq_ok.2 ⟨hok, hpresent⟩⟩

/-- Let storing an entry bring about `Has` for its key, and keep it for all others. Then the record has
under every key what the entries say of it. -/
theorem stored_of_ofEntries (Has : σ → String → Option Value → Prop) (hkeys : (es.map (·.1)).Nodup)
    (hstart : ∀ k, Has shape.start k none)
    (hstore : ∀ j u, (j, u) ∈ es → ∀ r r', shape.storeEntry r (j, u) = .ok r' →
      Has r' j (some u) ∧ ∀ k v?, k ≠ j → Has r k v? → Has r' k v?)
    (hok : shape.ofEntries es = .ok r) (k : String) : Has r k (es.find? k) := by
  -- what was stored before stays unless its key comes again
  have hfold : ∀ r₀, es.foldlM shape.storeEntry r₀ = .ok r → (∀ v, (k, v) ∈ es → Has r k (some v)) ∧
      ∀ v?, k ∉ es.map (·.1) → Has r₀ k v? → Has r k v? := by
    clear hok
    induction es with
    | nil =>
      intro r₀ hok
      obtain rfl := Except.ok.inj hok
      exact ⟨nofun, fun _ _ => id⟩
    | cons e es ih =>
      obtain ⟨j, u⟩ := e
      rw [List.map_cons, List.nodup_cons] at hkeys
      intro r₀ hok
      rw [List.foldlM_cons, bind_eq_ok] at hok
      obtain ⟨r₁, hfirst, hrest⟩ := hok
      obtain ⟨hhas, hothers⟩ := hstore j u List.mem_cons_self r₀ r₁ hfirst
      obtain ⟨hlater, hkept⟩ := ih hkeys.2 (fun j u hmem => hstore j u (List.mem_cons_of_mem _ hmem))
        r₁ hrest
      refine ⟨fun v hmem => ?_, fun v? hk h₀ => ?_⟩
      · rcases List.mem_cons.1 hmem with heq | hmem'
        · obtain ⟨rfl, rfl⟩ := Prod.mk.inj heq
          exact hkept _ hkeys.1 hhas
        · exact hlater v hmem'
      · rw [List.map_cons, List.mem_cons, not_or] at hk
        exact hkept v? hk.2 (hothers k v? hk.1 h₀)
  obtain ⟨hmem, habsent⟩ := hfold _ (ofEntries_eq_ok.1 hok).1
  cases hfind : es.find? k with
  | some v => exact hmem v (Entries.mem_of_find? hfind)
  | none => exact habsent none (Entries.find?_eq_none.1 hfind) (hstart k)

/-- A closed record takes no key that is not declared. -/
theorem storeEntry_of_undeclared (hclosed : shape.closed = true) {k : String} (v : Value)
    (hnone : shape.keys.find? (·.name = k) = none) (r r' : σ) : shape.storeEntry r (k, v) ≠ .ok r' := by
  unfold storeEntry
  dsimp only
  rw [hnone, hclosed]
  exact nofun

/-- An entry under a declared key is stored as this key says. -/
theorem storeEntry_of_declared {k : String} {key : Key σ} (v : Value)
    (hsome : shape.keys.find? (·.name = k) = some key) (r : σ) :
    shape.storeEntry r (k, v) = key.store v r := by
  unfold storeEntry
  dsimp only
  rw [hsome]

end RecordShape

/-! ## Kinds of values -/

/-- What the value under a key has to be. -/
inductive Kind where
  | text
  | boolean
  -- An integer from 0 to 255.
  | byte
  -- One of a number of names.
  | oneOf (names : List String)
  deriving DecidableEq, Repr

namespace Kind

def Admits : Kind → Value → Prop
  | text, v => ∃ s, v = .text s
  | boolean, v => ∃ b, v = .boolean b
  | byte, v => ∃ n : Int, v = .integer n ∧ 0 ≤ n ∧ n ≤ 255
  | oneOf names, v => ∃ s ∈ names, v = .text s

/-- The values that are considered for the kind: a name may also be written as a table, which is left
out here. -/
def Considers : Kind → Value → Prop
  | oneOf _, v => v.isPlain = true
  | _, _ => True

/-- What is admitted for a kind of plain values is plain. -/
theorem isPlain_of_admits {kind : Kind} {v : Value} (h : kind.Admits v) : v.isPlain = true := by
  cases kind with
  | text | boolean =>
    obtain ⟨_, rfl⟩ := h
    rfl
  | byte =>
    obtain ⟨n, rfl, -⟩ := h
    rfl
  | oneOf names =>
    obtain ⟨s, -, rfl⟩ := h
    rfl

end Kind

/-! ## Records of plain values -/

/-- How a record of plain values is written. -/
structure RecordFormat (σ : Type) where
  -- The declared keys with the kinds of their values.
  declared : List (String × Kind)
  -- The keys that have to be there.
  required : List String
  -- What is taken for keys that are absent.
  defaults : Entries
  -- What a record has under a key.
  shown : σ → String → Option Value

variable {σ : Type}

/-- Storing the value under a key. -/
structure Key.Follows (key : Key σ) (kind : Kind) (shown : σ → String → Option Value) : Prop where
  isOk_iff : ∀ v r, kind.Considers v → ((∃ r', key.store v r = .ok r') ↔ kind.Admits v)
  shown : ∀ v r r', kind.Considers v → key.store v r = .ok r' →
    ∀ k, shown r' k = if k = key.name then some v else shown r k

section KeyOf

variable {α : Type} {name : String} {read : Value → Except ShapeError α} {put : α → σ → σ}
  {required : Bool} {v : Value} {r r' : σ}

/-- A key stores what it reads. -/
theorem Key.store_of_eq_ok :
    (Key.of name read put required).store v r = .ok r' ↔ ∃ a, read v = .ok a ∧ put a r = r' := by
  show (read v).map (put · r) = .ok r' ↔ _
  cases read v <;> simp [Except.map]

/-- A key stores a value exactly when it can read it. -/
theorem Key.isOk_store_of :
    (∃ r', (Key.of name read put required).store v r = .ok r') ↔ ∃ a, read v = .ok a := by
  simp only [store_of_eq_ok]
  exact ⟨fun ⟨_, a, ha, _⟩ => ⟨a, ha⟩, fun ⟨a, ha⟩ => ⟨_, a, ha, rfl⟩⟩

/-- A key whose values are read as `α`, each of which is written in one way. -/
theorem Key.follows_of {kind : Kind} {shown : σ → String → Option Value} (written : α → Value)
    (hread : ∀ v a, kind.Considers v → read v = .ok a → v = written a)
    (hadmits : ∀ v, kind.Considers v → ((∃ a, read v = .ok a) ↔ kind.Admits v))
    (hput : ∀ a r k, shown (put a r) k = if k = name then some (written a) else shown r k) :
    (Key.of name read put required).Follows kind shown where
  isOk_iff v r hv := Key.isOk_store_of.trans (hadmits v hv)
  shown v r r' hv hok k := by
    obtain ⟨a, ha, rfl⟩ := Key.store_of_eq_ok.1 hok
    rw [hread v a hv ha]
    exact hput a r k

end KeyOf

section Keys

variable {name : String} {required : Bool} {shown : σ → String → Option Value}

/-- A key for texts stores texts. -/
theorem Key.follows_text {put : String → σ → σ}
    (hput : ∀ s r k, shown (put s r) k = if k = name then some (.text s) else shown r k) :
    (Key.of name Value.asText put required).Follows .text shown := by
  have hread : ∀ v s, Value.asText v = .ok s ↔ v = .text s := by
    intro v s
    cases v <;> simp [Value.asText]
  exact follows_of .text (fun v s _ => (hread v s).1) (fun v _ => exists_congr (hread v)) hput

/-- A key for truth values stores truth values. -/
theorem Key.follows_boolean {put : Bool → σ → σ}
    (hput : ∀ b r k, shown (put b r) k = if k = name then some (.boolean b) else shown r k) :
    (Key.of name Value.asBoolean put required).Follows .boolean shown := by
  have hread : ∀ v b, Value.asBoolean v = .ok b ↔ v = .boolean b := by
    intro v b
    cases v <;> simp [Value.asBoolean]
  exact follows_of .boolean (fun v b _ => (hread v b).1) (fun v _ => exists_congr (hread v)) hput

/-- A key for small numbers stores those up to 255. -/
theorem Key.follows_byte {title : String} {put : Nat → σ → σ}
    (hput : ∀ n r k, shown (put n r) k = if k = name then some (.integer n) else shown r k) :
    (Key.of name (Value.asNatural 256 title) put required).Follows .byte shown := by
  -- an integer is read if it lies between zero and the bound
  have hread : ∀ v (n : Nat), Value.asNatural 256 title v = .ok n ↔ v = .integer n ∧ n < 256 := by
    intro v n
    cases v with
    | integer i =>
      unfold Value.asNatural
      dsimp only
      split
      · simp only [Except.ok.injEq, Value.integer.injEq]
        omega
      · simp only [reduceCtorEq, Value.integer.injEq, false_iff]
        omega
    | _ => simp [Value.asNatural]
  refine follows_of (fun n => .integer n) (fun v n _ h => ((hread v n).1 h).1) (fun v _ => ?_) hput
  simp only [hread]
  constructor
  · rintro ⟨n, rfl, hn⟩
    exact ⟨n, rfl, by omega, by omega⟩
  · rintro ⟨i, rfl, hlow, hhigh⟩
    refine ⟨i.toNat, ?_, by omega⟩
    rw [Int.toNat_of_nonneg hlow]

/-- A key for one of a number of things, each under its name. -/
theorem Key.follows_oneOf {α : Type} (all : List α) (title : α → String) {put : α → σ → σ}
    (hput : ∀ a r k, shown (put a r) k = if k = name then some (.text (title a)) else shown r k) :
    (Key.of name (Value.asName (all.map fun a => (title a, a))) put required).Follows
      (.oneOf (all.map title)) shown := by
  have hread : ∀ v, v.isPlain = true → ∀ a, Value.asName (all.map fun a => (title a, a)) v = .ok a ↔
      ∃ s, v = .text s ∧ (all.map fun a => (title a, a)).lookup s = some a := by
    intro v hv a
    cases v with
    | text s =>
      unfold Value.asName Value.asName.find
      dsimp only
      cases hlookup : (all.map fun a => (title a, a)).lookup s <;> simp [hlookup]
    | array headed items => cases hv
    | table origin es => cases hv
    | _ => simp [Value.asName]
  refine follows_of (fun a => .text (title a)) (fun v a hv h => ?_) (fun v hv => ?_) hput
  · obtain ⟨s, rfl, hlookup⟩ := (hread v hv a).1 h
    obtain ⟨before, after, heq, -⟩ := List.lookup_eq_some_iff.1 hlookup
    have hmem : (s, a) ∈ all.map fun a => (title a, a) := heq ▸ List.mem_append_right _ List.mem_cons_self
    obtain ⟨a', -, heq⟩ := List.mem_map.1 hmem
    obtain ⟨rfl, rfl⟩ := Prod.mk.inj heq
    rfl
  · constructor
    · rintro ⟨a, ha⟩
      obtain ⟨s, rfl, hlookup⟩ := (hread v hv a).1 ha
      obtain ⟨before, after, heq, -⟩ := List.lookup_eq_some_iff.1 hlookup
      have hmem : (s, a) ∈ all.map fun a => (title a, a) :=
        heq ▸ List.mem_append_right _ List.mem_cons_self
      obtain ⟨a', ha', heq⟩ := List.mem_map.1 hmem
      obtain ⟨rfl, rfl⟩ := Prod.mk.inj heq
      exact ⟨_, List.mem_map_of_mem ha', rfl⟩
    · rintro ⟨s, hs, rfl⟩
      -- a name in the list is found, whichever of those that have it comes first
      cases hlookup : (all.map fun a => (title a, a)).lookup s with
      | some a => exact ⟨a, (hread _ rfl a).2 ⟨s, rfl, hlookup⟩⟩
      | none =>
        obtain ⟨a, ha, rfl⟩ := List.mem_map.1 hs
        have hne := List.lookup_eq_none_iff.1 hlookup _ (List.mem_map_of_mem ha)
        simp at hne

end Keys

namespace RecordFormat

variable {format : RecordFormat σ} {shape : RecordShape σ} {es : Entries} {r : σ}

/-- Every key is declared, every value is of the declared kind, and the required keys are there. -/
structure WellTyped (format : RecordFormat σ) (es : Entries) : Prop where
  typed : ∀ k v, (k, v) ∈ es → ∃ kind, format.declared.lookup k = some kind ∧ kind.Admits v
  present : ∀ k ∈ format.required, k ∈ es.map (·.1)

/-- The record has what the entries say, and what is taken for the keys that are absent. -/
structure Holds (format : RecordFormat σ) (es : Entries) (r : σ) : Prop where
  kept : ∀ k v, (k, v) ∈ es → format.shown r k = some v
  supplied : ∀ k, k ∉ es.map (·.1) → format.shown r k = format.defaults.find? k

/-- The values are among those considered for their keys. -/
def Considers (format : RecordFormat σ) (es : Entries) : Prop :=
  ∀ k v, (k, v) ∈ es → ∀ kind, format.declared.lookup k = some kind → kind.Considers v

/-- The shape reads what the format says. -/
structure Describes (format : RecordFormat σ) (shape : RecordShape σ) : Prop where
  closed : shape.closed = true
  keys : List.Forall₂ (fun key d => key.name = d.1 ∧ key.Follows d.2 format.shown) shape.keys
    format.declared
  required : (shape.keys.filter (·.required)).map (·.name) = format.required
  start : ∀ k ∉ format.required, format.shown shape.start k = format.defaults.find? k
  -- Records that show the same are the same.
  ext : ∀ r r', (∀ k, format.shown r k = format.shown r' k) → r = r'

/-- Of a key it is either known how its values are stored, or that it is refused. -/
theorem Describes.key (h : format.Describes shape) (k : String) :
    (∃ key kind, shape.keys.find? (·.name = k) = some key ∧ format.declared.lookup k = some kind ∧
      key.name = k ∧ key.Follows kind format.shown) ∨
    shape.keys.find? (·.name = k) = none ∧ format.declared.lookup k = none := by
  have hkeys := h.keys
  generalize shape.keys = keys at hkeys ⊢
  generalize format.declared = declared at hkeys ⊢
  induction hkeys with
  | nil => exact .inr ⟨rfl, rfl⟩
  | @cons key d keys declared hd _ ih =>
    obtain ⟨name, kind⟩ := d
    obtain ⟨hname, hfollows⟩ := hd
    by_cases hk : k = name
    · subst hk
      refine .inl ⟨key, kind, ?_, ?_, hname, hfollows⟩
      · exact List.find?_cons_of_pos (decide_eq_true hname)
      · exact List.lookup_cons_self
    · have hne : ¬ key.name = k := fun heq => hk (heq.symm.trans hname)
      rw [List.find?_cons_of_neg (by simpa using hne), List.lookup_cons, beq_eq_false_iff_ne.2 hk]
      exact ih

/-- What storing an entry comes to. -/
theorem Describes.storeEntry (h : format.Describes shape) {k : String} {v : Value}
    (hv : ∀ kind, format.declared.lookup k = some kind → kind.Considers v) (r : σ) :
    ((∃ r', shape.storeEntry r (k, v) = .ok r') ↔
      ∃ kind, format.declared.lookup k = some kind ∧ kind.Admits v) ∧
    ∀ r', shape.storeEntry r (k, v) = .ok r' →
      ∀ j, format.shown r' j = if j = k then some v else format.shown r j := by
  rcases h.key k with ⟨key, kind, hkey, hkind, rfl, hfollows⟩ | ⟨hkey, hkind⟩
  · rw [RecordShape.storeEntry_of_declared v hkey, hkind]
    refine ⟨(hfollows.isOk_iff v r (hv kind hkind)).trans ?_, fun r' =>
      hfollows.shown v r r' (hv kind hkind)⟩
    exact ⟨fun hadmits => ⟨kind, rfl, hadmits⟩, fun ⟨kind', heq, hadmits⟩ => Option.some.inj heq ▸ hadmits⟩
  · have hrefused := RecordShape.storeEntry_of_undeclared h.closed v hkey r
    rw [hkind]
    exact ⟨⟨fun ⟨r', hok⟩ => absurd hok (hrefused r'), fun ⟨_, hsome, _⟩ => nomatch hsome⟩,
      fun r' hok => absurd hok (hrefused r')⟩

/-- The keys that the shape requires are those that the format does. -/
theorem Describes.present_iff (h : format.Describes shape) :
    (∀ key ∈ shape.keys, key.required = true → key.name ∈ es.map (·.1)) ↔
      ∀ k ∈ format.required, k ∈ es.map (·.1) := by
  rw [← h.required]
  simp only [List.forall_mem_map, List.mem_filter]
  exact forall_congr' fun key => and_imp.symm

/-- A record is read exactly from entries that are well-typed. -/
theorem isOk_ofEntries_iff (h : format.Describes shape) (hes : format.Considers es) :
    (∃ r, shape.ofEntries es = .ok r) ↔ format.WellTyped es := by
  rw [RecordShape.isOk_ofEntries_iff fun k v hmem r => (h.storeEntry (hes k v hmem) r).1,
    h.present_iff]
  exact ⟨fun ⟨htyped, hpresent⟩ => ⟨htyped, hpresent⟩, fun h => ⟨h.typed, h.present⟩⟩

/-- The record that is read holds what the entries say. -/
theorem holds_of_ofEntries (h : format.Describes shape) (hkeys : (es.map (·.1)).Nodup)
    (hes : format.Considers es) (hok : shape.ofEntries es = .ok r) : format.Holds es r := by
  have hpresent := h.present_iff.1 (RecordShape.ofEntries_eq_ok.1 hok).2
  have hstored := RecordShape.stored_of_ofEntries
    (fun r k v? => format.shown r k = v?.or (format.shown shape.start k)) hkeys (fun _ => rfl)
    (fun j u hmem r r' hstore => by
      have hshown := (h.storeEntry (hes j u hmem) r).2 r' hstore
      refine ⟨by rw [hshown, if_pos rfl]; rfl, fun k v? hne hk => ?_⟩
      rw [hshown, if_neg hne, hk]) hok
  constructor
  · intro k v hmem
    have hk := hstored k
    rwa [Entries.find?_of_mem hkeys hmem] at hk
  · intro k habsent
    have hk := hstored k
    rw [Entries.find?_eq_none.2 habsent] at hk
    -- a required key is not absent
    exact hk.trans (h.start k fun hrequired => habsent (hpresent k hrequired))

/-- A record is what the entries say of it. -/
theorem Holds.unique {r' : σ} (h : format.Describes shape) (hr : format.Holds es r)
    (hr' : format.Holds es r') : r = r' := by
  refine h.ext r r' fun k => ?_
  cases hfind : es.find? k with
  | some v =>
    have hmem := Entries.mem_of_find? hfind
    rw [hr.kept k v hmem, hr'.kept k v hmem]
  | none =>
    have habsent := Entries.find?_eq_none.1 hfind
    rw [hr.supplied k habsent, hr'.supplied k habsent]

/-- A record is read exactly from well-typed entries, and it is the one that has what they say. -/
theorem ofEntries_iff (h : format.Describes shape) (hkeys : (es.map (·.1)).Nodup)
    (hes : format.Considers es) :
    shape.ofEntries es = .ok r ↔ format.WellTyped es ∧ format.Holds es r := by
  constructor
  · intro hok
    exact ⟨(isOk_ofEntries_iff h hes).1 ⟨r, hok⟩, holds_of_ofEntries h hkeys hes hok⟩
  · rintro ⟨htyped, hholds⟩
    obtain ⟨r', hok⟩ := (isOk_ofEntries_iff h hes).2 htyped
    rwa [hholds.unique h (holds_of_ofEntries h hkeys hes hok)]

end RecordFormat

/-! ## Records and lists of records as values -/

/-- The value is a table with such entries. -/
def Value.IsTable (v : Value) (P : Entries → Prop) : Prop := ∃ origin es, v = .table origin es ∧ P es

/-- The value is an array of such values. -/
def Value.IsListOf (v : Value) (P : Value → Prop) : Prop :=
  ∃ headed items, v = .array headed items ∧ ∀ i ∈ items, P i

/-- A list is read from an array, element by element. -/
theorem Value.asList_eq_ok {α : Type} {f : Value → Except ShapeError α} {v : Value} {rs : List α} :
    v.asList f = .ok rs ↔
      ∃ headed items, v = .array headed items ∧ List.Forall₂ (fun i r => f i = .ok r) items rs := by
  cases v with
  | array headed items =>
    refine mapM_eq_ok.trans ⟨fun h => ⟨headed, items, rfl, h⟩, ?_⟩
    rintro ⟨_, _, heq, h⟩
    obtain ⟨rfl, rfl⟩ := Value.array.inj heq
    exact h
  | _ => simp [Value.asList]

namespace RecordFormat

variable {σ : Type} {format : RecordFormat σ} {shape : RecordShape σ} {v : Value} {r : σ}

/-- The value may be considered for a record: it is no array, and the values in it may be considered
for their keys. -/
structure Fits (format : RecordFormat σ) (v : Value) : Prop where
  noArray : ∀ headed items, v ≠ .array headed items
  considers : ∀ origin es, v = .table origin es → format.Considers es

/-- A table of plain values may be considered for any record. -/
theorem fits_of_plain {origin : Origin} {es : Entries} (h : ∀ e ∈ es, e.2.isPlain = true) :
    format.Fits (.table origin es) where
  noArray := nofun
  considers := by
    rintro _ _ ⟨⟩ k v hmem kind -
    cases kind with
    | text | boolean | byte => trivial
    | oneOf names => exact h _ hmem

/-- The same for the elements of an array. -/
def FitsEach (format : RecordFormat σ) (v : Value) : Prop :=
  ∀ headed items, v = .array headed items → ∀ i ∈ items, format.Fits i

/-- A date is a table with a key that no record declares. -/
theorem not_isOk_moment (h : format.Describes shape) :
    ¬ ∃ r, shape.ofEntries RecordShape.momentEntries = .ok r := by
  have hconsiders : format.Considers RecordShape.momentEntries := by
    intro k v hmem kind _
    obtain ⟨rfl, rfl⟩ := Prod.mk.inj (List.mem_singleton.1 hmem)
    cases kind <;> trivial
  rw [isOk_ofEntries_iff h hconsiders]
  intro htyped
  obtain ⟨kind, -, hadmits⟩ := htyped.typed _ _ List.mem_cons_self
  cases kind with
  | text | boolean | byte | oneOf => simp [Kind.Admits] at hadmits

/-- A record is read from a table, and from no other value that is considered. -/
theorem read_iff (h : format.Describes shape) (hv : v.Distinct) (hfits : format.Fits v) :
    shape.read v = .ok r ↔ v.IsTable fun es => format.WellTyped es ∧ format.Holds es r := by
  cases v with
  | table origin es =>
    have hiff := ofEntries_iff (r := r) h (Entries.distinct_table.1 hv).keys (hfits.considers _ _ rfl)
    constructor
    · intro hok
      exact ⟨origin, es, rfl, hiff.1 hok⟩
    · rintro ⟨_, _, heq, hes⟩
      obtain ⟨rfl, rfl⟩ := Value.table.inj heq
      exact hiff.2 hes
  -- an array is no value that the format has to deal with
  | array headed items => exact absurd rfl (hfits.noArray headed items)
  | moment =>
    constructor
    · intro hok
      exact absurd ⟨r, hok⟩ (not_isOk_moment h)
    · rintro ⟨_, _, heq, -⟩
      cases heq
  | text | integer | float | boolean =>
    constructor
    · intro hok
      cases hok
    · rintro ⟨_, _, heq, -⟩
      cases heq

/-- The table of a record is read exactly when its entries are well-typed. -/
theorem isOk_read_iff (h : format.Describes shape) (hv : v.Distinct) (hfits : format.Fits v) :
    (∃ r, shape.read v = .ok r) ↔ v.IsTable format.WellTyped := by
  simp only [read_iff h hv hfits]
  constructor
  · rintro ⟨r, origin, es, heq, htyped, -⟩
    exact ⟨origin, es, heq, htyped⟩
  · rintro ⟨origin, es, rfl, htyped⟩
    obtain ⟨r, hr⟩ := (isOk_ofEntries_iff h (hfits.considers _ _ rfl)).2 htyped
    have hholds := holds_of_ofEntries h (Entries.distinct_table.1 hv).keys (hfits.considers _ _ rfl) hr
    exact ⟨r, origin, es, rfl, htyped, hholds⟩

/-- What stands under a key says what a record has. Where nothing stands it is what is taken for all
keys. -/
def HoldsAt (format : RecordFormat σ) (v? : Option Value) (r : σ) : Prop :=
  match v? with
  | some v => v.IsTable (format.Holds · r)
  | none => format.Holds [] r

/-- What stands under a key says what the records in a list have, in its order. -/
def HoldsEach (format : RecordFormat σ) (v? : Option Value) (rs : List σ) : Prop :=
  match v? with
  | some v =>
    ∃ headed items, v = .array headed items ∧ List.Forall₂ (fun i r => i.IsTable (format.Holds · r)) items rs
  | none => rs = []

/-- What is read of a table is what stands there. -/
theorem holdsAt_of_read (h : format.Describes shape) (hv : v.Distinct) (hfits : format.Fits v)
    (hok : shape.read v = .ok r) : format.HoldsAt (some v) r := by
  obtain ⟨origin, es, heq, -, hholds⟩ := (read_iff h hv hfits).1 hok
  exact ⟨origin, es, heq, hholds⟩

section Lists

variable {rs rs' : List σ}

/-- A list of records is read exactly from an array of such tables. -/
theorem isOk_asList_iff (h : format.Describes shape) (hv : v.Distinct) (hfits : format.FitsEach v) :
    (∃ rs, v.asList shape.read = .ok rs) ↔ v.IsListOf (·.IsTable format.WellTyped) := by
  have hread : ∀ headed items, v = .array headed items → ∀ i ∈ items,
      ((∃ r, shape.read i = .ok r) ↔ i.IsTable format.WellTyped) := by
    rintro headed items rfl i hi
    exact isOk_read_iff h (Entries.distinct_array.1 hv i hi) (hfits headed items rfl i hi)
  simp only [Value.asList_eq_ok, ← mapM_eq_ok]
  constructor
  · rintro ⟨rs, headed, items, heq, hok⟩
    exact ⟨headed, items, heq, fun i hi => (hread headed items heq i hi).1 (isOk_mapM_iff.1 ⟨rs, hok⟩ i hi)⟩
  · rintro ⟨headed, items, heq, hall⟩
    obtain ⟨rs, hok⟩ := isOk_mapM_iff.2 fun i hi => (hread headed items heq i hi).2 (hall i hi)
    exact ⟨rs, headed, items, heq, hok⟩

/-- What is read of an array is what stands there. -/
theorem holdsEach_of_asList (h : format.Describes shape) (hv : v.Distinct) (hfits : format.FitsEach v)
    (hok : v.asList shape.read = .ok rs) : format.HoldsEach (some v) rs := by
  obtain ⟨headed, items, rfl, hall⟩ := Value.asList_eq_ok.1 hok
  have hitems : ∀ i ∈ items, i.Distinct ∧ format.Fits i := fun i hi =>
    ⟨Entries.distinct_array.1 hv i hi, hfits headed items rfl i hi⟩
  refine ⟨headed, items, rfl, ?_⟩
  have hboth := (List.forall₂_and_left items rs).2 ⟨hitems, hall⟩
  exact hboth.imp fun i r ⟨⟨hi, hfit⟩, hread⟩ => holdsAt_of_read h hi hfit hread

end Lists

/-- Only one record is what a table says. -/
theorem IsTable.unique {r' : σ} (h : format.Describes shape) (hr : v.IsTable (format.Holds · r))
    (hr' : v.IsTable (format.Holds · r')) : r = r' := by
  obtain ⟨origin, es, rfl, hr⟩ := hr
  obtain ⟨_, _, heq, hr'⟩ := hr'
  obtain ⟨rfl, rfl⟩ := Value.table.inj heq
  exact hr.unique h hr'

/-- Only one record is what stands under a key. -/
theorem HoldsAt.unique {v? : Option Value} {r' : σ} (h : format.Describes shape)
    (hr : format.HoldsAt v? r) (hr' : format.HoldsAt v? r') : r = r' := by
  cases v? with
  | none => exact Holds.unique h hr hr'
  | some v => exact IsTable.unique h hr hr'

/-- Only one list of records is what stands under a key. -/
theorem HoldsEach.unique {v? : Option Value} {rs rs' : List σ} (h : format.Describes shape)
    (hrs : format.HoldsEach v? rs) (hrs' : format.HoldsEach v? rs') : rs = rs' := by
  cases v? with
  | none => exact Eq.trans hrs (Eq.symm hrs')
  | some v =>
    obtain ⟨headed, items, rfl, hrs⟩ := hrs
    obtain ⟨_, _, heq, hrs'⟩ := hrs'
    obtain ⟨rfl, rfl⟩ := Value.array.inj heq
    have huniq : Relator.RightUnique fun (i : Value) (r : σ) => i.IsTable (format.Holds · r) :=
      fun _ _ _ => IsTable.unique h
    exact List.right_unique_forall₂' huniq hrs hrs'

end RecordFormat

end TieredState.Toml
