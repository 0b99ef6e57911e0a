import TieredState.Manifest.Basic
import TieredState.Proofs.KeyOrder

/-!
# Reading manifests

What a document has to be like to be a manifest, and which manifest it then is. Both are said of the
tree of the document, table by table; how the tree is walked does not come into it.

A document may also give an array for a record, its elements standing for the keys in turn, and a table
for the name of a tier. `AsTables` leaves these ways of writing out.

* `WellTyped` — every key is declared, every value is of its kind, no required key is absent.
* `Holds` — a manifest has what the document says, and the defaults where it says nothing.
* `Rearranged` — the keys of tables, anywhere in the tree, stand in another order.
* `manifest_of_document` — a document is read exactly if it is well-typed, as the manifest that holds
  what it says, whatever the order of its keys.
-/

namespace TieredState

open Toml Relation

/-! ## Formats -/

section Shown

/-- A text is written in one way only. -/
theorem eq_of_text {s s' : String} (h : some (Value.text s) = some (.text s')) : s = s' :=
  Value.text.inj (Option.some.inj h)

/-- A truth value is written in one way only. -/
theorem eq_of_boolean {b b' : Bool} (h : some (Value.boolean b) = some (.boolean b')) : b = b' :=
  Value.boolean.inj (Option.some.inj h)

/-- A number is written in one way only. -/
theorem eq_of_natural {n n' : Nat} (h : some (Value.integer n) = some (.integer n')) : n = n' :=
  Int.ofNat.inj (Value.integer.inj (Option.some.inj h))

/-- What may be left out is written in one way only if what is there is. -/
theorem eq_of_map {α : Type} {f : α → Value} {a? a?' : Option α} (hf : ∀ a a', f a = f a' → a = a')
    (h : a?.map f = a?'.map f) : a? = a?' :=
  Option.map_injective hf h

end Shown

namespace LockEntry

def format : RecordFormat LockEntry where
  declared := [("name", .text), ("rank", .byte)]
  required := ["name", "rank"]
  defaults := []
  shown l
    | "name" => some (.text l.name)
    | "rank" => some (.integer l.rank)
    | _ => none

/-- The shape of a lock reads what its format says. -/
theorem describes : format.Describes shape where
  closed := rfl
  keys := by
    refine .cons ⟨rfl, Key.follows_text fun s l k => ?_⟩
      (.cons ⟨rfl, Key.follows_byte fun n l k => ?_⟩ .nil) <;>
    · unfold format
      dsimp only
      split <;> simp_all
  required := rfl
  start k hk := by
    unfold format at hk ⊢
    dsimp only at hk ⊢
    split <;> simp_all
  ext l l' h := by
    obtain ⟨name, rank⟩ := l
    obtain ⟨name', rank'⟩ := l'
    obtain rfl := eq_of_text (h "name")
    obtain rfl := eq_of_natural (h "rank")
    rfl

end LockEntry

namespace BuildOptions

def format : RecordFormat BuildOptions where
  declared := [("instances", .boolean), ("global_struct", .text), ("instance_struct", .text),
    ("thread_struct", .text)]
  required := []
  defaults := [("instances", .boolean true), ("global_struct", .text "GlobalVars"),
    ("instance_struct", .text "InstanceVars"), ("thread_struct", .text "ThreadVars")]
  shown b
    | "instances" => some (.boolean b.instances)
    | "global_struct" => some (.text b.globalStruct)
    | "instance_struct" => some (.text b.instanceStruct)
    | "thread_struct" => some (.text b.threadStruct)
    | _ => none

/-- The shape of the build options reads what their format says. -/
theorem describes : format.Describes shape where
  closed := rfl
  keys := by
    refine .cons ⟨rfl, Key.follows_boolean fun a b k => ?_⟩
      (.cons ⟨rfl, Key.follows_text fun s b k => ?_⟩ (.cons ⟨rfl, Key.follows_text fun s b k => ?_⟩
        (.cons ⟨rfl, Key.follows_text fun s b k => ?_⟩ .nil))) <;>
    · unfold format
      dsimp only
      split <;> simp_all
  required := rfl
  start k hk := by
    unfold format
    dsimp only
    split <;> simp_all [shape]
  ext b b' h := by
    obtain ⟨instances, globalStruct, instanceStruct, threadStruct⟩ := b
    obtain ⟨instances', globalStruct', instanceStruct', threadStruct'⟩ := b'
    obtain rfl := eq_of_boolean (h "instances")
    obtain rfl := eq_of_text (h "global_struct")
    obtain rfl := eq_of_text (h "instance_struct")
    obtain rfl := eq_of_text (h "thread_struct")
    rfl

end BuildOptions

/-- Tiers are told apart by their names. -/
theorem Tier.name_injective {t t' : Tier} (h : t.name = t'.name) : t = t' := by
  cases t <;> cases t' <;> simp_all [Tier.name]

namespace FieldEntry

def format : RecordFormat FieldEntry where
  declared := [("name", .text), ("tier", .oneOf ["global", "per_instance", "per_thread"]),
    ("before_instance", .boolean), ("per_thread", .boolean), ("type", .text), ("init", .text),
    ("guard", .text), ("export", .boolean), ("persistent", .boolean), ("constant", .boolean),
    ("lock", .text), ("read_mostly", .boolean)]
  required := ["name", "type"]
  defaults := [("export", .boolean false), ("persistent", .boolean false), ("constant", .boolean false),
    ("read_mostly", .boolean false)]
  shown f
    | "name" => some (.text f.name)
    | "tier" => f.tier?.map fun t => .text t.name
    | "before_instance" => f.beforeInstance?.map .boolean
    | "per_thread" => f.perThread?.map .boolean
    | "type" => some (.text f.type)
    | "init" => f.initial?.map .text
    | "guard" => f.condition?.map .text
    | "export" => some (.boolean f.exported)
    | "persistent" => some (.boolean f.persistent)
    | "constant" => some (.boolean f.constant)
    | "lock" => f.lock?.map .text
    | "read_mostly" => some (.boolean f.readMostly)
    | _ => none

/-- The shape of a field reads what its format says. -/
theorem describes : format.Describes shape where
  closed := rfl
  keys := by
    refine .cons ⟨rfl, Key.follows_text fun a f k => ?_⟩
      (.cons ⟨rfl, Key.follows_oneOf Tier.all Tier.name fun a f k => ?_⟩
      (.cons ⟨rfl, Key.follows_boolean fun a f k => ?_⟩
      (.cons ⟨rfl, Key.follows_boolean fun a f k => ?_⟩ (.cons ⟨rfl, Key.follows_text fun a f k => ?_⟩
      (.cons ⟨rfl, Key.follows_text fun a f k => ?_⟩ (.cons ⟨rfl, Key.follows_text fun a f k => ?_⟩
      (.cons ⟨rfl, Key.follows_boolean fun a f k => ?_⟩
      (.cons ⟨rfl, Key.follows_boolean fun a f k => ?_⟩
      (.cons ⟨rfl, Key.follows_boolean fun a f k => ?_⟩ (.cons ⟨rfl, Key.follows_text fun a f k => ?_⟩
      (.cons ⟨rfl, Key.follows_boolean fun a f k => ?_⟩ .nil))))))))))) <;>
    · unfold format
      dsimp only
      split <;> simp_all
  required := rfl
  start k hk := by
    unfold format at hk ⊢
    dsimp only at hk ⊢
    split <;> simp_all [shape]
  ext f f' h := by
    obtain ⟨name, tier, before, perThread, type, initial, condition, exported, persistent, constant, lock,
      readMostly⟩ := f
    obtain ⟨name', tier', before', perThread', type', initial', condition', exported', persistent',
      constant', lock', readMostly'⟩ := f'
    obtain rfl := eq_of_text (h "name")
    obtain rfl := eq_of_map (fun t t' ht => Tier.name_injective (Value.text.inj ht)) (h "tier")
    obtain rfl := eq_of_map (fun _ _ => Value.boolean.inj) (h "before_instance")
    obtain rfl := eq_of_map (fun _ _ => Value.boolean.inj) (h "per_thread")
    obtain rfl := eq_of_text (h "type")
    obtain rfl := eq_of_map (fun _ _ => Value.text.inj) (h "init")
    obtain rfl := eq_of_map (fun _ _ => Value.text.inj) (h "guard")
    obtain rfl := eq_of_boolean (h "export")
    obtain rfl := eq_of_boolean (h "persistent")
    obtain rfl := eq_of_boolean (h "constant")
    obtain rfl := eq_of_map (fun _ _ => Value.text.inj) (h "lock")
    obtain rfl := eq_of_boolean (h "read_mostly")
    rfl

end FieldEntry

/-! ## Whole documents -/

namespace Manifest

variable {es es' : Entries} {m : Manifest} {v : Value}

/-- The parts of the document are written as tables, and the names of tiers are not. -/
structure AsTables (es : Entries) : Prop where
  build : ∀ v, es.find? "build" = some v → BuildOptions.format.Fits v
  locks : ∀ v, es.find? "lock" = some v → LockEntry.format.FitsEach v
  fields : ∀ v, es.find? "field" = some v → FieldEntry.format.FitsEach v

/-- The outermost keys are those of a manifest, and under each of them stands what belongs there. -/
structure WellTyped (es : Entries) : Prop where
  declared : ∀ k ∈ es.map (·.1), k = "build" ∨ k = "lock" ∨ k = "field"
  build : ∀ v, es.find? "build" = some v → v.IsTable BuildOptions.format.WellTyped
  locks : ∀ v, es.find? "lock" = some v → v.IsListOf (·.IsTable LockEntry.format.WellTyped)
  fields : ∀ v, es.find? "field" = some v → v.IsListOf (·.IsTable FieldEntry.format.WellTyped)

/-- The manifest has what the document says, and the defaults where it says nothing. -/
structure Holds (m : Manifest) (es : Entries) : Prop where
  build : BuildOptions.format.HoldsAt (es.find? "build") m.build
  locks : LockEntry.format.HoldsEach (es.find? "lock") m.locks
  fields : FieldEntry.format.HoldsEach (es.find? "field") m.fields

/-- What may stand under one of the outermost keys. -/
def Takes (k : String) (v : Value) : Prop :=
  k = "build" ∧ v.IsTable BuildOptions.format.WellTyped ∨
  k = "lock" ∧ v.IsListOf (·.IsTable LockEntry.format.WellTyped) ∨
  k = "field" ∧ v.IsListOf (·.IsTable FieldEntry.format.WellTyped)

/-- What a manifest has for one of the outermost keys. -/
structure HasAt (m : Manifest) (k : String) (v? : Option Value) : Prop where
  build : k = "build" → BuildOptions.format.HoldsAt v? m.build
  locks : k = "lock" → LockEntry.format.HoldsEach v? m.locks
  fields : k = "field" → FieldEntry.format.HoldsEach v? m.fields

/-- A document is well-typed if every entry may stand under its key. -/
theorem wellTyped_iff (hkeys : (es.map (·.1)).Nodup) :
    WellTyped es ↔ ∀ k v, (k, v) ∈ es → Takes k v := by
  constructor
  · intro h k v hmem
    have hfind := Entries.find?_of_mem hkeys hmem
    rcases h.declared k (List.mem_map_of_mem hmem) with rfl | rfl | rfl
    · exact .inl ⟨rfl, h.build v hfind⟩
    · exact .inr (.inl ⟨rfl, h.locks v hfind⟩)
    · exact .inr (.inr ⟨rfl, h.fields v hfind⟩)
  · intro h
    have hat : ∀ k v, es.find? k = some v → Takes k v := fun k v hfind => h k v (Entries.mem_of_find? hfind)
    constructor
    · intro _ hk
      obtain ⟨⟨k, v⟩, hmem, rfl⟩ := List.mem_map.1 hk
      exact (h k v hmem).imp (·.1) (.imp (·.1) (·.1))
    · intro v hfind
      simpa [Takes] using hat _ v hfind
    · intro v hfind
      simpa [Takes] using hat _ v hfind
    · intro v hfind
      simpa [Takes] using hat _ v hfind

/-- An entry is stored exactly if it is one that a manifest takes, in its place and nowhere else. -/
theorem storeEntry_iff (hes : es.Distinct) (htables : AsTables es) {k : String} (hmem : (k, v) ∈ es)
    (m : Manifest) :
    ((∃ m', shape.storeEntry m (k, v) = .ok m') ↔ Takes k v) ∧
      ∀ m', shape.storeEntry m (k, v) = .ok m' →
        m'.HasAt k (some v) ∧ ∀ j v?, j ≠ k → m.HasAt j v? → m'.HasAt j v? := by
  have hv := hes.values _ hmem
  have hfind := Entries.find?_of_mem hes.keys hmem
  -- each of the three keys has a format of its own, and the other two are left as they are
  by_cases hbuild : k = "build"
  · subst hbuild
    have hfits := htables.build v hfind
    rw [RecordShape.storeEntry_of_declared v (show shape.keys.find? _ = some _ from rfl)]
    refine ⟨?_, fun m' hok => ?_⟩
    · rw [Key.isOk_store_of, RecordFormat.isOk_read_iff BuildOptions.describes hv hfits]
      simp [Takes]
    · obtain ⟨b, hb, rfl⟩ := Key.store_of_eq_ok.1 hok
      have hholds := RecordFormat.holdsAt_of_read BuildOptions.describes hv hfits hb
      exact ⟨⟨fun _ => hholds, nofun, nofun⟩, fun j v? hne h =>
        ⟨fun heq => absurd heq hne, h.locks, h.fields⟩⟩
  by_cases hlock : k = "lock"
  · subst hlock
    have hfits := htables.locks v hfind
    rw [RecordShape.storeEntry_of_declared v (show shape.keys.find? _ = some _ from rfl)]
    refine ⟨?_, fun m' hok => ?_⟩
    · rw [Key.isOk_store_of, RecordFormat.isOk_asList_iff LockEntry.describes hv hfits]
      simp [Takes]
    · obtain ⟨ls, hls, rfl⟩ := Key.store_of_eq_ok.1 hok
      have hholds := RecordFormat.holdsEach_of_asList LockEntry.describes hv hfits hls
      exact ⟨⟨nofun, fun _ => hholds, nofun⟩, fun j v? hne h =>
        ⟨h.build, fun heq => absurd heq hne, h.fields⟩⟩
  by_cases hfield : k = "field"
  · subst hfield
    have hfits := htables.fields v hfind
    rw [RecordShape.storeEntry_of_declared v (show shape.keys.find? _ = some _ from rfl)]
    refine ⟨?_, fun m' hok => ?_⟩
    · rw [Key.isOk_store_of, RecordFormat.isOk_asList_iff FieldEntry.describes hv hfits]
      simp [Takes]
    · obtain ⟨fs, hfs, rfl⟩ := Key.store_of_eq_ok.1 hok
      have hholds := RecordFormat.holdsEach_of_asList FieldEntry.describes hv hfits hfs
      exact ⟨⟨nofun, nofun, fun _ => hholds⟩, fun j v? hne h =>
        ⟨h.build, h.locks, fun heq => absurd heq hne⟩⟩
  · have hnone : shape.keys.find? (·.name = k) = none := by
      simp [shape, Key.of, Ne.symm hbuild, Ne.symm hlock, Ne.symm hfield]
    have hrefused := RecordShape.storeEntry_of_undeclared rfl v hnone m
    refine ⟨⟨fun ⟨m', hok⟩ => absurd hok (hrefused m'), fun h => ?_⟩, fun m' hok =>
      absurd hok (hrefused m')⟩
    rcases h with ⟨rfl, -⟩ | ⟨rfl, -⟩ | ⟨rfl, -⟩ <;> contradiction

/-- Nothing that a manifest has to have is absent from a document. -/
theorem required_keys : ∀ key ∈ shape.keys, key.required = true → key.name ∈ es.map (·.1) := by
  simp [shape, Key.of]

/-- A document of tables is read exactly when it is well-typed. -/
theorem isOk_ofEntries_iff (hes : es.Distinct) (htables : AsTables es) :
    (∃ m, shape.ofEntries es = .ok m) ↔ WellTyped es := by
  rw [RecordShape.isOk_ofEntries_iff fun k v hmem m => (storeEntry_iff hes htables hmem m).1,
    wellTyped_iff hes.keys]
  exact and_iff_left required_keys

/-- The manifest that is read holds what the document says. -/
theorem holds_of_ofEntries (hes : es.Distinct) (htables : AsTables es)
    (hok : shape.ofEntries es = .ok m) : m.Holds es := by
  have hstart : ∀ k, shape.start.HasAt k none := fun k =>
    ⟨fun _ => ⟨nofun, fun _ _ => BuildOptions.describes.start _ nofun⟩, fun _ => rfl, fun _ => rfl⟩
  have hhas := RecordShape.stored_of_ofEntries HasAt hes.keys hstart
    (fun k v hmem m m' hstore => (storeEntry_iff hes htables hmem m).2 m' hstore) hok
  exact ⟨(hhas _).build rfl, (hhas _).locks rfl, (hhas _).fields rfl⟩

/-- Only one manifest holds what a document says. -/
theorem Holds.unique {m' : Manifest} (h : m.Holds es) (h' : m'.Holds es) : m = m' := by
  obtain ⟨build, locks, fields⟩ := m
  obtain ⟨build', locks', fields'⟩ := m'
  obtain rfl := h.build.unique BuildOptions.describes h'.build
  obtain rfl := h.locks.unique LockEntry.describes h'.locks
  obtain rfl := h.fields.unique FieldEntry.describes h'.fields
  rfl

/-- What is read of a document is the manifest that holds what it says, if the document is
well-typed. -/
theorem ofEntries_iff (hes : es.Distinct) (htables : AsTables es) :
    shape.ofEntries es = .ok m ↔ WellTyped es ∧ m.Holds es := by
  constructor
  · intro hok
    exact ⟨(isOk_ofEntries_iff hes htables).1 ⟨m, hok⟩, holds_of_ofEntries hes htables hok⟩
  · rintro ⟨htyped, hholds⟩
    obtain ⟨m', hok⟩ := (isOk_ofEntries_iff hes htables).2 htyped
    rwa [hholds.unique (holds_of_ofEntries hes htables hok)]

/-! ## Documents with their keys in another order -/

/-- The second document has the keys of its tables in another order than the first. -/
def Rearranged (es es' : Entries) : Prop :=
  ReflTransGen Value.Permutes (.table .headed es) (.table .headed es')

section Rearranged

variable (halike : es.Alike es') (hes' : es'.Distinct)

include halike hes'

/-- A document in another order is one of tables too. -/
theorem AsTables.alike (h : AsTables es) : AsTables es' where
  build := halike.of_find? hes'.keys (fun _ _ hperm hv => hv.permuted hperm) h.build
  locks := halike.of_find? hes'.keys (fun _ _ hperm hv => hv.permuted hperm) h.locks
  fields := halike.of_find? hes'.keys (fun _ _ hperm hv => hv.permuted hperm) h.fields

/-- A document in another order is as well-typed. -/
theorem WellTyped.alike (h : WellTyped es) : WellTyped es' where
  declared k hk := h.declared k (halike.mem_keys_iff.2 hk)
  build := halike.of_find? hes'.keys
    (fun _ _ hperm hv => hv.permuted (fun _ _ ha h => h.alike ha) hperm) h.build
  locks := halike.of_find? hes'.keys
    (fun _ _ hperm hv => hv.permuted (fun _ _ ha h => h.alike ha) hperm) h.locks
  fields := halike.of_find? hes'.keys
    (fun _ _ hperm hv => hv.permuted (fun _ _ ha h => h.alike ha) hperm) h.fields

/-- A manifest holds as much of a document in another order. -/
theorem Holds.alike (h : m.Holds es) (htyped : WellTyped es) : m.Holds es' where
  build := h.build.permuted (halike.find? hes'.keys _) htyped.build
  locks := h.locks.permuted (halike.find? hes'.keys _) htyped.locks
  fields := h.fields.permuted (halike.find? hes'.keys _) htyped.fields

end Rearranged

/-- What a change of order leaves of a document. -/
structure Carries (es es' : Entries) : Prop where
  distinct : es'.Distinct
  tables : AsTables es → AsTables es'
  reads : ∀ m : Manifest, WellTyped es ∧ m.Holds es → WellTyped es' ∧ m.Holds es'

/-- One change of order carries over all that is said of the document. -/
theorem carries_of_permutes {origin : Origin} {w : Value} (hes : es.Distinct)
    (hperm : (Value.table origin es).Permutes w) : w.IsTable (Carries es) := by
  obtain ⟨origin', es', rfl, halike⟩ := hperm.of_table
  have hes' := Entries.distinct_table.1 (hperm.distinct (Entries.distinct_table.2 hes))
  exact ⟨origin', es', rfl, hes', fun h => h.alike halike hes',
    fun m ⟨htyped, hholds⟩ => ⟨htyped.alike halike hes', hholds.alike halike hes' htyped⟩⟩

/-- Any number of changes carry it over. -/
theorem carries_of_rearranged (hes : es.Distinct) (h : Rearranged es es') : Carries es es' := by
  have hall : ∀ w, ReflTransGen Value.Permutes (.table .headed es) w → w.IsTable (Carries es) := by
    intro w hw
    induction hw with
    | refl => exact ⟨_, es, rfl, hes, id, fun _ => id⟩
    | tail _ hstep ih =>
      obtain ⟨origin₁, es₁, rfl, h₁⟩ := ih
      obtain ⟨origin₂, es₂, rfl, h₂⟩ := carries_of_permutes h₁.distinct hstep
      exact ⟨origin₂, es₂, rfl, h₂.distinct, h₂.tables ∘ h₁.tables, fun m => h₂.reads m ∘ h₁.reads m⟩
  obtain ⟨_, _, heq, hcarries⟩ := hall _ h
  obtain ⟨-, rfl⟩ := Value.table.inj heq
  exact hcarries

theorem rearranged_symm (h : Rearranged es es') : Rearranged es' es := by
  have : Std.Symm Value.Permutes := ⟨fun _ _ => Value.Permutes.symm⟩
  exact ReflTransGen.stdSymm.symm _ _ h

/-- A manifest is read from the tree of its text. -/
theorem parse_eq_ok {text : String} (hdoc : Document.parse? text = some es) :
    Manifest.parse text = .ok m ↔ shape.ofEntries es = .ok m := by
  unfold parse RecordShape.parse
  rw [hdoc]
  dsimp only
  cases shape.ofEntries es <;> simp [Except.mapError]

/-- A document is read as a manifest exactly if it is well-typed, as the one manifest that has what the
document says. The order of the keys in its tables does not matter. -/
theorem manifest_of_document {text : String} (hdoc : Document.parse? text = some es)
    (htables : AsTables es) :
    ((∃ m, Manifest.parse text = .ok m) ↔ WellTyped es) ∧
      (∀ m, Manifest.parse text = .ok m ↔ WellTyped es ∧ m.Holds es) ∧
      ∀ text' es', Document.parse? text' = some es' → Rearranged es es' →
        ∀ m, Manifest.parse text' = .ok m ↔ Manifest.parse text = .ok m := by
  have hes := Document.distinct_of_parse? hdoc
  have hread : ∀ m, Manifest.parse text = .ok m ↔ WellTyped es ∧ m.Holds es := fun m =>
    (parse_eq_ok hdoc).trans (ofEntries_iff hes htables)
  refine ⟨?_, hread, fun text' es' hdoc' hrearranged m => ?_⟩
  · simp only [parse_eq_ok hdoc]
    exact isOk_ofEntries_iff hes htables
  · have hes' := Document.distinct_of_parse? hdoc'
    have hto := carries_of_rearranged hes hrearranged
    have hback := carries_of_rearranged hes' (rearranged_symm hrearranged)
    rw [parse_eq_ok hdoc', hread, ofEntries_iff hes' (hto.tables htables)]
    exact ⟨hback.reads m, hto.reads m⟩

/-- A document with a lock and a field. -/
def lockFirst : String :=
  "[[lock]]\nname = \"state\"\nrank = 70\n[[field]]\nname = \"depth\"\ntier = \"global\"\ntype = \"u32\""

/-- The same with the field first, and its type before its tier. -/
def fieldFirst : String :=
  "[[field]]\nname = \"depth\"\ntype = \"u32\"\ntier = \"global\"\n[[lock]]\nname = \"state\"\nrank = 70"

def stateEntries : Entries := [("name", .text "state"), ("rank", .integer 70)]

def depthEntries : Entries := [("name", .text "depth"), ("tier", .text "global"), ("type", .text "u32")]

/-- The tree of the first document. -/
def lockFirstEntries : Entries :=
  [("lock", .array true [.table .headed stateEntries]), ("field", .array true [.table .headed depthEntries])]

/-- The tree of the second. -/
def fieldFirstEntries : Entries :=
  [("field", .array true [.table .headed
      [("name", .text "depth"), ("type", .text "u32"), ("tier", .text "global")]]),
    ("lock", .array true [.table .headed stateEntries])]

/-- Both orders of the document are read alike, as both have the same manifests. -/
theorem manifest_of_lockFirst :
    Document.parse? lockFirst = some lockFirstEntries ∧ AsTables lockFirstEntries ∧
      Document.parse? fieldFirst = some fieldFirstEntries ∧
      Rearranged lockFirstEntries fieldFirstEntries ∧ WellTyped lockFirstEntries ∧
      ∀ m, Manifest.parse fieldFirst = .ok m ↔ Manifest.parse lockFirst = .ok m := by
  have hdoc : Document.parse? lockFirst = some lockFirstEntries := by rfl
  have hdoc' : Document.parse? fieldFirst = some fieldFirstEntries := by rfl
  have htables : AsTables lockFirstEntries := by
    constructor
    · nofun
    · rintro _ ⟨⟩ _ _ ⟨⟩ i hi
      rw [List.mem_singleton.1 hi]
      exact RecordFormat.fits_of_plain (by decide)
    · intro v hv _ _ heq i hi
      obtain rfl := Option.some.inj hv
      obtain ⟨rfl, rfl⟩ := Value.array.inj heq
      rw [List.mem_singleton.1 hi]
      exact RecordFormat.fits_of_plain (by decide)
  have hrearranged : Rearranged lockFirstEntries fieldFirstEntries := by
    -- the parts change places, then the keys of the field do
    have hfield : (Value.table .headed depthEntries).Permutes (.table .headed
        [("name", .text "depth"), ("type", .text "u32"), ("tier", .text "global")]) :=
      .keys (.cons _ (.swap _ _ _))
    exact .head (.keys (.swap _ _ _)) (.single (@Value.Permutes.entry .headed [] _ _ _ _
      (@Value.Permutes.item true [] [] _ _ hfield)))
  obtain ⟨hok, -, horder⟩ := manifest_of_document hdoc htables
  exact ⟨hdoc, htables, hdoc', hrearranged, hok.1 ⟨_, (parse_eq_ok hdoc).2 rfl⟩,
    horder _ _ hdoc' hrearranged⟩

end Manifest

end TieredState
