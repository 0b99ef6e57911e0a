import TieredState.Constants
import TieredState.Proofs.Edits
import TieredState.Proofs.PolicyRules

/-!
# The identity of constants

Constants are told apart by their addresses alone. A registry has three parts, the constants under their
names, the names under the addresses, and the order of definition. These stay in step, and no two names
ever come to share an address, not even that of something else which begins where a constant does.

* `Constants.Definition` — a call that registers a constant.
* `Constants.apply_perform` — what comes of it, and what it leaves.
* `Constants.Records` — how the three parts of a registry fit together.
* `Constants.answers_of_definitions` — they do after whatever definitions, failed ones among them.
* `Constants.constants_keep_identity` — what callers may rely on.
-/

namespace TieredState.Constants

open Edit

/-- A call that registers a constant. -/
inductive Definition where
  -- A value that has its place already.
  | placed (name : String) (h : StableHandle)
  -- A value that is moved to a block of its own.
  | owned (name : String) (block : Nat) (v : ConstantValue)
  deriving DecidableEq, Repr

namespace Definition

def name : Definition → String
  | placed name _ | owned name _ _ => name

/-- The value where it is to stay. -/
def handle : Definition → StableHandle
  | placed _ h => h
  | owned _ block v => ⟨⟨block, 0⟩, v⟩

/-- The type that the caller gives the constant. -/
def type (d : Definition) : ConstantType := d.handle.value.type

/-- Whether the value may have the place that it is to be given. -/
def fits : Definition → Bool
  | placed _ _ => true
  | owned _ _ v => v.type.hasRoom

/-- The constant as a field. -/
def declaration (d : Definition) : Field :=
  { name := d.name, tier := .global, type := d.type.name, constant := true }

end Definition

/-- Make a definition. -/
def perform : Definition → Edit Constants DeclarationError StableHandle
  | .placed name h => define name h
  | .owned name block v => defineOwned name block v

/-- The registry with one more constant. -/
def register (r : Constants) (name : String) (h : StableHandle) : Constants where
  addresses := r.addresses.insert h.address name
  entries := r.entries.insert name h
  order := r.order ++ [name]

variable {r r' : Constants} {d : Definition} {name n m : String} {h g : StableHandle}
variable {a : Address} {t u : ConstantType}

/-! ## What comes of a definition -/

/-- A definition that is refused has changed nothing. -/
theorem define_atomic (name : String) (h : StableHandle) : (define name h).Atomic := by
  refine (refuseIf_readOnly _ _).bind_atomic fun _ => (ask_readOnly _).bind_atomic fun _ => ?_
  refine Total.atomic ?_
  exact (change_total _).bind fun _ => (change_total _).bind fun _ => (change_total _).bind fun _ =>
    pure_total h

/-- No kind of definition changes anything when it is refused. -/
theorem perform_atomic (d : Definition) : (perform d).Atomic := by
  cases d with
  | placed name h => exact define_atomic name h
  | owned name block v =>
    exact (refuseIf_readOnly _ _).bind_atomic fun _ => (refuseIf_readOnly _ _).bind_atomic fun _ =>
      define_atomic name _

/-- A definition is refused for its name first, and then for its address. -/
theorem apply_define : (define name h).apply r =
    if r.contains name then (.error (.duplicateConstant name), r)
    else match r.addresses.get? h.address with
      | some existing => (.error (.aliasedConstant name existing), r)
      | none => (.ok h, r.register name h) := by
  unfold define
  rw [apply_refuseIf_bind]
  split
  · rfl
  · rw [apply_ask_bind]
    cases r.addresses.get? h.address <;> rfl

/-- A value of its own block is defined as any other is, if it takes room. -/
theorem apply_perform : (perform d).apply r =
    if d.fits then (define d.name d.handle).apply r else (.error (.invalidConstant d.name), r) := by
  cases d with
  | placed name h => rfl
  | owned name block v =>
    show (defineOwned name block v).apply r = _
    unfold defineOwned
    rw [apply_refuseIf_bind]
    cases hroom : v.type.hasRoom with
    | false => simp [Definition.fits, Definition.name, hroom]
    | true =>
      simp only [Definition.fits, Definition.name, Definition.handle, hroom, Bool.not_true,
        Bool.false_eq_true, if_true, if_false]
      rw [apply_refuseIf_bind]
      -- `define` asks for the name once more
      split
      · next htaken => rw [apply_define, if_pos htaken]
      · rfl

/-- A definition is made when its name and its address are both unused. -/
theorem perform_ok_iff : (perform d).apply r = (.ok h, r') ↔
    (d.fits ∧ r.entries.get? d.name = none ∧ r.addresses.get? d.handle.address = none) ∧
      h = d.handle ∧ r' = r.register d.name d.handle := by
  rw [apply_perform]
  cases hfits : d.fits with
  | false => simp
  | true =>
    rw [if_pos rfl, apply_define]
    cases hname : r.entries.get? d.name with
    | some existing => simp [contains, Table.contains, hname]
    | none =>
      cases haddress : r.addresses.get? d.handle.address with
      | some existing => simp [contains, Table.contains, hname]
      | none => simp [contains, Table.contains, hname, eq_comm]

/-! ## The three parts of a registry -/

/-- The registry has these constants, in this order. -/
structure Records (r : Constants) (es : List (String × StableHandle)) : Prop where
  names : (es.map (·.1)).Nodup
  places : (es.map (·.2.address)).Nodup
  order : r.order = es.map (·.1)
  entries : ∀ n h, r.entries.get? n = some h ↔ (n, h) ∈ es
  addresses : ∀ a n, r.addresses.get? a = some n ↔ ∃ h, (n, h) ∈ es ∧ h.address = a

namespace Records

variable {es : List (String × StableHandle)}

theorem empty : Records {} [] where
  names := List.nodup_nil
  places := List.nodup_nil
  order := rfl
  entries n h := by simp [show (∅ : Table String StableHandle) = .empty from rfl]
  addresses a n := by simp [show (∅ : Table Address String) = .empty from rfl]

/-- A name that is new is that of no constant. -/
theorem ne_name (hr : r.Records es) (hname : r.entries.get? n = none) : ∀ e ∈ es, e.1 ≠ n := by
  rintro ⟨m, g⟩ hmem rfl
  rw [(hr.entries m g).2 hmem] at hname
  cases hname

/-- An address that is new is that of no constant. -/
theorem ne_address (hr : r.Records es) (haddress : r.addresses.get? a = none) :
    ∀ e ∈ es, e.2.address ≠ a := by
  rintro ⟨m, g⟩ hmem heq
  rw [(hr.addresses a m).2 ⟨g, hmem, heq⟩] at haddress
  cases haddress

/-- One more constant is in all three parts. -/
theorem register (hr : r.Records es) (hname : r.entries.get? n = none)
    (haddress : r.addresses.get? h.address = none) :
    (r.register n h).Records (es ++ [(n, h)]) := by
  have hnewName := hr.ne_name hname
  have hnewPlace := hr.ne_address haddress
  refine ⟨nodup_map_concat.2 ⟨hr.names, hnewName⟩, nodup_map_concat.2 ⟨hr.places, hnewPlace⟩, ?_,
    fun m g => ?_, fun a m => ?_⟩
  -- the order grows at its end, and each table by one entry under a key that is new
  · show r.order ++ [n] = _
    rw [hr.order, List.map_append]
    rfl
  · show (r.entries.insert n h).get? m = some g ↔ _
    rw [Table.get?_insert, List.mem_append, List.mem_singleton, Prod.mk.injEq]
    split
    · next heq =>
      subst heq
      have hnot : (m, g) ∉ es := fun hmem => hnewName _ hmem rfl
      simp [hnot, eq_comm]
    · next hne => simp [hne, hr.entries]
  · show (r.addresses.insert h.address n).get? a = some m ↔ _
    rw [Table.get?_insert]
    simp only [List.mem_append, List.mem_singleton, Prod.mk.injEq, or_and_right, exists_or]
    split
    · next heq =>
      subst heq
      have hnot : ¬∃ g, (m, g) ∈ es ∧ g.address = h.address := by
        rintro ⟨g, hmem, heq⟩
        exact hnewPlace _ hmem heq
      simp only [hnot, false_or, Option.some_inj]
      constructor
      · rintro rfl
        exact ⟨h, ⟨rfl, rfl⟩, rfl⟩
      · rintro ⟨g, ⟨rfl, -⟩, -⟩
        rfl
    · next hne =>
      rw [hr.addresses]
      refine (or_iff_left ?_).symm
      rintro ⟨g, ⟨-, rfl⟩, rfl⟩
      exact hne rfl

/-- Each constant has an address of its own. -/
theorem eq_of_address (hr : r.Records es) (hh : (n, h) ∈ es) (hg : (m, g) ∈ es)
    (heq : h.address = g.address) : n = m :=
  (Prod.mk.inj (List.inj_on_of_nodup_map hr.places hh hg heq)).1

/-- Each name has one constant. -/
theorem eq_of_name (hr : r.Records es) (hh : (n, h) ∈ es) (hg : (n, g) ∈ es) : h = g :=
  (Prod.mk.inj (List.inj_on_of_nodup_map hr.names hh hg rfl)).2

/-- No constant stands in the order twice. -/
theorem order_nodup (hr : r.Records es) : r.order.Nodup := hr.order ▸ hr.names

/-- The constants stand in the order by their names. -/
theorem mem_order (hr : r.Records es) : n ∈ r.order ↔ ∃ h, (n, h) ∈ es := by
  simp [hr.order]

/-- The names that have an entry are those in the order of definition. -/
theorem keys_perm (hr : r.Records es) : r.entries.keys.Perm r.order := by
  refine (List.perm_ext_iff_of_nodup r.entries.nodup hr.order_nodup).2 fun n => ?_
  show n ∈ r.entries.keys ↔ _
  simp only [Table.mem_keys, hr.entries, hr.mem_order]

/-- The names that are registered for some address are those in the order of definition. -/
theorem values_perm (hr : r.Records es) : r.addresses.values.Perm r.order := by
  have hnodup : r.addresses.values.Nodup := by
    refine List.Nodup.map_on ?_ (List.Nodup.of_map _ r.addresses.nodup)
    rintro ⟨a, n⟩ ha ⟨b, m⟩ hb (rfl : n = m)
    obtain ⟨h, hh, rfl⟩ := (hr.addresses a n).1 (Table.get?_eq_some.2 ha)
    obtain ⟨g, hg, rfl⟩ := (hr.addresses b n).1 (Table.get?_eq_some.2 hb)
    rw [hr.eq_of_name hh hg]
  refine (List.perm_ext_iff_of_nodup hnodup hr.order_nodup).2 fun n => ?_
  simp [Table.mem_values, hr.addresses, hr.mem_order]

/-- A constant is found under its name, and as a value of its own type. -/
theorem lookup_eq_some (hr : r.Records es) :
    r.lookup n t = some h ↔ (n, h) ∈ es ∧ h.value.type = t := by
  unfold lookup
  rw [Option.filter_eq_some_iff, hr.entries, decide_eq_true_eq]

/-- Two constants have one address when they have one name. -/
theorem address_iff (hr : r.Records es) (hh : r.lookup n t = some h) (hg : r.lookup m u = some g) :
    h.address = g.address ↔ n = m := by
  have hmem := (hr.lookup_eq_some.1 hh).1
  have hmem' := (hr.lookup_eq_some.1 hg).1
  constructor
  · exact hr.eq_of_address hmem hmem'
  · rintro rfl
    rw [hr.eq_of_name hmem hmem']

/-- The length beside the address makes no difference among constants that are registered. -/
theorem same_iff (hr : r.Records es) (hh : r.lookup n t = some h) (hg : r.lookup m u = some g) :
    h.same g = true ↔ n = m := by
  unfold StableHandle.same
  rw [Bool.and_eq_true, decide_eq_true_eq, decide_eq_true_eq, hr.address_iff hh hg]
  refine and_iff_left_of_imp ?_
  rintro rfl
  rw [hr.eq_of_name (hr.lookup_eq_some.1 hh).1 (hr.lookup_eq_some.1 hg).1]

/-- A name that is not used yet cannot be given to an address that is. -/
theorem define_aliased (hr : r.Records es) (hunused : r.contains n = false) (hmem : (m, h) ∈ es)
    (heq : g.address = h.address) :
    (define n g).apply r = (.error (.aliasedConstant n m), r) := by
  rw [apply_define, hunused, if_neg Bool.false_ne_true, heq,
    (hr.addresses h.address m).2 ⟨h, hmem, rfl⟩]

/-- An address is free when no constant that may be looked up has it. -/
theorem free_iff (hr : r.Records es) : r.addresses.get? a = none ↔
    ∀ m u g, r.lookup m u = some g → g.address ≠ a := by
  rw [Option.eq_none_iff_forall_ne_some]
  constructor
  · intro hfree m u g hg heq
    exact hfree m ((hr.addresses a m).2 ⟨g, (hr.lookup_eq_some.1 hg).1, heq⟩)
  · intro hfree m hm
    obtain ⟨g, hg, heq⟩ := (hr.addresses a m).1 hm
    exact hfree m g.value.type g (hr.lookup_eq_some.2 ⟨hg, rfl⟩) heq

/-- A definition is made when neither its name nor its address is that of another constant. -/
theorem accepted_iff (hr : r.Records es) : (∃ h r', (perform d).apply r = (.ok h, r')) ↔
    d.fits ∧ r.contains d.name = false ∧
      ∀ m u g, r.lookup m u = some g → g.address ≠ d.handle.address := by
  have hunused : r.contains d.name = false ↔ r.entries.get? d.name = none :=
    Option.isSome_eq_false_iff.trans Option.isNone_iff_eq_none
  rw [← hr.free_iff, hunused]
  constructor
  · rintro ⟨h, r', hok⟩
    exact (perform_ok_iff.1 hok).1
  · intro hfree
    exact ⟨_, _, perform_ok_iff.2 ⟨hfree, rfl, rfl⟩⟩

end Records

/-! ## Registries after definitions -/

/-- What comes of definitions. -/
abbrev Log := List (Definition × Except DeclarationError StableHandle)

/-- The registry has the constants that were defined, and their callers have them where they are. -/
structure Answers (r : Constants) (log : Log) : Prop where
  records : r.Records ((heeded log).map fun d => (d.name, d.handle))
  handles : ∀ d h, (d, .ok h) ∈ log → h = d.handle

namespace Answers

variable {log : Log}

theorem empty : Answers {} [] := ⟨.empty, nofun⟩

/-- One more definition is answered as it should be. -/
theorem step (hr : r.Answers log) (d : Definition) :
    ((perform d).apply r).2.Answers (log ++ [(d, ((perform d).apply r).1)]) := by
  have hmem : ∀ {e : Definition} {h x}, (e, Except.ok h) ∈ log ++ [(d, x)] →
      (x = .ok h → h = d.handle) → h = e.handle := by
    intro e h x hin hlast
    rcases List.mem_append.1 hin with hin | hin
    · exact hr.handles e h hin
    · obtain ⟨rfl, rfl⟩ := Prod.mk.inj (List.mem_singleton.1 hin)
      exact hlast rfl
  rcases (perform_atomic d).cases r with ⟨h, r', hok⟩ | ⟨err, herror⟩
  · obtain ⟨⟨-, hname, haddress⟩, rfl, rfl⟩ := perform_ok_iff.1 hok
    rw [hok]
    refine ⟨?_, fun e h hin => hmem hin fun heq => (Except.ok.inj heq).symm⟩
    rw [heeded_concat, List.map_append]
    exact hr.records.register hname haddress
  · rw [herror]
    refine ⟨?_, fun e h hin => hmem hin nofun⟩
    rw [heeded_concat, List.map_append]
    exact (List.append_nil _).symm ▸ hr.records

/-- A constant is looked up by the name and the type that it was defined with. -/
theorem lookup_iff (hr : r.Answers log) :
    r.lookup n t = some h ↔ ∃ d, (d, .ok h) ∈ log ∧ d.name = n ∧ d.type = t := by
  rw [hr.records.lookup_eq_some]
  constructor
  · rintro ⟨hmem, rfl⟩
    obtain ⟨d, hd, heq⟩ := List.mem_map.1 hmem
    obtain ⟨rfl, rfl⟩ := Prod.mk.inj heq
    obtain ⟨⟨e, outcome⟩, hin, rfl⟩ := List.mem_map.1 hd
    obtain ⟨hin, hheeded⟩ := List.mem_filter.1 hin
    cases outcome with
    | error err => cases hheeded
    | ok g => exact ⟨e, hr.handles e g hin ▸ hin, rfl, rfl⟩
  · rintro ⟨d, hin, rfl, rfl⟩
    obtain rfl := hr.handles d h hin
    refine ⟨List.mem_map.2 ⟨d, List.mem_map.2 ⟨(d, .ok d.handle), ?_, rfl⟩, rfl⟩, rfl⟩
    exact List.mem_filter.2 ⟨hin, rfl⟩

/-- What the registry declares are the constants that were defined, in order. -/
theorem declarations_eq (hr : r.Answers log) :
    r.declarations = (heeded log).map Definition.declaration := by
  unfold declarations
  rw [hr.records.order, List.map_map, List.filterMap_map, ← List.filterMap_eq_map]
  refine List.filterMap_congr fun d hd => ?_
  show (r.entries.get? d.name).map _ = _
  rw [(hr.records.entries d.name d.handle).2 (List.mem_map.2 ⟨d, hd, rfl⟩)]
  rfl

end Answers

/-- Whatever is defined, and whether it is refused or not, the parts of the registry fit together. -/
theorem answers_of_definitions (ds : List Definition) :
    (after perform {} ds).Answers (outcomes perform {} ds) :=
  kept_of_edits (fun (r : Constants) (log : Log) => r.Answers log) (fun d hr => hr.step d) ds .empty

/-! ## What begins where a constant does -/

/-- A part of a text that is not cut off at the start has the text's address. -/
theorem address_of_slice {stop : Nat} (heq : g.slice? 0 stop = some h) : h.address = g.address := by
  unfold StableHandle.slice? at heq
  split at heq
  · obtain ⟨part, -, rfl⟩ := Option.map_eq_some_iff.1 heq
    rfl
  · cases heq

/-- The first of two integers has the address of both. -/
theorem address_of_element (heq : g.element? 0 = some h) : h.address = g.address := by
  unfold StableHandle.element? at heq
  split at heq
  · exact (Option.some.inj heq) ▸ rfl
  · next hindex => cases hindex
  · cases heq

/-- What callers of a registry may rely on, whatever definitions were made and whichever of them failed.
Its three parts have the same names, each once, and each name's address. A constant is looked up by the
name and the type that it was defined with, and is where its definition put it. Two that are looked up
are the same exactly when they have one name, whatever they hold. What begins where a constant does is
refused under another name. The fields are those that were defined, in that order. A definition that
fails changes nothing, and it is made exactly if its name and its address are unused and its value may
be put there. -/
theorem constants_keep_identity (ds : List Definition) :
    let r : Constants := after perform {} ds
    let log : Log := outcomes perform {} ds
    (r.order.Nodup ∧ r.entries.keys.Perm r.order ∧ r.addresses.values.Perm r.order ∧
      ∀ a n, r.addresses.get? a = some n ↔ ∃ h, r.entries.get? n = some h ∧ h.address = a) ∧
    (∀ n t h, r.lookup n t = some h ↔ ∃ d, (d, .ok h) ∈ log ∧ d.name = n ∧ d.type = t) ∧
    (∀ d h, (d, .ok h) ∈ log → h = d.handle) ∧
    (∀ n t h m u g, r.lookup n t = some h → r.lookup m u = some g →
      (h.address = g.address ↔ n = m) ∧ (h.same g = true ↔ n = m)) ∧
    (∀ m u g n h, r.lookup m u = some g → r.contains n = false →
      (h.address = g.address ∨ (∃ stop, g.slice? 0 stop = some h) ∨ g.element? 0 = some h) →
      (define n h).apply r = (.error (.aliasedConstant n m), r)) ∧
    (r.order = (heeded log).map (·.name) ∧
      r.declarations = (heeded log).map Definition.declaration) ∧
    (∀ d err r', (perform d).apply r = (.error err, r') → r' = r) ∧
    ∀ d, (∃ h r', (perform d).apply r = (.ok h, r')) ↔ d.fits ∧ r.contains d.name = false ∧
      ∀ m u g, r.lookup m u = some g → g.address ≠ d.handle.address := by
  intro r log
  have hanswers : r.Answers log := answers_of_definitions ds
  have hr := hanswers.records
  refine ⟨⟨hr.order_nodup, hr.keys_perm, hr.values_perm, fun a n => ?_⟩,
    fun n t h => hanswers.lookup_iff, hanswers.handles, fun n t h m u g hh hg => ?_,
    fun m u g n h hg hunused hbegins => ?_, ⟨?_, hanswers.declarations_eq⟩,
    fun d => perform_atomic d r, fun d => hr.accepted_iff⟩
  · simp only [hr.addresses, hr.entries]
  · exact ⟨hr.address_iff hh hg, hr.same_iff hh hg⟩
  · have haddress : h.address = g.address := by
      rcases hbegins with heq | ⟨stop, hslice⟩ | helement
      · exact heq
      · exact address_of_slice hslice
      · exact address_of_element helement
    exact hr.define_aliased hunused (hr.lookup_eq_some.1 hg).1 haddress
  · rw [hr.order, List.map_map]
    rfl

/-- A word and two numbers, each registered where it lies. -/
def wordAndPair : List Definition := [
  .placed "word" ⟨⟨7, 0⟩, .slice "tiered"⟩,
  .placed "bounds" ⟨⟨8, 0⟩, .pair 1 64⟩]

/-- Neither the first syllable nor the first number can be registered, though neither name nor type has
been used before. -/
theorem wordAndPair_parts :
    (define "syllable" ⟨⟨7, 0⟩, .slice "tier"⟩).apply (after perform {} wordAndPair) =
        (.error (.aliasedConstant "syllable" "word"), after perform {} wordAndPair) ∧
      (define "least" ⟨⟨8, 0⟩, .integer 1⟩).apply (after perform {} wordAndPair) =
        (.error (.aliasedConstant "least" "bounds"), after perform {} wordAndPair) := by
  have hrefused := (constants_keep_identity wordAndPair).2.2.2.2.1
  refine ⟨hrefused "word" .slice ⟨⟨7, 0⟩, .slice "tiered"⟩ _ _ rfl rfl (.inr (.inl ⟨4, rfl⟩)), ?_⟩
  exact hrefused "bounds" .pair ⟨⟨8, 0⟩, .pair 1 64⟩ _ _ rfl rfl (.inr (.inr rfl))

end TieredState.Constants
