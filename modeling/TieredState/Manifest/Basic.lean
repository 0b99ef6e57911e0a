import TieredState.Toml.Record
import TieredState.Policy.Basic

/-!
# Declaration manifests

A manifest is a document that lists the locks and fields of a runtime whose state is generated.
`Manifest.parse` reads one: keys that are not listed here are refused, and all but a lock's name and
rank and a field's name and type may be left out.
-/

namespace TieredState

open Toml

/-- A lock as a manifest declares it. -/
structure LockEntry where
  name : String := ""
  rank : Nat := 0
  deriving DecidableEq, Repr

/-- A field as a manifest declares it. -/
structure FieldEntry where
  name : String := ""
  tier? : Option Tier := none
  beforeInstance? : Option Bool := none
  perThread? : Option Bool := none
  type : String := ""
  initial? : Option String := none
  condition? : Option String := none
  exported : Bool := false
  persistent : Bool := false
  constant : Bool := false
  lock? : Option String := none
  readMostly : Bool := false
  deriving DecidableEq, Repr

/-- What a manifest says of the runtime as a whole. -/
structure BuildOptions where
  -- The runtime may have more than one instance.
  instances : Bool := true
  globalStruct : String := "GlobalVars"
  instanceStruct : String := "InstanceVars"
  threadStruct : String := "ThreadVars"
  deriving DecidableEq, Repr

namespace BuildOptions

/-- The name of the structure that holds the fields of a tier. -/
def structName (b : BuildOptions) : Tier → String
  | .global => b.globalStruct
  | .perInstance => b.instanceStruct
  | .perThread => b.threadStruct

def shape : RecordShape BuildOptions where
  title := "struct BuildOptions"
  keys := [
    .of "instances" Value.asBoolean fun b o => { o with instances := b },
    .of "global_struct" Value.asText fun s o => { o with globalStruct := s },
    .of "instance_struct" Value.asText fun s o => { o with instanceStruct := s },
    .of "thread_struct" Value.asText fun s o => { o with threadStruct := s }]
  closed := true
  start := {}

end BuildOptions

/-- A manifest as it is written, before any rule on declarations is applied. -/
structure Manifest where
  build : BuildOptions := {}
  locks : List LockEntry := []
  fields : List FieldEntry := []
  deriving DecidableEq, Repr

namespace LockEntry

def shape : RecordShape LockEntry where
  title := "struct LockDecl"
  keys := [
    .of "name" Value.asText (fun s l => { l with name := s }) true,
    .of "rank" (Value.asNatural 256 "u8") (fun n l => { l with rank := n }) true]
  closed := true
  start := {}

end LockEntry

namespace FieldEntry

/-- The tiers under their names. -/
def tierNames : List (String × Tier) := Tier.all.map fun t => (t.name, t)

def shape : RecordShape FieldEntry where
  title := "struct FieldDecl"
  keys := [
    .of "name" Value.asText (fun s f => { f with name := s }) true,
    .of "tier" (Value.asName tierNames) fun t f => { f with tier? := some t },
    .of "before_instance" Value.asBoolean fun b f => { f with beforeInstance? := some b },
    .of "per_thread" Value.asBoolean fun b f => { f with perThread? := some b },
    .of "type" Value.asText (fun s f => { f with type := s }) true,
    .of "init" Value.asText fun s f => { f with initial? := some s },
    .of "guard" Value.asText fun s f => { f with condition? := some s },
    .of "export" Value.asBoolean fun b f => { f with exported := b },
    .of "persistent" Value.asBoolean fun b f => { f with persistent := b },
    .of "constant" Value.asBoolean fun b f => { f with constant := b },
    .of "lock" Value.asText fun s f => { f with lock? := some s },
    .of "read_mostly" Value.asBoolean fun b f => { f with readMostly := b }]
  closed := true
  start := {}

end FieldEntry

namespace Manifest

def shape : RecordShape Manifest where
  title := "struct Manifest"
  keys := [
    .of "build" BuildOptions.shape.read fun b m => { m with build := b },
    .of "lock" (Value.asList LockEntry.shape.read) fun ls m => { m with locks := ls },
    .of "field" (Value.asList FieldEntry.shape.read) fun fs m => { m with fields := fs }]
  closed := true
  start := {}

/-- Read a manifest. -/
def parse (text : String) : Except DocumentError Manifest := shape.parse text

end Manifest

end TieredState
