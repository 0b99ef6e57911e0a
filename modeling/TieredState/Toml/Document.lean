import TieredState.Toml.Scalar

/-!
# Documents

A document is a list of statements: headers, which name the table that the statements below belong
to, and keys with their values. `Document.parse?` gives the entries of the outermost table, or
nothing for a text that breaks a rule. A table may be opened by one header only, and what was
written as a value is never added to.
-/

namespace TieredState.Toml

/-! ## Adding to a table -/

namespace Entries

/-- Change the table that lies at `path` below these entries, of origin `origin`, with `act`. Tables
on the way that are missing are made. `dotted` says that the way is part of the key of a statement
and not of a header: then it may not lead through a table with a header of its own. The way through
an array of tables leads to the last of them, and never into a value. -/
def within (dotted : Bool) (act : Origin → Entries → Option Entries) :
    List String → Origin → Entries → Option Entries
  | [], origin, es => act origin es
  | k :: ks, _, es =>
    match es.find? k with
    | none =>
      let origin : Origin := if dotted then .dotted else .implied
      (within dotted act ks origin []).map fun inner => es.put k (.table origin inner)
    | some (.table .braced _) | some (.table .bracedDotted _) => none
    | some (.table origin inner) =>
      if dotted && origin = .headed then none
      else (within dotted act ks origin inner).map fun inner' => es.put k (.table origin inner')
    | some (.array true items) =>
      match items.getLast? with
      | some (.table origin inner) =>
        (within dotted act ks origin inner).map fun inner' =>
          es.put k (.array true (items.dropLast ++ [.table origin inner']))
      | _ => none
    | some _ => none

/-- Add a new key to the table at the end of `path`. A table that a dotted key has not made takes
no dotted key. -/
def addKey (path : List String) (key : String) (v : Value) (origin : Origin) (es : Entries) :
    Option Entries :=
  within true
    (fun o inner =>
      if (o = .dotted) = path.isEmpty || (inner.find? key).isSome then none
      else some (inner ++ [(key, v)]))
    path origin es

/-- Open the table `key` by a header. One that headers further down have implied keeps its entries
and takes its place after the others. -/
def openTable (key : String) (es : Entries) : Option Entries :=
  match es.find? key with
  | none => some (es ++ [(key, .table .headed [])])
  | some (.table .implied inner) => some (es.remove key ++ [(key, .table .headed inner)])
  | some _ => none

/-- Open one more table in the array `key`. -/
def openElement (key : String) (es : Entries) : Option Entries :=
  match es.find? key with
  | none => some (es ++ [(key, .array true [.table .headed []])])
  | some (.array true items) => some (es.put key (.array true (items ++ [.table .headed []])))
  | some _ => none

/-- Add a key between braces. Parts of a dotted key make tables that other dotted keys between the
same braces may add to. -/
def addBraced (v : Value) : List String → Entries → Option Entries
  | [], _ => none
  | [k], es => if (es.find? k).isSome then none else some (es ++ [(k, v)])
  | k :: ks, es =>
    match es.find? k with
    | none => (addBraced v ks []).map fun inner => es.put k (.table .bracedDotted inner)
    | some (.table .bracedDotted inner) =>
      (addBraced v ks inner).map fun inner' => es.put k (.table .bracedDotted inner')
    | some _ => none

end Entries

/-! ## Values that hold others -/

namespace Scan

/-- The elements of an array after its opening bracket. A comma may follow the last one. -/
def elements (element : Input → Scan Value) : Nat → Input → Scan (List Value)
  | 0, _ => none
  | fuel + 1, cs =>
    (skipSpace? cs).bind fun
      | ']' :: r => some ([], r)
      | r =>
        (element r).bind fun (v, r) => (skipSpace? r).bind fun
          | ']' :: r => some ([v], r)
          | ',' :: r => (elements element fuel r).map fun (vs, rest) => (v :: vs, rest)
          | _ => none

/-- A key, the equals sign and a value, with the blanks after the sign. -/
def keyValue (element : Input → Scan Value) (cs : Input) : Scan (List String × Value) :=
  (key cs).bind fun (k, r) =>
    match r with
    | '=' :: r => (element (skipBlanks r)).map fun (v, rest) => ((k, v), rest)
    | _ => none

/-- The entries of a table after its opening brace, added to `es`. All of it stands on one line. -/
def braced (element : Input → Scan Value) : Nat → Entries → Input → Scan Entries
  | 0, _, _ => none
  | fuel + 1, es, cs =>
    (keyValue element cs).bind fun ((k, v), r) => (es.addBraced v k).bind fun es' =>
      match skipBlanks r with
      | '}' :: r => some (es', r)
      | ',' :: r => braced element fuel es' r
      | _ => none

/-- A value in which arrays and braced tables stand at most `depth` deep inside one another. -/
def value : Nat → Input → Scan Value
  | 0, cs => scalar cs
  | depth + 1, cs =>
    match cs with
    | '[' :: r =>
      (elements (value depth) cs.length r).map fun (vs, rest) => (.array false vs, rest)
    | '{' :: r =>
      match skipBlanks r with
      | '}' :: rest => some (.table .braced [], rest)
      | r => (braced (value depth) cs.length [] r).map fun (es, rest) => (.table .braced es, rest)
    | _ => scalar cs

/-- A header after its opening bracket or brackets, up to `close`. -/
def header (close : List Char) (cs : Input) : Scan (List String) :=
  (key cs).bind fun (k, r) =>
    if close.isPrefixOf r then some (k, r.drop close.length) else none

end Scan

/-! ## Statements -/

/-- The part of a document that has been read. -/
structure Document where
  -- The entries of the outermost table.
  entries : Entries := []
  -- The path of the last header, to whose table the next statement belongs.
  path : List String := []

namespace Document

open Scan

/-- Apply a header: `act` opens its table in the one above it. -/
def enter (d : Document) (act : String → Entries → Option Entries) (path : List String) :
    Option Document :=
  path.getLast?.bind fun last =>
    (d.entries.within false (fun _ es => act last es) path.dropLast .headed).map
      fun entries => { entries, path }

/-- Add a key and its value to the table of the last header. -/
def add (d : Document) (key : List String) (v : Value) : Option Document :=
  key.getLast?.bind fun last =>
    (d.entries.within false (fun o es => es.addKey key.dropLast last v o) d.path .headed).map
      fun entries => { d with entries }

/-- One statement or blank line, with its line end. -/
def statement (d : Document) (cs : Input) : Option (Document × Input) :=
  match cs with
  | '#' :: _ | '\n' :: _ | '\r' :: _ => (endStatement? cs).map (d, ·)
  | '[' :: '[' :: r => do
    let (path, r) ← header [']', ']'] r
    let r ← endStatement? r
    return (← d.enter Entries.openElement path, r)
  | '[' :: r => do
    let (path, r) ← header [']'] r
    let r ← endStatement? r
    return (← d.enter Entries.openTable path, r)
  | _ => do
    let ((key, v), r) ← keyValue (value depthLimit) cs
    let r ← endStatement? r
    return (← d.add key v, r)

/-- All statements. -/
def statements : Nat → Document → Input → Option Document
  | 0, _, _ => none
  | fuel + 1, d, cs =>
    match skipBlanks cs with
    | [] => some d
    | r => (d.statement r).bind fun (d', rest) => statements fuel d' rest

/-- The outermost table of a text, which may start with a byte order mark. -/
def parse? (s : String) : Option Entries :=
  let cs := match s.toList with
    | '\ufeff' :: r => r
    | cs => cs
  (statements (cs.length + 1) {} cs).map (·.entries)

end Document

end TieredState.Toml
