import TieredState.Session.State

/-!
# Calls on what is in hand

The calls that steps inside a closure make on what the closure opened. A call that does not fit is
misplaced.
-/

namespace TieredState

namespace InstanceField

/-- Set the variable, and give what it was. -/
def set (v : InstanceVars) : InstanceField → Answer × InstanceVars
  | tainting b => (.flag v.tainting, { v with tainting := b })
  | exitCode n => (.number v.exitCode, { v with exitCode := n })
  | subGeneration n => (.number v.subGeneration, { v with subGeneration := n })
  | svCount n => (.number v.svCount, { v with svCount := n })

end InstanceField

namespace ThreadField

/-- Set the variable, and give what it was. -/
def set (v : ThreadVars) : ThreadField → Answer × ThreadVars
  | stackDepth n => (.number v.stackDepth, { v with stackDepth := n })
  | lastError s? => (.optionalText v.lastError?, { v with lastError? := s? })
  | locale s? => (.optionalText v.locale?, { v with locale? := s? })

end ThreadField

namespace InstanceVars

/-- Every variable stepped once. -/
def bump (v : InstanceVars) : InstanceVars :=
  { v with
    tainting := !v.tainting
    exitCode := v.exitCode - 1
    subGeneration := v.subGeneration + 1
    svCount := v.svCount + 1 }

end InstanceVars

namespace ThreadVars

/-- Every variable stepped once. -/
def bump (v : ThreadVars) : ThreadVars where
  stackDepth := v.stackDepth + 1
  lastError? := some (v.lastError?.getD "" ++ "e")
  locale? := some (v.locale?.getD "" ++ "l")

end ThreadVars

namespace ExtensionCall

/-- Make the call on the extensions of an instance. -/
def run (e : Extensions) : ExtensionCall → Answer × Extensions
  | insert v => let (old, e') := e.insert v; (.extension old, e')
  | get t => (.extension (e.get? t), e)
  | merge v => let (sum, e') := e.merge v; (.extension sum, e')
  | getOrDefault t => let (v, e') := e.getOrDefault t; (.extension (some v), e')
  | remove t => let (old, e') := e.remove t; (.extension old, e')
  | contains t => (.flag (e.contains t), e)
  | size => (.size e.size, e)
  | clear => (.text ({} : Extensions).display, {})

end ExtensionCall

namespace Session

/-- A call that changes the variables of an instance. -/
def onInstance (s : Session) (id : InstanceId) (f : InstanceVars → Answer × InstanceVars) :
    Outcome × Session :=
  match s.world.instances.get? id with
  | none => (.error .misplaced, s)
  | some i =>
    let (a, vars) := f i.vars
    (.ok a, s.withWorld (s.world.modifyInstance id fun i => { i with vars }))

/-- A call that changes the variables in a storage of a thread. -/
def onThread (s : Session) (t : ThreadId) (storage : StorageId)
    (f : ThreadVars → Answer × ThreadVars) : Outcome × Session :=
  match (s.world.thread t).storages.get? storage with
  | none => (.error .misplaced, s)
  | some st =>
    let (a, vars) := f st.vars
    (.ok a, s.withWorld (s.world.modifyThreadVars t storage fun _ => vars))

/-- A call that changes a process. -/
def onProcess (s : Session) (tok : Token) (f : Process → Answer × Process) : Outcome × Session :=
  match s.world.processes.get? tok with
  | none => (.error .misplaced, s)
  | some p =>
    let (a, p') := f p
    (.ok a, s.modifyProcess tok fun _ => p')

/-- What is in hand; of reference counts, the one of the op tree `op`. -/
def readFocus (s : Session) (op : Nat) : Focus → Outcome
  | .instanceVars id => (s.onInstance id fun v => (.instanceVars v, v)).1
  | .threadVars t storage => (s.onThread t storage fun v => (.threadVars v, v)).1
  | .text place _ => .ok (.text (s.textAt place))
  | .registry tok => (s.onProcess tok fun p => (.registry p.registry, p)).1
  | .hooks tok _ => (s.onProcess tok fun p => (.hooks p.hooks, p)).1
  | .allocStats tok => (s.onProcess tok fun p => (.allocStats p.allocStats, p)).1
  | .references tok =>
    (s.onProcess tok fun p => (.references (p.opRefs.get op) p.opRefs.size, p)).1
  | .nothing => .error .misplaced

/-- A call on the variables of an instance. -/
def instanceCall (s : Session) (id : InstanceId) : FocusCall → Outcome × Session
  | .setInstance f => s.onInstance id f.set
  | .bump => s.onInstance id fun v => (.nothing, v.bump)
  | .takeExtensions =>
    s.onInstance id fun v => (.number v.extensions.size, { v with extensions := {} })
  | .extension c =>
    s.onInstance id fun v =>
      let (a, extensions) := c.run v.extensions
      (a, { v with extensions })
  | _ => (.error .misplaced, s)

/-- A call on the variables of a binding. -/
def threadCall (s : Session) (t : ThreadId) (storage : StorageId) : FocusCall → Outcome × Session
  | .setThread f => s.onThread t storage f.set
  | .bump => s.onThread t storage fun v => (.nothing, v.bump)
  | _ => (.error .misplaced, s)

/-- A call on a text that may be changed. -/
def textCall (s : Session) (place : TextPlace) : FocusCall → Outcome × Session
  | .setText text => (.ok (.text (s.textAt place)), s.setTextAt text place)
  | .appendText more =>
    let text := s.textAt place ++ more
    (.ok (.number text.utf8ByteSize), s.setTextAt text place)
  | _ => (.error .misplaced, s)

/-- A call on a registry, past every check. -/
def registryCall (s : Session) (ctx : Context) (tok : Token) : FocusCall → Outcome × Session
  | .insertInstance i =>
    match s.instanceToKeep ctx none i with
    | .error e => (.error e, s)
    | .ok id =>
      s.onProcess tok fun p =>
        let registry := p.registry.insert id
        (.number registry.size, { p with registry })
  | .removeInstance i =>
    match s.instanceNamed ctx i with
    | .error e => (.error e, s)
    | .ok id =>
      s.onProcess tok fun p =>
        (.identity (if p.registry.contains id then some id else none),
          { p with registry := p.registry.remove id })
  | .findInstance i =>
    match s.instanceNamed ctx i with
    | .error e => (.error e, s)
    | .ok id =>
      s.onProcess tok fun p => (.found (if p.registry.contains id then some id else none), p)
  | _ => (.error .misplaced, s)

/-- A call on hooks, past every check. -/
def hooksCall (s : Session) (tok : Token) : FocusCall → Outcome × Session
  | .removeHook h =>
    match s.hookNamed h with
    | .error e => (.error e, s)
    | .ok id =>
      s.onProcess tok fun p =>
        let (found, hooks) := p.hooks.remove id
        (.flag found, { p with hooks })
  | _ => (.error .misplaced, s)

/-- A call on reference counts. -/
def referencesCall (s : Session) (tok : Token) : FocusCall → Outcome × Session
  | .increment op =>
    s.onProcess tok fun p =>
      let (n, opRefs) := p.opRefs.increment op
      (.number n, { p with opRefs })
  | .decrement op =>
    s.onProcess tok fun p =>
      let (n, opRefs) := p.opRefs.decrement op
      (.number n, { p with opRefs })
  | _ => (.error .misplaced, s)

/-- A call on the figures on allocation, which gives the new ones. -/
def allocCall (s : Session) (tok : Token) : FocusCall → Outcome × Session
  | .recordAlloc n => change (·.recordAlloc n)
  | .recordFree n => change (·.recordFree n)
  | _ => (.error .misplaced, s)
where
  change (f : AllocStats → AllocStats) : Outcome × Session :=
    s.onProcess tok fun p =>
      (.allocStats (f p.allocStats), { p with allocStats := f p.allocStats })

/-- A call on what is in hand. -/
def focusCall (s : Session) (ctx : Context) (c : FocusCall) : Outcome × Session :=
  match c with
  | .get op => (s.readFocus op ctx.focus, s)
  | c =>
    match ctx.focus with
    | .instanceVars id => s.instanceCall id c
    | .threadVars t storage => s.threadCall t storage c
    | .text place true => s.textCall place c
    | .registry tok => s.registryCall ctx tok c
    | .hooks tok true => s.hooksCall tok c
    | .references tok => s.referencesCall tok c
    | .allocStats tok => s.allocCall tok c
    | _ => (.error .misplaced, s)

end Session

end TieredState
