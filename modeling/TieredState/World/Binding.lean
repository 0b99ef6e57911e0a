import TieredState.World.Basic

/-!
# Bindings of threads to instances

A thread is bound to at most one instance of a process. Binding makes a storage of fresh variables,
in which only the persistent ones are taken over from the thread's last binding to the same
instance. A binding that is in use cannot be ended from inside that use.
-/

namespace TieredState

/-- What a thread is bound to under one process. -/
inductive BindingState where
  | unbound
  | bound (id : InstanceId)
  -- Bound to an instance that is gone.
  | stale (id : InstanceId)
  deriving DecidableEq, Repr

namespace Thread

/-- The thread's binding under a process. -/
def binding? (th : Thread) (tok : Token) : Option Binding :=
  (th.slots.get? tok).bind (·.binding?)

/-- Whether a storage belongs to one of the thread's bindings. -/
def owns (th : Thread) (s : StorageId) : Bool :=
  th.slots.values.any fun slot => slot.binding?.any (·.storage = s)

/-- Drop the storages that belong to no binding and are not in use. -/
def tidy (th : Thread) : Thread :=
  { th with storages := th.storages.filter fun s st => st.borrowed || th.owns s }

/-- Drop what the thread keeps for a process. -/
def dropSlot (th : Thread) (tok : Token) : Thread :=
  tidy { th with slots := th.slots.erase tok }

end Thread

namespace World

/-- The thread without what it keeps for processes whose bindings are void. -/
def pruneSlots (w : World) (th : Thread) : Thread :=
  Thread.tidy { th with slots := th.slots.filter fun tok _ => !w.isReleased tok }

/-- The slot without what waits for instances that are gone. -/
def pruneRetired (w : World) (slot : Slot) : Slot :=
  { slot with retired := slot.retired.filter fun id _ => w.isLive id }

/-- End a binding of a thread: its variables are put aside if the instance is still live. Variables
that are in use cannot be put aside. -/
def endBinding (w : World) (th : Thread) (slot : Slot) (b : Binding) :
    Except AccessError (Slot × Thread) :=
  match th.storages.get? b.storage with
  | some ⟨_, true⟩ => .error .reentrant
  | st? =>
    let vars := (st?.map (·.vars)).getD {}
    let retired := if w.isLive b.target then slot.retired.insert b.target vars else slot.retired
    .ok (⟨none, retired⟩, { th with storages := th.storages.erase b.storage })

/-- Start a binding in a slot that has none. -/
def startBinding (w : World) (th : Thread) (tok : Token) (slot : Slot) (id : InstanceId) :
    Handle × Thread :=
  let slot := w.pruneRetired slot
  let vars : ThreadVars := { locale? := (slot.retired.get? id).bind (·.locale?) }
  let b : Binding := ⟨id, ⟨th.nextStorage⟩⟩
  (b, { th with
    slots := th.slots.insert tok ⟨some b, slot.retired.erase id⟩
    storages := th.storages.insert b.storage ⟨vars, false⟩
    nextStorage := th.nextStorage + 1 })

/-- Bind a thread to an instance. A binding to the same instance is kept as it is, and one to
another instance is ended first. -/
def bindThread (w : World) (t : ThreadId) (tok : Token) (id : InstanceId) :
    Except AccessError Handle × World :=
  let th := w.pruneSlots (w.thread t)
  let slot := (th.slots.get? tok).getD {}
  match slot.binding? with
  | none =>
    let (h, th') := w.startBinding th tok slot id
    (.ok h, w.setThread t th')
  | some b =>
    if b.target = id then (.ok b, w.setThread t th)
    else
      match w.endBinding th slot b with
      | .error e => (.error e, w.setThread t th)
      | .ok (slot', th') =>
        let (h, th'') := w.startBinding th' tok slot' id
        (.ok h, w.setThread t th'')

/-- End a thread's binding, and tell to what it was bound. -/
def unbindThread (w : World) (t : ThreadId) (tok : Token) :
    Except AccessError (Option InstanceId × World) :=
  let th := w.thread t
  match th.slots.get? tok with
  | none => .ok (none, w)
  | some slot =>
    match slot.binding? with
    | none => .ok (none, w)
    | some b => do
      let (slot', th') ← w.endBinding th slot b
      let th'' := { th' with slots := th'.slots.insert tok (w.pruneRetired slot') }
      return (some b.target, w.setThread t th'')

def bindingState (w : World) (t : ThreadId) (tok : Token) : BindingState :=
  match (w.thread t).binding? tok with
  | none => .unbound
  | some b => if w.isLive b.target then .bound b.target else .stale b.target

/-- The instance of a handle, if it is live. -/
def handleInstance (w : World) (h : Handle) : Except AccessError InstanceId :=
  if w.isLive h.target then .ok h.target else .error (.instanceDestroyed h.target)

/-- The instance that the thread is bound to, if it is live. -/
def boundInstance (w : World) (t : ThreadId) (tok : Token) : Except AccessError InstanceId :=
  match (w.thread t).binding? tok with
  | none => .error .noActiveInstance
  | some b => w.handleInstance b

/-- A handle to the thread's binding, if its instance is live. -/
def boundHandle (w : World) (t : ThreadId) (tok : Token) : Except AccessError Handle :=
  match (w.thread t).binding? tok with
  | none => .error .noActiveInstance
  | some b => do
    let _ ← w.handleInstance b
    return b

/-- Make every binding under a process void. What a thread keeps for it goes at once on the thread
`t`, and on others when they next bind. -/
def releaseKey (w : World) (t : ThreadId) (tok : Token) : World :=
  let w := w.modifyProcess tok fun p => { p with released := true }
  w.setThread t ((w.thread t).dropSlot tok)

/-! ### Handles -/

/-- Whether the storage behind a handle exists. -/
def isBound (w : World) (t : ThreadId) (h : Handle) : Bool :=
  (w.thread t).storages.contains h.storage

/-- Take the variables behind a handle into use. -/
def borrow (w : World) (t : ThreadId) (h : Handle) : Except AccessError World :=
  let th := w.thread t
  match th.storages.get? h.storage with
  | none => .error .noActiveInstance
  | some st => do
    let _ ← w.handleInstance h
    if st.borrowed then .error .reentrant
    else
      .ok (w.setThread t
        { th with storages := th.storages.insert h.storage { st with borrowed := true } })

/-- End the use of a storage. One whose binding has ended in the meantime goes. -/
def endBorrow (w : World) (t : ThreadId) (s : StorageId) : World :=
  let th := w.thread t
  w.setThread t
    (Thread.tidy { th with storages := th.storages.modify s fun st => { st with borrowed := false } })

end World

end TieredState
