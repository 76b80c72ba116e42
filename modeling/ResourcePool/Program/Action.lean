import ResourcePool.Metrics.Exposition
import ResourcePool.Program.Answer
import ResourcePool.Store.Guards

/-! Single actions of a program on a store of text values. -/
namespace ResourcePool.Program

/-- Pools, guards and callers go by name and entries by number. A `direct` action passes the leak
tracker by. -/
inductive Action where
  | create (pool : String) (settings : Settings String) (detector? : Option Detector)
  | dropPool (pool : String)
  | reserve (pool : String)
  | enable (entry : EntryId) (value : String) (acquire : Bool)
  | acquire (pool : String) (direct : Bool)
  | drain (pool : String) (direct : Bool)
  | release (pool : String) (entry : EntryId) (direct : Bool)
  | remove (pool : String) (entry : EntryId) (direct : Bool)
  | close (pool : String)
  | entry (entry : EntryId)
  | entries (pool : String)
  | dropHandle (entry : EntryId)
  | dropHandles
  | overview (pool : String)
  | metrics (pool : String)
  | texts (pool : String)
  | exposition (pool name : String) (tags : Metrics.Tags)
  | health (pool : String)
  | lease (pool guard : String) (direct : Bool)
  | guarded (guard : String)
  | dropGuard (guard : String)
  | removeGuarded (guard : String)
  | detach (guard : String)
  | checkLeaks (pool : String)
  | clearTracking (pool : String)
  | sweep (pool : String)
  | tracking (pool : String)
  /-- An action that could not be read: the entry and the pool it names, and the field at fault. -/
  | invalid (held? : Option EntryId) (pool? : Option String) (field : String)

namespace Action

/-- Answers `ok` or the fault. -/
def ofResult : Except Fault Bool → Answer
  | .ok done => .done done
  | .error f => .failed (.fault f)

/-- Takes a handle on an entry that was acquired and shows it. -/
def obtained (s : Store String) : Option EntryId → Answer × Store String
  | some e => (.got (some e) (s.value? e), s.hold e)
  | none => (.got none none, s)

def onPool (s : Store String) (name : String) (f : PoolId → Answer × Store String) :
    Answer × Store String :=
  match s.find? name with
  | some p => f p
  | none => (.failed .noPool, s)

/-- The handle is asked for before the pool. -/
def onHeld (s : Store String) (e : EntryId) (f : Entry String → Answer × Store String) :
    Answer × Store String :=
  if s.handles.contains e then f (s.entry e) else (.failed .noHandle, s)

def onGuard (s : Store String) (name : String) (f : Guard → Answer × Store String) :
    Answer × Store String :=
  match s.guard? name with
  | some g => f g
  | none => (.failed .noGuard, s)

def onTracked (s : Store String) (name : String)
    (f : PoolId → Tracker → Answer × Store String) : Answer × Store String :=
  onPool s name fun p =>
    match (s.pool p).tracker? with
    | some t => f p t
    | none => (.failed (.badInput "tracked"), s)

/-- Whether there is a guard of a pool of this name. -/
def isLeased (s : Store String) (name : String) : Bool :=
  s.guards.any fun (_, g) => (s.pool g.pool).name == name

/-- Entries drained from random starts have no order of their own. -/
def shown (s : Store String) (p : PoolId) (es : List EntryId) : List EntryId :=
  if (s.pool p).settings.strategy = .random then es.mergeSort else es

def perform (c : CallerId) (a : Action) (s : Store String) : Answer × Store String :=
  match a with
  | create name settings detector? =>
    let (p, s) := s.create name settings detector?
    (.created (s.describePool p), s)
  | dropPool name =>
    if isLeased s name then (.failed .leased, s)
    else (.done (s.find? name).isSome, s.forget name)
  | reserve name => onPool s name fun p =>
    let (e?, s) := s.reserve p
    obtained s e?
  | enable e value active => onHeld s e fun _ =>
    let (result, s) := s.enable e value active
    (ofResult result, s)
  | acquire name direct => onPool s name fun p =>
    let (e?, s) := s.trackedAcquire direct p c
    obtained s e?
  | drain name direct => onPool s name fun p =>
    let (es, s) := s.acquireAll direct p c
    (.entries (shown s p es), s.holdAll es)
  | release name e direct => onHeld s e fun _ => onPool s name fun p =>
    let (result, s) := s.trackedRelease direct p c e
    (ofResult result, s)
  | remove name e direct => onHeld s e fun _ => onPool s name fun p =>
    let (done, s) := s.trackedRemove direct p e
    (.done done, s)
  | close name => onPool s name fun p =>
    let (values, s) := s.close p
    (.disposed values, s)
  | entry e => onHeld s e fun x => (.entry x, s)
  | entries name => onPool s name fun p => (.entries (s.members p), s.holdAll (s.members p))
  | dropHandle e => (.done (s.handles.contains e), s.unhold e)
  | dropHandles => (.dropped s.handles.length, { s with handles := [] })
  | overview name => onPool s name fun p => (.overview (.of s p), s)
  | metrics name => onPool s name fun p => (.metrics (s.metrics p), s)
  | texts name => onPool s name fun p => (.texts (s.metrics p), s)
  | exposition name title tags => onPool s name fun p =>
    (.exposition ((s.metrics p).exposition title tags), s)
  | health name => onPool s name fun p => (.health (s.health p), s)
  | lease name guard direct => onPool s name fun p =>
    let (e?, s) := s.lease direct p c guard
    (.got e? (e?.bind s.value?), s)
  | guarded name => onGuard s name fun g =>
    (.got (some g.entry) (s.value? g.entry), s.hold g.entry)
  | dropGuard name => onGuard s name fun g => (.done true, s.dropGuard c name g)
  | removeGuarded name => onGuard s name fun g =>
    let (done, s) := s.removeGuarded name g
    (.done done, s)
  | detach name => onGuard s name fun g => (.handle g.entry, s.detach name g)
  | checkLeaks name => onTracked s name fun p t =>
    let (n, s) := s.checkLeaks p t
    (.found n, s)
  | clearTracking name => onTracked s name fun p t => (.done true, s.setTracker p t.clear)
  | sweep name => onTracked s name fun p t =>
    let (leaks, s) := s.sweep p t
    (.entries ((Leak.sorted leaks).filterMap (·.resource?)), s)
  | tracking name => onTracked s name fun _ t => (.tracking t, s)
  | invalid held? pool? field =>
    let refused : Answer × Store String := (.failed (.badInput field), s)
    let refused := pool?.elim refused fun name => onPool s name fun _ => refused
    held?.elim refused fun e => onHeld s e fun _ => refused

end Action

end ResourcePool.Program
