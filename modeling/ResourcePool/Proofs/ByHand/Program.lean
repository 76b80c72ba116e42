import ResourcePool.Program.Run

/-! Programs without guards: what is done with a guard elsewhere is done here by hand, with a reference that
the client keeps under a name. The reference stands in the table of guards, where it keeps its entry and the
entry's pool alive as a guard does; it has no end of its own. -/
namespace ResourcePool

namespace Store

variable {α : Type}

/-- Gives an entry back by one release, whatever that answers. -/
def bringBack (s : Store α) (c : CallerId) (x : Guard) : Store α :=
  (s.trackedRelease x.direct x.pool c x.entry).2

/-- Keeps a reference under a name. What the name stood for before is brought back after that. -/
def keep (s : Store α) (c : CallerId) (name : String) (x : Guard) : Store α :=
  let kept := { s.endGuard name with guards := (name, x) :: (s.endGuard name).guards }
  (s.guard? name).elim kept (kept.bringBack c)

/-- Acquires an entry and keeps a reference to it. -/
def take (s : Store α) (direct : Bool) (p : PoolId) (c : CallerId) (name : String) :
    Option EntryId × Store α :=
  match s.trackedAcquire direct p c with
  | (some e, s) => (some e, s.keep c name { pool := p, entry := e, direct })
  | (none, s) => (none, s)

end Store

namespace Program

/-- What a client does by hand with the references that it keeps. -/
inductive Handling where
  | take (pool name : String) (direct : Bool)
  /-- Takes a handle on the entry and shows it. -/
  | look (name : String)
  /-- One release, and the reference is gone. -/
  | bringBack (name : String)
  /-- One removal, and the reference is gone. -/
  | retire (name : String)
  /-- No call at all: the client goes on with a handle. -/
  | letGo (name : String)

/-- What takes the place of an action on a guard. Other actions stay as they are. -/
def Action.handling? : Action → Option Handling
  | .lease pool guard direct => some (.take pool guard direct)
  | .guarded guard => some (.look guard)
  | .dropGuard guard => some (.bringBack guard)
  | .removeGuarded guard => some (.retire guard)
  | .detach guard => some (.letGo guard)
  | _ => none

namespace Handling
open Program.Action

def perform (c : CallerId) (x : Handling) (s : Store String) : Answer × Store String :=
  match x with
  | take pool name direct => onPool s pool fun p =>
    let (e?, s) := s.take direct p c name
    (.got e? (e?.bind s.value?), s)
  | look name => onGuard s name fun x => (.got (some x.entry) (s.value? x.entry), s.hold x.entry)
  | bringBack name => onGuard s name fun x => (.done true, (s.endGuard name).bringBack c x)
  | retire name => onGuard s name fun x =>
    let (done, s) := (s.endGuard name).trackedRemove x.direct x.pool x.entry
    (.done done, s)
  | letGo name => onGuard s name fun x => (.handle x.entry, (s.hold x.entry).endGuard name)

end Handling

/-- Keeps a reference to what `acquireWith` got. -/
def keepCreated (s : Store String) (p : PoolId) (c : CallerId) (name : String) :
    Except CreationError (Option EntryId) → Answer × Store String
  | .ok (some e) => (.got (some e) (s.value? e), s.keep c name { pool := p, entry := e })
  | .ok none => (.got none none, s)
  | .error e => (.failed (ofCreationError e), s)

/-- A step that uses no guard. -/
inductive Manual where
  | act (a : Action) (unguarded : a.handling? = none)
  | hand (x : Handling)
  | acquireWith (pool : String) (direct : Bool) (steps : List Manual) (creation : Creation String)
  /-- The reference to what `acquireWith` gets is kept under the name. -/
  | takeWith (pool name : String) (steps : List Manual) (creation : Creation String)
  | warmup (pool : String) (count : Nat) (value : Nat → String) (at? : Option Nat)
    (steps : List Manual) (panics : Bool)

/-- What a step answered, if it did, and the store after it. -/
abbrev Turn := Option Answer × Store String

/-- A creator or factory that runs steps before it answers, and reports their turns. -/
def recounting {β : Type} (run : Store String → List Turn × Store String) (answer : β) (e : EntryId)
    (s : Store String) : β × List Turn × Store String :=
  (answer, run (s.hold e))

namespace Manual

mutual

/-- The answer of a step, the turns of the steps nested in it, and the store after it. -/
def run (c : CallerId) : Manual → Store String → Answer × List Turn × Store String
  | .act a _, s =>
    let (answer, s) := a.perform c s
    (answer, [], s)
  | .hand x, s =>
    let (answer, s) := x.perform c s
    (answer, [], s)
  | .acquireWith pool direct steps creation, s =>
    match s.find? pool with
    | none => (.failed .noPool, [], s)
    | some p =>
      let (result, turns, s) := s.trackedAcquireWith direct p c (recounting (runAll c steps) creation)
      let (answer, s) := holdCreated s result
      (answer, turns, s)
  | .takeWith pool name steps creation, s =>
    match s.find? pool with
    | none => (.failed .noPool, [], s)
    | some p =>
      if (s.pool p).tracker?.isSome then (.failed (.badInput "pool"), [], s)
      else
        let (result, turns, s) := s.acquireWith p c (recounting (runAll c steps) creation)
        let (answer, s) := keepCreated s p c name result
        (answer, turns, s)
  | .warmup pool count value at? steps panics, s =>
    match s.find? pool with
    | none => (.failed .noPool, [], s)
    | some p =>
      let factory := fun n e s =>
        if at? = some n then recounting (runAll c steps) (if panics then none else some (value n)) e s
        else (some (value n), [], s)
      let (w, turns, s) := Store.warmup p factory count 0 s
      (.warmed w, turns, s)

/-- The turns of steps in a row, those of nested steps before that of the step itself. -/
def runAll (c : CallerId) : List Manual → Store String → List Turn × Store String
  | [], s => ([], s)
  | step :: steps, s =>
    let (answer, nested, s) := step.run c s
    let (more, t) := runAll c steps s
    (nested ++ (some answer, s) :: more, t)

end

/-- A command of a program without guards. -/
inductive Command where
  | run (caller? : Option String) (step : Manual)
  | leave (caller : String) (steps : List Manual)

/-- A caller who leaves gives no answer of its own. -/
def Command.execute (s : Store String) : Command → List Turn × Store String
  | .run none step => runAll .main [step] s
  | .run (some name) step =>
    let (c, callers) := s.callers.enter name
    runAll c [step] { s with callers }
  | .leave name steps =>
    match s.callers.leave? name with
    | none => ([(some (.failed .noCaller), s)], s)
    | some callers =>
      let (turns, s) := runAll .leaving steps { s with callers }
      (turns ++ [(none, s)], s)

def execute : List Command → Store String → List Turn × Store String
  | [], s => ([], s)
  | command :: commands, s =>
    let (turns, s) := command.execute s
    let (more, s) := execute commands s
    (turns ++ more, s)

end Manual

mutual

/-- The same step by hand, with all that is nested in it. -/
def Step.byHand : Step → Manual
  | .act a =>
    match h : a.handling? with
    | none => .act a h
    | some x => .hand x
  | .acquireWith pool direct steps creation => .acquireWith pool direct (byHandAll steps) creation
  | .leaseWith pool guard steps creation => .takeWith pool guard (byHandAll steps) creation
  | .warmup pool count value at? steps panics =>
    .warmup pool count value at? (byHandAll steps) panics

def byHandAll : List Step → List Manual
  | [] => []
  | step :: steps => step.byHand :: byHandAll steps

end

def Command.byHand : Command → Manual.Command
  | .run caller? step => .run caller? step.byHand
  | .leave caller steps => .leave caller (byHandAll steps)

end Program

end ResourcePool
