import ResourcePool.Program.Action

/-!
Programs: commands run one after the other on a store, each by a caller. The creators of
`acquireWith` and the factories of `warmup` may run nested steps, to any depth.
-/
namespace ResourcePool.Program

inductive Step where
  | act (a : Action)
  /-- The creator runs the steps on the store and then answers `creation`. -/
  | acquireWith (pool : String) (direct : Bool) (steps : List Step) (creation : Creation String)
  | leaseWith (pool guard : String) (steps : List Step) (creation : Creation String)
  /-- The factory's call of number `at?` runs the steps first, and panics after them if it is to. -/
  | warmup (pool : String) (count : Nat) (value : Nat → String) (at? : Option Nat)
    (steps : List Step) (panics : Bool)

/-- A disposer that fails on the values marked for it. -/
def disposer (value : String) : Option String :=
  if value.startsWith "!" then some "dispose failed" else none

/-- The value of a factory's call: the one listed for it, and else the stem with the call's number. -/
def supply (values : List String) (stem : String) (call : Nat) : String :=
  values.getD call (stem ++ toString call)

/-- What a report shows of the store beside the answer. -/
structure View where
  listing : Bool := true
  log : Bool := false

/-- Reports an answer with what the view shows. Showing the log takes its lines. -/
def View.report (v : View) (answer : Answer) (inner? : Option (List Report)) (s : Store String) :
    Report × Store String :=
  let listing? := if v.listing then some s.listing else none
  if v.log then
    let (lines, s) := s.takeLog
    (.step answer inner? listing? (some lines), s)
  else (.step answer inner? listing? none, s)

def ofCreationError : CreationError → StepError
  | .refused reason => .refused reason
  | .fault f => .fault f
  | .panicked => .panicked

/-- Takes a handle on what `acquireWith` got. -/
def holdCreated (s : Store String) : Except CreationError (Option EntryId) → Answer × Store String
  | .ok e? => Action.obtained s e?
  | .error e => (.failed (ofCreationError e), s)

/-- Guards what `acquireWith` got. -/
def guardCreated (s : Store String) (p : PoolId) (c : CallerId) (name : String) :
    Except CreationError (Option EntryId) → Answer × Store String
  | .ok (some e) => (.got (some e) (s.value? e), s.putGuard c name { pool := p, entry := e })
  | .ok none => (.got none none, s)
  | .error e => (.failed (ofCreationError e), s)

mutual

def Step.run (v : View) (c : CallerId) : Step → Store String → Report × Store String
  | .act a, s =>
    let (answer, s) := a.perform c s
    v.report answer none s
  | .acquireWith name direct steps creation, s =>
    match s.find? name with
    | none => v.report (.failed .noPool) none s
    | some p =>
      let (result, inner, s) := s.trackedAcquireWith direct p c fun e s =>
        let (reports, s) := runAll v c steps (s.hold e)
        (creation, .reserved e :: reports, s)
      let (answer, s) := holdCreated s result
      v.report answer (some inner) s
  | .leaseWith name guard steps creation, s =>
    match s.find? name with
    | none => v.report (.failed .noPool) none s
    | some p =>
      if (s.pool p).tracker?.isSome then v.report (.failed (.badInput "pool")) (some []) s
      else
        let (result, inner, s) := s.acquireWith p c fun e s =>
          let (reports, s) := runAll v c steps (s.hold e)
          (creation, .reserved e :: reports, s)
        let (answer, s) := guardCreated s p c guard result
        v.report answer (some inner) s
  | .warmup name count value at? steps panics, s =>
    match s.find? name with
    | none => v.report (.failed .noPool) none s
    | some p =>
      let factory := fun n e s =>
        if at? = some n then
          let (reports, s) := runAll v c steps (s.hold e)
          (if panics then none else some (value n), .reserved e :: reports, s)
        else (some (value n), [], s)
      let (w, inner, s) := Store.warmup p factory count 0 s
      v.report (.warmed w) (if at?.isSome then some inner else none) s

def runAll (v : View) (c : CallerId) : List Step → Store String → List Report × Store String
  | [], s => ([], s)
  | step :: steps, s =>
    let (report, s) := step.run v c s
    let (reports, s) := runAll v c steps s
    (report :: reports, s)

end

/-- A command of a program: a step run by a caller, or a caller leaving. -/
inductive Command where
  | run (caller? : Option String) (step : Step)
  /-- The steps run while the caller leaves and has given its number back. -/
  | leave (caller : String) (steps : List Step)

def Command.execute (v : View) (s : Store String) : Command → Report × Store String
  | .run none step => step.run v .main s
  | .run (some name) step =>
    let (c, callers) := s.callers.enter name
    step.run v c { s with callers }
  | .leave name steps =>
    match s.callers.leave? name with
    | none => (.step (.failed .noCaller) none none none, s)
    | some callers =>
      let (reports, s) := runAll v .leaving steps { s with callers }
      (.left reports, s)

/-- Runs commands in order. -/
def execute (v : View) : List Command → Store String → List Report × Store String
  | [], s => ([], s)
  | command :: commands, s =>
    let (report, s) := command.execute v s
    let (reports, s) := execute v commands s
    (report :: reports, s)

end ResourcePool.Program
