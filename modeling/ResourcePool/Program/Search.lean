import ResourcePool.Store.Readings
import ResourcePool.Store.Tracking

/-! Searches with arguments of their own on a pool that is filled with numbers. -/
namespace ResourcePool.Program

inductive SearchStep where
  | search (index size : Nat)
  | acquire
  | remove (entry : EntryId)
  | release (entry : EntryId)

inductive SearchAnswer where
  | got (value? : Option Nat)
  | done (result : Except Fault Bool)

/-- An unbounded pool of the numbers below `n`; a search by turns begins at the given turn. -/
def numbered (n : Nat) (strategy : Strategy) (turn : UInt64) : PoolId × Store Nat :=
  let (p, s) := ({} : Store Nat).create "numbers" { maxEntries := 0, strategy } none
  let (_, s) := s.fill p n id
  (p, s.modifyPool p fun pool => { pool with turn := pool.turn.map fun _ => turn })

def SearchStep.perform (p : PoolId) (s : Store Nat) : SearchStep → SearchAnswer × Store Nat
  | .search index size =>
    let (e?, s) := s.search p .main index size
    (.got (e?.bind s.value?), s)
  | .acquire =>
    let (e?, s) := s.acquire p .main
    (.got (e?.bind s.value?), s)
  | .remove e => let (done, s) := s.remove p e; (.done (.ok done), s)
  | .release e => let (result, s) := s.release p .main e; (.done result, s)

def searchAll (p : PoolId) : List SearchStep → Store Nat → List SearchAnswer × Store Nat
  | [], s => ([], s)
  | step :: steps, s =>
    let (answer, s) := step.perform p s
    let (answers, s) := searchAll p steps s
    (answer :: answers, s)

end ResourcePool.Program
