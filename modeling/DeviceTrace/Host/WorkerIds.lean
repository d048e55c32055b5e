/-!
# Ids that name their worker

Every worker has a generator of ids. The high 16 bits of an id name the generator and the low 48
bits count its ids, both from 1 and both wrapping around.
-/

namespace DeviceTrace

structure IdGenerator where
  /-- The bits that all ids of the generator share. -/
  base : UInt64
  issued : UInt64 := 0
  deriving DecidableEq, Repr

/-- The number of generators made so far. -/
structure WorkerIds where
  workers : UInt64 := 0
  deriving DecidableEq, Repr

def countBits : UInt64 := 48

def WorkerIds.generator (w : WorkerIds) : IdGenerator × WorkerIds :=
  let worker := w.workers + 1
  ({ base := worker <<< countBits }, ⟨worker⟩)

def IdGenerator.draw (g : IdGenerator) : UInt64 × IdGenerator :=
  let issued := g.issued + 1
  (g.base ||| (issued &&& ((1 <<< countBits) - 1)), { g with issued })

/-- The next ids of a generator. -/
def IdGenerator.drawMany (g : IdGenerator) : Nat → List UInt64 × IdGenerator
  | 0 => ([], g)
  | n + 1 =>
    let (id, g) := g.draw
    let (ids, g) := g.drawMany n
    (id :: ids, g)

end DeviceTrace
