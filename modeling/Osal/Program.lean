/-!
# Programs as data

A thread inside an operation stands at a point of its program. A step is atomic: it takes the shared
state and the point to their successors, or is impossible for now, and then the thread is blocked.
Other threads may step in between, so a program's points are as many as the places where they can.
-/

namespace Osal

/-- Where a step leads: to another point of the program, or to its end. -/
inductive Next (π ω : Type) where
  | goto (point : π)
  | done (outcome : ω)
  deriving DecidableEq

/-- The same step in a larger program. -/
def Next.map {π ω ρ υ : Type} (f : π → ρ) (g : ω → υ) : Next π ω → Next ρ υ
  | .goto p => .goto (f p)
  | .done o => .done (g o)

/-- The steps of a program with shared state `σ`, points `π` and outcomes `ω`. -/
abbrev Program (σ π ω : Type) := σ → π → Option (σ × Next π ω)

/-- How far a thread got: to the end of its program, or to a point where it is blocked. -/
inductive Progress (π ω : Type) where
  | finished (outcome : ω)
  | stalled (point : π)
  deriving DecidableEq

namespace Program

variable {σ π ω : Type}

/-- Let one thread alone take steps until it finishes, is blocked or has taken a number of them. -/
def run (step : Program σ π ω) : Nat → σ → π → σ × Progress π ω
  | 0, s, p => (s, .stalled p)
  | fuel + 1, s, p =>
    match step s p with
    | none => (s, .stalled p)
    | some (s, .goto p) => run step fuel s p
    | some (s, .done o) => (s, .finished o)

end Program

end Osal
