import Osal.Semaphore

/-!
# One take under any clock

An episode is one take and what happens around it: the taker goes on, the semaphore is given, a wake
reaches the taker's notification, or the clock answers the taker with whatever it likes. An event
that is impossible at its moment changes nothing. `TakeEpisode.run` plays a list of events, so a
statement about all lists is one about all clocks and all other threads.
-/

namespace Osal

/-- What can happen around a take. -/
inductive TakeEvent where
  /-- The taker takes a step, unless it is blocked. -/
  | step
  | give
  | wake (wake : Wakeup)
  /-- The clock answers the request that the taker awaits. -/
  | answer (result : CallResult NotificationId)

/-- A take, how far it got, and what it shares with others. -/
structure TakeEpisode where
  call : Take
  semaphore : Semaphore
  wakes : Wakes
  progress : Progress Take.Point Take.Outcome := .stalled .entering
  /-- The requests that were answered, in order. -/
  requests : List ClockRequest := []

namespace TakeEpisode

/-- Where a step of the taker leads. -/
def after : Take.Turn → Progress Take.Point Take.Outcome
  | .goto p => .stalled p
  | .done o => .finished o

def stepOn (e : TakeEpisode) (p : Take.Point) : TakeEpisode :=
  match e.call.step (e.semaphore, e.wakes) p with
  | none => e
  | some ((semaphore, wakes), turn) => { e with semaphore, wakes, progress := after turn }

def answerOn (e : TakeEpisode) (result : CallResult NotificationId) (p : Take.Point) :
    TakeEpisode :=
  match e.call.request? p with
  | none => e
  | some request =>
    let ((semaphore, wakes), turn) := e.call.answered e.semaphore e.wakes result p
    { e with semaphore, wakes, progress := after turn, requests := e.requests ++ [request] }

/-- The episode after an event. -/
def handle (e : TakeEpisode) : TakeEvent → TakeEpisode
  | .step =>
    match e.progress with
    | .stalled p => e.stepOn p
    | .finished _ => e
  | .answer result =>
    match e.progress with
    | .stalled p => e.answerOn result p
    | .finished _ => e
  | .give =>
    match e.semaphore.give e.wakes with
    | none => e
    | some (semaphore, wakes) => { e with semaphore, wakes }
  | .wake wake => { e with wakes := (e.wakes.signal e.call.wait wake).2 }

def run (e : TakeEpisode) (events : List TakeEvent) : TakeEpisode := events.foldl handle e

def end? (e : TakeEpisode) : Option Take.Outcome :=
  match e.progress with
  | .finished o => some o
  | .stalled _ => none

/-- Whether a wake is left on the taker's notification. -/
def isLeaked (e : TakeEpisode) : Bool := e.wakes.isPending e.call.wait

end TakeEpisode

end Osal
