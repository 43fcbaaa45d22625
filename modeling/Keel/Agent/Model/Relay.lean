import Mathlib.Algebra.Group.Nat.Defs
import Mathlib.Data.List.Basic
/-!
# The relay of a service

What listens on a service's virtual address. One thread polls the listener
until it is told to stop; each connection it accepts is relayed by a
thread of its own, to one of the replicas. The threads share the replica
list, which a heartbeat swaps, and a counter. A step is one access to what
is shared, or one attempt to connect.
-/

namespace Keel

namespace Agent

/-- How a connection ended: no replica to relay it to, every attempt
failed, a socket that could not be cloned, or relayed to the end. -/
inductive RelayEnd (A : Type)
  | empty
  | failed (snapshot : List A) (start : ℕ)
  | cut (snapshot : List A) (start attempt : ℕ)
  | relayed (snapshot : List A) (start attempt : ℕ)

/-- How far `handle_connection` is with a connection. -/
inductive RelayPhase (A : Type)
  /-- The replica list is not read yet. -/
  | accepted
  /-- The counter is not read yet. -/
  | snapped (snapshot : List A)
  | trying (snapshot : List A) (start attempt : ℕ)
  | relaying (snapshot : List A) (start attempt : ℕ)
  | closed (e : RelayEnd A)

/-- How far `accept_loop` is: before the stop flag, past it, or returned. -/
inductive AcceptPhase
  | head
  | polling
  | returned
deriving DecidableEq

structure Relay (A : Type) where
  replicas : List A
  counter : ℕ
  stop : Bool
  loop : AcceptPhase
  /-- The connections accepted, in order. -/
  connections : List (RelayPhase A)

/-- What the outside decides of a step of a connection's thread: which
addresses a connection to succeeds, and whether the sockets are cloned. -/
structure Attempt (A : Type) where
  connects : A → Bool
  clones : Bool

inductive RelayLabel (A : Type)
  /-- A heartbeat has other replicas. -/
  | swap (replicas : List A)
  /-- The service is gone. -/
  | halt
  /-- The accept loop goes on; a connection is there, or none. -/
  | poll (incoming : Bool)
  /-- The thread of a connection goes on. -/
  | handle (i : ℕ) (x : Attempt A)

namespace Relay

variable {A : Type}

/-- A service is first proxied. -/
def new (replicas : List A) : Relay A := ⟨replicas, 0, false, .head, []⟩

/-- `2.min(snapshot.len())`. -/
def attempts (snapshot : List A) : ℕ := min 2 snapshot.length

/-- `(start + attempt) % snapshot.len()`, on 64 bits. -/
def position (snapshot : List A) (start attempt : ℕ) : ℕ :=
  (start + attempt) % 2 ^ 64 % snapshot.length

def target (snapshot : List A) (start attempt : ℕ) : Option A :=
  snapshot[position snapshot start attempt]?

variable (r : Relay A)

/-- What a thread does next, and what it leaves of the counter. -/
def handle (x : Attempt A) : RelayPhase A → RelayPhase A × ℕ
  | .accepted =>
    if r.replicas.isEmpty then (.closed .empty, r.counter) else (.snapped r.replicas, r.counter)
  | .snapped snapshot => (.trying snapshot r.counter 0, (r.counter + 1) % 2 ^ 64)
  | .trying snapshot start attempt =>
    if attempt < attempts snapshot then
      if (target snapshot start attempt).any x.connects then
        if x.clones then (.relaying snapshot start attempt, r.counter)
        else (.closed (.cut snapshot start attempt), r.counter)
      else (.trying snapshot start (attempt + 1), r.counter)
    else (.closed (.failed snapshot start), r.counter)
  | .relaying snapshot start attempt => (.closed (.relayed snapshot start attempt), r.counter)
  | .closed e => (.closed e, r.counter)

def step : RelayLabel A → Relay A
  | .swap replicas => { r with replicas }
  | .halt => { r with stop := true }
  | .poll incoming =>
    match r.loop with
    | .head => { r with loop := if r.stop then .returned else .polling }
    | .polling =>
      { r with
        loop := .head
        connections := if incoming then r.connections ++ [.accepted] else r.connections }
    | .returned => r
  | .handle i x =>
    match r.connections[i]? with
    | some phase =>
      let (phase, counter) := r.handle x phase
      { r with connections := r.connections.set i phase, counter }
    | none => r

def run (labels : List (RelayLabel A)) : Relay A := labels.foldl step r

end Relay

end Agent

end Keel
