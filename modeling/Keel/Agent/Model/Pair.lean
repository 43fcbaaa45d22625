import Keel.Agent.Model.Replication
/-!
# One loop and its standby

A replication loop and the one standby we look at, tick by tick: a tick
runs to its end, on both sides, before anything else happens. Between
ticks either agent may restart and the loop may be retargeted. What a
tick to another standby comes to is the outside's choice.
-/

namespace Keel

namespace Agent

/-- What goes well in a tick, and who the standby sees calling. -/
structure Faults where
  /-- `zfs snapshot` works. -/
  snapshots : Bool
  /-- The header reaches the standby. -/
  connects : Bool
  /-- The standby saves its target. -/
  saves : Bool
  /-- The acknowledgement reaches the loop. -/
  acks : Bool
  /-- `zfs send` and the writing of its stream succeed, for the loop. -/
  sends : Bool
  /-- The whole stream reaches the standby. -/
  arrives : Bool
  /-- `zfs receive` works. -/
  receives : Bool
  /-- The standby saves the snapshot it records. -/
  records : Bool
  /-- The previous base can be destroyed. -/
  prunes : Bool
  /-- What a tick to another standby comes to. -/
  elsewhere : SendOnce
  peerAddr : String

/-- What the standby makes of a stream that may have arrived: whether it
is received, and what it is left with. -/
def Listener.take (l : Listener) (f : Faults) (header : Header) (stream : SendStream) :
    Bool × Listener :=
  match l.receive f.receives header (if f.arrives then some stream else none) with
  | (true, l) => (true, l.record f.records header)
  | (false, l) => (false, l)

structure Pair where
  loop : ReplicationLoop
  /-- The primary's. -/
  zfs : FakeZfsManager
  replicateTo : Option String
  standbyAddr : String
  standby : Listener
  /-- Stamps from here on are unused. -/
  fresh : Stamp

/-- `send_once` against the standby, both sides of it: what the loop
reads, what it concludes, what the standby is left with. -/
def exchange (f : Faults) (loop : ReplicationLoop) (zfs : FakeZfsManager) (standby : Listener) :
    Option Ack × SendOnce × Listener :=
  if f.connects then
    match standby.answer f.saves loop.header f.peerAddr with
    | (none, standby) => (none, .io, standby)
    | (some ack, standby) =>
      if f.acks then
        match ack with
        | .needFull => (some .needFull, .needFull, standby)
        | .proceed =>
          match loop.stream zfs with
          | none => (some .proceed, .io, standby)
          | some stream =>
            (some .proceed, if f.sends then .ok else .io,
              (standby.take f loop.header stream).2)
      else (none, .io, standby)
  else (none, .io, standby)

namespace Pair

/-- One turn of the loop, and the acknowledgement it reads from the
standby, if it reads one. -/
def tick (p : Pair) (f : Faults) : Option Ack × Pair :=
  let loop := { p.loop with tick := p.loop.tick + 1 }
  match p.replicateTo with
  | none => (none, { p with loop })
  | some addr =>
    match loop.takeSnapshot f.snapshots p.fresh p.zfs with
    | (false, zfs) => (none, { p with loop, zfs })
    | (true, zfs) =>
      if addr = p.standbyAddr then
        let (ack, result, standby) := exchange f loop zfs p.standby
        let (loop, zfs) := loop.conclude f.prunes result zfs
        (ack, { p with loop, zfs, standby, fresh := p.fresh + 1 })
      else
        let (loop, zfs) := loop.conclude f.prunes f.elsewhere zfs
        (none, { p with loop, zfs, fresh := p.fresh + 1 })

end Pair

/-- What can happen to the two. -/
inductive Happening
  | tick (f : Faults)
  | restartPrimary
  | restartStandby
  | retarget (replicateTo : Option String)

namespace Pair

def step (p : Pair) : Happening → Pair
  | .tick f => (p.tick f).2
  | .restartPrimary => { p with loop := { p.loop with lastConfirmedSent := none, tick := 0 } }
  | .restartStandby => { p with standby := p.standby.restart }
  | .retarget replicateTo => { p with replicateTo }

def run (p : Pair) (hs : List Happening) : Pair := hs.foldl step p

end Pair

end Agent

end Keel
