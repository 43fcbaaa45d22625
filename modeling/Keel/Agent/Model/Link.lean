import Keel.Agent.Model.Replication
import Mathlib.Logic.Function.Basic
/-!
# A loop and its standbys, step by step

A replication loop and the listeners it talks to, with every step of
either side on its own: the loop opens a connection, reads an
acknowledgement, sends; a handler answers, receives, records. Steps of
the two sides interleave in any order. A connection may break, a step may
fail, an agent may restart and the loop may be retargeted at any time.
-/

namespace Keel

namespace Agent

/-- Where a connection's handler is in `handle_connection`. -/
inductive Handler
  | reading
  | receiving
  | recording
  | over
deriving DecidableEq

structure Conn where
  /-- The standby it is to. -/
  addr : String
  header : Header
  handler : Handler
  /-- The acknowledgement on its way to the loop. -/
  ack : Option Ack
  /-- What came after the header: nothing yet, or a stream cut short
  (`some none`), or a whole one. -/
  input : Option (Option SendStream)
deriving DecidableEq

/-- Where the loop is, and on which connection. -/
inductive Phase
  | idle
  | waiting (conn : ℕ)
  | sending (conn : ℕ)
deriving DecidableEq

structure Link where
  loop : ReplicationLoop
  /-- The primary's. -/
  zfs : FakeZfsManager
  replicateTo : Option String
  phase : Phase
  /-- Which standby the last confirmed snapshot was sent to: the loop does
  not keep it. -/
  confirmedBy : Option String
  standbys : String → Listener
  conns : ℕ → Conn
  /-- How many connections there have been. -/
  opened : ℕ
  /-- Stamps from here on are unused. -/
  fresh : Stamp

/-- One step of one side. A flag says whether what can fail does not. -/
inductive Label
  | tick (snapshots connects : Bool)
  /-- The handler of a connection reads its header and acknowledges it. -/
  | answer (conn : ℕ) (saves : Bool) (peerAddr : String)
  /-- The loop reads the acknowledgement. -/
  | readAck
  /-- The loop's connection breaks before it has read one. -/
  | abort
  /-- The loop runs `zfs send`: `sends` is what it sees, `arrives` what
  the handler gets. -/
  | send (sends arrives prunes : Bool)
  | receive (conn : ℕ) (works : Bool)
  | record (conn : ℕ) (saves : Bool)
  | restartSender
  | restartStandby (addr : String)
  | retarget (replicateTo : Option String)

namespace Link

def noConn : Conn := ⟨"", ⟨"", "", none⟩, .over, none, none⟩

/-- A loop just spawned, and standbys that have heard of no replica. -/
def spawn (replicaName volumeName pool : String) (zfs : FakeZfsManager)
    (replicateTo : Option String) (pools : String → String)
    (standbyZfs : String → FakeZfsManager) : Link where
  loop := .spawn replicaName volumeName pool
  zfs
  replicateTo
  phase := .idle
  confirmedBy := none
  standbys addr := ⟨pools addr, standbyZfs addr, .load ∅⟩
  conns _ := noConn
  opened := 0
  fresh := 0

variable (l : Link)

def setConn (i : ℕ) (c : Conn) : Link := { l with conns := Function.update l.conns i c }

/-- Nothing more is sent on a connection that nothing was sent on. -/
def cut (i : ℕ) : Link :=
  l.setConn i { l.conns i with input := (l.conns i).input.or (some none) }

/-- The loop has sent what it sends on a connection. -/
def sent (i : ℕ) (input : Option SendStream) : Link :=
  l.setConn i { l.conns i with input := some input }

/-- The handler of a connection has moved, and its standby with it. -/
def handled (i : ℕ) (handler : Handler) (ack : Option Ack) (standby : Listener) : Link :=
  { l with standbys := Function.update l.standbys (l.conns i).addr standby }.setConn i
    { l.conns i with handler, ack }

/-- The loop makes of `send_once` what it does. -/
def conclude (addr : String) (prunes : Bool) (result : SendOnce) : Link :=
  let (loop, zfs) := l.loop.conclude prunes result l.zfs
  { l with
    loop
    zfs
    phase := .idle
    confirmedBy :=
      match result with
      | .ok => some addr
      | .needFull => none
      | .io => l.confirmedBy }

/-- The loop has connected to the standby and sent its header. -/
def connected (loop : ReplicationLoop) (zfs : FakeZfsManager) (addr : String) : Link :=
  { l with
    loop
    zfs
    fresh := l.fresh + 1
    phase := .waiting l.opened
    conns := Function.update l.conns l.opened ⟨addr, loop.header, .reading, none, none⟩
    opened := l.opened + 1 }

def tick (snapshots connects : Bool) : Link :=
  let loop := { l.loop with tick := l.loop.tick + 1 }
  match l.replicateTo with
  | none => { l with loop }
  | some addr =>
    match loop.takeSnapshot snapshots l.fresh l.zfs with
    | (false, zfs) => { l with loop, zfs }
    | (true, zfs) =>
      if connects then l.connected loop zfs addr
      else { l with loop, zfs, fresh := l.fresh + 1 }

/-- The handler of connection `i`, up to its acknowledgement. -/
def answer (i : ℕ) (saves : Bool) (peerAddr : String) : Link :=
  let c := l.conns i
  match (l.standbys c.addr).answer saves c.header peerAddr with
  | (none, standby) => l.handled i .over c.ack standby
  | (some .needFull, standby) => l.handled i .over (some .needFull) standby
  | (some .proceed, standby) => l.handled i .receiving (some .proceed) standby

/-- `send_once` past the acknowledgement. -/
def send (i : ℕ) (sends arrives prunes : Bool) : Link :=
  let addr := (l.conns i).addr
  match l.loop.stream l.zfs with
  | none => (l.cut i).conclude addr prunes .io
  | some stream =>
    (l.sent i (if arrives then some stream else none)).conclude addr prunes
      (if sends then .ok else .io)

def receive (i : ℕ) (works : Bool) (input : Option SendStream) : Link :=
  let c := l.conns i
  match (l.standbys c.addr).receive works c.header input with
  | (true, standby) => l.handled i .recording c.ack standby
  | (false, standby) => l.handled i .over c.ack standby

def record (i : ℕ) (saves : Bool) : Link :=
  let c := l.conns i
  l.handled i .over c.ack ((l.standbys c.addr).record saves c.header)

/-- A step that is not there to be taken changes nothing. -/
def step : Label → Link
  | .tick snapshots connects =>
    match l.phase with
    | .idle => l.tick snapshots connects
    | _ => l
  | .answer i saves peerAddr =>
    match (l.conns i).handler with
    | .reading => l.answer i saves peerAddr
    | _ => l
  | .readAck =>
    match l.phase with
    | .waiting i =>
      match (l.conns i).ack with
      | some .needFull => l.conclude (l.conns i).addr false .needFull
      | some .proceed => { l with phase := .sending i }
      | none => l
    | _ => l
  | .abort =>
    match l.phase with
    | .waiting i => (l.cut i).conclude (l.conns i).addr false .io
    | _ => l
  | .send sends arrives prunes =>
    match l.phase with
    | .sending i => l.send i sends arrives prunes
    | _ => l
  | .receive i works =>
    match (l.conns i).handler, (l.conns i).input with
    | .receiving, some input => l.receive i works input
    | _, _ => l
  | .record i saves =>
    match (l.conns i).handler with
    | .recording => l.record i saves
    | _ => l
  | .restartSender =>
    let l :=
      match l.phase with
      | .idle => l
      | .waiting i | .sending i => l.cut i
    { l with
      loop := { l.loop with lastConfirmedSent := none, tick := 0 }
      phase := .idle
      confirmedBy := none }
  | .restartStandby addr =>
    { l with
      standbys := Function.update l.standbys addr (l.standbys addr).restart
      conns := fun i =>
        if (l.conns i).addr = addr then { l.conns i with handler := .over } else l.conns i }
  | .retarget replicateTo => { l with replicateTo }

def run (labels : List Label) : Link := labels.foldl step l

end Link

end Agent

end Keel
