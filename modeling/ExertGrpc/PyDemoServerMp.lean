import Mathlib.Logic.Function.Basic
import ExertGrpc.ReusePort
import ExertGrpc.TransitionRun

/-! # `pydemo_server_mp`

The main process takes a free port in `get_port` and keeps a socket on it, which never
listens, while it starts a worker for every processor and waits for them to end.  Each worker
binds the same port for its server, and so do, or try to, other programs at any time.

The socket of the main process is there for the time between the choice of the port and the
binds of the workers: nobody else can take the port, and no worker finds it taken.  An
exception in the main process, such as `KeyboardInterrupt`, closes it in that process.
Whether this gives up the port too early depends on the start method of `multiprocessing`:
with `fork` the workers have inherited the socket, and it is bound until the last of them
ends.
-/
namespace ExertGrpc
open TransitionRun ReusePort

/-- The sockets of the program, and those of others. -/
inductive MpSocket (n : Nat) where
  | main
  | worker (i : Fin n)
  | other (k : Nat)
deriving DecidableEq, Repr

inductive MpAddress where
  | localhost
  | other (k : Nat)
deriving DecidableEq, Repr

/-- Where the main process is: before `get_port`, in the `with` block with so many workers
started, or past it. -/
inductive MpMain where
  | start
  | within (port started : Nat)
  | left (port : Nat) (threw : Bool)
deriving DecidableEq, Repr

/-- The port the main process has chosen. -/
def MpMain.port : MpMain → Option Nat
  | .start => none
  | .within port _ => some port
  | .left port _ => some port

/-- How many workers it has started, as long as it may start more. -/
def MpMain.started : MpMain → Option Nat
  | .start => some 0
  | .within _ started => some started
  | .left _ _ => none

def MpMain.isWithin : MpMain → Bool
  | .within _ _ => true
  | _ => false

/-- Where a worker is: not started, before `add_insecure_port` of the port in its
`bind_address`, serving on it, ended by an interrupt, or in an exception of its bind. -/
inductive MpWorker where
  | waiting
  | started (port : Nat)
  | serving (port : Nat)
  | stopped
  | threw
deriving DecidableEq, Repr

/-- The port in the `bind_address` of a worker that is there. -/
def MpWorker.port : MpWorker → Option Nat
  | .started port | .serving port => some port
  | _ => none

/-- The process is there. -/
def MpWorker.alive (p : MpWorker) : Bool := p.port.isSome

abbrev MpSockets (n : Nat) := Table (MpSocket n) MpAddress

/-- The program with `n` processors, and the sockets that are bound. -/
structure MpServer (n : Nat) where
  sockets : MpSockets n
  main : MpMain
  worker : Fin n → MpWorker

inductive MpStep (n : Nat) where
  | getPort (port : Nat)
  | startWorker
  | join
  | interruptMain
  | addInsecurePort (i : Fin n)
  | interruptWorker (i : Fin n)
  | otherBind (k uid : Nat) (reuse : Bool) (address : Option MpAddress) (port : Nat)
  | otherClose (k : Nat)
deriving DecidableEq, Repr

namespace MpServer
variable {n : Nat} (fork : Bool) (uid : Nat)

/-- The socket of `get_port`. -/
def mainSocket (port : Nat) : Socket (MpSocket n) MpAddress :=
  { id := .main, uid := uid, reuse := true, address := none, port := port }

/-- The socket that `add_insecure_port` binds, with `grpc.so_reuseport`. -/
def workerSocket (i : Fin n) (port : Nat) : Socket (MpSocket n) MpAddress :=
  { id := .worker i, uid := uid, reuse := true, address := some .localhost, port := port }

/-- Before the program starts. -/
def initial (others : MpSockets n) : MpServer n where
  sockets := others
  main := .start
  worker _ := .waiting

/-- Move a worker. -/
def move (s : MpServer n) (i : Fin n) (p : MpWorker) : MpServer n :=
  { s with worker := Function.update s.worker i p }

/-- No worker is there. -/
def Idle (s : MpServer n) : Prop := ∀ i, (s.worker i).alive = false

instance (s : MpServer n) : Decidable s.Idle := inferInstanceAs (Decidable (∀ _, _))

/-- A worker is past its end. -/
def Ended (s : MpServer n) (i : Fin n) : Prop := s.worker i = .stopped ∨ s.worker i = .threw

instance (s : MpServer n) (i : Fin n) : Decidable (s.Ended i) := inferInstanceAs (Decidable (_ ∨ _))

/-- Some process has the socket of `get_port`. -/
def Held (s : MpServer n) : Prop := s.main.isWithin = true ∨ fork = true ∧ ¬s.Idle

instance (s : MpServer n) : Decidable (s.Held fork) := inferInstanceAs (Decidable (_ ∨ _))

/-- When no process has it any more, it is closed. -/
def release (s : MpServer n) : MpServer n :=
  if s.Held fork then s else { s with sockets := s.sockets.close .main }

/-- Leave the `with` block, the end of which closes the socket in this process. -/
def leave (s : MpServer n) (port : Nat) (threw : Bool) : MpServer n :=
  release fork { s with main := .left port threw }

/-- One step, of the main process, a worker or another program.  With `fork` a worker has
the socket of the main process. -/
def step (s : MpServer n) : MpStep n → Option (MpServer n)
  | .getPort port =>
    -- a bind to port 0 gets one that nobody has
    if s.main = .start ∧ ∀ t ∈ s.sockets, t.port ≠ port then
      (s.sockets.bind (mainSocket uid port)).map fun sockets =>
        { s with sockets := sockets, main := .within port 0 }
    else none
  | .startWorker =>
    match s.main with
    | .within port started =>
      if h : started < n then
        some ({ s with main := .within port (started + 1) }.move ⟨started, h⟩ (.started port))
      else none
    | _ => none
  | .join =>
    match s.main with
    | .within port started =>
      if started = n ∧ ∀ i, s.Ended i then some (s.leave fork port false) else none
    | _ => none
  | .interruptMain =>
    match s.main with
    | .within port _ => some (s.leave fork port true)
    | _ => none
  | .addInsecurePort i =>
    match s.worker i with
    | .started port =>
      match s.sockets.bind (workerSocket uid i port) with
      | some sockets => some ({ s with sockets := sockets }.move i (.serving port))
      | none => some ((s.move i .threw).release fork)
    | _ => none
  | .interruptWorker i =>
    match s.worker i with
    | .started _ => some ((s.move i .stopped).release fork)
    | .serving _ =>
      some (({ s with sockets := s.sockets.close (.worker i) }.move i .stopped).release fork)
    | _ => none
  | .otherBind k uid' reuse address port =>
    (s.sockets.bind { id := .other k, uid := uid', reuse := reuse, address := address,
                      port := port }).map fun sockets => { s with sockets := sockets }
  | .otherClose k => some { s with sockets := s.sockets.close (.other k) }

/-! ## What every step keeps -/

/-- What holds while a process that ends may not have given back its sockets. -/
structure Loose (s : MpServer n) : Prop where
  sound : s.sockets.Sound
  /-- As long as a process has the socket of `get_port`, the port is reserved. -/
  reserved : s.Held fork → ∀ port, s.main.port = some port → mainSocket uid port ∈ s.sockets
  serving : ∀ i port, s.worker i = .serving port → workerSocket uid i port ∈ s.sockets
  /-- A worker has a socket only while it serves. -/
  bound : ∀ t ∈ s.sockets, ∀ i, t.id = .worker i → ∃ port, s.worker i = .serving port
  port : ∀ i port, (s.worker i).port = some port → s.main.port = some port
  waiting : ∀ started, s.main.started = some started → ∀ i : Fin n, started ≤ i →
    s.worker i = .waiting
  threw : ∀ i, s.worker i = .threw → fork = false ∧ ∃ port, s.main = .left port true
  joined : ∀ port, s.main = .left port false → ∀ i, s.worker i = .stopped

/-- The invariant of the program. -/
structure Keeps (s : MpServer n) : Prop extends Loose fork uid s where
  held : ∀ t ∈ s.sockets, t.id = .main → s.Held fork

section Step
variable {fork} {uid} {s t : MpServer n} {i j : Fin n} {p q : MpWorker} {port : Nat}

@[simp] theorem move_self : (s.move i p).worker i = p := Function.update_self ..

theorem move_of_ne (h : j ≠ i) : (s.move i p).worker j = s.worker j := Function.update_of_ne h ..

end Step

/-! ## Runs -/

end MpServer
end ExertGrpc
