import WebPlayer.Core.Lts
import WebPlayer.L4App.DecodeWorker

/-!
# The bridge to the worker (`js/decoder/WorkerBridge.ts`)

The page and the worker exchange messages. `init` asks for a decoder once and
keeps the promise of the answer; the other calls wait for it before they post
anything. One step is a call of the page, a reaction of a promise, a timer, a
message that is taken at either end, the end of a module's loading, or a tick
of the statistics, in any order.

What the model adds to the fields: the promises, numbered, what is under way,
and a record of what was accepted, handled and seen, and of what each loading
came to.

**The browser.**
* A message between page and worker is taken once, in the order of posting;
  behind `terminate` none is.
* Reactions of one promise run in the order they were attached: calls that
  wait for it go on in the order they were made.
* The worker's script loads, and nothing in it is left uncaught
  (`handleWorkerError` is never called).
-/
namespace WebPlayer.L4.Worker
open WebPlayer.Core

inductive PromiseState where
  | pending | resolved | rejected
  deriving DecidableEq, Repr

/-- With the four callbacks of `StreamInstance.initDecoder`, which `destroy`
clears. -/
structure WorkerBridge (M D F A S : Type) where
  /-- `this.worker` is not null. -/
  worker : Bool := true
  initPromise : Option Nat := none
  callbacks : Bool := true
  promises : Nat → PromiseState := fun _ => .pending
  made : Nat := 0
  /-- The message handlers of `init` that are attached. -/
  messageHandlers : List Nat := []
  timeouts : List Nat := []
  /-- Calls that await a promise. -/
  awaiting : List (Nat × Op) := []
  /-- Timers of `destroy`. -/
  terminations : Nat := 0
  toWorker : List Request := []
  toPage : List (Response F A S) := []
  thread : DecodeWorker D
  -- the record
  accepted : List Op := []
  handled : List Request := []
  seen : List (Response F A S) := []
  delivered : List (Response F A S) := []
  /-- What each loading came to. -/
  loads : List (DecoderConfig × Except String M) := []

/-- `load k ret`: the module is there that the `k`th suspended `handleInit`
waits for, or it failed to load. -/
inductive Event (M : Type) where
  | init (config : DecoderConfig)
  | call (op : Op)
  | destroy
  | resume (i : Nat)
  | timeout (p : Nat)
  | terminate
  | receive
  | handle
  | load (k : Nat) (ret : Except String M)
  | interval

variable {M D F A S : Type}

namespace WorkerBridge

section
variable (s : WorkerBridge M D F A S)

/-- `resolve` and `reject`: only the first has an effect. -/
def settle (p : Nat) (st : PromiseState) : WorkerBridge M D F A S :=
  { s with promises := fun q => if q = p ∧ s.promises p = .pending then st else s.promises q }

/-- mirrors js/decoder/WorkerBridge.ts:34-70 -/
def init (config : DecoderConfig) : WorkerBridge M D F A S :=
  match s.initPromise with
  | some _ => s
  | none =>
    let s := { s with initPromise := some s.made, made := s.made + 1 }
    if s.worker then
      { s with timeouts := s.timeouts ++ [s.made - 1]
               messageHandlers := s.messageHandlers ++ [s.made - 1]
               toWorker := s.toWorker ++ [.init config] }
    else s.settle (s.made - 1) .rejected

/-- Up to the `await`; a call without a worker or a promise throws.
mirrors js/decoder/WorkerBridge.ts:72-120 -/
def call (op : Op) : WorkerBridge M D F A S :=
  if s.worker then
    match s.initPromise with
    | none => s
    | some p => { s with awaiting := s.awaiting ++ [(p, op)], accepted := s.accepted ++ [op] }
  else s

/-- Behind it. -/
def resume (i : Nat) : Option (WorkerBridge M D F A S) :=
  match s.awaiting[i]? with
  | none => none
  | some (p, op) =>
    if s.promises p = .pending ∨ p ∈ (s.awaiting.take i).map (·.1) then none
    else
      let s := { s with awaiting := s.awaiting.eraseIdx i }
      some (if s.promises p = .resolved ∧ s.worker = true then { s with toWorker := s.toWorker ++ [.op op] } else s)

/-- mirrors js/decoder/WorkerBridge.ts:122-140 -/
def destroy : WorkerBridge M D F A S :=
  let s := { s with initPromise := none, callbacks := false }
  if s.worker then { s with toWorker := s.toWorker ++ [.destroy], terminations := s.terminations + 1 } else s

/-- The timer of `destroy`. What is under way is lost.
mirrors js/decoder/WorkerBridge.ts:127-132 -/
def terminate : WorkerBridge M D F A S :=
  { s with terminations := s.terminations - 1, worker := false, toWorker := [], toPage := [] }

/-- There is a callback for it. -/
def handleWorkerMessage (r : Response F A S) : WorkerBridge M D F A S :=
  let s := { s with seen := s.seen ++ [r] }
  match r with
  | .ready | .destroyed => s
  | _ => if s.callbacks then { s with delivered := s.delivered ++ [r] } else s

/-- The message handlers of `init`, which run behind `onmessage`.
mirrors js/decoder/WorkerBridge.ts:49-61 -/
def settleAll (st : PromiseState) : WorkerBridge M D F A S :=
  { s with promises := fun q => if q ∈ s.messageHandlers ∧ s.promises q = .pending then st else s.promises q
           timeouts := s.timeouts.filter (· ∉ s.messageHandlers)
           messageHandlers := [] }

def onmessage (r : Response F A S) : WorkerBridge M D F A S :=
  match r with
  | .ready => (s.handleWorkerMessage r).settleAll .resolved
  | .error _ => (s.handleWorkerMessage r).settleAll .rejected
  | _ => s.handleWorkerMessage r

end

/-- One step. -/
def step (W : Wrapper M D F A S) (s : WorkerBridge M D F A S) : Event M → Option (WorkerBridge M D F A S)
  | .init config => some (s.init config)
  | .call op => some (s.call op)
  | .destroy => some s.destroy
  | .resume i => s.resume i
  | .timeout p => if p ∈ s.timeouts then some ({ s with timeouts := s.timeouts.erase p }.settle p .rejected) else none
  | .terminate => if s.terminations = 0 then none else some s.terminate
  | .receive =>
    match s.toPage with
    | [] => none
    | r :: rest => some ({ s with toPage := rest }.onmessage r)
  | .handle =>
    match s.toWorker with
    | [] => none
    | request :: rest =>
      let r := s.thread.onmessage W request
      some { s with toWorker := rest, toPage := s.toPage ++ r.1, thread := r.2, handled := s.handled ++ [request] }
  | .load k ret =>
    match s.thread.loading[k]? with
    | none => none
    | some (i, config) =>
      if s.worker = true then
        let r := s.thread.resumeInit W k i config ret
        some { s with toPage := s.toPage ++ r.1, thread := r.2, loads := s.loads ++ [(config, ret)] }
      else none
  | .interval =>
    if s.worker = true ∧ s.thread.statsInterval = true then some { s with toPage := s.toPage ++ s.thread.onInterval W }
    else none

/-- As `StreamInstance.initDecoder` sets it up. -/
def start (W : Wrapper M D F A S) : WorkerBridge M D F A S := { thread := .start W }

end WorkerBridge

def bridge (W : Wrapper M D F A S) : Lts (WorkerBridge M D F A S) (Event M) := .ofFn (· = .start W) (WorkerBridge.step W)

end WebPlayer.L4.Worker
