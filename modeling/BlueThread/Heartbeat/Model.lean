/-
The heartbeat map of `heartbeat.h` and `heartbeat.cc`.

A handle has two deadlines, and the least time point in the place of a deadline
that is not armed. Every call reads the clock once. A check that finds the second
deadline over signals the thread of the handle and ends the process, which is an
error here, with the thread that gets the signal. Names and log output are left
out; a handle is known by its address.
-/

import BlueThread.Foundation.Instants
import BlueThread.Foundation.Runs

namespace BlueThread.Heartbeat

open Instants

structure Handle (ι : Type) where
  address : ι
  threadId : Nat
  timeout : Int64
  suicideTimeout : Int64
  grace : UInt64
  suicideGrace : UInt64
deriving DecidableEq

structure HeartbeatMap (ι : Type) where
  workers : List (Handle ι)
  unhealthyWorkers : Nat
  totalWorkers : Nat
deriving DecidableEq

variable {ι : Type}

def HeartbeatMap.initial : HeartbeatMap ι :=
  { workers := []
    unhealthyWorkers := 0
    totalWorkers := 0 }

/-- A deadline that is armed and over: `was != time::min() && was < now`. -/
def expired (was now : Int64) : Bool := was ≠ Int64.minValue && was < now

/-- What `_check` finds: whether the time-out is not reported, and the thread that
is killed. -/
structure Verdict where
  healthy : Bool
  kill : Option Nat
deriving DecidableEq

def check (handle : Handle ι) (now : Int64) : Verdict :=
  { healthy := !expired handle.timeout now
    kill := if expired handle.suicideTimeout now then some handle.threadId else none }

namespace Handle

/-- The constructor, and the fields that `add_worker` writes. -/
def new (address : ι) (threadId : Nat) : Handle ι :=
  { address := address
    threadId := threadId
    timeout := Int64.minValue
    suicideTimeout := Int64.minValue
    grace := 0
    suicideGrace := 0 }

/-- The stores of `reset_timeout`. -/
def arm (handle : Handle ι) (now : Int64) (grace suicideGrace : UInt64) : Handle ι :=
  { handle with
    timeout := plus now grace
    grace := grace
    suicideTimeout := if 0 < suicideGrace then plus now suicideGrace else Int64.minValue
    suicideGrace := suicideGrace }

/-- The stores of `clear_timeout`. -/
def disarm (handle : Handle ι) : Handle ι :=
  { handle with
    timeout := Int64.minValue
    suicideTimeout := Int64.minValue }

/-- A check, and then the stores of the call if the process goes on. -/
def checked (handle : Handle ι) (now : Int64) (after : Handle ι) :
    Except Nat (Handle ι) :=
  match (check handle now).kill with
  | some threadId => .error threadId
  | none => .ok after

/-- `reset_timeout` on a handle. -/
def resetTimeout (handle : Handle ι) (now : Int64) (grace suicideGrace : UInt64) :
    Except Nat (Handle ι) :=
  handle.checked now (handle.arm now grace suicideGrace)

/-- `clear_timeout` on a handle. -/
def clearTimeout (handle : Handle ι) (now : Int64) : Except Nat (Handle ι) :=
  handle.checked now handle.disarm

end Handle

/-- The loop of `is_healthy`: whether all were healthy, how many were not, and how
many there were. -/
def checkAll (now : Int64) :
    List (Handle ι) → Bool → Nat → Nat → Except Nat (Bool × Nat × Nat)
  | [], healthy, unhealthy, total => .ok (healthy, unhealthy, total)
  | handle :: rest, healthy, unhealthy, total =>
      match (check handle now).kill with
      | some threadId => .error threadId
      | none =>
          if (check handle now).healthy then checkAll now rest healthy unhealthy (total + 1)
          else checkAll now rest false (unhealthy + 1) (total + 1)

namespace HeartbeatMap

def addWorker (map : HeartbeatMap ι) (address : ι) (threadId : Nat) :
    HeartbeatMap ι :=
  { map with workers := Handle.new address threadId :: map.workers }

/-- `is_healthy`, with the map after it and the result. -/
def isHealthy (map : HeartbeatMap ι) (now : Int64) :
    Except Nat (HeartbeatMap ι × Bool) :=
  match checkAll now map.workers true 0 0 with
  | .error threadId => .error threadId
  | .ok (healthy, unhealthy, total) =>
      .ok ({ map with unhealthyWorkers := unhealthy, totalWorkers := total }, healthy)

variable [DecidableEq ι]

def removeWorker (map : HeartbeatMap ι) (address : ι) : HeartbeatMap ι :=
  { map with workers := map.workers.eraseP (·.address = address) }

def find? (map : HeartbeatMap ι) (address : ι) : Option (Handle ι) :=
  map.workers.find? (·.address = address)

def update (map : HeartbeatMap ι) (address : ι)
    (call : Handle ι → Except Nat (Handle ι)) :
    Option (Except Nat (HeartbeatMap ι)) :=
  (map.find? address).map fun handle =>
    match call handle with
    | .error threadId => .error threadId
    | .ok after =>
        .ok { map with workers := map.workers.map fun one =>
          if one.address = address then after else one }

end HeartbeatMap

/-! ### Calls -/

inductive Call (ι : Type)
  | addWorker (address : ι) (threadId : Nat)
  | removeWorker (address : ι)
  | resetTimeout (address : ι) (now : Int64) (grace suicideGrace : UInt64)
  | clearTimeout (address : ι) (now : Int64)
  | isHealthy (now : Int64)
deriving DecidableEq

variable [DecidableEq ι]

/-- A call on the map; `none` if it is given an address that it cannot have. A new
handle is where no other handle is. -/
def perform (map : HeartbeatMap ι) :
    Call ι → Option (Except Nat (HeartbeatMap ι))
  | .addWorker address threadId =>
      if (map.find? address).isNone then some (.ok (map.addWorker address threadId)) else none
  | .removeWorker address =>
      if (map.find? address).isSome then some (.ok (map.removeWorker address)) else none
  | .resetTimeout address now grace suicideGrace =>
      map.update address (·.resetTimeout now grace suicideGrace)
  | .clearTimeout address now => map.update address (·.clearTimeout now)
  | .isHealthy now => some ((map.isHealthy now).map Prod.fst)

/-- The process goes on after the calls that do not abort. -/
def system (ι : Type) [DecidableEq ι] :
    Runs.System (HeartbeatMap ι) (Call ι) where
  initial map := map = HeartbeatMap.initial
  step map call :=
    match perform map call with
    | some (.ok after) => some after
    | _ => none

end BlueThread.Heartbeat
