/-
The lock dependency checker of `synchronization/utils.cc`.

Every entry point takes `lockdep_mutex` for its whole body, so each one is a
function from the static tables to an outcome. The tables keep the source's
layout: packed bits for the free identifiers and for the dependency matrix, a
parallel matrix of backtraces, and maps from names to identifiers and back.
The matrices have no bounds here: the registry hands out identifiers below `MAX_LOCKS`,
and with others the source leaves its arrays.
Log output is left out; the insertions that the log statements make through
`operator[]` are kept, because they write to `id_to_name_map`.
-/

import Mathlib.Data.Nat.Basic
import BlueThread.Foundation.OrderedMap
import BlueThread.Foundation.PackedBits

namespace BlueThread.Lockdep

open PackedBits

def maxLocks : Nat := 4096

/-- A `std::string` is a sequence of bytes and may hold NUL. -/
abbrev Name := List UInt8

/-- The key that `name.c_str()` denotes: everything before the first NUL. -/
def cStr (name : Name) : Name := name.takeWhile (· ≠ 0)

abbrev Tid := Nat

/-- What `new BackTrace(skip)` captured. -/
structure BackTrace where
  skip : Nat
  strings : List Name
deriving DecidableEq

/-- The static tables. An identifier that is `-1` in the source is `none`, and
so is a null backtrace pointer. -/
structure Tables where
  lockIdsBitmap : Row
  lockIdsBitmapInitialized : Bool
  lastFreeLockId : Option Nat
  nameToId : Name → Option Nat
  idToName : Nat → Option Name
  lockRef : Nat → Option Int
  heldLocks : Tid → OrderedMap Nat BackTrace
  lockTree : Nat → Row
  lockTreeBacktrace : Nat → Nat → Option BackTrace
  currentMaxId : Nat

/-- Static storage before the first call. -/
def Tables.initial : Tables :=
  { lockIdsBitmap := fun _ => 0#8
    lockIdsBitmapInitialized := false
    lastFreeLockId := none
    nameToId := fun _ => none
    idToName := fun _ => none
    lockRef := fun _ => none
    heldLocks := fun _ => OrderedMap.empty
    lockTree := fun _ _ => 0#8
    lockTreeBacktrace := fun _ _ => none
    currentMaxId := 0 }

/-- How a call on the tables ends. A recursion of `does_follow` that never
returns keeps `lockdep_mutex` for good and is an outcome of its own. -/
inductive Outcome (α : Type)
  | returned (tables : Tables) (value : α)
  | threw (tables : Tables)
  | aborted
  | diverged

/-! ### Identifiers -/

def initLockIdsBitmap (tables : Tables) : Tables :=
  if tables.lockIdsBitmapInitialized then tables
  else
    { tables with
      lockIdsBitmap := fun _ => 255#8
      lockIdsBitmapInitialized := true }

def takeId (tables : Tables) (id : Nat) : Tables :=
  { tables with lockIdsBitmap := clearBit tables.lockIdsBitmap id }

def firstFreeId (bitmap : Row) : Option Nat :=
  (List.range (maxLocks / 8)).findSome? fun byte =>
    ((List.range 8).find? fun bit => testBit bitmap (byte * 8 + bit)).map (byte * 8 + ·)

def scanFreeId (tables : Tables) : Tables × Option Nat :=
  match firstFreeId tables.lockIdsBitmap with
  | some id => (takeId tables id, some id)
  | none => (tables, none)

def lockdepGetFreeId (tables : Tables) : Tables × Option Nat :=
  let tables := initLockIdsBitmap tables
  match tables.lastFreeLockId with
  | some last =>
      if testBit tables.lockIdsBitmap last then
        (takeId { tables with lastFreeLockId := none } last, some last)
      else scanFreeId tables
  | none => scanFreeId tables

/-- `lock_ref[id]++`, where a missing count starts from zero. -/
def addReference (tables : Tables) (id : Nat) : Tables :=
  { tables with
    lockRef := Function.update tables.lockRef id
      (some ((tables.lockRef id).getD 0 + 1)) }

/-- The writes of `_lockdep_register` after a free identifier was found. -/
def recordName (tables : Tables) (name : Name) (id : Nat) : Tables :=
  { tables with
    currentMaxId := if tables.currentMaxId ≤ id then id + 1 else tables.currentMaxId
    nameToId := Function.update tables.nameToId name (some id)
    idToName := Function.update tables.idToName id (some name) }

/-- `_lockdep_register`. The lookup key is the C string of the name, the
inserted key is the whole name. -/
def lockdepRegisterHeld (tables : Tables) (name : Name) : Tables × Option Nat :=
  match tables.nameToId (cStr name) with
  | some id => (addReference tables id, some id)
  | none =>
      match lockdepGetFreeId tables with
      | (tables, none) => (tables, none)
      | (tables, some id) => (addReference (recordName tables name id) id, some id)

def lockdepRegister (tables : Tables) (name : Name) : Outcome Nat :=
  match lockdepRegisterHeld tables name with
  | (tables, some id) => .returned tables id
  | (tables, none) => .threw tables

/-! ### Following dependencies -/

/-- `id_to_name_map[id]` in a log statement inserts an empty name when there is
none. -/
def touchName (tables : Tables) (id : Nat) : Tables :=
  match tables.idToName id with
  | some _ => tables
  | none => { tables with idToName := Function.update tables.idToName id (some []) }

/-- The bit `lock_tree[left][right / 8] & (1 << (right % 8))`. -/
def follows (tables : Tables) (left right : Nat) : Bool :=
  testBit (tables.lockTree left) right

/-- The loop of `does_follow` over the identifiers still to be tried, with the
recursive call as a parameter. -/
def followLoop (recurse : Tables → Nat → Option (Tables × Bool)) (left right : Nat) :
    List Nat → Tables → Option (Tables × Bool)
  | [], tables => some (tables, false)
  | middle :: rest, tables =>
      if follows tables left middle then
        match recurse tables middle with
        | none => none
        | some (tables, true) =>
            some (touchName (touchName (touchName tables left) middle) right, true)
        | some (tables, false) => followLoop recurse left right rest tables
      else followLoop recurse left right rest tables

/-- `does_follow`, cut off at a recursion depth: `none` means that the depth did
not suffice. -/
def doesFollow : Nat → Tables → Nat → Nat → Option (Tables × Bool)
  | 0, _, _, _ => none
  | depth + 1, tables, left, right =>
      if follows tables left right then
        some (touchName (touchName tables left) right, true)
      else
        followLoop (fun tables middle => doesFollow depth tables middle right) left right
          (List.range tables.currentMaxId) tables

/-- A recursion deeper than the number of identifiers has met one of them twice
and never returns. -/
def followDepth : Nat := maxLocks + 1

/-! ### Locking and unlocking -/

/-- Sets the bit and stores the backtrace of a new dependency; the log statement
then looks up both names. -/
def addDependency (tables : Tables) (held id : Nat) (trace : BackTrace) : Tables :=
  let tables :=
    { tables with
      lockTree := Function.update tables.lockTree held (setBit (tables.lockTree held) id)
      lockTreeBacktrace := fun left right =>
        if left = held ∧ right = id then some trace else tables.lockTreeBacktrace left right }
  touchName (touchName tables held) id

/-- The loop of `lockdep_will_lock` over the entries of the thread's held map. -/
def willLockLoop (id : Nat) (trace : BackTrace) :
    List (Nat × BackTrace) → Tables → Outcome Nat
  | [], tables => .returned tables id
  | (held, _) :: rest, tables =>
      if held = id then .aborted
      else if follows tables held id then willLockLoop id trace rest tables
      else
        match doesFollow followDepth tables id held with
        | none => .diverged
        | some (_, true) => .aborted
        | some (tables, false) =>
            willLockLoop id trace rest (addDependency tables held id trace)

/-- The identifier to work with: a lock that has none yet is registered. -/
def ensureId (tables : Tables) (name : Name) : Option Nat → Outcome Nat
  | some id => .returned tables id
  | none => lockdepRegister tables name

def lockdepWillLock (tables : Tables) (tid : Tid) (name : Name) (id : Option Nat)
    (trace : BackTrace) : Outcome Nat :=
  match ensureId tables name id with
  | .returned tables id => willLockLoop id trace (tables.heldLocks tid).entries tables
  | other => other

def lockdepLocked (tables : Tables) (tid : Tid) (name : Name) (id : Option Nat)
    (trace : BackTrace) : Outcome Nat :=
  match ensureId tables name id with
  | .returned tables id =>
      .returned
        { tables with
          heldLocks := Function.update tables.heldLocks tid
            ((tables.heldLocks tid).assign id trace) } id
  | other => other

def lockdepWillUnlock (tables : Tables) (tid : Tid) : Option Nat → Tables
  | none => tables
  | some id =>
      { tables with
        heldLocks := Function.update tables.heldLocks tid ((tables.heldLocks tid).erase id) }

/-! ### Unregistration -/

/-- One round of the clearing loop of `lockdep_unregister`. -/
def clearPair (id other : Nat) (tables : Tables) : Tables :=
  { tables with
    lockTreeBacktrace := fun left right =>
      if (left = id ∧ right = other) ∨ (left = other ∧ right = id) then none
      else tables.lockTreeBacktrace left right
    lockTree := Function.update tables.lockTree other (clearBit (tables.lockTree other) id) }

def clearPairs (id : Nat) : Nat → Tables → Tables
  | 0, tables => tables
  | bound + 1, tables => clearPair id bound (clearPairs id bound tables)

def forgetLock (tables : Tables) (id : Nat) (name : Name) : Tables :=
  let cleared := clearPairs id tables.currentMaxId
    { tables with lockTree := Function.update tables.lockTree id (fun _ => 0#8) }
  { cleared with
    idToName := Function.update cleared.idToName id none
    nameToId := Function.update cleared.nameToId name none }

def releaseId (tables : Tables) (id : Nat) : Tables :=
  { tables with
    lockRef := Function.update tables.lockRef id none
    lockIdsBitmap := setBit tables.lockIdsBitmap id
    lastFreeLockId := some id }

def lockdepUnregister (tables : Tables) : Option Nat → Tables
  | none => tables
  | some id =>
      let remaining := (tables.lockRef id).getD 0 - 1
      if remaining = 0 then
        match tables.idToName id with
        | some name => releaseId (forgetLock tables id name) id
        | none => releaseId tables id
      else { tables with lockRef := Function.update tables.lockRef id (some remaining) }

end BlueThread.Lockdep
