/-
What `lockdep_will_lock` prints.

A deadlock is reported while the search for it returns: `does_follow` prints the last
dependency of the cycle first, and every level of the recursion adds the one that led
to it. The search has no memory, so it must not print on a branch that fails. The
backtraces of one call are all captured by the caller of it, and are one value here.
-/

import Mathlib.Data.List.Chain
import BlueThread.Lockdep.BackTrace
import BlueThread.Lockdep.Leaks

namespace BlueThread.Lockdep

open Relation BlueThread.Digraph

/-- The messages, each with what it names. A null backtrace is `none`. -/
inductive Message
  | registered (name : Name) (id : Nat)
  | registeredBefore (name : Name) (id : Nat)
  | willLock (name : Name) (id : Nat) (tid : Tid)
  | alreadyHeld (name : Name) (id : Nat) (tid : Tid) (now since : BackTrace)
  | direct (left right : Nat × Name) (trace : Option BackTrace)
  | through (left middle right : Nat × Name) (trace : Option BackTrace)
  | deadlock (held id : Nat × Name) (tid : Tid) (now : BackTrace)
      (holding : List ((Nat × Name) × BackTrace))
  | added (held id : Nat × Name)
deriving DecidableEq

namespace Message

def decimal (number : Nat) : Name := (Nat.toDigits 10 number).map Char.toUInt8

/-- An identifier and its name, between the brackets `【` and `】` of UTF-8. -/
def label (lock : Nat × Name) : Name :=
  [0xE3, 0x80, 0x90] ++ decimal lock.1 ++ ascii ": " ++ lock.2 ++ [0xE3, 0x80, 0x91]

def printed (cxaDemangle : CString → Option CString) : Option BackTrace → Name
  | some trace => trace.print cxaDemangle
  | none => []

/-- The text of a message. -/
def text (cxaDemangle : CString → Option CString) : Message → Name
  | .registered name id => ascii "Register lock: " ++ name ++ ascii " with id: " ++ decimal id ++
      ascii "\n"
  | .registeredBefore name id => ascii "Lock already registered: " ++ name ++ ascii " with id: " ++
      decimal id ++ ascii "\n"
  | .willLock name id tid => ascii "Lock: " ++ name ++ ascii " with id: " ++ decimal id ++
      ascii " will lock by thread: " ++ decimal tid ++ ascii "\n"
  | .alreadyHeld name id tid now since => ascii "\nLock: " ++ name ++ ascii " with id: " ++
      decimal id ++ ascii " is already held by thread: " ++ decimal tid ++ ascii "\n" ++
      now.print cxaDemangle ++ ascii "previously locked at: " ++ since.print cxaDemangle ++
      ascii "\n"
  | .direct left right trace => ascii "----------------------------\ndependency exists " ++
      label left ++ ascii " -> " ++ label right ++ ascii "\n" ++ printed cxaDemangle trace ++
      ascii "\n"
  | .through left middle right trace => ascii "intermediate dependency exists " ++ label left ++
      ascii " -> " ++ label middle ++ ascii " -> " ++ label right ++ ascii "\n" ++
      printed cxaDemangle trace ++ ascii "\n"
  | .deadlock held id tid now holding => ascii "new dependency " ++ label held ++ ascii " -> " ++
      label id ++ ascii " will cause deadlock (cycle detected)\n" ++ now.print cxaDemangle ++
      ascii "thread " ++ decimal tid ++ ascii " hold locks: \n" ++
      holding.flatMap fun entry =>
        label entry.1 ++ ascii "\n" ++ entry.2.print cxaDemangle ++ ascii "\n"
  | .added held id => ascii "new dependency " ++ label held ++ ascii " -> " ++ label id ++
      ascii "\n"

end Message

/-! ### The calls, with their messages -/

/-- `id_to_name_map[id]`, as it is printed. -/
def Tables.labelled (tables : Tables) (id : Nat) : Nat × Name := (id, (tables.idToName id).getD [])

namespace Tables

def direct (tables : Tables) (left right : Nat) : Message :=
  .direct (tables.labelled left) (tables.labelled right) (tables.lockTreeBacktrace left right)

def through (tables : Tables) (left middle right : Nat) : Message :=
  .through (tables.labelled left) (tables.labelled middle) (tables.labelled right)
    (tables.lockTreeBacktrace left middle)

def added (tables : Tables) (held id : Nat) : Message :=
  .added (tables.labelled held) (tables.labelled id)

def deadlock (tables : Tables) (held id : Nat) (tid : Tid) (now : BackTrace)
    (holding : List (Nat × BackTrace)) : Message :=
  .deadlock (tables.labelled held) (tables.labelled id) tid now
    (holding.map fun entry => (tables.labelled entry.1, entry.2))

end Tables

/-- The loop of `does_follow`. -/
def followLoopReport (recurse : Tables → Nat → Option (Tables × List Message × Bool))
    (left right : Nat) : List Nat → Tables → Option (Tables × List Message × Bool)
  | [], tables => some (tables, [], false)
  | middle :: rest, tables =>
      if follows tables left middle then
        match recurse tables middle with
        | none => none
        | some (tables, messages, true) =>
            let tables := touchName (touchName (touchName tables left) middle) right
            some (tables, messages ++ [tables.through left middle right], true)
        | some (tables, messages, false) =>
            (followLoopReport recurse left right rest tables).map fun later =>
              (later.1, messages ++ later.2.1, later.2.2)
      else followLoopReport recurse left right rest tables

def doesFollowReport : Nat → Tables → Nat → Nat → Option (Tables × List Message × Bool)
  | 0, _, _, _ => none
  | depth + 1, tables, left, right =>
      if follows tables left right then
        let tables := touchName (touchName tables left) right
        some (tables, [tables.direct left right], true)
      else
        followLoopReport (fun tables middle => doesFollowReport depth tables middle right)
          left right (List.range tables.currentMaxId) tables

structure Request where
  tid : Tid
  name : Name
  trace : BackTrace
  holding : List (Nat × BackTrace)

/-- The loop of `lockdep_will_lock`. -/
def willLockLoopReport (request : Request) (id : Nat) :
    List (Nat × BackTrace) → Tables → List Message × Outcome Nat
  | [], tables => ([], .returned tables id)
  | (held, since) :: rest, tables =>
      if held = id then
        ([.alreadyHeld request.name id request.tid request.trace since], .aborted)
      else if follows tables held id then willLockLoopReport request id rest tables
      else
        match doesFollowReport followDepth tables id held with
        | none => ([], .diverged)
        | some (tables, messages, true) =>
            (messages ++ [tables.deadlock held id request.tid request.trace request.holding],
              .aborted)
        | some (tables, messages, false) =>
            let tables := addDependency tables held id request.trace
            let later := willLockLoopReport request id rest tables
            (messages ++ tables.added held id :: later.1, later.2)

/-- The message of `_lockdep_register`, whose failure goes to the error output. -/
def registerReport (tables : Tables) (name : Name) (id : Nat) : Message :=
  match tables.nameToId (cStr name) with
  | some _ => .registeredBefore name id
  | none => .registered name id

def lockdepWillLockReport (tables : Tables) (tid : Tid) (name : Name) (id : Option Nat)
    (trace : BackTrace) : List Message × Outcome Nat :=
  let report (tables : Tables) (id : Nat) :=
    let holding := (tables.heldLocks tid).entries
    let later := willLockLoopReport ⟨tid, name, trace, holding⟩ id holding tables
    (Message.willLock name id tid :: later.1, later.2)
  match id with
  | some id => report tables id
  | none =>
      match lockdepRegisterHeld tables name with
      | (result, some id) =>
          (registerReport tables name id :: (report result id).1, (report result id).2)
      | (result, none) => ([], .threw result)

/-- What `lockdep_will_lock` writes to the standard output. -/
def lockdepWillLockOutput (cxaDemangle : CString → Option CString) (tables : Tables) (tid : Tid)
    (name : Name) (id : Option Nat) (trace : BackTrace) : Name :=
  (lockdepWillLockReport tables tid name id trace).1.flatMap (Message.text cxaDemangle)

/-! ### Printing changes nothing -/

theorem followLoopReport_answer {recurse : Tables → Nat → Option (Tables × Bool)}
    {report : Tables → Nat → Option (Tables × List Message × Bool)}
    (same : ∀ tables middle, (report tables middle).map (fun found => (found.1, found.2.2)) =
      recurse tables middle)
    (left right : Nat) (candidates : List Nat) (tables : Tables) :
    (followLoopReport report left right candidates tables).map
        (fun found => (found.1, found.2.2)) =
      followLoop recurse left right candidates tables := by
  induction candidates generalizing tables with
  | nil => rfl
  | cons middle rest ih =>
      rw [followLoopReport, followLoop]
      split_ifs with edge
      · rw [← same]
        cases report tables middle with
        | none => rfl
        | some found =>
            obtain ⟨result, messages, answer⟩ := found
            cases answer with
            | true => rfl
            | false =>
                dsimp only [Option.map_some]
                rw [← ih, Option.map_map]
                rfl
      · exact ih tables

theorem doesFollowReport_answer (depth : Nat) (tables : Tables) (left right : Nat) :
    (doesFollowReport depth tables left right).map (fun found => (found.1, found.2.2)) =
      doesFollow depth tables left right := by
  induction depth generalizing tables left with
  | zero => rfl
  | succ depth ih =>
      rw [doesFollowReport, doesFollow]
      split_ifs with edge
      · rfl
      · exact followLoopReport_answer (fun tables middle => ih tables middle) left right _ tables

theorem willLockLoopReport_outcome (request : Request) (id : Nat)
    (entries : List (Nat × BackTrace)) (tables : Tables) :
    (willLockLoopReport request id entries tables).2 =
      willLockLoop id request.trace entries tables := by
  induction entries generalizing tables with
  | nil => rfl
  | cons entry rest ih =>
      obtain ⟨held, since⟩ := entry
      rw [willLockLoopReport, willLockLoop, ← doesFollowReport_answer]
      split_ifs with same edge
      · rfl
      · exact ih tables
      · cases doesFollowReport followDepth tables id held with
        | none => rfl
        | some found =>
            obtain ⟨result, messages, answer⟩ := found
            cases answer with
            | true => rfl
            | false => exact ih _

/-! ### The reported path -/

/-- Names may have been inserted; none reads differently when it is printed. -/
structure Quiet (tables result : Tables) : Prop where
  renamed : Renamed tables result
  labels : ∀ id, result.labelled id = tables.labelled id

section Paths

variable {tables result : Tables}

theorem Quiet.refl (tables : Tables) : Quiet tables tables := ⟨.refl tables, fun _ => rfl⟩

theorem Quiet.touch (quiet : Quiet tables result) (id : Nat) :
    Quiet tables (touchName result id) := by
  refine ⟨quiet.renamed.touch id, ?_⟩
  intro other
  rw [← quiet.labels, touchName]
  cases named : result.idToName id with
  | some name => rfl
  | none =>
      unfold Tables.labelled
      dsimp only
      rw [Function.update_apply]
      split_ifs with same
      · rw [same, named]
        rfl
      · rfl

theorem Quiet.follows (quiet : Quiet tables result) : follows result = follows tables := by
  obtain ⟨names, rfl⟩ := quiet.renamed
  rfl

theorem Quiet.direct (quiet : Quiet tables result) (left right : Nat) :
    result.direct left right = tables.direct left right := by
  rw [Tables.direct, Tables.direct, quiet.labels, quiet.labels]
  obtain ⟨names, rfl⟩ := quiet.renamed
  rfl

theorem Quiet.through (quiet : Quiet tables result) (left middle right : Nat) :
    result.through left middle right = tables.through left middle right := by
  rw [Tables.through, Tables.through, quiet.labels, quiet.labels, quiet.labels]
  obtain ⟨names, rfl⟩ := quiet.renamed
  rfl

/-- The messages for a path from `left` to `right`: the last edge comes first. -/
def Tables.pathMessages (tables : Tables) (right : Nat) : Nat → List Nat → List Message
  | left, [] => [tables.direct left right]
  | left, middle :: rest =>
      tables.pathMessages right middle rest ++ [tables.through left middle right]

/-- What a search tells: nothing if it fails, a path of recorded dependencies if it
succeeds. -/
structure Reported (tables : Tables) (left right : Nat) (found : Tables × List Message × Bool) :
    Prop where
  quiet : Quiet tables found.1
  silent : found.2.2 = false → found.2.1 = []
  path : found.2.2 = true → ∃ middles,
    (left :: (middles ++ [right])).IsChain tables.Follows ∧
      found.2.1 = tables.pathMessages right left middles

theorem followLoopReport_reported
    {report : Tables → Nat → Option (Tables × List Message × Bool)} {left right : Nat}
    (inner : ∀ current middle found, Quiet tables current →
      report current middle = some found → Reported tables middle right found)
    {candidates : List Nat} {current : Tables} {found : Tables × List Message × Bool}
    (quiet : Quiet tables current)
    (run : followLoopReport report left right candidates current = some found) :
    Reported tables left right found := by
  induction candidates generalizing current found with
  | nil =>
      cases run
      exact ⟨quiet, fun _ => rfl, nofun⟩
  | cons middle rest ih =>
      rw [followLoopReport] at run
      split_ifs at run with edge
      · cases called : report current middle with
        | none =>
            rw [called] at run
            cases run
        | some outcome =>
            obtain ⟨following, messages, answer⟩ := outcome
            have told := inner current middle _ quiet called
            rw [called] at run
            cases answer with
            | true =>
                cases run
                have touched := ((told.quiet.touch left).touch middle).touch right
                obtain ⟨middles, chain, same⟩ := told.path rfl
                refine ⟨touched, nofun, fun _ => ⟨middle :: middles, ?_, ?_⟩⟩
                · rw [List.cons_append, List.isChain_cons_cons]
                  rw [quiet.follows] at edge
                  exact ⟨edge, chain⟩
                · dsimp only at same ⊢
                  rw [Tables.pathMessages, same, touched.through]
            | false =>
                obtain ⟨later, searched, rfl⟩ := Option.map_eq_some_iff.mp run
                have rest := ih told.quiet searched
                have nothing := told.silent rfl
                dsimp only at nothing
                rw [nothing]
                exact ⟨rest.quiet, rest.silent, rest.path⟩
      · exact ih quiet run

theorem doesFollowReport_reported {depth left right : Nat} {current : Tables}
    {found : Tables × List Message × Bool} (quiet : Quiet tables current)
    (run : doesFollowReport depth current left right = some found) :
    Reported tables left right found := by
  induction depth generalizing current left found with
  | zero => cases run
  | succ depth ih =>
      rw [doesFollowReport] at run
      split_ifs at run with edge
      · cases run
        have touched := (quiet.touch left).touch right
        refine ⟨touched, nofun, fun _ => ⟨[], ?_, ?_⟩⟩
        · rw [quiet.follows] at edge
          exact List.isChain_pair.mpr edge
        · dsimp only
          rw [Tables.pathMessages, touched.direct]
      · exact followLoopReport_reported (fun _ _ _ still called => ih still called) quiet run

end Paths

/-! ### The whole report -/

/-- A request that has recorded some dependencies, all of them into `id`. -/
structure Recording (tables now : Tables) (id : Nat) (done : List Nat) : Prop where
  extended : Extended tables now id done
  traces : ∀ left right, right ≠ id →
    now.lockTreeBacktrace left right = tables.lockTreeBacktrace left right

section Requests

variable {tables now : Tables} {id : Nat} {done : List Nat}

theorem Recording.labelled (recording : Recording tables now id done) :
    now.labelled = tables.labelled := by
  obtain ⟨tree, traces, rfl⟩ := recording.extended.only
  rfl

theorem Recording.direct (recording : Recording tables now id done) {left right : Nat}
    (elsewhere : right ≠ id) : now.direct left right = tables.direct left right := by
  rw [Tables.direct, Tables.direct, recording.labelled, recording.traces left right elsewhere]

theorem Recording.through (recording : Recording tables now id done) {left middle right : Nat}
    (elsewhere : middle ≠ id) :
    now.through left middle right = tables.through left middle right := by
  rw [Tables.through, Tables.through, recording.labelled, recording.traces left middle elsewhere]

theorem Recording.path (recording : Recording tables now id done) {held : Nat}
    {middles : List Nat} (chain : (id :: (middles ++ [held])).IsChain now.Follows) :
    (id :: (middles ++ [held])).IsChain tables.Follows ∧
      (id :: (middles ++ [held])).Nodup ∧
      now.pathMessages held id middles = tables.pathMessages held id middles := by
  have distinct := recording.extended.order.acyclic.nodup_of_isChain chain
  have elsewhere : ∀ node ∈ middles ++ [held], node ≠ id := by
    rintro node member rfl
    exact (List.nodup_cons.mp distinct).1 member
  refine ⟨?_, distinct, ?_⟩
  · refine chain.imp_of_mem_tail_imp ?_
    intro left right _ member edge
    rcases (recording.extended.edges left right).mp edge with old | ⟨atId, _⟩
    · exact old
    · exact absurd atId (elsewhere right member)
  · clear chain distinct
    generalize id = left
    induction middles generalizing left with
    | nil =>
        rw [Tables.pathMessages, Tables.pathMessages, recording.direct (elsewhere held (by simp))]
    | cons middle rest ih =>
        rw [Tables.pathMessages, Tables.pathMessages,
          recording.through (elsewhere middle (by simp)),
          ih (fun node member => elsewhere node (List.mem_cons_of_mem middle member))]

def Tables.newDependencies (tables : Tables) (id : Nat) (entries : List (Nat × BackTrace)) :
    List Message :=
  ((entries.map Prod.fst).filter fun held => !follows tables held id).map (tables.added · id)

/-- What is printed for the held locks of a thread, and how the request ends. The
dependencies are those recorded before the request. -/
inductive Verdict (tables : Tables) (request : Request) (id : Nat)
    (entries : List (Nat × BackTrace)) : List Message × Outcome Nat → Prop
  | granted (result : Tables) :
      Verdict tables request id entries (tables.newDependencies id entries, .returned result id)
  | relock (earlier later : List (Nat × BackTrace)) (since : BackTrace)
      (split : entries = earlier ++ (id, since) :: later) :
      Verdict tables request id entries
        (tables.newDependencies id earlier ++
          [.alreadyHeld request.name id request.tid request.trace since], .aborted)
  | cycle (earlier later : List (Nat × BackTrace)) (held : Nat) (since : BackTrace)
      (middles : List Nat) (split : entries = earlier ++ (held, since) :: later)
      (chain : (id :: (middles ++ [held])).IsChain tables.Follows)
      (distinct : (id :: (middles ++ [held])).Nodup) :
      Verdict tables request id entries
        (tables.newDependencies id earlier ++ (tables.pathMessages held id middles ++
          [tables.deadlock held id request.tid request.trace request.holding]), .aborted)

variable {request : Request} {entries rest : List (Nat × BackTrace)}

theorem newDependencies_cons (entry : Nat × BackTrace) :
    tables.newDependencies id (entry :: rest) =
      tables.newDependencies id [entry] ++ tables.newDependencies id rest := by
  unfold Tables.newDependencies
  rw [← List.map_append, ← List.filter_append, ← List.map_append]
  rfl

theorem Verdict.later {report : List Message × Outcome Nat} (entry : Nat × BackTrace)
    (verdict : Verdict tables request id rest report) :
    Verdict tables request id (entry :: rest)
      (tables.newDependencies id [entry] ++ report.1, report.2) := by
  cases verdict with
  | granted result =>
      rw [← newDependencies_cons]
      exact .granted result
  | relock earlier later since split =>
      rw [← List.append_assoc, ← newDependencies_cons]
      exact .relock (entry :: earlier) later since (by rw [split]; rfl)
  | cycle earlier later held since middles split chain distinct =>
      rw [← List.append_assoc, ← newDependencies_cons]
      exact .cycle (entry :: earlier) later held since middles (by rw [split]; rfl) chain distinct

theorem Recording.add (recording : Recording tables now id done) {held : Nat} (trace : BackTrace)
    (heldKnown : now.Registered held) (idKnown : now.Registered id) (different : held ≠ id)
    (noPath : ¬TransGen now.Follows id held) :
    Recording tables (addDependency now held id trace) id (done ++ [held]) := by
  refine ⟨recording.extended.trans (addDependency_extended recording.extended.order trace heldKnown
    idKnown different noPath), ?_⟩
  intro left right elsewhere
  rw [(addDependency_pointers now held id trace).2, if_neg (fun both => elsewhere both.2)]
  exact recording.traces left right elsewhere

theorem willLockLoopReport_verdict {live : Nat → Nat} (recording : Recording tables now id done)
    (registry : Registry now live) (idKnown : now.Registered id)
    (heldKnown : ∀ held ∈ entries.map Prod.fst, now.Registered held)
    (distinct : (entries.map Prod.fst).Nodup)
    (fresh : ∀ held ∈ entries.map Prod.fst, held ∉ done) :
    Verdict tables request id entries (willLockLoopReport request id entries now) := by
  induction entries generalizing now done with
  | nil => exact .granted now
  | cons entry rest ih =>
      obtain ⟨held, since⟩ := entry
      rw [List.map_cons] at heldKnown distinct fresh
      obtain ⟨notLater, restDistinct⟩ := List.nodup_cons.mp distinct
      have restKnown := fun other member => heldKnown other (List.mem_cons_of_mem held member)
      have restFresh := fun other member => fresh other (List.mem_cons_of_mem held member)
      have edges : follows now held id = follows tables held id := by
        rw [Bool.eq_iff_iff]
        refine (recording.extended.edges held id).trans ?_
        simp [fresh held List.mem_cons_self]
      rw [willLockLoopReport]
      split_ifs with atId edge
      · cases atId
        exact .relock [] rest since rfl
      · have quiet : tables.newDependencies id [(held, since)] = [] := by
          simp [Tables.newDependencies, ← edges, edge]
        have verdict := (ih recording registry idKnown restKnown restDistinct restFresh).later
          (held, since)
        rw [quiet] at verdict
        exact verdict
      · obtain ⟨answer, followed, iff⟩ := doesFollow_followDepth recording.extended.order
          registry.below registry.bounded id held
        rw [← doesFollowReport_answer] at followed
        obtain ⟨found, searched, same⟩ := Option.map_eq_some_iff.mp followed
        obtain ⟨result, messages, told⟩ := found
        obtain ⟨sameTables, rfl⟩ := Prod.mk.inj same
        change result = now at sameTables
        have reported := doesFollowReport_reported (.refl now) searched
        rw [searched]
        cases told with
        | true =>
            obtain ⟨middles, chain, printed⟩ := reported.path rfl
            obtain ⟨oldChain, simple, sameMessages⟩ := recording.path chain
            dsimp only at printed ⊢
            rw [printed, sameMessages, sameTables]
            have named : now.deadlock held id request.tid request.trace request.holding =
                tables.deadlock held id request.tid request.trace request.holding := by
              rw [Tables.deadlock, Tables.deadlock, recording.labelled]
            rw [named]
            exact .cycle [] rest held since middles rfl oldChain simple
        | false =>
            have noPath : ¬TransGen now.Follows id held := by
              intro path
              cases iff.mpr path
            have nothing := reported.silent rfl
            have grown := recording.add request.trace (heldKnown held List.mem_cons_self) idKnown
              atId noPath
            have message : tables.newDependencies id [(held, since)] =
                [(addDependency now held id request.trace).added held id] := by
              rw [Tables.added, grown.labelled]
              simp [Tables.newDependencies, ← edges, edge, Tables.added]
            obtain ⟨tree, traces, only⟩ := (addDependency_extended recording.extended.order
              request.trace (heldKnown held List.mem_cons_self) idKnown atId noPath).only
            have verdict := ih grown (only ▸ registry.frame tree traces _) (only ▸ idKnown)
              (fun other member => only ▸ restKnown other member) restDistinct ?_
            · have whole := verdict.later (held, since)
              dsimp only at nothing ⊢
              rw [message] at whole
              rw [sameTables, nothing]
              exact whole
            · intro other member
              rw [List.mem_append, List.mem_singleton, not_or]
              refine ⟨restFresh other member, ?_⟩
              rintro rfl
              exact notLater member

end Requests

/-- The first messages: of the registration, if there is one, and of the request. -/
def opening (tables : Tables) (tid : Tid) (name : Name) (given : Option Nat) (id : Nat) :
    List Message :=
  match given with
  | some _ => [.willLock name id tid]
  | none => [registerReport tables name id, .willLock name id tid]

/-- A request of a thread, with the locks that it holds. -/
def Tables.request (tables : Tables) (tid : Tid) (name : Name) (trace : BackTrace) : Request :=
  ⟨tid, name, trace, (tables.heldLocks tid).entries⟩

section Reports

variable {tables result : Tables} {tid : Tid} {name : Name} {given : Option Nat}
  {trace : BackTrace} {id : Nat}

theorem lockdepWillLockReport_messages
    (found : ensureId tables name given = .returned result id) :
    (lockdepWillLockReport tables tid name given trace).1 =
      opening tables tid name given id ++
        (willLockLoopReport (result.request tid name trace) id
          (result.heldLocks tid).entries result).1 := by
  cases given with
  | some known =>
      cases found
      rfl
  | none =>
      rw [ensureId, lockdepRegister] at found
      rw [lockdepWillLockReport]
      generalize lockdepRegisterHeld tables name = registered at found ⊢
      obtain ⟨after, known⟩ := registered
      cases known with
      | none => cases found
      | some known =>
          cases found
          rfl

theorem lockdepWillLock_outcome (found : ensureId tables name given = .returned result id) :
    lockdepWillLock tables tid name given trace =
      (willLockLoopReport (result.request tid name trace) id
        (result.heldLocks tid).entries result).2 := by
  rw [lockdepWillLock, found, willLockLoopReport_outcome]
  rfl

/-- The report is exact. A request that is granted names the dependencies that are new; one
that is refused names those up to the lock that stops it, and then either where the thread
took the lock before, or a path of recorded dependencies that the refused one would close
to a cycle, without detours, each with its names and the backtrace of its recording. -/
theorem deadlock_report_exact {allocator : Slots.Allocator} {usage : Usage}
    (reached : Runs.Reachable (usages allocator) Usage.Orderly usage)
    (cxaDemangle : CString → Option CString)
    (orderly : usage.Orderly (.willLock tid name given trace))
    (found : ensureId usage.storage.tables name given = .returned tables id) :
    (∃ later, lockdepWillLockOutput cxaDemangle usage.storage.tables tid name given trace =
        (opening usage.storage.tables tid name given id ++ later).flatMap
          (Message.text cxaDemangle) ∧
      Verdict tables (tables.request tid name trace) id (tables.heldLocks tid).entries
        (later, lockdepWillLock usage.storage.tables tid name given trace)) ∧
      ∀ left right, tables.Follows left right →
        tables.Registered left ∧ tables.Registered right ∧
          (tables.lockTreeBacktrace left right).isSome = true := by
  obtain ⟨kept, idKnown⟩ := (reachable_kept reached).ensureId orderly found
  have order : LockOrder tables := kept.order
  constructor
  · refine ⟨(willLockLoopReport (tables.request tid name trace) id
      (tables.heldLocks tid).entries tables).1, ?_, ?_⟩
    · rw [lockdepWillLockOutput, lockdepWillLockReport_messages found]
    · have start : Recording tables tables id [] := ⟨.refl order id, fun _ _ _ => rfl⟩
      have distinct : ((tables.heldLocks tid).entries.map Prod.fst).Nodup :=
        List.pairwise_map.mpr ((tables.heldLocks tid).sorted.imp fun less => ne_of_lt less)
      rw [lockdepWillLock_outcome found]
      exact willLockLoopReport_verdict start kept.registry idKnown (kept.known tid) distinct
        fun _ _ => List.not_mem_nil
  · intro left right edge
    obtain ⟨leftKnown, rightKnown⟩ := order.registered left right edge
    exact ⟨leftKnown, rightKnown, (order.traced left right).trans edge⟩

end Reports

/-- Three locks that three threads take two by two, in a ring. -/
theorem deadlock_report_exact_ring :
    let trace : BackTrace := ⟨0, []⟩
    ∃ usage, Runs.Reachable (usages .above) Usage.Orderly usage ∧
      (lockdepWillLockReport usage.storage.tables 3 [97] (some 0) trace).1 =
        [.willLock [97] 0 3, .direct (1, [98]) (2, [99]) (some trace),
          .through (0, [97]) (1, [98]) (2, [99]) (some trace),
          .deadlock (2, [99]) (0, [97]) 3 trace [((2, [99]), trace)]] ∧
      ∃ later, Verdict usage.storage.tables (usage.storage.tables.request 3 [97] trace) 0
        (usage.storage.tables.heldLocks 3).entries
        (later, lockdepWillLock usage.storage.tables 3 [97] (some 0) trace) := by
  intro trace
  let calls : List Call :=
    [.register [97], .register [98], .register [99],
      .willLock 1 [97] (some 0) trace, .locked 1 [97] (some 0) trace,
      .willLock 1 [98] (some 1) trace,
      .willLock 2 [98] (some 1) trace, .locked 2 [98] (some 1) trace,
      .willLock 2 [99] (some 2) trace,
      .willLock 3 [99] (some 2) trace, .locked 3 [99] (some 2) trace]
  obtain ⟨usage, reached, passed⟩ := Runs.exists_of_replay Usage.Orderly
    (show (usages .above).initial Usage.initial from rfl) calls
    (fun usage => decide (usage.Orderly (.willLock 3 [97] (some 0) trace) ∧
      (lockdepWillLockReport usage.storage.tables 3 [97] (some 0) trace).1 =
        [.willLock [97] 0 3, .direct (1, [98]) (2, [99]) (some trace),
          .through (0, [97]) (1, [98]) (2, [99]) (some trace),
          .deadlock (2, [99]) (0, [97]) 3 trace [((2, [99]), trace)]])) (by decide +kernel)
  obtain ⟨orderly, printed⟩ := of_decide_eq_true passed
  obtain ⟨⟨later, _output, verdict⟩, _named⟩ :=
    deadlock_report_exact reached (fun _ => none) orderly rfl
  exact ⟨usage, reached, printed, later, verdict⟩

end BlueThread.Lockdep
