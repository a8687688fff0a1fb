/-
The counts that `is_healthy` publishes.

Any number of callers scan the list together under the shared lock. Each keeps its
counts to itself until it has given the lock up, and then stores them one after the
other. Calls that change the list need the lock for themselves; the deadlines of a
handle may change at any time. If one call stores both counts between the two stores
of another, the published pair belongs to neither.
-/

import BlueThread.Foundation.Population
import BlueThread.Heartbeat.Model

namespace BlueThread.Heartbeat

open Population

/-- Where a caller of `is_healthy` stands, with its local variables: in the loop, before
the handle with an index, or before one of the two stores. -/
inductive Scan
  | idle
  | checking (now : Int64) (visited : Nat) (healthy : Bool) (unhealthy total : Nat)
  | storing (healthy : Bool) (unhealthy total : Nat)
  | stored (healthy : Bool) (unhealthy total : Nat)
deriving DecidableEq

def Scan.isChecking : Scan → Bool
  | .checking _ _ _ _ _ => true
  | _ => false

def Scan.isStored : Scan → Bool
  | .stored _ _ _ => true
  | _ => false

/-- `latest` made the latest store of `m_unhealthy_workers`; the calls that are over have
left their counts and results. -/
structure Publication (ι : Type) where
  map : HeartbeatMap ι
  scans : List Scan
  latest : Option Nat
  completed : List (Nat × Nat)
  returned : List Bool
  killed : Option Nat

/-- `enter` is `lock_shared` and the reading of the clock, `check` one round of the loop or
`unlock_shared` at its end. -/
inductive ScanAction (ι : Type)
  | call (call : Call ι)
  | enter (caller : Nat) (now : Int64)
  | check (caller : Nat)
  | storeUnhealthy (caller : Nat)
  | storeTotal (caller : Nat)
deriving DecidableEq

variable {ι : Type}

namespace Publication

def initial (callers : Nat) : Publication ι :=
  { map := HeartbeatMap.initial
    scans := List.replicate callers .idle
    latest := none
    completed := []
    returned := []
    killed := none }

def setScan (board : Publication ι) (caller : Nat) (scan : Scan) : Publication ι :=
  { board with scans := board.scans.set caller scan }

def enter (board : Publication ι) (caller : Nat) (now : Int64) : Option (Publication ι) :=
  match board.scans[caller]? with
  | some .idle => some (board.setScan caller (.checking now 0 true 0 0))
  | _ => none

def check (board : Publication ι) (caller : Nat) : Option (Publication ι) :=
  match board.scans[caller]? with
  | some (.checking now visited healthy unhealthy total) =>
      match board.map.workers[visited]? with
      | none => some (board.setScan caller (.storing healthy unhealthy total))
      | some handle =>
          match (Heartbeat.check handle now).kill with
          | some threadId => some { board with killed := some threadId }
          | none =>
              if (Heartbeat.check handle now).healthy then
                some (board.setScan caller
                  (.checking now (visited + 1) healthy unhealthy (total + 1)))
              else
                some (board.setScan caller
                  (.checking now (visited + 1) false (unhealthy + 1) (total + 1)))
  | _ => none

def storeUnhealthy (board : Publication ι) (caller : Nat) : Option (Publication ι) :=
  match board.scans[caller]? with
  | some (.storing healthy unhealthy total) =>
      some
        { board.setScan caller (.stored healthy unhealthy total) with
          map := { board.map with unhealthyWorkers := unhealthy }
          latest := some caller }
  | _ => none

def storeTotal (board : Publication ι) (caller : Nat) : Option (Publication ι) :=
  match board.scans[caller]? with
  | some (.stored healthy unhealthy total) =>
      some
        { board.setScan caller .idle with
          map := { board.map with totalWorkers := total }
          completed := (unhealthy, total) :: board.completed
          returned := healthy :: board.returned }
  | _ => none

variable [DecidableEq ι]

def perform (board : Publication ι) (call : Call ι) : Option (Publication ι) :=
  match Heartbeat.perform board.map call with
  | some (.ok map) => some { board with map := map }
  | some (.error threadId) => some { board with killed := some threadId }
  | none => none

/-- A call other than `is_healthy`. The list is changed only while nobody scans it. -/
def call (board : Publication ι) (call : Call ι) : Option (Publication ι) :=
  match call with
  | .isHealthy _ => none
  | .addWorker _ _ | .removeWorker _ =>
      if board.scans.any Scan.isChecking then none else board.perform call
  | .resetTimeout _ _ _ _ | .clearTimeout _ _ => board.perform call

def step (board : Publication ι) : ScanAction ι → Option (Publication ι)
  | .call call => board.call call
  | .enter caller now => board.enter caller now
  | .check caller => board.check caller
  | .storeUnhealthy caller => board.storeUnhealthy caller
  | .storeTotal caller => board.storeTotal caller

/-- What `get_unhealthy_workers` and `get_total_workers` return. -/
def published (board : Publication ι) : Nat × Nat :=
  (board.map.unhealthyWorkers, board.map.totalWorkers)

/-- No call of `is_healthy` is in progress. -/
def Quiet (board : Publication ι) : Prop := ∀ scan ∈ board.scans, scan = .idle

/-- The latest store of the first count was the caller's own, or comes from a call that
will store the second count after this. -/
def inOrder (board : Publication ι) (caller : Nat) : Bool :=
  match board.latest with
  | none => false
  | some other => other = caller || (board.scans[other]?).any Scan.isStored

end Publication

def publication (ι : Type) [DecidableEq ι] :
    Runs.System (Publication ι) (ScanAction ι) where
  initial board := ∃ callers, board = Publication.initial callers
  step board action := if board.killed.isSome then none else board.step action

/-- Nobody makes the second store after another call has made both since the first. -/
def InOrder (board : Publication ι) : ScanAction ι → Prop
  | .storeTotal caller => board.inOrder caller = true
  | _ => True

/-! ### What the published pair is -/

def Scan.Bounded : Scan → Prop
  | .idle => True
  | .checking _ _ _ unhealthy total | .storing _ unhealthy total | .stored _ unhealthy total =>
      unhealthy ≤ total

/-- Where the published pair comes from: from nobody, from a call that is over, or one half
of it from a call that is about to store the other half. -/
structure Owned (board : Publication ι) (owner : Nat) : Prop where
  half : ∀ healthy unhealthy total,
    board.scans[owner]? = some (.stored healthy unhealthy total) →
      board.map.unhealthyWorkers = unhealthy
  whole : (board.scans[owner]?).any Scan.isStored = false → board.published ∈ board.completed

structure Consistent (board : Publication ι) : Prop where
  fresh : board.latest = none → board.published = (0, 0)
  owned : ∀ owner, board.latest = some owner → Owned board owner
  bounded : ∀ scan ∈ board.scans, scan.Bounded
  counted : ∀ pair ∈ board.completed, pair.1 ≤ pair.2

section Moves

variable {board next : Publication ι} {caller : Nat} {old new : Scan}

theorem initial_consistent (callers : Nat) :
    Consistent (Publication.initial callers : Publication ι) where
  fresh := fun _ => rfl
  owned := by
    intro owner stored
    cases stored
  bounded := by
    intro scan member
    rw [List.eq_of_mem_replicate member]
    exact trivial
  counted := by
    intro pair member
    cases member

theorem Consistent.keep (consistent : Consistent board) (scans : next.scans = board.scans)
    (latest : next.latest = board.latest) (published : next.published = board.published)
    (completed : next.completed = board.completed) : Consistent next where
  fresh := by
    rw [latest, published]
    exact consistent.fresh
  owned := by
    intro owner stored
    rw [latest] at stored
    obtain ⟨half, whole⟩ := consistent.owned owner stored
    have unhealthy := congrArg Prod.fst published
    refine ⟨?_, ?_⟩
    · intro healthy count total atOwner
      rw [scans] at atOwner
      exact unhealthy.trans (half healthy count total atOwner)
    · rw [scans, published, completed]
      exact whole
  bounded := by
    rw [scans]
    exact consistent.bounded
  counted := by
    rw [completed]
    exact consistent.counted

theorem bounded_set (consistent : Consistent board) (bounded : new.Bounded) :
    ∀ scan ∈ board.scans.set caller new, scan.Bounded := by
  intro scan member
  cases List.mem_or_eq_of_mem_set member with
  | inl kept => exact consistent.bounded scan kept
  | inr same => exact same ▸ bounded

theorem Consistent.setScan (consistent : Consistent board)
    (found : board.scans[caller]? = some old) (before : old.isStored = false)
    (after : new.isStored = false) (bounded : new.Bounded) :
    Consistent (board.setScan caller new) where
  fresh := consistent.fresh
  owned := by
    intro owner stored
    obtain ⟨half, whole⟩ := consistent.owned owner stored
    by_cases same : caller = owner
    · subst same
      have place : (board.scans.set caller new)[caller]? = some new := getElem?_set_found found
      refine ⟨?_, ?_⟩
      · intro healthy unhealthy total atOwner
        have clash := place.symm.trans atOwner
        rw [Option.some.injEq] at clash
        rw [clash] at after
        cases after
      · intro _free
        apply whole
        rw [found]
        exact before
    · have place : (board.scans.set caller new)[owner]? = board.scans[owner]? :=
        List.getElem?_set_ne same
      refine ⟨?_, ?_⟩
      · intro healthy unhealthy total atOwner
        exact half healthy unhealthy total (place.symm.trans atOwner)
      · intro free
        apply whole
        rw [← place]
        exact free
  bounded := bounded_set consistent bounded
  counted := consistent.counted

/-! Each step of a call is enabled at one place only. -/

theorem enter_eq_some {now : Int64} (taken : board.enter caller now = some next) :
    board.scans[caller]? = some .idle ∧
      next = board.setScan caller (.checking now 0 true 0 0) := by
  rw [Publication.enter] at taken
  cases found : board.scans[caller]? with
  | none =>
      rw [found] at taken
      cases taken
  | some scan =>
      rw [found] at taken
      cases scan with
      | idle =>
          cases taken
          exact ⟨rfl, rfl⟩
      | checking _ _ _ _ _ | storing _ _ _ | stored _ _ _ => cases taken

theorem check_eq_some (taken : board.check caller = some next) :
    ∃ now visited healthy unhealthy total,
      board.scans[caller]? = some (.checking now visited healthy unhealthy total) ∧
        (next = board.setScan caller (.storing healthy unhealthy total) ∨
          (∃ threadId, next = { board with killed := some threadId }) ∨
          ∃ fine bad, bad ≤ unhealthy + 1 ∧ next = board.setScan caller
            (.checking now (visited + 1) fine bad (total + 1))) := by
  rw [Publication.check] at taken
  cases found : board.scans[caller]? with
  | none =>
      rw [found] at taken
      cases taken
  | some scan =>
      rw [found] at taken
      cases scan with
      | checking now visited healthy unhealthy total =>
          refine ⟨now, visited, healthy, unhealthy, total, rfl, ?_⟩
          dsimp only at taken
          cases atHandle : board.map.workers[visited]? with
          | none =>
              rw [atHandle] at taken
              cases taken
              exact Or.inl rfl
          | some handle =>
              rw [atHandle] at taken
              dsimp only at taken
              cases kill : (Heartbeat.check handle now).kill with
              | some threadId =>
                  rw [kill] at taken
                  cases taken
                  exact Or.inr (Or.inl ⟨threadId, rfl⟩)
              | none =>
                  rw [kill] at taken
                  dsimp only at taken
                  right
                  right
                  by_cases fine : (Heartbeat.check handle now).healthy = true
                  · rw [if_pos fine] at taken
                    cases taken
                    exact ⟨healthy, unhealthy, Nat.le_succ unhealthy, rfl⟩
                  · rw [if_neg fine] at taken
                    cases taken
                    exact ⟨false, unhealthy + 1, Nat.le_refl _, rfl⟩
      | idle | storing _ _ _ | stored _ _ _ => cases taken

theorem storeUnhealthy_eq_some (taken : board.storeUnhealthy caller = some next) :
    ∃ healthy unhealthy total,
      board.scans[caller]? = some (.storing healthy unhealthy total) ∧
        next =
          { board.setScan caller (.stored healthy unhealthy total) with
            map := { board.map with unhealthyWorkers := unhealthy }
            latest := some caller } := by
  rw [Publication.storeUnhealthy] at taken
  cases found : board.scans[caller]? with
  | none =>
      rw [found] at taken
      cases taken
  | some scan =>
      rw [found] at taken
      cases scan with
      | storing healthy unhealthy total =>
          cases taken
          exact ⟨healthy, unhealthy, total, rfl, rfl⟩
      | idle | checking _ _ _ _ _ | stored _ _ _ => cases taken

theorem storeTotal_eq_some (taken : board.storeTotal caller = some next) :
    ∃ healthy unhealthy total,
      board.scans[caller]? = some (.stored healthy unhealthy total) ∧
        next =
          { board.setScan caller .idle with
            map := { board.map with totalWorkers := total }
            completed := (unhealthy, total) :: board.completed
            returned := healthy :: board.returned } := by
  rw [Publication.storeTotal] at taken
  cases found : board.scans[caller]? with
  | none =>
      rw [found] at taken
      cases taken
  | some scan =>
      rw [found] at taken
      cases scan with
      | stored healthy unhealthy total =>
          cases taken
          exact ⟨healthy, unhealthy, total, rfl, rfl⟩
      | idle | checking _ _ _ _ _ | storing _ _ _ => cases taken

theorem enter_consistent (consistent : Consistent board) {now : Int64}
    (taken : board.enter caller now = some next) : Consistent next := by
  obtain ⟨found, rfl⟩ := enter_eq_some taken
  exact consistent.setScan found rfl rfl (Nat.le_refl 0)

theorem check_consistent (consistent : Consistent board)
    (taken : board.check caller = some next) : Consistent next := by
  obtain ⟨now, visited, healthy, unhealthy, total, found, result⟩ := check_eq_some taken
  have bounded : unhealthy ≤ total := consistent.bounded _ (List.mem_of_getElem? found)
  rcases result with ended | ⟨threadId, killed⟩ | ⟨fine, bad, most, counted⟩
  · subst ended
    exact consistent.setScan found rfl rfl bounded
  · subst killed
    exact consistent.keep rfl rfl rfl rfl
  · subst counted
    exact consistent.setScan found rfl rfl (Nat.le_trans most (Nat.succ_le_succ bounded))

theorem storeUnhealthy_consistent (consistent : Consistent board)
    (taken : board.storeUnhealthy caller = some next) : Consistent next := by
  obtain ⟨healthy, unhealthy, total, found, rfl⟩ := storeUnhealthy_eq_some taken
  have bounded := consistent.bounded _ (List.mem_of_getElem? found)
  have place : (board.scans.set caller (.stored healthy unhealthy total))[caller]? =
      some (.stored healthy unhealthy total) := getElem?_set_found found
  refine ⟨?_, ?_, bounded_set consistent bounded, consistent.counted⟩
  · intro absent
    cases absent
  · intro owner stored
    cases stored
    refine ⟨?_, ?_⟩
    · intro other count sum atOwner
      have same := place.symm.trans atOwner
      cases same
      rfl
    · intro free
      change ((board.scans.set caller (.stored healthy unhealthy total))[caller]?).any
        Scan.isStored = false at free
      rw [place] at free
      cases free

theorem inOrder_owner (ordered : board.inOrder caller = true) :
    ∃ owner, board.latest = some owner ∧
      (owner = caller ∨ (board.scans[owner]?).any Scan.isStored = true) := by
  rw [Publication.inOrder] at ordered
  cases latest : board.latest with
  | none =>
      rw [latest] at ordered
      cases ordered
  | some owner =>
      rw [latest] at ordered
      dsimp only at ordered
      rw [Bool.or_eq_true, decide_eq_true_eq] at ordered
      exact ⟨owner, rfl, ordered⟩

theorem storeTotal_consistent (consistent : Consistent board)
    (ordered : board.inOrder caller = true)
    (taken : board.storeTotal caller = some next) : Consistent next := by
  obtain ⟨healthy, unhealthy, total, found, rfl⟩ := storeTotal_eq_some taken
  obtain ⟨owner, latest, whose⟩ := inOrder_owner ordered
  have half := (consistent.owned owner latest).half
  refine ⟨?_, ?_, bounded_set consistent trivial, ?_⟩
  · intro absent
    cases latest.symm.trans absent
  · intro other stored
    cases latest.symm.trans stored
    by_cases same : caller = owner
    · subst same
      have place : (board.scans.set caller .idle)[caller]? = some .idle :=
        getElem?_set_found found
      refine ⟨?_, ?_⟩
      · intro other count sum atOwner
        cases place.symm.trans atOwner
      · intro _free
        apply List.mem_cons.mpr
        left
        exact Prod.ext (half healthy unhealthy total found) rfl
    · have place : (board.scans.set caller .idle)[owner]? = board.scans[owner]? :=
        List.getElem?_set_ne same
      have later := whose.resolve_left (Ne.symm same)
      refine ⟨?_, ?_⟩
      · intro other count sum atOwner
        exact half other count sum (place.symm.trans atOwner)
      · intro free
        change (((board.scans.set caller .idle)[owner]?).any _) = false at free
        rw [place, later] at free
        cases free
  · intro pair member
    cases List.mem_cons.mp member with
    | inl new =>
        rw [new]
        exact consistent.bounded _ (List.mem_of_getElem? found)
    | inr earlier => exact consistent.counted pair earlier

end Moves

/-! ### A call that nobody disturbs -/

section Alone

theorem set_scan_twice (board : Publication ι) (caller : Nat) (first second : Scan) :
    (board.setScan caller first).setScan caller second = board.setScan caller second := by
  rw [Publication.setScan, Publication.setScan, Publication.setScan]
  congr 1
  exact List.set_set ..

theorem check_round {board : Publication ι} {handle : Handle ι} {now : Int64}
    {caller visited : Nat} {healthy : Bool} {unhealthy total : Nat}
    (found : board.scans[caller]? = some (.checking now visited healthy unhealthy total))
    (inside : board.map.workers[visited]? = some handle)
    (returns : (check handle now).kill = none) :
    board.check caller =
      if (check handle now).healthy then
        some (board.setScan caller (.checking now (visited + 1) healthy unhealthy (total + 1)))
      else
        some (board.setScan caller
          (.checking now (visited + 1) false (unhealthy + 1) (total + 1))) := by
  rw [Publication.check, found]
  dsimp only
  rw [inside]
  dsimp only
  rw [returns]

variable [DecidableEq ι]

def ScanAction.By (caller : Nat) : ScanAction ι → Prop
  | .call _ => False
  | .enter other _ | .check other | .storeUnhealthy other | .storeTotal other => other = caller

theorem step_alive {board : Publication ι} (alive : board.killed = none)
    (action : ScanAction ι) : (publication ι).step board action = board.step action := by
  change (if board.killed.isSome = true then none else board.step action) = board.step action
  rw [alive]
  rfl

theorem checks_alone {rest : List (Handle ι)} {now : Int64} {caller visited : Nat}
    {healthy after : Bool} {unhealthy total bad all : Nat} {first board : Publication ι}
    (before : Runs.Reachable ((publication ι).after first) (fun _ => ScanAction.By caller) board)
    (alive : board.killed = none)
    (found : board.scans[caller]? = some (.checking now visited healthy unhealthy total))
    (ahead : board.map.workers.drop visited = rest)
    (result : checkAll now rest healthy unhealthy total = .ok (after, bad, all)) :
    Runs.Reachable ((publication ι).after first) (fun _ => ScanAction.By caller)
      (board.setScan caller (.storing after bad all)) := by
  induction rest generalizing board visited healthy unhealthy total with
  | nil =>
      rw [checkAll] at result
      cases result
      have atEnd : board.map.workers[visited]? = none :=
        List.getElem?_eq_none_iff.mpr (List.drop_eq_nil_iff.mp ahead)
      refine .next (.check caller) before rfl ?_
      change (publication ι).step board (.check caller) = _
      rw [step_alive alive, Publication.step, Publication.check, found]
      dsimp only
      rw [atEnd]
  | cons handle tail ih =>
      have inside : board.map.workers[visited]? = some handle := by
        have head := congrArg (·[0]?) ahead
        simpa only [List.getElem?_drop, Nat.add_zero, List.getElem?_cons_zero] using head
      have later : board.map.workers.drop (visited + 1) = tail := by
        rw [← List.drop_drop, ahead]
        rfl
      -- one round, and then the rest by induction
      have round {healthy' : Bool} {unhealthy' : Nat}
          (checked : board.check caller = some (board.setScan caller
            (.checking now (visited + 1) healthy' unhealthy' (total + 1))))
          (result' : checkAll now tail healthy' unhealthy' (total + 1) = .ok (after, bad, all)) :
          Runs.Reachable ((publication ι).after first) (fun _ => ScanAction.By caller)
            (board.setScan caller (.storing after bad all)) := by
        have reached : Runs.Reachable ((publication ι).after first)
            (fun _ => ScanAction.By caller) (board.setScan caller
              (.checking now (visited + 1) healthy' unhealthy' (total + 1))) := by
          refine .next (.check caller) before rfl ?_
          change (publication ι).step board (.check caller) = _
          rw [step_alive alive]
          exact checked
        have finished := ih reached alive (getElem?_set_found found) later result'
        rw [set_scan_twice] at finished
        exact finished
      rw [checkAll] at result
      cases kill : (check handle now).kill with
      | some threadId =>
          rw [kill] at result
          cases result
      | none =>
          rw [kill] at result
          dsimp only at result
          by_cases fine : (check handle now).healthy = true
          · rw [if_pos fine] at result
            apply round ?_ result
            rw [check_round found inside kill]
            exact if_pos fine
          · rw [if_neg fine] at result
            apply round ?_ result
            rw [check_round found inside kill]
            exact if_neg fine

theorem isHealthy_alone {board : Publication ι} {caller : Nat} {now : Int64}
    {map : HeartbeatMap ι} {healthy : Bool} (alive : board.killed = none)
    (found : board.scans[caller]? = some .idle)
    (result : board.map.isHealthy now = .ok (map, healthy)) :
    ∃ final, Runs.Reachable ((publication ι).after board) (fun _ => ScanAction.By caller) final ∧
      final.map = map ∧ final.returned = healthy :: board.returned := by
  rw [HeartbeatMap.isHealthy] at result
  cases checked : checkAll now board.map.workers true 0 0 with
  | error threadId =>
      rw [checked] at result
      cases result
  | ok counts =>
      obtain ⟨after, unhealthy, total⟩ := counts
      rw [checked] at result
      cases result
      have entered : Runs.Reachable ((publication ι).after board) (fun _ => ScanAction.By caller)
          (board.setScan caller (.checking now 0 true 0 0)) := by
        refine .next (.enter caller now) (.start rfl) rfl ?_
        change (publication ι).step board (.enter caller now) = _
        rw [step_alive alive, Publication.step, Publication.enter, found]
      have scanned := checks_alone entered alive (getElem?_set_found found) rfl checked
      rw [set_scan_twice] at scanned
      have half : Runs.Reachable ((publication ι).after board) (fun _ => ScanAction.By caller)
          { board.setScan caller (.stored healthy unhealthy total) with
            map := { board.map with unhealthyWorkers := unhealthy }
            latest := some caller } := by
        refine .next (.storeUnhealthy caller) scanned rfl ?_
        have alive' : (board.setScan caller (.storing healthy unhealthy total)).killed = none :=
          alive
        refine (step_alive alive' _).trans ?_
        have place : (board.setScan caller (.storing healthy unhealthy total)).scans[caller]? =
            some (.storing healthy unhealthy total) := getElem?_set_found found
        rw [Publication.step, Publication.storeUnhealthy, place]
        dsimp only
        rw [set_scan_twice]
        rfl
      refine ⟨{ board.setScan caller .idle with
        map := { board.map with unhealthyWorkers := unhealthy, totalWorkers := total }
        latest := some caller
        completed := (unhealthy, total) :: board.completed
        returned := healthy :: board.returned },
        .next (.storeTotal caller) half rfl ?_, rfl, rfl⟩
      refine (step_alive (show ({ board.setScan caller (.stored healthy unhealthy total) with
        map := { board.map with unhealthyWorkers := unhealthy }
        latest := some caller } : Publication ι).killed = none from alive) _).trans ?_
      have place : (board.setScan caller (.stored healthy unhealthy total)).scans[caller]? =
          some (.stored healthy unhealthy total) := getElem?_set_found found
      rw [Publication.step, Publication.storeTotal]
      dsimp only
      rw [place]
      dsimp only [Publication.setScan]
      rw [List.set_set]

end Alone

section Runs

variable [DecidableEq ι] {board next : Publication ι}

theorem perform_counts {map after : HeartbeatMap ι} {call : Call ι}
    (other : ∀ now, call ≠ .isHealthy now) (done : perform map call = some (.ok after)) :
    after.unhealthyWorkers = map.unhealthyWorkers ∧ after.totalWorkers = map.totalWorkers := by
  have updated {address : ι} {change : Handle ι → Except Nat (Handle ι)}
      (result : map.update address change = some (.ok after)) :
      after.unhealthyWorkers = map.unhealthyWorkers ∧ after.totalWorkers = map.totalWorkers := by
    obtain ⟨handle, _found, outcome⟩ := Option.map_eq_some_iff.mp result
    cases changed : change handle with
    | error threadId =>
        rw [changed] at outcome
        cases outcome
    | ok moved =>
        rw [changed] at outcome
        cases outcome
        exact ⟨rfl, rfl⟩
  cases call with
  | addWorker address threadId =>
      rw [perform, Option.ite_none_right_eq_some] at done
      cases done.2
      exact ⟨rfl, rfl⟩
  | removeWorker address =>
      rw [perform, Option.ite_none_right_eq_some] at done
      cases done.2
      exact ⟨rfl, rfl⟩
  | resetTimeout address now grace suicideGrace => exact updated done
  | clearTimeout address now => exact updated done
  | isHealthy now => exact absurd rfl (other now)

theorem performed_consistent (consistent : Consistent board) {call : Call ι}
    (other : ∀ now, call ≠ .isHealthy now) (taken : board.perform call = some next) :
    Consistent next := by
  rw [Publication.perform] at taken
  cases done : perform board.map call with
  | none =>
      rw [done] at taken
      cases taken
  | some outcome =>
      rw [done] at taken
      cases outcome with
      | error threadId =>
          cases taken
          exact consistent.keep rfl rfl rfl rfl
      | ok map =>
          cases taken
          obtain ⟨unhealthy, total⟩ := perform_counts other done
          exact consistent.keep rfl rfl (Prod.ext unhealthy total) rfl

theorem call_consistent (consistent : Consistent board) {call : Call ι}
    (taken : board.call call = some next) : Consistent next := by
  cases call with
  | isHealthy now => cases taken
  | addWorker address threadId =>
      rw [Publication.call, Option.ite_none_left_eq_some] at taken
      exact performed_consistent consistent (by intro now same; cases same) taken.2
  | removeWorker address =>
      rw [Publication.call, Option.ite_none_left_eq_some] at taken
      exact performed_consistent consistent (by intro now same; cases same) taken.2
  | resetTimeout address now grace suicideGrace =>
      exact performed_consistent consistent (by intro now same; cases same) taken
  | clearTimeout address now =>
      exact performed_consistent consistent (by intro now same; cases same) taken

theorem reachable_consistent (reached : Runs.Reachable (publication ι) InOrder board) :
    Consistent board := by
  apply reached.invariant
  · intro current initial
    obtain ⟨callers, same⟩ := initial
    exact same ▸ initial_consistent callers
  · intro current action following _reached consistent permitted taken
    change (if current.killed.isSome = true then none else current.step action) =
      some following at taken
    rw [Option.ite_none_left_eq_some] at taken
    have done := taken.2
    cases action with
    | call call => exact call_consistent consistent done
    | enter caller now => exact enter_consistent consistent done
    | check caller => exact check_consistent consistent done
    | storeUnhealthy caller => exact storeUnhealthy_consistent consistent done
    | storeTotal caller => exact storeTotal_consistent consistent permitted done

/-- While every second store comes in order, the published pair is the initial one or the
pair of one call, whenever no call is in progress. -/
theorem published_pair (reached : Runs.Reachable (publication ι) InOrder board)
    (quiet : board.Quiet) :
    (board.published = (0, 0) ∨ board.published ∈ board.completed) ∧
      board.map.unhealthyWorkers ≤ board.map.totalWorkers := by
  have consistent := reachable_consistent reached
  have source : board.published = (0, 0) ∨ board.published ∈ board.completed := by
    cases latest : board.latest with
    | none => exact Or.inl (consistent.fresh latest)
    | some owner =>
        right
        apply (consistent.owned owner latest).whole
        cases found : board.scans[owner]? with
        | none => rfl
        | some scan =>
            rw [quiet scan (List.mem_of_getElem? found)]
            rfl
  refine ⟨source, ?_⟩
  cases source with
  | inl initial =>
      have unhealthy := congrArg Prod.fst initial
      change board.map.unhealthyWorkers = 0 at unhealthy
      omega
  | inr single => exact consistent.counted _ single

theorem overtaken_store_mixes (reached : Runs.Reachable (publication ι) InOrder board)
    {caller owner : Nat} {healthy : Bool} {unhealthy total : Nat}
    (latest : board.latest = some owner)
    (complete : (board.scans[owner]?).any Scan.isStored = false)
    (found : board.scans[caller]? = some (.stored healthy unhealthy total))
    (taken : board.storeTotal caller = some next) :
    board.published ∈ board.completed ∧ next.published = (board.published.1, total) := by
  refine ⟨((reachable_consistent reached).owned owner latest).whole complete, ?_⟩
  obtain ⟨_, _, sum, atCaller, rfl⟩ := storeTotal_eq_some taken
  cases found.symm.trans atCaller
  rfl

end Runs

instance (board : Publication ι) (action : ScanAction ι) : Decidable (InOrder board action) :=
  match action with
  | .storeTotal caller => inferInstanceAs (Decidable (board.inOrder caller = true))
  | .call _ | .enter _ _ | .check _ | .storeUnhealthy _ => inferInstanceAs (Decidable True)

instance (board : Publication ι) : Decidable board.Quiet :=
  inferInstanceAs (Decidable (∀ scan ∈ board.scans, scan = .idle))

/-- Two calls whose stores overlap: the one that stores first also comes first in the end. -/
theorem published_pair_overlapping :
    ∃ board : Publication Nat, Runs.Reachable (publication Nat) InOrder board ∧
      board.completed = [(0, 0), (1, 1)] ∧ board.map.unhealthyWorkers ≤ board.map.totalWorkers := by
  obtain ⟨board, reached, passed⟩ := Runs.exists_of_replay InOrder
    (show (publication Nat).initial (Publication.initial 2) from ⟨2, rfl⟩)
    [.call (.addWorker 0 7), .call (.resetTimeout 0 0 10 0), .enter 0 20, .check 0, .check 0,
      .call (.removeWorker 0), .enter 1 30, .check 1, .storeUnhealthy 0, .storeUnhealthy 1,
      .storeTotal 0, .storeTotal 1]
    (fun board => decide (board.Quiet ∧ board.completed = [(0, 0), (1, 1)])) (by decide +kernel)
  obtain ⟨quiet, completed⟩ := of_decide_eq_true passed
  exact ⟨board, reached, completed, (published_pair reached quiet).2⟩

/-- One call stores both counts between the two stores of another: one unhealthy worker out
of none. -/
theorem published_pair_mixed :
    ¬∀ board : Publication Nat, Runs.Reachable (publication Nat) (fun _ _ => True) board →
      board.Quiet → (board.published = (0, 0) ∨ board.published ∈ board.completed) ∧
        board.map.unhealthyWorkers ≤ board.map.totalWorkers := by
  intro single
  obtain ⟨board, reached, passed⟩ := Runs.exists_of_replay (fun _ _ => True)
    (show (publication Nat).initial (Publication.initial 2) from ⟨2, rfl⟩)
    [.call (.addWorker 0 7), .call (.resetTimeout 0 0 10 0), .enter 0 20, .check 0, .check 0,
      .call (.removeWorker 0), .enter 1 30, .check 1, .storeUnhealthy 1, .storeUnhealthy 0,
      .storeTotal 0, .storeTotal 1]
    (fun board => decide (board.Quiet ∧ board.published = (1, 0))) (by decide +kernel)
  obtain ⟨quiet, published⟩ := of_decide_eq_true passed
  have bounded := (single board reached quiet).2
  have unhealthy : board.map.unhealthyWorkers = 1 := congrArg Prod.fst published
  have total : board.map.totalWorkers = 0 := congrArg Prod.snd published
  omega

end BlueThread.Heartbeat
