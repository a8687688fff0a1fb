/-
The counters of a `shared_mutex_debug` follow the pthread rwlock.

A shared hold is counted after it was granted, and is not counted any more before
it is given back, so `read_locked_count` is behind the rwlock by one for each
thread between the two. The invariant keeps the counted holds as a list: every
thread has as many entries in it as it has shared holds, less the one that it is
taking or giving back. It needs that every hold is given back by its holder, in
the mode in which it was taken.
-/

import BlueThread.Locks.Bookkeeping
import BlueThread.Locks.HeldLocks

namespace BlueThread.Locks

open Lockdep Population

def isWlocked (object : LockObject) : Bool := decide (0 < object.lockedCount)

def isRlocked (object : LockObject) : Bool := decide (0 < object.readLockedCount)

/-! ### Places in the bookkeeping -/

/-- The places of the exclusive owner in a call, with the value of `locked_count`
and whether `locked_by` names it. -/
inductive Writing (lock : Nat) : Pc → Int → Bool → Prop
  | granted : Writing lock (.locked lock .exclusive) 0 false
  | asserts : Writing lock (.book lock (.assertCount 0) [.addCount, .setLockedBy] .finish) 0 false
  | adds : Writing lock (.book lock .addCount [.setLockedBy] .finish) 0 false
  | names : Writing lock (.book lock .setLockedBy [] .finish) 1 false
  | begins : Writing lock
      (.book lock .assertLocked [.subCount, .assertLockedBy, .assertCount 0] .willUnlock) 1 true
  | lowers : Writing lock
      (.book lock .subCount [.assertLockedBy, .assertCount 0] .willUnlock) 1 true
  | compares : Writing lock (.book lock .assertLockedBy [.assertCount 0] .willUnlock) 0 true
  | ends : Writing lock (.book lock (.assertCount 0) [] .willUnlock) 0 true
  | unrecords : Writing lock (.willUnlock lock) 0 true
  | unlocks : Writing lock (.unlocking lock) 0 true

/-- The places of a shared holder in a call, with the holds that
`read_locked_count` leaves out. -/
inductive Reading (lock : Nat) : Pc → Nat → Prop
  | granted : Reading lock (.locked lock .shared) 1
  | adds : Reading lock (.book lock .addRead [] .finish) 1
  | begins : Reading lock (.book lock .assertReadLocked [.subRead] .willUnlock) 0
  | lowers : Reading lock (.book lock .subRead [] .willUnlock) 0
  | unrecords : Reading lock (.willUnlock lock) 1
  | unlocks : Reading lock (.unlocking lock) 1

inductive Outside (lock : Nat) (pc : Pc) : Prop
  | apart (target : pc.target ≠ some lock)
  | waits (mode : Mode) (same : pc = .acquiring lock mode)

inductive Progress (tid : Tid) (lock : Nat) (object : LockObject) (counted : List Tid) (pc : Pc) :
    Prop
  | outside (place : Outside lock pc) (named : object.Settled tid)
      (balance : object.readers.count tid = counted.count tid)
  | writer {count : Int} {named : Bool} (place : Writing lock pc count named)
      (owns : object.owner = some tid) (counts : object.lockedCount = count)
      (names : named = true → object.lockedBy = some tid)
      (balance : object.readers.count tid = counted.count tid)
  | reader {left : Nat} (place : Reading lock pc left) (holds : tid ∈ object.readers)
      (balance : object.readers.count tid = counted.count tid + left)

theorem Outside.idle (lock : Nat) : Outside lock .idle := by
  apply Outside.apart
  intro target
  cases target

theorem Outside.waits_of_target {lock : Nat} {pc : Pc} (place : Outside lock pc)
    (about : pc.target = some lock) : ∃ mode, pc = .acquiring lock mode := by
  cases place with
  | apart target => exact absurd about target
  | waits mode same => exact ⟨mode, same⟩

theorem Writing.target {lock : Nat} {pc : Pc} {count : Int} {named : Bool}
    (place : Writing lock pc count named) : pc.target = some lock := by
  cases place <;> rfl

theorem Reading.target {lock : Nat} {pc : Pc} {left : Nat} (place : Reading lock pc left) :
    pc.target = some lock := by
  cases place <;> rfl

theorem Writing.binary {lock : Nat} {pc : Pc} {count : Int} {named : Bool}
    (place : Writing lock pc count named) : count = 0 ∨ count = 1 := by
  cases place <;> simp

section Places

variable {tid : Tid} {lock : Nat} {object : LockObject} {counted : List Tid} {pc : Pc}

theorem Progress.le (progress : Progress tid lock object counted pc) :
    counted.count tid ≤ object.readers.count tid := by
  cases progress with
  | outside place named balance => exact balance.ge
  | writer place owns counts names balance => exact balance.ge
  | reader place holds balance => omega

theorem Progress.settled (progress : Progress tid lock object counted pc)
    (apart : pc.target ≠ some lock) :
    object.Settled tid ∧ object.readers.count tid = counted.count tid := by
  cases progress with
  | outside place named balance => exact ⟨named, balance⟩
  | writer place owns counts names balance => exact absurd place.target apart
  | reader place holds balance => exact absurd place.target apart

theorem Progress.waiting {mode : Mode}
    (progress : Progress tid lock object counted (.acquiring lock mode)) :
    object.Settled tid ∧ object.readers.count tid = counted.count tid := by
  cases progress with
  | outside place named balance => exact ⟨named, balance⟩
  | writer place owns counts names balance => cases place
  | reader place holds balance => cases place

theorem Progress.not_mutex (progress : Progress tid lock object counted pc) :
    pc ≠ .tryLock lock ∧ ∀ cond, pc ≠ .condWait cond lock ∧ pc ≠ .condBlocked cond lock ∧
      pc ≠ .condAcquiring cond lock := by
  cases progress with
  | outside place named balance =>
      cases place with
      | apart target =>
          refine ⟨?_, fun cond => ⟨?_, ?_, ?_⟩⟩
          all_goals
            intro same
            rw [same] at target
            exact target rfl
      | waits mode same => simp [same]
  | writer place owns counts names balance => cases place <;> simp
  | reader place holds balance => cases place <;> simp

theorem Progress.transfer {after : LockObject} {later : List Tid}
    (progress : Progress tid lock object counted pc)
    (owner : after.owner = some tid ↔ object.owner = some tid)
    (fields : object.owner = some tid →
      after.lockedCount = object.lockedCount ∧ after.lockedBy = object.lockedBy)
    (readers : after.readers.count tid = object.readers.count tid)
    (same : later.count tid = counted.count tid) : Progress tid lock after later pc := by
  cases progress with
  | outside place named balance =>
      refine .outside place ?_ (by rw [readers, same, balance])
      intro owns
      have owned := owner.mp owns
      rw [(fields owned).1, (fields owned).2]
      exact named owned
  | writer place owns counts names balance =>
      refine .writer place (owner.mpr owns) ((fields owns).1.trans counts) ?_
        (by rw [readers, same, balance])
      intro isNamed
      exact (fields owns).2.trans (names isNamed)
  | reader place holds balance =>
      refine .reader place ?_ (by rw [readers, same, balance])
      rw [← List.count_pos_iff, readers]
      exact List.count_pos_iff.mpr holds

end Places

/-! ### Moves on a shared mutex -/

structure LockObject.Tally (object : LockObject) (counted : List Tid) : Prop where
  length : counted.length = object.readLockedCount
  exclusion : object.owner ≠ none → object.readers = []
  vacant : object.owner = none → object.lockedCount = 0

/-- A move of a thread leaves the lock in order, writes the fields only while
nobody else owns the lock, and changes nobody else's holds. -/
structure Recounted (tid : Tid) (lock : Nat) (object : LockObject) (counted : List Tid)
    (after : LockObject) (later : List Tid) (pc : Pc) : Prop where
  progress : Progress tid lock after later pc
  tally : after.Tally later
  fields : ∀ other, other ≠ tid → object.owner = some other →
    after.lockedCount = object.lockedCount ∧ after.lockedBy = object.lockedBy
  readers : ∀ other, other ≠ tid → after.readers.count other = object.readers.count other
  others : ∀ other, other ≠ tid → later.count other = counted.count other

section Moves

variable {action : Action} {tid : Tid} {lock : Nat} {object after : LockObject}
  {counted : List Tid} {old pc : Pc}

theorem Recounted.same (tally : object.Tally counted)
    (progress : Progress tid lock object counted pc) :
    Recounted tid lock object counted object counted pc :=
  ⟨progress, tally, fun _ _ _ => ⟨rfl, rfl⟩, fun _ _ => rfl, fun _ _ => rfl⟩

theorem Recounted.own (owns : object.owner = some tid) (tally : object.Tally counted)
    (progress : Progress tid lock after counted pc)
    (vacant : after.owner = none → after.lockedCount = 0)
    (readers : after.readers = object.readers)
    (reads : after.readLockedCount = object.readLockedCount) :
    Recounted tid lock object counted after counted pc := by
  have nobody : object.readers = [] := tally.exclusion (by simp [owns])
  refine ⟨progress, ⟨?_, fun _ => readers.trans nobody, vacant⟩, ?_, ?_, fun _ _ => rfl⟩
  · rw [reads]
    exact tally.length
  · intro other apart owner
    rw [owns, Option.some.injEq] at owner
    exact absurd owner.symm apart
  · intro other _
    rw [readers]

theorem LockObject.Tally.unowned (tally : object.Tally counted) (holds : tid ∈ object.readers) :
    object.owner = none := by
  by_contra owned
  rw [tally.exclusion owned] at holds
  cases holds

theorem Writing.run {next : Book} {rest : List Book} {following : After} {count : Int}
    {named : Bool} (place : Writing lock (.book lock next rest following) count named)
    (owns : object.owner = some tid) (counts : object.lockedCount = count)
    (names : named = true → object.lockedBy = some tid)
    (balance : object.readers.count tid = counted.count tid) (tally : object.Tally counted) :
    ∃ changed remaining, next.run tid object rest = some (changed, remaining) ∧
      Recounted tid lock object counted changed counted (.ofBooks lock following remaining) := by
  have owned {goal : Prop} (impossible : object.owner = none) : goal := by
    rw [owns] at impossible
    cases impossible
  cases place with
  | asserts =>
      refine ⟨object, _, if_pos counts, .same tally ?_⟩
      exact .writer .adds owns counts names balance
  | adds =>
      refine ⟨_, _, rfl, .own owns tally ?_ owned rfl rfl⟩
      exact .writer .names owns (by simp [counts]) names balance
  | names =>
      refine ⟨_, _, rfl, .own owns tally ?_ owned rfl rfl⟩
      exact .outside (.idle lock) (fun _ => ⟨counts, rfl⟩) balance
  | begins =>
      refine ⟨object, _, if_pos (by simp [counts]), .same tally ?_⟩
      exact .writer .lowers owns counts names balance
  | lowers =>
      refine ⟨_, _, rfl, .own owns tally ?_ owned rfl rfl⟩
      exact .writer .compares owns (by simp [counts]) names balance
  | compares =>
      refine ⟨object, _, if_pos (names rfl), .same tally ?_⟩
      exact .writer .ends owns counts names balance
  | ends =>
      refine ⟨object, _, if_pos counts, .same tally ?_⟩
      exact .writer .unrecords owns counts names balance

theorem Reading.run {next : Book} {rest : List Book} {following : After} {left : Nat}
    (place : Reading lock (.book lock next rest following) left)
    (holds : tid ∈ object.readers)
    (balance : object.readers.count tid = counted.count tid + left)
    (tally : object.Tally counted) :
    ∃ changed remaining later, next.run tid object rest = some (changed, remaining) ∧
      Recounted tid lock object counted changed later (.ofBooks lock following remaining) := by
  have unowned := tally.unowned holds
  have isCounted (none : left = 0) : tid ∈ counted := by
    have holding := List.count_pos_iff.mpr holds
    exact List.count_pos_iff.mp (by omega)
  cases place with
  | adds =>
      refine ⟨_, _, tid :: counted, rfl, ?_, ⟨?_, tally.exclusion, tally.vacant⟩,
        fun _ _ _ => ⟨rfl, rfl⟩, fun _ _ => rfl, ?_⟩
      · refine .outside (.idle lock) ?_ (by simp [balance])
        intro owns
        rw [unowned] at owns
        cases owns
      · simp [tally.length]
      · intro other apart
        exact List.count_cons_of_ne (Ne.symm apart)
  | begins =>
      have positive : 0 < object.readLockedCount := by
        rw [← tally.length]
        exact List.length_pos_of_mem (isCounted rfl)
      exact ⟨object, _, counted, if_pos positive, .same tally (.reader .lowers holds balance)⟩
  | lowers =>
      have member := isCounted rfl
      refine ⟨_, _, counted.erase tid, rfl, ?_, ⟨?_, tally.exclusion, tally.vacant⟩,
        fun _ _ _ => ⟨rfl, rfl⟩, fun _ _ => rfl, ?_⟩
      · have positive := List.count_pos_iff.mpr member
        refine .reader .unrecords holds ?_
        rw [List.count_erase_self, balance]
        omega
      · simp [List.length_erase_of_mem member, tally.length]
      · intro other apart
        exact List.count_erase_of_ne apart

theorem Progress.run {next : Book} {rest : List Book} {following : After}
    (progress : Progress tid lock object counted (.book lock next rest following))
    (tally : object.Tally counted) :
    ∃ changed remaining later, next.run tid object rest = some (changed, remaining) ∧
      Recounted tid lock object counted changed later (.ofBooks lock following remaining) := by
  cases progress with
  | outside place named balance =>
      obtain ⟨mode, same⟩ := place.waits_of_target rfl
      cases same
  | writer place owns counts names balance =>
      obtain ⟨changed, remaining, ran, recounted⟩ :=
        place.run owns counts names balance tally
      exact ⟨changed, remaining, counted, ran, recounted⟩
  | reader place holds balance => exact place.run holds balance tally

theorem grant_recounted {mode : Mode} (shared : object.kind = .sharedMutex)
    (checked : object.lockdep = true)
    (progress : Progress tid lock object counted (.acquiring lock mode))
    (tally : object.Tally counted) (granted : grantTo object tid mode = some after)
    (goes : pc = .locked lock mode ∨
      pc = .ofBooks lock .finish (postLock object.kind mode object.lockdep)) :
    Recounted tid lock object counted after counted pc := by
  obtain ⟨_, balance⟩ := progress.waiting
  rw [shared, checked] at goes
  cases mode with
  | exclusive =>
      rw [grantTo] at granted
      split_ifs at granted with free
      cases granted
      have zero := tally.vacant free.1
      refine ⟨?_, ⟨tally.length, fun _ => free.2, fun _ => zero⟩, fun _ _ _ => ⟨rfl, rfl⟩,
        fun _ _ => rfl, fun _ _ => rfl⟩
      rcases goes with rfl | rfl
      · exact .writer .granted rfl zero (by simp) balance
      · exact .writer .asserts rfl zero (by simp) balance
  | shared =>
      rw [grantTo] at granted
      split_ifs at granted with free
      cases granted
      have held : (tid :: object.readers).count tid = counted.count tid + 1 := by
        rw [List.count_cons_self, balance]
      refine ⟨?_, ⟨tally.length, fun owned => absurd free owned, tally.vacant⟩,
        fun _ _ _ => ⟨rfl, rfl⟩, fun other apart => List.count_cons_of_ne (Ne.symm apart),
        fun _ _ => rfl⟩
      rcases goes with rfl | rfl
      · exact .reader .granted List.mem_cons_self held
      · exact .reader .adds List.mem_cons_self held

theorem settle_recounted {mode : Mode} (shared : object.kind = .sharedMutex)
    (checked : object.lockdep = true)
    (progress : Progress tid lock object counted (.locked lock mode))
    (tally : object.Tally counted) :
    Recounted tid lock object counted object counted
      (.ofBooks lock .finish (postLock object.kind mode object.lockdep)) := by
  rw [shared, checked]
  cases progress with
  | outside place named balance =>
      obtain ⟨mode, same⟩ := place.waits_of_target rfl
      cases same
  | writer place owns counts names balance =>
      cases place
      exact .same tally (.writer .asserts owns counts names balance)
  | reader place holds balance =>
      cases place
      exact .same tally (.reader .adds holds balance)

theorem leave_recounted {mode : Mode} {following : After} (shared : object.kind = .sharedMutex)
    (checked : object.lockdep = true) (progress : Progress tid lock object counted .idle)
    (tally : object.Tally counted) (leaves : Leaves tid lock object action mode following)
    (owner : action = .unlock tid lock → object.owner = some tid)
    (reader : action = .unlockShared tid lock → tid ∈ object.readers) :
    Recounted tid lock object counted object counted
      (.ofBooks lock following (preUnlock object.kind mode object.lockdep)) := by
  obtain ⟨named, balance⟩ := progress.settled (by simp [Pc.target])
  cases leaves with
  | unlock =>
      have owns := owner rfl
      rw [shared, checked]
      exact .same tally
        (.writer .begins owns (named owns).1 (fun _ => (named owns).2) balance)
  | unlockShared _ =>
      rw [shared, checked]
      exact .same tally (.reader .begins (reader rfl) balance)
  | wait cond mutex =>
      rw [shared] at mutex
      cases mutex

theorem unlock_recounted (progress : Progress tid lock object counted (.unlocking lock))
    (tally : object.Tally counted) (released : releaseBy object tid = some after) :
    Recounted tid lock object counted after counted .idle := by
  cases progress with
  | outside place named balance =>
      obtain ⟨mode, same⟩ := place.waits_of_target rfl
      cases same
  | writer place owns counts names balance =>
      cases place
      rw [releaseBy, if_pos owns, Option.some.injEq] at released
      subst released
      refine .own owns tally (.outside (.idle lock) ?_ balance) (fun _ => counts) rfl rfl
      intro impossible
      cases impossible
  | reader place holds balance =>
      cases place
      have unowned := tally.unowned holds
      rw [releaseBy, if_neg (by simp [unowned]), if_pos holds, Option.some.injEq] at released
      subst released
      refine ⟨.outside (.idle lock) ?_ ?_, ⟨tally.length, ?_, tally.vacant⟩,
        fun _ _ _ => ⟨rfl, rfl⟩, fun other apart => List.count_erase_of_ne apart, fun _ _ => rfl⟩
      · intro impossible
        rw [unowned] at impossible
        cases impossible
      · rw [List.count_erase_self, balance]
        omega
      · intro owned
        exact absurd unowned owned

theorem Progress.ownedBy (progress : Progress tid lock object counted (.unlocking lock)) :
    object.OwnedBy tid := by
  cases progress with
  | outside place named balance =>
      obtain ⟨mode, same⟩ := place.waits_of_target rfl
      cases same
  | writer place owns counts names balance => exact Or.inl owns
  | reader place holds balance => exact Or.inr holds

theorem LockMove.recounted (moved : LockMove action tid lock object old after pc)
    (shared : object.kind = .sharedMutex) (checked : object.lockdep = true)
    (progress : Progress tid lock object counted old) (tally : object.Tally counted)
    (owner : action = .unlock tid lock → object.owner = some tid)
    (reader : action = .unlockShared tid lock → tid ∈ object.readers) :
    ∃ later, Recounted tid lock object counted after later pc := by
  have notMutex {goal : Prop} (mutex : object.kind = .mutex) : goal := by
    rw [shared] at mutex
    cases mutex
  cases moved with
  | call mutex => exact notMutex mutex
  | callShared mode _ =>
      obtain ⟨named, balance⟩ := progress.settled (by simp [Pc.target])
      exact ⟨counted, .same tally (.outside (.waits mode rfl) named balance)⟩
  | block => exact absurd rfl progress.not_mutex.1
  | refuse mode =>
      obtain ⟨named, balance⟩ := progress.waiting
      exact ⟨counted, .same tally (.outside (.idle lock) named balance)⟩
  | grant wants granted goes =>
      cases wants with
      | tries mutex => exact notMutex mutex
      | triesFirst => exact absurd rfl progress.not_mutex.1
      | acquires mode =>
          exact ⟨counted, grant_recounted shared checked progress tally granted goes⟩
      | returns cond => exact absurd rfl (progress.not_mutex.2 cond).2.2
  | settle mode => exact ⟨counted, settle_recounted shared checked progress tally⟩
  | book ran =>
      obtain ⟨changed, remaining, later, same, recounted⟩ := progress.run tally
      rw [ran, Option.some.injEq, Prod.mk.injEq] at same
      obtain ⟨rfl, rfl⟩ := same
      exact ⟨later, recounted⟩
  | leave leaves =>
      exact ⟨counted, leave_recounted shared checked progress tally leaves owner reader⟩
  | unrecord =>
      refine ⟨counted, .same tally ?_⟩
      cases progress with
      | outside place named balance =>
          obtain ⟨mode, same⟩ := place.waits_of_target rfl
          cases same
      | writer place owns counts names balance =>
          cases place
          exact .writer .unlocks owns counts names balance
      | reader place holds balance =>
          cases place
          exact .reader .unlocks holds balance
  | unlock released => exact ⟨counted, unlock_recounted progress tally released⟩
  | park cond released => exact absurd rfl (progress.not_mutex.2 cond).1
  | fail inside failed =>
      rcases inside with rfl | ⟨cond, rfl⟩
      · exact absurd progress.ownedBy (releaseBy_none failed)
      · exact absurd rfl (progress.not_mutex.2 cond).1
  | wake cond => exact absurd rfl (progress.not_mutex.2 cond).2.1

end Moves

/-! ### The invariant over runs -/

structure State.Tallied (state : State) (lock : Nat) (object : LockObject)
    (counted : List Tid) : Prop where
  tally : object.Tally counted
  present : ∀ tid, object.owner = some tid → tid < state.threads.length
  absent : ∀ tid, state.threads.length ≤ tid → object.readers.count tid = counted.count tid
  threads : ∀ (tid : Tid) (pc : Pc), state.threads[tid]? = some pc →
    Progress tid lock object counted pc

def SharedBooked (state : State) : Prop :=
  ∀ (lock : Nat) (object : LockObject), state.objects[lock]? = some object →
    object.live = true → object.kind = .sharedMutex → object.lockdep = true →
    ∃ counted, state.Tallied lock object counted

section Runs

variable {state next : State} {action : Action} {tid : Tid} {lock : Nat}
  {object after : LockObject} {counted : List Tid} {old pc : Pc}

theorem tallied_created {kind : Kind} {name : Name} {id : Option Nat} {lockdep : Bool}
    (untouched : ∀ (tid : Tid) (pc : Pc), state.threads[tid]? = some pc →
      pc.target ≠ some lock) : state.Tallied lock (newObject kind name id lockdep) [] where
  tally := ⟨rfl, fun _ => rfl, fun _ => rfl⟩
  present _ owner := by cases owner
  absent _ _ := rfl
  threads tid pc thread := by
    refine .outside (.apart (untouched tid pc thread)) ?_ rfl
    intro owner
    cases owner

theorem State.Tallied.congr (tallied : state.Tallied lock object counted)
    (threads : next.threads = state.threads) : next.Tallied lock object counted := by
  refine ⟨tallied.tally, ?_, ?_, ?_⟩
  · rw [threads]
    exact tallied.present
  · rw [threads]
    exact tallied.absent
  · rw [threads]
    exact tallied.threads

theorem State.Tallied.move (tallied : state.Tallied lock object counted)
    (thread : state.threads[tid]? = some old)
    (moved : LockMove action tid lock object old after pc) (shared : object.kind = .sharedMutex)
    (checked : object.lockdep = true)
    (owner : action = .unlock tid lock → object.owner = some tid)
    (reader : action = .unlockShared tid lock → tid ∈ object.readers)
    (threads : next.threads = state.threads.set tid pc) :
    ∃ later, next.Tallied lock after later := by
  obtain ⟨later, recounted⟩ :=
    moved.recounted shared checked (tallied.threads tid old thread) tallied.tally owner reader
  have below := (List.getElem?_eq_some_iff.mp thread).1
  refine ⟨later, recounted.tally, ?_, ?_, ?_⟩
  · intro one owns
    rw [threads, List.length_set]
    by_cases same : one = tid
    · rw [same]
      exact below
    · exact tallied.present one ((moved.bystander same).1.mp owns)
  · intro one above
    rw [threads, List.length_set] at above
    have apart : one ≠ tid := by omega
    rw [recounted.readers one apart, recounted.others one apart]
    exact tallied.absent one above
  · intro one place atOne
    rw [threads] at atOne
    rcases getElem?_set_cases thread atOne with ⟨rfl, rfl⟩ | ⟨different, before⟩
    · exact recounted.progress
    · have apart := Ne.symm different
      exact (tallied.threads one place before).transfer (moved.bystander apart).1
        (recounted.fields one apart) (recounted.readers one apart) (recounted.others one apart)

theorem State.Tallied.elsewhere {other : Nat} {one : LockObject}
    (tallied : state.Tallied other one counted) (thread : state.threads[tid]? = some old)
    (moved : LockMove action tid lock object old after pc) (apart : lock ≠ other)
    (threads : next.threads = state.threads.set tid pc) : next.Tallied other one counted := by
  obtain ⟨oldAway, newAway⟩ := moved.away apart
  refine ⟨tallied.tally, ?_, ?_, ?_⟩
  · rw [threads, List.length_set]
    exact tallied.present
  · rw [threads, List.length_set]
    exact tallied.absent
  · intro actor place atActor
    rw [threads] at atActor
    rcases getElem?_set_cases thread atActor with ⟨rfl, rfl⟩ | ⟨_, before⟩
    · obtain ⟨named, balance⟩ := (tallied.threads _ old thread).settled oldAway
      exact .outside (.apart newAway) named balance
    · exact tallied.threads actor place before

theorem Contract.owner (contract : Contract state action)
    (present : state.object? lock = some object) (shared : object.kind = .sharedMutex)
    (unlocks : action = .unlock tid lock) : object.owner = some tid := by
  rw [unlocks] at contract
  exact contract object present shared

theorem Contract.reader (contract : Contract state action)
    (present : state.object? lock = some object)
    (unlocks : action = .unlockShared tid lock) : tid ∈ object.readers := by
  rw [unlocks] at contract
  exact contract object present

theorem SharedBooked.step (booked : SharedBooked state) (consistent : Consistent state)
    (contract : Contract state action) (touch : Touch state action next) :
    SharedBooked next := by
  apply touch.forall_live (fun current lock object => object.kind = .sharedMutex →
    object.lockdep = true → ∃ counted, current.Tallied lock object counted) consistent booked
  · intro lock object threads before shared checked
    obtain ⟨counted, tallied⟩ := before shared checked
    exact ⟨counted, tallied.congr threads⟩
  · intro lock kind name id lockdep untouched _ _
    exact ⟨[], tallied_created untouched⟩
  · intro tid lock object after old pc present thread moved threads before shared checked
    have wasShared := moved.kept.1.symm.trans shared
    have wasChecked := moved.lockdep.symm.trans checked
    obtain ⟨counted, tallied⟩ := before wasShared wasChecked
    exact tallied.move thread moved wasShared wasChecked (contract.owner present wasShared)
      (contract.reader present) threads
  · intro tid lock other object one after old pc thread moved apart threads before shared checked
    obtain ⟨counted, tallied⟩ := before shared checked
    exact ⟨counted, tallied.elsewhere thread moved apart threads⟩

theorem contract_consistent (reached : Runs.Reachable system Contract state) :
    Consistent state :=
  reachable_consistent (fun _ _ contract => contract.destroysUnused) reached

theorem reachable_sharedBooked (reached : Runs.Reachable system Contract state) :
    SharedBooked state := by
  apply reached.invariant
  · intro current initial
    obtain ⟨threads, rfl⟩ := initial
    intro lock object found
    cases found
  · intro current action following before booked contract taken
    have consistent := contract_consistent before
    exact booked.step consistent contract (step_touch consistent taken)

theorem State.Tallied.le (tallied : state.Tallied lock object counted) (tid : Tid) :
    counted.count tid ≤ object.readers.count tid := by
  rcases Nat.lt_or_ge tid state.threads.length with below | above
  · exact (tallied.threads tid _ (List.getElem?_eq_getElem below)).le
  · exact (tallied.absent tid above).ge

theorem State.Tallied.binary (tallied : state.Tallied lock object counted) :
    object.lockedCount = 0 ∨ object.lockedCount = 1 := by
  cases owner : object.owner with
  | none => exact Or.inl (tallied.tally.vacant owner)
  | some tid =>
      have thread := List.getElem?_eq_getElem (tallied.present tid owner)
      cases tallied.threads tid _ thread with
      | outside place named balance => exact Or.inr (named owner).1
      | writer place owns counts names balance =>
          rw [counts]
          exact place.binary
      | reader place holds balance =>
          rw [tallied.tally.unowned holds] at owner
          cases owner

theorem State.Tallied.exclusive (tallied : state.Tallied lock object counted)
    (owned : object.owner ≠ none) : object.readLockedCount = 0 := by
  have nobody : counted = [] := by
    rw [List.eq_nil_iff_forall_not_mem]
    intro tid member
    have positive := List.count_pos_iff.mpr member
    have bound := tallied.le tid
    rw [tallied.tally.exclusion owned, List.count_nil] at bound
    omega
  rw [← tallied.tally.length, nobody, List.length_nil]

theorem State.Tallied.quiet (tallied : state.Tallied lock object counted)
    (quiet : ∀ (tid : Tid) (pc : Pc), state.threads[tid]? = some pc → pc.target ≠ some lock) :
    object.readLockedCount = object.readers.length ∧
      object.lockedCount = object.owner.toList.length := by
  constructor
  · have same : object.readers.Perm counted := by
      rw [List.perm_iff_count]
      intro tid
      rcases Nat.lt_or_ge tid state.threads.length with below | above
      · have thread := List.getElem?_eq_getElem below
        exact ((tallied.threads tid _ thread).settled (quiet tid _ thread)).2
      · exact tallied.absent tid above
    rw [← tallied.tally.length, same.length_eq]
  · cases owner : object.owner with
    | none => exact tallied.tally.vacant owner
    | some tid =>
        have thread := List.getElem?_eq_getElem (tallied.present tid owner)
        exact (((tallied.threads tid _ thread).settled (quiet tid _ thread)).1 owner).1

end Runs

/-! ### Every interleaving -/

/-- Every entry of `readers` is one shared hold; `owner` is the exclusive one. -/
theorem shared_counters_exact {state : State} {lock : Nat} {object : LockObject}
    (reached : Runs.Reachable system Contract state)
    (present : state.object? lock = some object) (shared : object.kind = .sharedMutex)
    (checked : object.lockdep = true) :
    (∀ (tid : Tid) (next : Book) (rest : List Book) (after : After),
        state.threads[tid]? = some (.book lock next rest after) →
        (next.run tid object rest).isSome = true) ∧
      (object.lockedCount = 0 ∨ object.lockedCount = 1) ∧
      ¬(isWlocked object = true ∧ isRlocked object = true) ∧
      ((∀ (tid : Tid) (pc : Pc), state.threads[tid]? = some pc → pc.target ≠ some lock) →
        object.readLockedCount = object.readers.length ∧
          object.lockedCount = object.owner.toList.length) := by
  obtain ⟨found, live⟩ := object?_eq_some.mp present
  obtain ⟨counted, tallied⟩ := reachable_sharedBooked reached lock object found live shared checked
  refine ⟨?_, tallied.binary, ?_, tallied.quiet⟩
  · intro tid next rest after thread
    obtain ⟨changed, remaining, later, ran, _⟩ := (tallied.threads tid _ thread).run tallied.tally
    rw [ran]
    rfl
  · intro both
    obtain ⟨writes, reads⟩ := both
    have written : 0 < object.lockedCount := of_decide_eq_true writes
    have owned : object.owner ≠ none := by
      intro free
      rw [tallied.tally.vacant free] at written
      cases written
    have none := tallied.exclusive owned
    have read : 0 < object.readLockedCount := of_decide_eq_true reads
    omega

/-- One reader is counted, another one has just got the rwlock, and a writer waits
for it. -/
theorem shared_counters_exact_contended :
    ∃ state object, Runs.Reachable system Contract state ∧ state.object? 0 = some object ∧
      state.threads[1]? = some (.book 0 .addRead [] .finish) ∧
      state.threads[2]? = some (.acquiring 0 .exclusive) ∧ object.readers = [1, 0] ∧
      object.readLockedCount = 1 ∧ (Book.addRead.run 1 object []).isSome = true := by
  obtain ⟨state, reached, passed⟩ := Runs.exists_of_replay Contract
    (show system.initial (State.initial 3) from ⟨3, rfl⟩)
    ([.create .sharedMutex [120] true, .lockShared 0 0 ⟨0, []⟩] ++
      List.replicate 3 (.advance 0 ⟨0, []⟩) ++ [.lockShared 1 0 ⟨0, []⟩] ++
      List.replicate 2 (.advance 1 ⟨0, []⟩) ++ [.lock 2 0 ⟨0, []⟩])
    (fun state : State => decide (∃ object ∈ state.object? 0, object.kind = .sharedMutex ∧
      object.lockdep = true ∧ state.threads[1]? = some (Pc.book 0 .addRead [] .finish) ∧
      state.threads[2]? = some (Pc.acquiring 0 .exclusive) ∧ object.readers = [1, 0] ∧
      object.readLockedCount = 1)) (by decide +kernel)
  obtain ⟨object, present, shared, checked, adds, waits, readers, count⟩ :=
    of_decide_eq_true passed
  have exact := shared_counters_exact reached present shared checked
  exact ⟨state, object, reached, present, adds, waits, readers, count, exact.1 1 _ _ _ adds⟩

/-- A thread holds a checked shared mutex at most once, unless it has given back
another lock of the same name. -/
theorem shared_holders_distinct {state : State} {lock : Nat} {object : LockObject}
    (reached : Runs.Reachable system
      (fun state action => Contract state action ∧ NoTwinUnlock state action) state)
    (present : state.object? lock = some object) (checked : object.lockdep = true) :
    object.readers.Nodup := by
  obtain ⟨found, live⟩ := object?_eq_some.mp present
  have precise := reachable_precise (fun _ _ permitted => permitted.1.destroysUnused)
    (fun _ _ _ => And.right) reached
  exact (precise.solo lock object found ⟨live, checked⟩).nodup

end BlueThread.Locks
