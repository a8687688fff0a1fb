/-
What a lock-order checker is for, without tables, names or program counters.

Threads, locks and identifiers are arbitrary types. A state says which lock
carries which identifier, who owns what, which identifiers each thread is
recorded to hold, which orders have been recorded, and how far each thread is in
its current operation. The moves are the points at which one of these changes.
A thread that waits on a condition has given its lock up while it stays
recorded as holding it; the move that resolves to wait comes before that.
-/

import BlueThread.Foundation.Digraph
import Mathlib.Logic.Function.Basic

namespace BlueThread.LockProtocol

open Relation BlueThread.Digraph

universe u v w

variable {thread : Type u} {lock : Type v} {ident : Type w}

inductive Phase (lock : Type v)
  | quiet
  | wanting (target : lock)
  | grabbed (target : lock)
  | releasing (target : lock)
  | dropping (target : lock)
  | resolved (target : lock)
  | parked (target : lock)

def Phase.About : Phase lock → lock → Prop
  | .quiet, _ => False
  | .wanting target, other => other = target
  | .grabbed target, other => other = target
  | .releasing target, other => other = target
  | .dropping target, other => other = target
  | .resolved target, other => other = target
  | .parked target, other => other = target

@[ext] structure State (thread : Type u) (lock : Type v) (ident : Type w) where
  carries : lock → ident → Prop
  owns : thread → lock → Prop
  held : thread → ident → Prop
  follows : ident → ident → Prop
  phase : thread → Phase lock

/-- `seize` is an acquisition that was not announced by `intend`. The flag of
`drop` and `park` says that the thread holds the lock once more than it gives
back. -/
inductive Move (thread : Type u) (lock : Type v) (ident : Type w)
  | create (target : lock) (id : ident)
  | destroy (target : lock)
  | intend (actor : thread) (target : lock) (id : ident)
  | giveUp (actor : thread) (target : lock)
  | grab (actor : thread) (target : lock)
  | seize (actor : thread) (target : lock)
  | record (actor : thread) (target : lock) (id : ident)
  | release (actor : thread) (target : lock)
  | unrecord (actor : thread) (target : lock) (id : ident)
  | drop (actor : thread) (target : lock) (again : Bool)
  | resolve (actor : thread) (target : lock)
  | park (actor : thread) (target : lock) (again : Bool)
  | unpark (actor : thread) (target : lock)

namespace State

def Unused (state : State thread lock ident) (target : lock) : Prop :=
  (∀ actor, ¬state.owns actor target) ∧ ∀ actor, ¬(state.phase actor).About target

def Carried (state : State thread lock ident) (id : ident) : Prop :=
  ∃ target, state.carries target id

/-- A lock whose identifier belongs in the thread's held set: owned outside the
two gaps around recording, or given up only for a condition wait. -/
def Recorded (state : State thread lock ident) (actor : thread) (target : lock) : Prop :=
  (state.owns actor target ∧ state.phase actor ≠ .grabbed target ∧
      state.phase actor ≠ .dropping target) ∨
    state.phase actor = .parked target

def Enabled (state : State thread lock ident) : Move thread lock ident → Prop
  | .create target _ => (∀ id, ¬state.carries target id) ∧ state.Unused target
  | .destroy target => state.Unused target
  | .intend actor target id =>
      state.phase actor = .quiet ∧ state.carries target id ∧
        ∀ held, state.held actor held → held ≠ id ∧ ¬TransGen state.follows id held
  | .giveUp actor target =>
      state.phase actor = .wanting target ∨ state.phase actor = .resolved target
  | .grab actor target => state.phase actor = .wanting target
  | .seize actor target =>
      state.phase actor = .quiet ∧ (∃ id, state.carries target id) ∧ ¬state.owns actor target
  | .record actor target id => state.phase actor = .grabbed target ∧ state.carries target id
  | .release actor target => state.phase actor = .quiet ∧ ∃ id, state.carries target id
  | .unrecord actor target id => state.phase actor = .releasing target ∧ state.carries target id
  | .drop actor target _ => state.phase actor = .dropping target
  | .resolve actor target => state.phase actor = .quiet ∧ ∃ id, state.carries target id
  | .park actor target _ => state.phase actor = .resolved target ∧ state.owns actor target
  | .unpark actor target => state.phase actor = .parked target

variable [DecidableEq thread]

def enter (state : State thread lock ident) (actor : thread) (phase : Phase lock) :
    State thread lock ident :=
  { state with phase := Function.update state.phase actor phase }

def acquire (state : State thread lock ident) (actor : thread) (target : lock) :
    State thread lock ident :=
  { state with
    owns := fun other one => state.owns other one ∨ (other = actor ∧ one = target) }

def relinquish (state : State thread lock ident) (actor : thread) (target : lock)
    (again : Bool) : State thread lock ident :=
  { state with
    owns := fun other one => state.owns other one ∧
      (other = actor ∧ one = target → again = true) }

def apply (state : State thread lock ident) : Move thread lock ident → State thread lock ident
  | .create target id =>
      { state with
        carries := fun other carried => state.carries other carried ∨
          (other = target ∧ carried = id) }
  | .destroy target =>
      let carries := fun other carried => state.carries other carried ∧ other ≠ target
      { state with
        carries := carries
        follows := fun left right => state.follows left right ∧
          (∃ other, carries other left) ∧ ∃ other, carries other right }
  | .intend actor target id =>
      { state.enter actor (.wanting target) with
        follows := insertInto state.follows (state.held actor) id }
  | .giveUp actor _ => state.enter actor .quiet
  | .grab actor target => (state.acquire actor target).enter actor (.grabbed target)
  | .seize actor target => (state.acquire actor target).enter actor (.grabbed target)
  | .record actor _ id =>
      { state.enter actor .quiet with
        held := fun other one => state.held other one ∨ (other = actor ∧ one = id) }
  | .release actor target => state.enter actor (.releasing target)
  | .unrecord actor target id =>
      { state.enter actor (.dropping target) with
        held := fun other one => state.held other one ∧ ¬(other = actor ∧ one = id) }
  | .drop actor target again => (state.relinquish actor target again).enter actor .quiet
  | .resolve actor target => state.enter actor (.resolved target)
  | .park actor target again => (state.relinquish actor target again).enter actor (.parked target)
  | .unpark actor target => (state.acquire actor target).enter actor .quiet

end State

/-! ### What every run keeps -/

structure Sound (state : State thread lock ident) : Prop where
  acyclic : Acyclic state.follows
  carried : ∀ left right, state.follows left right → state.Carried left ∧ state.Carried right
  functional : ∀ target left right, state.carries target left → state.carries target right →
    left = right
  mentioned : ∀ actor target, (state.phase actor).About target →
    ∃ id, state.carries target id
  owned : ∀ actor target, state.owns actor target → ∃ id, state.carries target id
  grabbed : ∀ actor target, state.phase actor = .grabbed target → state.owns actor target
  recorded : ∀ actor id, state.held actor id →
    ∃ target, state.carries target id ∧ state.Recorded actor target
  checked : ∀ actor target id, state.phase actor = .wanting target →
    state.carries target id →
    ∀ held, state.held actor held → held ≠ id ∧ state.follows held id

variable [DecidableEq thread] {state : State thread lock ident}
  {move : Move thread lock ident}

/-! One move, seen from each component. These lemmas split the moves; the
invariants below only compose them. -/

theorem apply_carries (enabled : state.Enabled move) {target : lock} {id : ident}
    (carries : state.carries target id)
    (used : (∃ actor, state.owns actor target) ∨
      ∃ actor, (state.phase actor).About target) :
    (state.apply move).carries target id := by
  cases move with
  | create other carried => exact Or.inl carries
  | destroy other =>
      refine ⟨carries, ?_⟩
      rintro rfl
      rcases used with ⟨actor, owns⟩ | ⟨actor, about⟩
      · exact enabled.1 actor owns
      · exact enabled.2 actor about
  | _ => exact carries

theorem carries_of_apply {target : lock} {id : ident}
    (carries : (state.apply move).carries target id) :
    state.carries target id ∨ move = .create target id := by
  cases move with
  | create other carried =>
      rcases carries with old | ⟨rfl, rfl⟩
      · exact Or.inl old
      · exact Or.inr rfl
  | destroy other => exact Or.inl carries.1
  | _ => exact Or.inl carries

theorem held_of_apply {actor : thread} {id : ident}
    (held : (state.apply move).held actor id) :
    state.held actor id ∨ ∃ target, move = .record actor target id := by
  cases move with
  | record other target recorded =>
      rcases held with old | ⟨rfl, rfl⟩
      · exact Or.inl old
      · exact Or.inr ⟨target, rfl⟩
  | unrecord other target removed => exact Or.inl held.1
  | _ => exact Or.inl held

theorem recorded_kept (enabled : state.Enabled move) {actor : thread} {target : lock}
    (recorded : state.Recorded actor target) (notGrab : move ≠ .grab actor target)
    (notSeize : move ≠ .seize actor target)
    (notUnrecord : ∀ id, move ≠ .unrecord actor target id) :
    (state.apply move).Recorded actor target := by
  unfold State.Recorded at recorded ⊢
  cases move <;>
    simp only [State.apply, State.enter, State.acquire, State.relinquish, State.Enabled,
      Function.update_apply] at * <;> grind

theorem recorded_of_apply (enabled : state.Enabled move) {actor : thread} {target : lock}
    (recorded : (state.apply move).Recorded actor target)
    (clean : move ≠ .drop actor target true) :
    state.Recorded actor target ∨ ∃ id, move = .record actor target id := by
  unfold State.Recorded at recorded ⊢
  cases move <;>
    simp only [State.apply, State.enter, State.acquire, State.relinquish, State.Enabled,
      Function.update_apply, Move.record.injEq, reduceCtorEq] at * <;> grind

omit [DecidableEq thread] in
theorem State.recorded_of_phase {actor : thread} {target : lock} {phase : Phase lock}
    (owns : state.owns actor target) (current : state.phase actor = phase)
    (notGrabbed : phase ≠ .grabbed target) (notDropping : phase ≠ .dropping target) :
    state.Recorded actor target := by
  subst current
  exact Or.inl ⟨owns, notGrabbed, notDropping⟩

omit [DecidableEq thread] in
theorem State.Recorded.used {actor : thread} {target : lock}
    (recorded : state.Recorded actor target) :
    (∃ owner, state.owns owner target) ∨ ∃ other, (state.phase other).About target := by
  rcases recorded with ⟨owns, _⟩ | parked
  · exact Or.inl ⟨actor, owns⟩
  · exact Or.inr ⟨actor, by rw [parked]; rfl⟩

theorem apply_follows (enabled : state.Enabled move) {left right : ident}
    (follows : state.follows left right) {first second : lock}
    (leftCarried : state.carries first left) (rightCarried : state.carries second right)
    (firstUsed : (∃ actor, state.owns actor first) ∨
      ∃ actor, (state.phase actor).About first)
    (secondUsed : (∃ actor, state.owns actor second) ∨
      ∃ actor, (state.phase actor).About second) :
    (state.apply move).follows left right := by
  cases move with
  | destroy other =>
      exact ⟨follows, ⟨first, apply_carries enabled leftCarried firstUsed⟩,
        ⟨second, apply_carries enabled rightCarried secondUsed⟩⟩
  | intend actor target id => exact Or.inl follows
  | _ => exact follows

theorem wanting_of_apply {actor : thread} {target : lock}
    (wanting : (state.apply move).phase actor = .wanting target) :
    state.phase actor = .wanting target ∨ ∃ id, move = .intend actor target id := by
  cases move <;>
    simp only [State.apply, State.enter, State.acquire, State.relinquish,
      Function.update_apply, Move.intend.injEq, reduceCtorEq] at * <;> grind

theorem grabbed_of_apply {actor : thread} {target : lock}
    (grabbed : (state.apply move).phase actor = .grabbed target) :
    state.phase actor = .grabbed target ∨ move = .grab actor target ∨
      move = .seize actor target := by
  cases move <;>
    simp only [State.apply, State.enter, State.acquire, State.relinquish,
      Function.update_apply, reduceCtorEq] at * <;> grind

theorem releasing_of_apply {actor : thread} {target : lock}
    (releasing : (state.apply move).phase actor = .releasing target) :
    state.phase actor = .releasing target ∨ move = .release actor target := by
  cases move <;>
    simp only [State.apply, State.enter, State.acquire, State.relinquish,
      Function.update_apply, reduceCtorEq] at * <;> grind

theorem owns_kept {actor : thread} {target : lock} (owns : state.owns actor target)
    (notDrop : ∀ again, move ≠ .drop actor target again)
    (notPark : ∀ again, move ≠ .park actor target again) : (state.apply move).owns actor target := by
  cases move <;>
    simp only [State.apply, State.enter, State.acquire, State.relinquish] at * <;> grind

theorem owns_of_apply {actor : thread} {target : lock}
    (owns : (state.apply move).owns actor target) :
    state.owns actor target ∨ move = .grab actor target ∨ move = .seize actor target ∨
      move = .unpark actor target := by
  cases move <;>
    simp only [State.apply, State.enter, State.acquire, State.relinquish] at * <;> grind

theorem about_of_apply (enabled : state.Enabled move) {actor : thread} {target : lock}
    (about : ((state.apply move).phase actor).About target) :
    (state.phase actor).About target ∨
      ∃ id, state.carries target id ∧ ∀ other, move ≠ .destroy other := by
  cases move <;>
    simp only [State.apply, State.enter, State.acquire, State.relinquish, State.Enabled,
      Function.update_apply] at * <;> grind [Phase.About]

/-! ### Every move keeps the invariant -/

theorem Sound.apply_mentioned (sound : Sound state) (enabled : state.Enabled move)
    {actor : thread} {target : lock} (about : ((state.apply move).phase actor).About target) :
    ∃ id, (state.apply move).carries target id := by
  rcases about_of_apply enabled about with old | ⟨id, carries, notDestroy⟩
  · obtain ⟨id, carries⟩ := sound.mentioned actor target old
    exact ⟨id, apply_carries enabled carries (Or.inr ⟨actor, old⟩)⟩
  · refine ⟨id, ?_⟩
    cases move with
    | create other carried => exact Or.inl carries
    | destroy other => exact absurd rfl (notDestroy other)
    | _ => exact carries

theorem Sound.apply_owned (sound : Sound state) (enabled : state.Enabled move)
    {actor : thread} {target : lock} (owns : (state.apply move).owns actor target) :
    ∃ id, (state.apply move).carries target id := by
  rcases owns_of_apply owns with old | rfl | rfl | rfl
  · obtain ⟨id, carries⟩ := sound.owned actor target old
    exact ⟨id, apply_carries enabled carries (Or.inl ⟨actor, old⟩)⟩
  · exact sound.mentioned actor target (by rw [enabled]; rfl)
  · exact enabled.2.1
  · exact sound.mentioned actor target (by rw [enabled]; rfl)

theorem Sound.apply_grabbed (sound : Sound state) (enabled : state.Enabled move)
    {actor : thread} {target : lock}
    (grabbed : (state.apply move).phase actor = .grabbed target) :
    (state.apply move).owns actor target := by
  rcases grabbed_of_apply grabbed with old | rfl | rfl
  · apply owns_kept (sound.grabbed actor target old)
    · rintro again rfl
      rw [State.Enabled, old] at enabled
      cases enabled
    · rintro again rfl
      rw [State.Enabled, old] at enabled
      cases enabled.1
  · exact Or.inr ⟨rfl, rfl⟩
  · exact Or.inr ⟨rfl, rfl⟩

/-- The held identifiers keep a recorded carrier. A lock acquired again is not
the carrier: its identifier was checked against the held ones. -/
theorem Sound.apply_recorded (sound : Sound state) (enabled : state.Enabled move)
    {actor : thread} {id : ident} (held : (state.apply move).held actor id) :
    ∃ target, (state.apply move).carries target id ∧
      (state.apply move).Recorded actor target := by
  rcases held_of_apply held with old | ⟨target, rfl⟩
  · obtain ⟨target, carries, recorded⟩ := sound.recorded actor id old
    refine ⟨target, apply_carries enabled carries recorded.used, ?_⟩
    apply recorded_kept enabled recorded
    · rintro rfl
      exact (sound.checked actor target id enabled carries id old).1 rfl
    · rintro rfl
      rcases recorded with ⟨owns, _⟩ | parked
      · exact enabled.2.2 owns
      · rw [State.Enabled, parked] at enabled
        cases enabled.1
    · rintro removed rfl
      have same := sound.functional target id removed carries enabled.2
      exact held.2 ⟨rfl, same⟩
  · refine ⟨target, enabled.2, Or.inl ⟨sound.grabbed actor target enabled.1, ?_, ?_⟩⟩
    · simp [State.apply, State.enter]
    · simp [State.apply, State.enter]

theorem Sound.apply_checked (sound : Sound state) (enabled : state.Enabled move)
    {actor : thread} {target : lock} {id : ident}
    (wanting : (state.apply move).phase actor = .wanting target)
    (carries : (state.apply move).carries target id) {held : ident}
    (stillHeld : (state.apply move).held actor held) :
    held ≠ id ∧ (state.apply move).follows held id := by
  rcases wanting_of_apply wanting with old | ⟨checked, rfl⟩
  · have about : (state.phase actor).About target := by
      rw [old]
      rfl
    have wasHeld : state.held actor held := by
      rcases held_of_apply stillHeld with before | ⟨other, rfl⟩
      · exact before
      · rw [State.Enabled, old] at enabled
        cases enabled.1
    have wasCarried : state.carries target id := by
      rcases carries_of_apply carries with before | rfl
      · exact before
      · exact absurd about (enabled.2.2 actor)
    obtain ⟨different, follows⟩ := sound.checked actor target id old wasCarried held wasHeld
    obtain ⟨first, firstCarries, recorded⟩ := sound.recorded actor held wasHeld
    exact ⟨different, apply_follows enabled follows firstCarries wasCarried recorded.used
      (Or.inr ⟨actor, about⟩)⟩
  · have same : checked = id := sound.functional target checked id enabled.2.1 carries
    subst checked
    exact ⟨(enabled.2.2 held stillHeld).1, Or.inr ⟨stillHeld, rfl⟩⟩

theorem Sound.apply (sound : Sound state) (enabled : state.Enabled move) :
    Sound (state.apply move) where
  acyclic := by
    cases move with
    | intend actor target id =>
        exact sound.acyclic.insertInto (fun held isHeld => (enabled.2.2 held isHeld).1)
          (fun held isHeld => (enabled.2.2 held isHeld).2)
    | destroy target => exact sound.acyclic.mono (fun _ _ edge => edge.1)
    | _ => exact sound.acyclic
  carried := by
    intro left right edge
    cases move with
    | create target id =>
        obtain ⟨⟨first, leftCarries⟩, ⟨second, rightCarries⟩⟩ := sound.carried left right edge
        exact ⟨⟨first, Or.inl leftCarries⟩, ⟨second, Or.inl rightCarries⟩⟩
    | destroy target => exact edge.2
    | intend actor target id =>
        rcases edge with old | ⟨isHeld, rfl⟩
        · exact sound.carried left right old
        · obtain ⟨first, carries, _⟩ := sound.recorded actor left isHeld
          exact ⟨⟨first, carries⟩, ⟨target, enabled.2.1⟩⟩
    | _ => exact sound.carried left right edge
  functional := by
    intro target left right leftCarries rightCarries
    rcases carries_of_apply leftCarries with oldLeft | rfl
    · rcases carries_of_apply rightCarries with oldRight | rfl
      · exact sound.functional target left right oldLeft oldRight
      · exact absurd oldLeft (enabled.1 left)
    · rcases rightCarries with oldRight | ⟨_, same⟩
      · exact absurd oldRight (enabled.1 right)
      · exact same.symm
  mentioned := fun _ _ about => sound.apply_mentioned enabled about
  owned := fun _ _ owns => sound.apply_owned enabled owns
  grabbed := fun _ _ grabbed => sound.apply_grabbed enabled grabbed
  recorded := fun _ _ held => sound.apply_recorded enabled held
  checked := fun _ _ _ wanting carries _ held =>
    sound.apply_checked enabled wanting carries held

/-! ### Exact held sets

A held set can lose an identifier that two owned locks share. `Careful` moves do
not release one of two such locks, and give back what they hold only once. -/

def Apart (state : State thread lock ident) (actor : thread) (target : lock) : Prop :=
  ∀ other, other ≠ target → state.owns actor other →
    ∀ id, state.carries target id → ¬state.carries other id

def Careful (state : State thread lock ident) : Move thread lock ident → Prop
  | .release actor target => Apart state actor target
  | .drop _ _ again => again = false
  | _ => True

structure Exact (state : State thread lock ident) : Prop where
  accurate : ∀ actor target id, state.Recorded actor target → state.carries target id →
    state.held actor id
  apart : ∀ actor target, state.phase actor = .releasing target → Apart state actor target

theorem held_kept (move : Move thread lock ident) {actor : thread} {id : ident}
    (held : state.held actor id) :
    (state.apply move).held actor id ∨ ∃ target, move = .unrecord actor target id := by
  cases move with
  | record other target recorded => exact Or.inl (Or.inl held)
  | unrecord other target removed =>
      by_cases same : actor = other ∧ id = removed
      · obtain ⟨rfl, rfl⟩ := same
        exact Or.inr ⟨target, rfl⟩
      · exact Or.inl ⟨held, same⟩
  | _ => exact Or.inl held

theorem Exact.apply_accurate (precise : Exact state) (sound : Sound state)
    (enabled : state.Enabled move) (careful : Careful state move) {actor : thread}
    {target : lock} {id : ident} (recorded : (state.apply move).Recorded actor target)
    (carries : (state.apply move).carries target id) : (state.apply move).held actor id := by
  have clean : move ≠ .drop actor target true := by
    rintro rfl
    cases careful
  rcases recorded_of_apply enabled recorded clean with before | ⟨other, rfl⟩
  · have wasCarried : state.carries target id := by
      rcases carries_of_apply carries with old | rfl
      · exact old
      · rcases before.used with ⟨owner, owns⟩ | ⟨other, about⟩
        · exact absurd owns (enabled.2.1 owner)
        · exact absurd about (enabled.2.2 other)
    have wasHeld := precise.accurate actor target id before wasCarried
    rcases held_kept move wasHeld with kept | ⟨removed, rfl⟩
    · exact kept
    · -- Only the removed lock itself carries the removed identifier.
      have notRemoved : target ≠ removed := by
        rintro rfl
        rcases recorded with ⟨_, _, notDropping⟩ | parked
        · simp [State.apply, State.enter] at notDropping
        · simp [State.apply, State.enter] at parked
      have owns : state.owns actor target := by
        rcases before with ⟨owns, _⟩ | parked
        · exact owns
        · rw [State.Enabled, parked] at enabled
          cases enabled.1
      exact absurd wasCarried
        (precise.apart actor removed enabled.1 target notRemoved owns id enabled.2)
  · have same := sound.functional target other id enabled.2 carries
    exact Or.inr ⟨rfl, same.symm⟩

theorem Exact.apply_apart (precise : Exact state) (enabled : state.Enabled move)
    (careful : Careful state move) {actor : thread} {target : lock}
    (releasing : (state.apply move).phase actor = .releasing target) :
    Apart (state.apply move) actor target := by
  intro other different owns id targetCarries otherCarries
  rcases releasing_of_apply releasing with old | rfl
  · have ownsBefore : state.owns actor other := by
      rcases owns_of_apply owns with before | rfl | rfl | rfl
      · exact before
      · rw [State.Enabled, old] at enabled
        cases enabled
      · rw [State.Enabled, old] at enabled
        cases enabled.1
      · rw [State.Enabled, old] at enabled
        cases enabled
    have targetBefore : state.carries target id := by
      rcases carries_of_apply targetCarries with before | rfl
      · exact before
      · exact absurd (show (state.phase actor).About target by rw [old]; rfl)
          (enabled.2.2 actor)
    have otherBefore : state.carries other id := by
      rcases carries_of_apply otherCarries with before | rfl
      · exact before
      · exact absurd ownsBefore (enabled.2.1 actor)
    exact precise.apart actor target old other different ownsBefore id targetBefore otherBefore
  · exact careful other different owns id targetCarries otherCarries

theorem Exact.apply (precise : Exact state) (sound : Sound state)
    (enabled : state.Enabled move) (careful : Careful state move) :
    Exact (state.apply move) :=
  ⟨fun _ _ _ recorded carries => precise.apply_accurate sound enabled careful recorded carries,
    fun _ _ releasing => precise.apply_apart enabled careful releasing⟩

/-! ### No circular wait -/

def Before (state : State thread lock ident) (first second : lock) : Prop :=
  ∃ left right, state.carries first left ∧ state.carries second right ∧
    state.follows left right

omit [DecidableEq thread] in
theorem Sound.acyclic_before (sound : Sound state) : Acyclic (Before state) := by
  have lifted {first second : lock} (path : TransGen (Before state) first second) :
      ∃ left right, state.carries first left ∧ state.carries second right ∧
        TransGen state.follows left right := by
    induction path with
    | single step =>
        obtain ⟨left, right, firstCarries, secondCarries, edge⟩ := step
        exact ⟨left, right, firstCarries, secondCarries, .single edge⟩
    | tail _ step ih =>
        obtain ⟨left, middle, firstCarries, middleCarries, rest⟩ := ih
        obtain ⟨again, right, againCarries, secondCarries, edge⟩ := step
        have same := sound.functional _ again middle againCarries middleCarries
        exact ⟨left, right, firstCarries, secondCarries, rest.tail (same ▸ edge)⟩
  intro start cycle
  obtain ⟨left, right, leftCarries, rightCarries, path⟩ := lifted cycle
  have same := sound.functional start left right leftCarries rightCarries
  exact sound.acyclic left (same ▸ path)

omit [DecidableEq thread] in
theorem Exact.before_of_wanting (precise : Exact state) (sound : Sound state)
    {actor : thread} {owned wanted : lock} (wanting : state.phase actor = .wanting wanted)
    (owns : state.owns actor owned) : Before state owned wanted := by
  obtain ⟨left, ownedCarries⟩ := sound.owned actor owned owns
  obtain ⟨right, wantedCarries⟩ := sound.mentioned actor wanted (by rw [wanting]; rfl)
  have recorded := State.recorded_of_phase owns wanting nofun nofun
  have held := precise.accurate actor owned left recorded ownedCarries
  exact ⟨left, right, ownedCarries, wantedCarries,
    (sound.checked actor wanted right wanting wantedCarries left held).2⟩

omit [DecidableEq thread] in
theorem Exact.no_circularWait (precise : Exact state) (sound : Sound state) :
    ¬CircularWait (fun actor wanted => state.phase actor = .wanting wanted) state.owns :=
  Digraph.no_circularWait sound.acyclic_before
    (fun _ _ _ wanting owns => precise.before_of_wanting sound wanting owns)

/-! ### Orders at condition waits

A thread that wakes up inside a condition wait takes its lock again without
announcing it. The order from every other held lock is there anyway if each
acquisition was announced and no lock was taken after the one waited on. -/

def Announced (state : State thread lock ident) : Move thread lock ident → Prop
  | .seize _ _ => False
  | .release actor target => state.owns actor target
  | .resolve actor target =>
      state.owns actor target ∧
        ∀ other, other ≠ target → state.owns actor other → ¬Before state target other
  | _ => True

def State.Engaged (state : State thread lock ident) (actor : thread) (target : lock) : Prop :=
  state.owns actor target ∨ state.phase actor = .parked target

structure Lined (state : State thread lock ident) : Prop where
  solitary : ∀ actor first second id, state.Engaged actor first → state.Engaged actor second →
    state.carries first id → state.carries second id → first = second
  linear : ∀ actor left right, state.held actor left → state.held actor right →
    left ≠ right → state.follows left right ∨ state.follows right left
  announced : ∀ actor target id held, state.phase actor = .grabbed target →
    state.carries target id → state.held actor held → state.follows held id
  waiting : ∀ actor target id held,
    state.phase actor = .resolved target ∨ state.phase actor = .parked target →
    state.carries target id → state.held actor held → held ≠ id → state.follows held id

theorem waiting_of_apply {actor : thread} {target : lock} (enabled : state.Enabled move)
    (waiting : (state.apply move).phase actor = .resolved target ∨
      (state.apply move).phase actor = .parked target) :
    (state.phase actor = .resolved target ∨ state.phase actor = .parked target) ∨
      move = .resolve actor target := by
  cases move <;>
    simp only [State.apply, State.enter, State.acquire, State.relinquish, State.Enabled,
      Function.update_apply, reduceCtorEq] at * <;> grind

theorem engaged_of_apply (enabled : state.Enabled move) {actor : thread} {target : lock}
    (engaged : (state.apply move).Engaged actor target) :
    state.Engaged actor target ∨ move = .grab actor target ∨ move = .seize actor target := by
  unfold State.Engaged at engaged ⊢
  cases move <;>
    simp only [State.apply, State.enter, State.acquire, State.relinquish, State.Enabled,
      Function.update_apply, reduceCtorEq] at * <;> grind

omit [DecidableEq thread] in
theorem Exact.fresh_of_wanting (precise : Exact state) (sound : Sound state)
    {actor : thread} {wanted other : lock} {id : ident}
    (wanting : state.phase actor = .wanting wanted) (carries : state.carries wanted id)
    (engaged : state.Engaged actor other) : ¬state.carries other id := by
  intro otherCarries
  have owns : state.owns actor other := by
    rcases engaged with owns | parked
    · exact owns
    · rw [wanting] at parked
      cases parked
  have recorded := State.recorded_of_phase owns wanting nofun nofun
  have held := precise.accurate actor other id recorded otherCarries
  exact (sound.checked actor wanted id wanting carries id held).1 rfl

theorem Lined.apply_solitary (lined : Lined state) (sound : Sound state)
    (precise : Exact state) (enabled : state.Enabled move) (told : Announced state move)
    {actor : thread} {first second : lock} {id : ident}
    (firstEngaged : (state.apply move).Engaged actor first)
    (secondEngaged : (state.apply move).Engaged actor second)
    (firstCarries : (state.apply move).carries first id)
    (secondCarries : (state.apply move).carries second id) : first = second := by
  have carriedBefore {target : lock} (engaged : state.Engaged actor target)
      (carries : (state.apply move).carries target id) : state.carries target id := by
    rcases carries_of_apply carries with before | rfl
    · exact before
    · rcases engaged with owns | parked
      · exact absurd owns (enabled.2.1 actor)
      · exact absurd (show (state.phase actor).About target by rw [parked]; rfl)
          (enabled.2.2 actor)
  rcases engaged_of_apply enabled firstEngaged with oldFirst | rfl | rfl
  · rcases engaged_of_apply enabled secondEngaged with oldSecond | rfl | rfl
    · exact lined.solitary actor first second id oldFirst oldSecond
        (carriedBefore oldFirst firstCarries) (carriedBefore oldSecond secondCarries)
    · exact absurd (carriedBefore oldFirst firstCarries)
        (precise.fresh_of_wanting sound enabled secondCarries oldFirst)
    · cases told
  · rcases engaged_of_apply enabled secondEngaged with oldSecond | same | same
    · exact absurd (carriedBefore oldSecond secondCarries)
        (precise.fresh_of_wanting sound enabled firstCarries oldSecond)
    · cases same
      rfl
    · cases same
  · cases told

omit [DecidableEq thread] in
theorem Lined.apart (lined : Lined state) {actor : thread} {target : lock}
    (owns : state.owns actor target) : Apart state actor target := by
  intro other different otherOwns id targetCarries otherCarries
  exact different (lined.solitary actor other target id (Or.inl otherOwns) (Or.inl owns)
    otherCarries targetCarries)

theorem Sound.follows_of_held (sound : Sound state) (enabled : state.Enabled move)
    {actor : thread} {left right : ident} (leftHeld : state.held actor left)
    (rightHeld : state.held actor right) (follows : state.follows left right) :
    (state.apply move).follows left right := by
  obtain ⟨first, firstCarries, firstRecorded⟩ := sound.recorded actor left leftHeld
  obtain ⟨second, secondCarries, secondRecorded⟩ := sound.recorded actor right rightHeld
  exact apply_follows enabled follows firstCarries secondCarries firstRecorded.used
    secondRecorded.used

/-- While a thread's phase is about a lock, its held set and the orders into
that lock stay. -/
theorem Sound.follows_about (sound : Sound state) (enabled : state.Enabled move)
    {actor : thread} {target : lock} {held id : ident} (isHeld : state.held actor held)
    (about : (state.phase actor).About target)
    (carries : (state.apply move).carries target id)
    (follows : state.carries target id → state.follows held id) :
    (state.apply move).follows held id := by
  have wasCarried : state.carries target id := by
    rcases carries_of_apply carries with before | rfl
    · exact before
    · exact absurd about (enabled.2.2 actor)
  obtain ⟨first, firstCarries, recorded⟩ := sound.recorded actor held isHeld
  exact apply_follows enabled (follows wasCarried) firstCarries wasCarried recorded.used
    (Or.inr ⟨actor, about⟩)

theorem Lined.apply_linear (lined : Lined state) (sound : Sound state)
    (enabled : state.Enabled move) {actor : thread} {left right : ident}
    (leftHeld : (state.apply move).held actor left)
    (rightHeld : (state.apply move).held actor right) (different : left ≠ right) :
    (state.apply move).follows left right ∨ (state.apply move).follows right left := by
  rcases held_of_apply leftHeld with oldLeft | ⟨target, rfl⟩
  · rcases held_of_apply rightHeld with oldRight | ⟨target, rfl⟩
    · rcases lined.linear actor left right oldLeft oldRight different with forth | back
      · exact Or.inl (sound.follows_of_held enabled oldLeft oldRight forth)
      · exact Or.inr (sound.follows_of_held enabled oldRight oldLeft back)
    · exact Or.inl (lined.announced actor target right left enabled.1 enabled.2 oldLeft)
  · rcases rightHeld with oldRight | ⟨_, same⟩
    · exact Or.inr (lined.announced actor target left right enabled.1 enabled.2 oldRight)
    · exact absurd same.symm different

/-- The held set of a thread in the middle of an acquisition or a wait is the
one it had before the move. -/
private theorem held_before {actor : thread} {held : ident}
    (isHeld : (state.apply move).held actor held)
    (notGrabbed : ∀ target, move ≠ .record actor target held) : state.held actor held := by
  rcases held_of_apply isHeld with before | ⟨target, recorded⟩
  · exact before
  · exact absurd recorded (notGrabbed target)

theorem Lined.apply_announced (lined : Lined state) (sound : Sound state)
    (enabled : state.Enabled move) (told : Announced state move) {actor : thread}
    {target : lock} {id held : ident}
    (grabbed : (state.apply move).phase actor = .grabbed target)
    (carries : (state.apply move).carries target id)
    (isHeld : (state.apply move).held actor held) : (state.apply move).follows held id := by
  have wasHeld : state.held actor held := by
    apply held_before isHeld
    rintro other rfl
    simp [State.apply, State.enter] at grabbed
  rcases grabbed_of_apply grabbed with old | rfl | rfl
  · apply sound.follows_about enabled wasHeld (by rw [old]; rfl) carries
    exact fun wasCarried => lined.announced actor target id held old wasCarried wasHeld
  · exact (sound.checked actor target id enabled carries held wasHeld).2
  · cases told

theorem Lined.apply_waiting (lined : Lined state) (sound : Sound state)
    (precise : Exact state) (enabled : state.Enabled move) (told : Announced state move)
    {actor : thread} {target : lock} {id held : ident}
    (waiting : (state.apply move).phase actor = .resolved target ∨
      (state.apply move).phase actor = .parked target)
    (carries : (state.apply move).carries target id)
    (isHeld : (state.apply move).held actor held) (different : held ≠ id) :
    (state.apply move).follows held id := by
  have wasHeld : state.held actor held := by
    apply held_before isHeld
    rintro other rfl
    simp [State.apply, State.enter] at waiting
  rcases waiting_of_apply enabled waiting with old | rfl
  · have about : (state.phase actor).About target := by
      rcases old with old | old
      · rw [old]
        rfl
      · rw [old]
        rfl
    apply sound.follows_about enabled wasHeld about carries
    exact fun wasCarried => lined.waiting actor target id held old wasCarried wasHeld different
  · -- The lock waited on is held too, and nothing owned was taken after it.
    have quiet : state.phase actor = .quiet := enabled.1
    have targetHeld := precise.accurate actor target id
      (State.recorded_of_phase told.1 quiet nofun nofun) carries
    rcases lined.linear actor held id wasHeld targetHeld different with forth | back
    · exact forth
    · obtain ⟨other, otherCarries, recorded⟩ := sound.recorded actor held wasHeld
      have owns : state.owns actor other := by
        rcases recorded with ⟨owns, _⟩ | parked
        · exact owns
        · rw [quiet] at parked
          cases parked
      have apart : other ≠ target := by
        rintro rfl
        exact different (sound.functional other held id otherCarries carries)
      exact absurd ⟨id, held, carries, otherCarries, back⟩ (told.2 other apart owns)

theorem Lined.apply (lined : Lined state) (sound : Sound state) (precise : Exact state)
    (enabled : state.Enabled move) (told : Announced state move) :
    Lined (state.apply move) :=
  ⟨fun _ _ _ _ firstEngaged secondEngaged firstCarries secondCarries =>
      lined.apply_solitary sound precise enabled told firstEngaged secondEngaged firstCarries
        secondCarries,
    fun _ _ _ leftHeld rightHeld => lined.apply_linear sound enabled leftHeld rightHeld,
    fun _ _ _ _ grabbed carries held =>
      lined.apply_announced sound enabled told grabbed carries held,
    fun _ _ _ _ waiting carries held =>
      lined.apply_waiting sound precise enabled told waiting carries held⟩

omit [DecidableEq thread] in
/-- A thread parked in a condition wait has every other owned lock ordered
before the one it will take again. -/
theorem Lined.before_of_parked (lined : Lined state) (sound : Sound state)
    (precise : Exact state) {actor : thread} {owned wanted : lock}
    (parked : state.phase actor = .parked wanted) (owns : state.owns actor owned)
    (apart : owned ≠ wanted) :
    Before state owned wanted := by
  obtain ⟨left, ownedCarries⟩ := sound.owned actor owned owns
  obtain ⟨right, wantedCarries⟩ := sound.mentioned actor wanted (by rw [parked]; rfl)
  have recorded := State.recorded_of_phase owns parked nofun nofun
  have held := precise.accurate actor owned left recorded ownedCarries
  have different : left ≠ right := by
    rintro rfl
    exact apart (lined.solitary actor owned wanted left (Or.inl owns) (Or.inr parked)
      ownedCarries wantedCarries)
  exact ⟨left, right, ownedCarries, wantedCarries,
    lined.waiting actor wanted right left (Or.inr parked) wantedCarries held different⟩

end BlueThread.LockProtocol
