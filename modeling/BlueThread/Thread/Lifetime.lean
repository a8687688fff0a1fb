/-
Which thread an identity names.

`kill` and `join` hand the value of `thread_id` to the system, which may have given the
identity to another thread by then. The object keeps the value from `pthread_create`
until `join` has returned from `pthread_join`, and for ever if it was detached. The
identities are followed here as a protocol of their own: who works on which object, and
what is stored in it.
-/

import BlueThread.Thread.Process

namespace BlueThread.Thread.Process

open Population

/-! ### Identities and who works on them -/

/-- What a thread is doing with an object. What is stored in an unsettled one may name no
thread of its own. -/
inductive Engagement
  | none
  | creating (object : Nat)
  | created (object : Nat)
  | unsettled (object : Nat)
  | killing (object threadId : Nat)
  | joining (object threadId : Nat)
deriving DecidableEq

def Engagement.object : Engagement → Option Nat
  | .none => Option.none
  | .creating object => some object
  | .created object => some object
  | .unsettled object => some object
  | .killing object _ => some object
  | .joining object _ => some object

def Engagement.kills : Engagement → Bool
  | .killing _ _ => true
  | _ => false

def Place.engagement : Place → Engagement
  | .outside => .none
  | .blocked object _ => .creating object
  | .created object _ result => if result = 0 then .created object else .unsettled object
  | .failed object => .unsettled object
  | .killing object threadId _ => .killing object threadId
  | .joining object threadId => .joining object threadId
  | .joined object => .unsettled object

structure Core where
  self : Nat
  engagement : Engagement
  detached : Bool
  reaped : Bool
  origin : Option Nat

def PThread.core (thread : PThread) : Core :=
  { self := thread.self
    engagement := thread.place.engagement
    detached := thread.detached
    reaped := thread.reaped
    origin := thread.origin }

structure Custody where
  cores : List Core
  threadId : Nat → Option Nat
  latest : Nat → Option Nat
  sent : List (Nat × Option Nat)

def State.custody (state : State) : Custody where
  cores := state.threads.map PThread.core
  threadId object := (state.objects[object]?).map ThreadBase.threadId
  latest := state.latest
  sent := state.sent

namespace Custody

variable (custody : Custody)

def find? (threadId : Nat) : Option Nat :=
  custody.cores.findIdx? fun core => core.self == threadId && !core.reaped

def setCore (tid : Nat) (core : Core) : Custody :=
  { custody with cores := custody.cores.set tid core }

def store (object threadId : Nat) : Custody :=
  { custody with threadId := fun other =>
      if other = object then (custody.threadId other).map fun _ => threadId
      else custody.threadId other }

def Free (object : Nat) : Prop :=
  ∀ core ∈ custody.cores, core.engagement.object ≠ some object

def Killable (object : Nat) : Prop :=
  ∀ core ∈ custody.cores, core.engagement.object = some object → core.engagement.kills = true

def Detached (object : Nat) : Prop :=
  ∃ tid ∈ custody.latest object, ∃ core ∈ custody.cores[tid]?, core.detached = true

def Names (object threadId : Nat) : Prop :=
  ∃ tid core, custody.latest object = some tid ∧ custody.cores[tid]? = some core ∧
    core.self = threadId ∧ core.reaped = false ∧ core.detached = false ∧
    core.origin = some object

def Unread (object : Nat) : Prop :=
  ∀ core ∈ custody.cores, ∀ threadId, core.engagement ≠ .killing object threadId ∧
    core.engagement ≠ .joining object threadId

def Permits : Engagement → Prop
  | .creating object => custody.Free object ∧ custody.threadId object = some 0
  | .killing object threadId => custody.Killable object ∧ ¬custody.Detached object ∧
      custody.threadId object = some threadId ∧ threadId ≠ 0
  | .joining object threadId => custody.Free object ∧ ¬custody.Detached object ∧
      custody.threadId object = some threadId ∧ threadId ≠ 0
  | _ => False

end Custody

inductive Moves (custody : Custody) : Custody → Prop
  | same : Moves custody custody
  | engage {tid : Nat} {core : Core} (engagement : Engagement)
      (found : custody.cores[tid]? = some core) (idle : core.engagement = .none)
      (permitted : custody.Permits engagement) :
      Moves custody (custody.setCore tid { core with engagement := engagement })
  | spawn {tid object threadId : Nat} {core : Core} (found : custody.cores[tid]? = some core)
      (engaged : core.engagement = .creating object) (positive : threadId ≠ 0)
      (fresh : ∀ other ∈ custody.cores, other.reaped = false → other.self ≠ threadId) :
      Moves custody
        { (custody.setCore tid { core with engagement := .created object }).store object threadId with
          cores := custody.cores.set tid { core with engagement := .created object } ++
            [⟨threadId, .none, false, false, some object⟩]
          latest := Function.update custody.latest object (some custody.cores.length) }
  | fail {tid object : Nat} {core : Core} (threadId : Nat)
      (found : custody.cores[tid]? = some core) (engaged : core.engagement = .creating object) :
      Moves custody
        ((custody.setCore tid { core with engagement := .unsettled object }).store object threadId)
  | leave {tid object : Nat} {core : Core} (found : custody.cores[tid]? = some core)
      (engaged : core.engagement = .created object) :
      Moves custody (custody.setCore tid { core with engagement := .none })
  | killed {tid object threadId : Nat} {core : Core} (found : custody.cores[tid]? = some core)
      (engaged : core.engagement = .killing object threadId) :
      Moves custody
        { custody.setCore tid { core with engagement := .none } with
          sent := (object, custody.find? threadId) :: custody.sent }
  | joined {tid object threadId other : Nat} {core target : Core}
      (found : custody.cores[tid]? = some core)
      (engaged : core.engagement = .joining object threadId)
      (named : custody.find? threadId = some other) (apart : other ≠ tid)
      (atOther : custody.cores[other]? = some target) :
      Moves custody
        ((custody.setCore tid { core with engagement := .unsettled object }).setCore other
          { target with reaped := true })
  | clear {tid object : Nat} {core : Core} (found : custody.cores[tid]? = some core)
      (engaged : core.engagement = .unsettled object) :
      Moves custody ((custody.setCore tid { core with engagement := .none }).store object 0)
  | detach {object threadId other : Nat} {target : Core} (reaped : Bool)
      (free : custody.Free object) (attached : ¬custody.Detached object)
      (stored : custody.threadId object = some threadId)
      (named : custody.find? threadId = some other)
      (atOther : custody.cores[other]? = some target) :
      Moves custody
        (custody.setCore other { target with detached := true, reaped := reaped })
  | gone {tid : Nat} {core : Core} (found : custody.cores[tid]? = some core)
      (detached : core.detached = true) :
      Moves custody (custody.setCore tid { core with reaped := true })

/-! ### The invariant of the protocol -/

structure Kept (custody : Custody) : Prop where
  nonzero : ∀ core ∈ custody.cores, core.self ≠ 0
  distinct : ∀ (first second : Nat) (one two : Core), custody.cores[first]? = some one →
    custody.cores[second]? = some two → one.reaped = false → two.reaped = false →
    one.self = two.self → first = second
  solitary : ∀ (first second : Nat) (one two : Core) (object : Nat),
    custody.cores[first]? = some one → custody.cores[second]? = some two →
    one.engagement.object = some object → two.engagement.object = some object →
    first = second ∨ (one.engagement.kills = true ∧ two.engagement.kills = true)
  settled : ∀ object threadId, custody.threadId object = some threadId →
    ¬custody.Detached object → (∀ core ∈ custody.cores, core.engagement ≠ .unsettled object) →
    threadId = 0 ∨ custody.Names object threadId
  reads : ∀ core ∈ custody.cores, ∀ object threadId,
    core.engagement = .killing object threadId ∨ core.engagement = .joining object threadId →
    custody.threadId object = some threadId ∧ custody.Names object threadId
  sent : ∀ entry ∈ custody.sent, ∃ (tid : Nat) (core : Core), entry.2 = some tid ∧
    custody.cores[tid]? = some core ∧ core.origin = some entry.1

section Protocol

variable {custody next : Custody} {tid object threadId : Nat} {core : Core}

theorem find?_eq_some {other : Nat} (named : custody.find? threadId = some other) :
    ∃ core, custody.cores[other]? = some core ∧ core.self = threadId ∧ core.reaped = false := by
  obtain ⟨inside, holds, _⟩ := List.findIdx?_eq_some_iff_getElem.mp named
  rw [Bool.and_eq_true, beq_iff_eq, Bool.not_eq_true'] at holds
  exact ⟨_, List.getElem?_eq_getElem inside, holds.1, holds.2⟩

theorem Kept.find (kept : Kept custody) (names : custody.Names object threadId) :
    ∃ other core, custody.find? threadId = some other ∧ custody.latest object = some other ∧
      custody.cores[other]? = some core ∧ core.origin = some object := by
  obtain ⟨own, core, latest, found, self, unreaped, _, origin⟩ := names
  cases named : custody.find? threadId with
  | none =>
      have missing := List.findIdx?_eq_none_iff.mp named core (List.mem_of_getElem? found)
      rw [self, unreaped] at missing
      simp at missing
  | some other =>
      obtain ⟨target, atOther, sameSelf, alive⟩ := find?_eq_some named
      obtain rfl : other = own :=
        kept.distinct other own target core atOther found alive unreaped
          (sameSelf.trans self.symm)
      exact ⟨other, core, rfl, latest, found, origin⟩

theorem names_setCore {after : Core} (found : custody.cores[tid]? = some core)
    (other : ∀ one, custody.latest object = some tid → core.origin = some object →
      core.reaped = false → core.detached = false → core.self = one →
      after.self = one ∧ after.reaped = false ∧ after.detached = false ∧
        after.origin = some object)
    (names : custody.Names object threadId) : (custody.setCore tid after).Names object threadId := by
  obtain ⟨own, present, latest, atOwn, self, unreaped, attached, origin⟩ := names
  by_cases same : tid = own
  · subst same
    rw [found, Option.some.injEq] at atOwn
    subst atOwn
    obtain ⟨self, unreaped, attached, origin⟩ :=
      other threadId latest origin unreaped attached self
    exact ⟨tid, after, latest, getElem?_set_found found, self, unreaped, attached, origin⟩
  · exact ⟨own, present, latest, (List.getElem?_set_ne same).trans atOwn, self, unreaped,
      attached, origin⟩

theorem detached_of_setCore {after : Core} (found : custody.cores[tid]? = some core)
    (still : core.detached = true → after.detached = true)
    (detached : custody.Detached object) : (custody.setCore tid after).Detached object := by
  obtain ⟨own, latest, present, atOwn, flag⟩ := detached
  by_cases same : tid = own
  · subst same
    cases found.symm.trans atOwn
    exact ⟨tid, latest, after, getElem?_set_found found, still flag⟩
  · exact ⟨own, latest, present, (List.getElem?_set_ne same).trans atOwn, flag⟩

theorem sent_setCore (after : Core) (found : custody.cores[tid]? = some core)
    (origin : after.origin = core.origin) {entry : Nat × Option Nat}
    (told : ∃ (tid : Nat) (core : Core), entry.2 = some tid ∧
      custody.cores[tid]? = some core ∧ core.origin = some entry.1) :
    ∃ (own : Nat) (core : Core), entry.2 = some own ∧
      (custody.setCore tid after).cores[own]? = some core ∧ core.origin = some entry.1 := by
  obtain ⟨own, present, receiver, atOwn, made⟩ := told
  by_cases same : tid = own
  · subst same
    cases found.symm.trans atOwn
    exact ⟨tid, after, receiver, getElem?_set_found found, origin.trans made⟩
  · exact ⟨own, present, receiver, (List.getElem?_set_ne same).trans atOwn, made⟩

theorem Kept.relabel (kept : Kept custody) (found : custody.cores[tid]? = some core)
    (engagement : Engagement)
    (alone : ∀ (other : Nat) (one : Core) (object : Nat), other ≠ tid →
      custody.cores[other]? = some one → engagement.object = some object →
      one.engagement.object = some object →
      engagement.kills = true ∧ one.engagement.kills = true)
    (reads : ∀ object threadId,
      engagement = .killing object threadId ∨ engagement = .joining object threadId →
      custody.threadId object = some threadId ∧ custody.Names object threadId)
    (settles : ∀ object, core.engagement = .unsettled object →
      engagement = .unsettled object ∨
        ∀ threadId, custody.threadId object = some threadId → threadId = 0) :
    Kept (custody.setCore tid { core with engagement := engagement }) := by
  have names {object threadId : Nat} (before : custody.Names object threadId) :
      (custody.setCore tid { core with engagement := engagement }).Names object threadId :=
    names_setCore found (fun _ _ origin unreaped attached self =>
      ⟨self, unreaped, attached, origin⟩) before
  have was {place : Nat} {one : Core}
      (atPlace : (custody.setCore tid
        { core with engagement := engagement }).cores[place]? = some one) :
      (place = tid ∧ one = { core with engagement := engagement }) ∨
        (place ≠ tid ∧ custody.cores[place]? = some one) := by
    rcases getElem?_set_cases found atPlace with ⟨rfl, rfl⟩ | ⟨apart, before⟩
    · exact Or.inl ⟨rfl, rfl⟩
    · exact Or.inr ⟨Ne.symm apart, before⟩
  refine ⟨?_, ?_, ?_, ?_, ?_, ?_⟩
  · intro one member
    rcases List.mem_or_eq_of_mem_set member with old | rfl
    · exact kept.nonzero one old
    · exact kept.nonzero core (List.mem_of_getElem? found)
  · intro first second one two atFirst atSecond alive aliveToo same
    rcases was atFirst with ⟨rfl, rfl⟩ | ⟨_, beforeFirst⟩
    · rcases was atSecond with ⟨rfl, _⟩ | ⟨_, beforeSecond⟩
      · rfl
      · exact kept.distinct _ _ core two found beforeSecond alive aliveToo same
    · rcases was atSecond with ⟨rfl, rfl⟩ | ⟨_, beforeSecond⟩
      · exact kept.distinct _ _ one core beforeFirst found alive aliveToo same
      · exact kept.distinct _ _ one two beforeFirst beforeSecond alive aliveToo same
  · intro first second one two object atFirst atSecond engaged engagedToo
    rcases was atFirst with ⟨rfl, rfl⟩ | ⟨apart, beforeFirst⟩
    · rcases was atSecond with ⟨rfl, _⟩ | ⟨apart, beforeSecond⟩
      · exact Or.inl rfl
      · exact Or.inr (alone second two object apart beforeSecond engaged engagedToo)
    · rcases was atSecond with ⟨rfl, rfl⟩ | ⟨_, beforeSecond⟩
      · exact Or.inr (alone first one object apart beforeFirst engagedToo engaged).symm
      · exact kept.solitary first second one two object beforeFirst beforeSecond engaged engagedToo
  · intro object threadId stored attached quiet
    by_cases left : core.engagement = .unsettled object
    · rcases settles object left with same | zero
      · exact absurd same (quiet _ (mem_set_new _ found))
      · exact Or.inl (zero threadId stored)
    · refine (kept.settled object threadId stored ?_ ?_).imp id names
      · intro detached
        exact attached (detached_of_setCore found id detached)
      · intro one member
        rcases mem_set_or_replaced { core with engagement := engagement } found member with
          rfl | still
        · exact left
        · exact quiet one still
  · intro one member object threadId reading
    rcases List.mem_or_eq_of_mem_set member with old | rfl
    · obtain ⟨stored, before⟩ := kept.reads one old object threadId reading
      exact ⟨stored, names before⟩
    · obtain ⟨stored, before⟩ := reads object threadId reading
      exact ⟨stored, names before⟩
  · intro entry member
    exact sent_setCore { core with engagement := engagement } found rfl (kept.sent entry member)

theorem Kept.unread (kept : Kept custody) (found : custody.cores[tid]? = some core)
    (engaged : core.engagement.object = some object)
    (silent : ∀ threadId, core.engagement ≠ .killing object threadId ∧
      core.engagement ≠ .joining object threadId) :
    custody.Unread object := by
  intro one member threadId
  obtain ⟨place, atPlace⟩ := List.mem_iff_getElem?.mp member
  have peaceful : core.engagement.kills = false := by
    cases engagement : core.engagement with
    | killing other stored =>
        rw [engagement] at engaged silent
        cases engaged
        exact absurd rfl (silent stored).1
    | _ => rfl
  have single (other : one.engagement.object = some object) : one = core := by
    rcases kept.solitary place tid one core object atPlace found other engaged with
      rfl | ⟨_, kills⟩
    · exact Option.some.inj (atPlace.symm.trans found)
    · rw [peaceful] at kills
      cases kills
  constructor
  · intro killing
    have same : one = core := single (by rw [killing]; rfl)
    exact (silent threadId).1 (same ▸ killing)
  · intro joining
    have same : one = core := single (by rw [joining]; rfl)
    exact (silent threadId).2 (same ▸ joining)

theorem Kept.proceed (kept : Kept custody) (found : custody.cores[tid]? = some core)
    {engagement : Engagement}
    (keeps : engagement.object = none ∨
      (engagement.object = core.engagement.object ∧ core.engagement.kills = false))
    (silent : ∀ object threadId, engagement ≠ .killing object threadId ∧
      engagement ≠ .joining object threadId)
    (settles : ∀ object, core.engagement = .unsettled object →
      engagement = .unsettled object ∨
        ∀ threadId, custody.threadId object = some threadId → threadId = 0) :
    Kept (custody.setCore tid { core with engagement := engagement }) := by
  refine kept.relabel found engagement ?_ ?_ settles
  · intro other one object apart atOther engaged engagedToo
    rcases keeps with nothing | ⟨same, peaceful⟩
    · cases nothing.symm.trans engaged
    · rcases kept.solitary tid other core one object found atOther (same.symm.trans engaged)
        engagedToo with rfl | ⟨kills, _⟩
      · exact absurd rfl apart
      · cases peaceful.symm.trans kills
  · rintro object threadId (killing | joining)
    · exact absurd killing (silent object threadId).1
    · exact absurd joining (silent object threadId).2

theorem Kept.store (kept : Kept custody) {object threadId : Nat}
    (unread : custody.Unread object)
    (fits : (∃ core ∈ custody.cores, core.engagement = .unsettled object) ∨ threadId = 0 ∨
      custody.Names object threadId) : Kept (custody.store object threadId) := by
  refine ⟨kept.nonzero, kept.distinct, kept.solitary, ?_, ?_, kept.sent⟩
  · intro other stored written attached quiet
    change (if other = object then (custody.threadId other).map fun _ => threadId
      else custody.threadId other) = some stored at written
    split_ifs at written with same
    · subst same
      obtain ⟨_, _, rfl⟩ := Option.map_eq_some_iff.mp written
      rcases fits with ⟨core, member, unsettled⟩ | zero | names
      · exact absurd unsettled (quiet core member)
      · exact Or.inl zero
      · exact Or.inr names
    · exact kept.settled other stored written attached quiet
  · intro core member other stored reading
    obtain ⟨written, names⟩ := kept.reads core member other stored reading
    refine ⟨?_, names⟩
    change (if other = object then (custody.threadId other).map fun _ => threadId
      else custody.threadId other) = some stored
    rw [if_neg]
    · exact written
    · rintro rfl
      rcases reading with killing | joining
      · exact (unread core member stored).1 killing
      · exact (unread core member stored).2 joining

theorem Kept.amend (kept : Kept custody) {other : Nat} {target after : Core}
    (atOther : custody.cores[other]? = some target) (self : after.self = target.self)
    (engagement : after.engagement = target.engagement) (made : after.origin = target.origin)
    (still : target.detached = true → after.detached = true)
    (alive : after.reaped = false → target.reaped = false)
    (spoils : ∀ object threadId, custody.Names object threadId →
      (custody.setCore other after).Names object threadId ∨
        (custody.Unread object ∧ ((custody.setCore other after).Detached object ∨
          ∃ core ∈ custody.cores, core.engagement = .unsettled object))) :
    Kept (custody.setCore other after) := by
  have was {place : Nat} {one : Core}
      (atPlace : (custody.setCore other after).cores[place]? = some one) :
      ∃ before, custody.cores[place]? = some before ∧ one.self = before.self ∧
        one.engagement = before.engagement ∧ (one.reaped = false → before.reaped = false) := by
    rcases getElem?_set_cases atOther atPlace with ⟨rfl, rfl⟩ | ⟨_, before⟩
    · exact ⟨target, atOther, self, engagement, alive⟩
    · exact ⟨one, before, rfl, rfl, id⟩
  have member {one : Core} (inside : one ∈ (custody.setCore other after).cores) :
      ∃ before ∈ custody.cores, one.self = before.self ∧ one.engagement = before.engagement := by
    obtain ⟨place, atPlace⟩ := List.mem_iff_getElem?.mp inside
    obtain ⟨before, found, same, engaged, _⟩ := was atPlace
    exact ⟨before, List.mem_of_getElem? found, same, engaged⟩
  refine ⟨?_, ?_, ?_, ?_, ?_, ?_⟩
  · intro one inside
    obtain ⟨before, present, same, _⟩ := member inside
    rw [same]
    exact kept.nonzero before present
  · intro first second one two atFirst atSecond unreaped unreapedToo same
    obtain ⟨oneBefore, foundFirst, oneSelf, _, oneAlive⟩ := was atFirst
    obtain ⟨twoBefore, foundSecond, twoSelf, _, twoAlive⟩ := was atSecond
    exact kept.distinct first second oneBefore twoBefore foundFirst foundSecond
      (oneAlive unreaped) (twoAlive unreapedToo) (oneSelf.symm.trans (same.trans twoSelf))
  · intro first second one two object atFirst atSecond engaged engagedToo
    obtain ⟨oneBefore, foundFirst, _, oneEngaged, _⟩ := was atFirst
    obtain ⟨twoBefore, foundSecond, _, twoEngaged, _⟩ := was atSecond
    rw [oneEngaged] at engaged ⊢
    rw [twoEngaged] at engagedToo ⊢
    exact kept.solitary first second oneBefore twoBefore object foundFirst foundSecond engaged
      engagedToo
  · intro object threadId stored attached settled
    have quiet (core : Core) (inside : core ∈ custody.cores) :
        core.engagement ≠ .unsettled object := by
      intro unsettled
      rcases mem_set_or_replaced after atOther inside with rfl | kept
      · exact settled after (mem_set_new _ atOther) (engagement.trans unsettled)
      · exact settled core kept unsettled
    rcases kept.settled object threadId stored
        (fun detached => attached (detached_of_setCore atOther still detached)) quiet with
      zero | names
    · exact Or.inl zero
    · rcases spoils object threadId names with kept | ⟨_, detached | ⟨core, inside, unsettled⟩⟩
      · exact Or.inr kept
      · exact absurd detached attached
      · exact absurd unsettled (quiet core inside)
  · intro core inside object threadId reading
    obtain ⟨before, present, _, engaged⟩ := member inside
    rw [engaged] at reading
    obtain ⟨stored, names⟩ := kept.reads before present object threadId reading
    refine ⟨stored, (spoils object threadId names).resolve_right ?_⟩
    rintro ⟨unread, _⟩
    rcases reading with killing | joining
    · exact (unread before present threadId).1 killing
    · exact (unread before present threadId).2 joining
  · intro entry inside
    exact sent_setCore after atOther made (kept.sent entry inside)

theorem names_elsewhere {other : Nat} {target after : Core}
    (atOther : custody.cores[other]? = some target) (origin : target.origin = some object)
    {one : Nat} (apart : one ≠ object) (names : custody.Names one threadId) :
    (custody.setCore other after).Names one threadId := by
  refine names_setCore atOther ?_ names
  intro _ _ theirs _ _ _
  exact absurd (Option.some.inj (theirs.symm.trans origin)) apart

theorem Kept.hire (kept : Kept custody) (found : custody.cores[tid]? = some core)
    (engaged : core.engagement = .created object) (positive : threadId ≠ 0)
    (fresh : ∀ other ∈ custody.cores, other.reaped = false → other.self ≠ threadId) :
    Kept { custody.store object threadId with
      cores := custody.cores ++ [⟨threadId, .none, false, false, some object⟩]
      latest := Function.update custody.latest object (some custody.cores.length) } := by
  have old {place : Nat} {one : Core} (atPlace : custody.cores[place]? = some one) (new : Core) :
      (custody.cores ++ [new])[place]? = some one := by
    rw [List.getElem?_append_left (List.getElem?_eq_some_iff.mp atPlace).1]
    exact atPlace
  have unread : custody.Unread object := by
    refine kept.unread found (by rw [engaged]; rfl) ?_
    intro other
    rw [engaged]
    exact ⟨Engagement.noConfusion, Engagement.noConfusion⟩
  have elsewhere {one stored : Nat} (apart : one ≠ object) (names : custody.Names one stored) :
      Custody.Names { custody.store object threadId with
        cores := custody.cores ++ [⟨threadId, .none, false, false, some object⟩]
        latest := Function.update custody.latest object (some custody.cores.length) }
        one stored := by
    obtain ⟨own, present, latest, atOwn, rest⟩ := names
    exact ⟨own, present, (Function.update_of_ne apart ..).trans latest, old atOwn _, rest⟩
  refine ⟨?_, ?_, ?_, ?_, ?_, ?_⟩
  · intro one member
    rcases List.mem_append.mp member with before | new
    · exact kept.nonzero one before
    · cases List.mem_singleton.mp new
      exact positive
  · intro first second one two atFirst atSecond alive aliveToo same
    rcases getElem?_append_cases atFirst with before | ⟨rfl, rfl⟩
    · rcases getElem?_append_cases atSecond with beforeToo | ⟨rfl, rfl⟩
      · exact kept.distinct first second one two before beforeToo alive aliveToo same
      · exact absurd same (fresh one (List.mem_of_getElem? before) alive)
    · rcases getElem?_append_cases atSecond with beforeToo | ⟨rfl, _⟩
      · exact absurd same.symm (fresh two (List.mem_of_getElem? beforeToo) aliveToo)
      · rfl
  · intro first second one two other atFirst atSecond engagedFirst engagedSecond
    rcases getElem?_append_cases atFirst with before | ⟨_, rfl⟩
    · rcases getElem?_append_cases atSecond with beforeToo | ⟨_, rfl⟩
      · exact kept.solitary first second one two other before beforeToo engagedFirst
          engagedSecond
      · cases engagedSecond
    · cases engagedFirst
  · intro other stored written attached quiet
    change (if other = object then (custody.threadId other).map fun _ => threadId
      else custody.threadId other) = some stored at written
    split_ifs at written with same
    · subst same
      obtain ⟨_, _, rfl⟩ := Option.map_eq_some_iff.mp written
      exact Or.inr ⟨custody.cores.length, _, Function.update_self .., List.getElem?_concat_length,
        rfl, rfl, rfl, rfl⟩
    · refine (kept.settled other stored written ?_ ?_).imp id (elsewhere same)
      · rintro ⟨own, latest, present, atOwn, flag⟩
        exact attached ⟨own, (Function.update_of_ne same ..).trans latest, present,
          old atOwn _, flag⟩
      · intro one member
        exact quiet one (List.mem_append_left _ member)
  · intro one member other stored reading
    rcases List.mem_append.mp member with before | new
    · obtain ⟨written, names⟩ := kept.reads one before other stored reading
      have apart : other ≠ object := by
        rintro rfl
        rcases reading with killing | joining
        · exact (unread one before stored).1 killing
        · exact (unread one before stored).2 joining
      exact ⟨(if_neg apart).trans written, elsewhere apart names⟩
    · cases List.mem_singleton.mp new
      rcases reading with killing | joining
      · cases killing
      · cases joining
  · intro entry member
    obtain ⟨own, present, receiver, atOwn, made⟩ := kept.sent entry member
    exact ⟨own, present, receiver, old atOwn _, made⟩

theorem Kept.engage (kept : Kept custody) (engagement : Engagement)
    (found : custody.cores[tid]? = some core) (idle : core.engagement = .none)
    (permitted : custody.Permits engagement) :
    Kept (custody.setCore tid { core with engagement := engagement }) := by
  have settles (object : Nat) (unsettled : core.engagement = .unsettled object) :
      engagement = .unsettled object ∨
        ∀ threadId, custody.threadId object = some threadId → threadId = 0 := by
    cases idle.symm.trans unsettled
  have unsettled {object : Nat} (killable : custody.Killable object) {one : Core}
      (member : one ∈ custody.cores) : one.engagement ≠ .unsettled object := by
    intro unsettled
    have kills := killable one member (by rw [unsettled]; rfl)
    rw [unsettled] at kills
    cases kills
  cases engagement with
  | creating object =>
      refine kept.relabel found _ ?_ ?_ settles
      · intro other one about _ atOther same engaged
        cases same
        exact absurd engaged (permitted.1 one (List.mem_of_getElem? atOther))
      · rintro other threadId (impossible | impossible)
        · cases impossible
        · cases impossible
  | killing object threadId =>
      obtain ⟨others, attached, stored, positive⟩ := permitted
      refine kept.relabel found _ ?_ ?_ settles
      · intro other one about _ atOther same engaged
        cases same
        exact ⟨rfl, others one (List.mem_of_getElem? atOther) engaged⟩
      · rintro other one (same | impossible)
        · cases same
          have settled := kept.settled object threadId stored attached fun _ => unsettled others
          exact ⟨stored, settled.resolve_left positive⟩
        · cases impossible
  | joining object threadId =>
      obtain ⟨free, attached, stored, positive⟩ := permitted
      have killable : custody.Killable object := by
        intro one member engaged
        exact absurd engaged (free one member)
      refine kept.relabel found _ ?_ ?_ settles
      · intro other one about _ atOther same engaged
        cases same
        exact absurd engaged (free one (List.mem_of_getElem? atOther))
      · rintro other one (impossible | same)
        · cases impossible
        · cases same
          have settled := kept.settled object threadId stored attached fun _ =>
            unsettled killable
          exact ⟨stored, settled.resolve_left positive⟩
  | none => cases permitted
  | created object => cases permitted
  | unsettled object => cases permitted

theorem Kept.advance (kept : Kept custody) (found : custody.cores[tid]? = some core)
    (begun : core.engagement.object = some object) (peaceful : core.engagement.kills = false)
    (settled : ∀ other, core.engagement ≠ .unsettled other) {engagement : Engagement}
    (onward : engagement = .created object ∨ engagement = .unsettled object) :
    Kept (custody.setCore tid { core with engagement := engagement }) := by
  refine kept.proceed found (Or.inr ⟨?_, peaceful⟩) ?_ ?_
  · rw [begun]
    rcases onward with rfl | rfl
    · rfl
    · rfl
  · intro _ _
    rcases onward with rfl | rfl
    · exact ⟨Engagement.noConfusion, Engagement.noConfusion⟩
    · exact ⟨Engagement.noConfusion, Engagement.noConfusion⟩
  · intro other unsettled
    exact absurd unsettled (settled other)

theorem Kept.unread_unsettled (kept : Kept custody) (found : custody.cores[tid]? = some core)
    (engaged : core.engagement = .unsettled object) : custody.Unread object := by
  refine kept.unread found (by rw [engaged]; rfl) ?_
  intro _
  rw [engaged]
  exact ⟨Engagement.noConfusion, Engagement.noConfusion⟩

theorem Kept.leave (kept : Kept custody) (found : custody.cores[tid]? = some core)
    (settles : ∀ object, core.engagement = .unsettled object →
      ∀ threadId, custody.threadId object = some threadId → threadId = 0) :
    Kept (custody.setCore tid { core with engagement := .none }) := by
  refine kept.proceed found (Or.inl rfl) ?_ ?_
  · intro _ _
    exact ⟨Engagement.noConfusion, Engagement.noConfusion⟩
  · intro object unsettled
    exact Or.inr (settles object unsettled)

theorem Kept.spawn (kept : Kept custody) (found : custody.cores[tid]? = some core)
    (engaged : core.engagement = .creating object) (positive : threadId ≠ 0)
    (fresh : ∀ other ∈ custody.cores, other.reaped = false → other.self ≠ threadId) :
    Kept
      { (custody.setCore tid { core with engagement := .created object }).store object threadId with
        cores := custody.cores.set tid { core with engagement := .created object } ++
          [⟨threadId, .none, false, false, some object⟩]
        latest := Function.update custody.latest object (some custody.cores.length) } := by
  have labelled : Kept (custody.setCore tid { core with engagement := .created object }) := by
    refine kept.advance found (by rw [engaged]; rfl) (by rw [engaged]; rfl) ?_ (Or.inl rfl)
    intro other unsettled
    cases engaged.symm.trans unsettled
  have hired := labelled.hire (getElem?_set_found found) rfl positive ?_
  · rw [show (custody.setCore tid { core with engagement := .created object }).cores.length =
      custody.cores.length from List.length_set] at hired
    exact hired
  · intro other member alive
    rcases List.mem_or_eq_of_mem_set member with old | rfl
    · exact fresh other old alive
    · exact fresh core (List.mem_of_getElem? found) alive

theorem Kept.fail (kept : Kept custody) (found : custody.cores[tid]? = some core)
    (engaged : core.engagement = .creating object) :
    Kept ((custody.setCore tid { core with engagement := .unsettled object }).store object
      threadId) := by
  have labelled : Kept (custody.setCore tid { core with engagement := .unsettled object }) := by
    refine kept.advance found (by rw [engaged]; rfl) (by rw [engaged]; rfl) ?_ (Or.inr rfl)
    intro other unsettled
    cases engaged.symm.trans unsettled
  exact labelled.store (labelled.unread_unsettled (getElem?_set_found found) rfl)
    (Or.inl ⟨_, mem_set_new _ found, rfl⟩)

theorem Kept.killed (kept : Kept custody) (found : custody.cores[tid]? = some core)
    (engaged : core.engagement = .killing object threadId) :
    Kept
      { custody.setCore tid { core with engagement := .none } with
        sent := (object, custody.find? threadId) :: custody.sent } := by
  have labelled : Kept (custody.setCore tid { core with engagement := .none }) := by
    refine kept.leave found ?_
    intro other unsettled
    cases engaged.symm.trans unsettled
  refine ⟨labelled.nonzero, labelled.distinct, labelled.solitary, labelled.settled,
    labelled.reads, ?_⟩
  intro entry member
  rcases List.mem_cons.mp member with rfl | older
  · obtain ⟨_, names⟩ := kept.reads core (List.mem_of_getElem? found) object threadId
      (Or.inl engaged)
    obtain ⟨other, target, named, _, atOther, origin⟩ := kept.find names
    exact sent_setCore { core with engagement := .none } found rfl
      ⟨other, target, named, atOther, origin⟩
  · exact labelled.sent entry older

theorem Kept.joined (kept : Kept custody) {other : Nat} {target : Core}
    (found : custody.cores[tid]? = some core)
    (engaged : core.engagement = .joining object threadId)
    (named : custody.find? threadId = some other) (apart : other ≠ tid)
    (atOther : custody.cores[other]? = some target) :
    Kept ((custody.setCore tid { core with engagement := .unsettled object }).setCore other
      { target with reaped := true }) := by
  obtain ⟨_, names⟩ := kept.reads core (List.mem_of_getElem? found) object threadId
    (Or.inr engaged)
  obtain ⟨own, present, namedOwn, latest, atOwn, origin⟩ := kept.find names
  cases named.symm.trans namedOwn
  cases atOther.symm.trans atOwn
  obtain ⟨_, atNamed, _, alive⟩ := find?_eq_some named
  cases atOther.symm.trans atNamed
  have labelled : Kept (custody.setCore tid { core with engagement := .unsettled object }) := by
    refine kept.advance found (by rw [engaged]; rfl) (by rw [engaged]; rfl) ?_ (Or.inr rfl)
    intro one unsettled
    cases engaged.symm.trans unsettled
  have there : (custody.setCore tid
      { core with engagement := .unsettled object }).cores[other]? = some target :=
    (List.getElem?_set_ne (Ne.symm apart)).trans atOther
  refine labelled.amend there rfl rfl rfl id (fun _ => alive) ?_
  intro one stored namesOne
  by_cases same : one = object
  · subst same
    exact Or.inr ⟨labelled.unread_unsettled (getElem?_set_found found) rfl,
      Or.inr ⟨_, mem_set_new _ found, rfl⟩⟩
  · exact Or.inl (names_elsewhere there origin same namesOne)

theorem Kept.clear (kept : Kept custody) (found : custody.cores[tid]? = some core)
    (engaged : core.engagement = .unsettled object) :
    Kept ((custody.setCore tid { core with engagement := .none }).store object 0) := by
  have stored : Kept (custody.store object 0) :=
    kept.store (kept.unread_unsettled found engaged) (Or.inr (Or.inl rfl))
  have there : (custody.store object 0).cores[tid]? = some core := found
  refine stored.leave there ?_
  intro other unsettled threadId written
  cases engaged.symm.trans unsettled
  change (if object = object then (custody.threadId object).map fun _ => 0
    else custody.threadId object) = some threadId at written
  rw [if_pos rfl] at written
  obtain ⟨_, _, rfl⟩ := Option.map_eq_some_iff.mp written
  rfl

theorem Kept.detach (kept : Kept custody) {other : Nat} {target : Core} (reaped : Bool)
    (free : custody.Free object) (attached : ¬custody.Detached object)
    (stored : custody.threadId object = some threadId)
    (named : custody.find? threadId = some other)
    (atOther : custody.cores[other]? = some target) :
    Kept (custody.setCore other { target with detached := true, reaped := reaped }) := by
  obtain ⟨_, atNamed, self, alive⟩ := find?_eq_some named
  cases atOther.symm.trans atNamed
  have names : custody.Names object threadId := by
    refine (kept.settled object threadId stored attached ?_).resolve_left ?_
    · intro one member unsettled
      exact free one member (by rw [unsettled]; rfl)
    · intro zero
      exact kept.nonzero target (List.mem_of_getElem? atOther) (self.trans zero)
  obtain ⟨own, present, namedOwn, latest, atOwn, origin⟩ := kept.find names
  cases named.symm.trans namedOwn
  cases atOther.symm.trans atOwn
  refine kept.amend atOther rfl rfl rfl (fun _ => rfl) (fun _ => alive) ?_
  intro one other namesOne
  by_cases same : one = object
  · subst same
    refine Or.inr ⟨?_, Or.inl ⟨_, latest, _, getElem?_set_found atOther, rfl⟩⟩
    intro core member threadId
    have idle := free core member
    constructor
    · intro killing
      exact idle (by rw [killing]; rfl)
    · intro joining
      exact idle (by rw [joining]; rfl)
  · exact Or.inl (names_elsewhere atOther origin same namesOne)

theorem Kept.gone (kept : Kept custody) (found : custody.cores[tid]? = some core)
    (detached : core.detached = true) : Kept (custody.setCore tid { core with reaped := true }) := by
  refine kept.amend found rfl rfl rfl id ?_ ?_
  · intro impossible
    cases impossible
  · intro object threadId names
    refine Or.inl (names_setCore found ?_ names)
    intro _ _ _ _ attached _
    cases detached.symm.trans attached

theorem Moves.kept (moves : Moves custody next) (kept : Kept custody) : Kept next := by
  cases moves with
  | same => exact kept
  | engage engagement found idle permitted => exact kept.engage engagement found idle permitted
  | spawn found engaged positive fresh => exact kept.spawn found engaged positive fresh
  | fail threadId found engaged => exact kept.fail found engaged
  | leave found engaged =>
      refine kept.leave found ?_
      intro other unsettled
      cases engaged.symm.trans unsettled
  | killed found engaged => exact kept.killed found engaged
  | joined found engaged named apart atOther =>
      exact kept.joined found engaged named apart atOther
  | clear found engaged => exact kept.clear found engaged
  | detach reaped free attached stored named atOther =>
      exact kept.detach reaped free attached stored named atOther
  | gone found detached => exact kept.gone found detached

end Protocol

/-! ### The members of the object follow the protocol -/

/-- Nobody joins, detaches or creates on an object while somebody works on it, nor sends
a signal while somebody does anything else with it; nobody uses an object whose thread
was detached, or creates a second thread with it. The system hands out identities that
no thread has. -/
def OneAtATime (state : State) : Action → Prop
  | .create _ object _ => state.custody.Free object ∧ state.custody.threadId object = some 0
  | .pthreadCreate _ threadId _ => threadId ≠ 0 ∧
      ∀ core ∈ state.custody.cores, core.reaped = false → core.self ≠ threadId
  | .kill _ object _ => state.custody.Killable object ∧ ¬state.custody.Detached object
  | .join _ object => state.custody.Free object ∧ ¬state.custody.Detached object
  | .detach _ object => state.custody.Free object ∧ ¬state.custody.Detached object
  | _ => True

section Steps

variable {blockable : Mask} {state next : State} {action : Action} {tid object threadId : Nat}
  {thread after : PThread}

theorem custody_setThread :
    (state.setThread tid after).custody = state.custody.setCore tid after.core := by
  unfold State.custody State.setThread Custody.setCore
  rw [List.map_set]

theorem custody_found (found : state.threads[tid]? = some thread) :
    state.custody.cores[tid]? = some thread.core := by
  change (state.threads.map PThread.core)[tid]? = _
  rw [List.getElem?_map, found]
  rfl

theorem custody_store :
    (state.setThreadId object threadId).custody = state.custody.store object threadId := by
  unfold State.custody State.setThreadId Custody.store
  congr 1
  funext other
  dsimp only
  rw [List.getElem?_modify]
  cases state.objects[other]? with
  | none => exact (ite_self _).symm
  | some base =>
      change some (if object = other then _ else base).threadId = if other = object then _ else _
      by_cases same : object = other
      · rw [if_pos same, if_pos same.symm]
        rfl
      · rw [if_neg same, if_neg (Ne.symm same)]
        rfl

theorem custody_find? : state.custody.find? threadId = state.find? threadId := by
  unfold Custody.find? State.find? State.custody
  rw [List.findIdx?_map]
  rfl

theorem moves_set {core : Core} (custody : next.custody = (state.setThread tid after).custody)
    (same : after.core = core) (moves : Moves state.custody (state.custody.setCore tid core)) :
    Moves state.custody next.custody := by
  rw [custody, custody_setThread, same]
  exact moves

theorem moves_same (found : state.threads[tid]? = some thread)
    (custody : next.custody = (state.setThread tid after).custody)
    (same : after.core = thread.core) : Moves state.custody next.custody := by
  refine moves_set custody same ?_
  have kept : state.custody.setCore tid thread.core = state.custody := by
    unfold Custody.setCore
    rw [set_same (custody_found found)]
  rw [kept]
  exact .same

theorem moves_engage (place : Place) (called : state.caller? tid = some thread)
    (custody : next.custody = (state.setThread tid { thread with place := place }).custody)
    (permitted : state.custody.Permits place.engagement) :
    Moves state.custody next.custody := by
  obtain ⟨found, _, outside⟩ := caller?_eq_some called
  refine moves_set custody rfl (.engage _ (custody_found found) ?_ permitted)
  change thread.place.engagement = .none
  rw [outside]
  rfl

theorem custody_hire (new : PThread) (latest : Nat → Option Nat) :
    State.custody { state with threads := state.threads ++ [new], latest := latest } =
      { state.custody with
        cores := state.custody.cores ++ [new.core]
        latest := latest } := by
  unfold State.custody
  rw [List.map_append]
  rfl

theorem pthreadCreate_moves {oldSigmask : Mask} {result : Int}
    (found : state.threads[tid]? = some thread)
    (place : thread.place = .blocked object oldSigmask)
    (permitted : OneAtATime state (.pthreadCreate tid threadId result)) :
    Moves state.custody
      (state.pthreadCreate tid threadId result thread object oldSigmask).custody := by
  have engaged : thread.core.engagement = .creating object := by
    change thread.place.engagement = _
    rw [place]
    rfl
  have core : PThread.core { thread with place := .created object oldSigmask result } =
      { thread.core with
        engagement := if result = 0 then .created object else .unsettled object } := rfl
  have stored : ((state.setThread tid
      { thread with place := .created object oldSigmask result }).setThreadId object
        threadId).custody = (state.custody.setCore tid { thread.core with
          engagement := if result = 0 then .created object else .unsettled object }).store object
            threadId := by
    rw [custody_store, custody_setThread, core]
  unfold State.pthreadCreate
  dsimp only
  by_cases success : result = 0
  · have length : ((state.setThread tid
        { thread with place := .created object oldSigmask result }).setThreadId object
          threadId).threads.length = state.custody.cores.length := by
      change (state.threads.set tid _).length = (state.threads.map PThread.core).length
      rw [List.length_set, List.length_map]
    have spawned := Moves.spawn (custody_found found) engaged permitted.1 permitted.2
    rw [if_pos success] at stored
    rw [if_pos success, custody_hire, stored, length]
    exact spawned
  · rw [if_neg success] at stored
    rw [if_neg success, stored]
    exact .fail threadId (custody_found found) engaged

theorem pthreadKill_moves {signal : Nat} (found : state.threads[tid]? = some thread)
    (place : thread.place = .killing object threadId signal) :
    Moves state.custody (state.pthreadKill tid thread object threadId signal).custody := by
  have engaged : thread.core.engagement = .killing object threadId := by
    change thread.place.engagement = _
    rw [place]
    rfl
  have killed := Moves.killed (custody_found found) engaged
  have left : (state.setThread tid { thread with place := .outside }).custody =
      state.custody.setCore tid { thread.core with engagement := .none } := custody_setThread
  rw [custody_find?, ← left] at killed
  unfold State.pthreadKill
  dsimp only
  cases named : state.find? threadId with
  | none =>
      rw [named] at killed
      exact killed
  | some other =>
      rw [named] at killed
      have cores : (((state.setThread tid { thread with place := .outside }).threads.modify other
          fun one => { one with pending := one.pending ++ [signal] }).map PThread.core) =
          (state.setThread tid { thread with place := .outside }).custody.cores :=
        map_modify_same _ _ fun _ => rfl
      unfold State.custody at killed ⊢
      dsimp only at killed ⊢
      rw [cores]
      exact killed

theorem pthreadJoin_moves (found : state.threads[tid]? = some thread)
    (place : thread.place = .joining object threadId)
    (taken : state.pthreadJoin tid thread object threadId = some next) :
    Moves state.custody next.custody := by
  have engaged : thread.core.engagement = .joining object threadId := by
    change thread.place.engagement = _
    rw [place]
    rfl
  have left : (state.setThread tid { thread with place := .joined object }).custody =
      state.custody.setCore tid { thread.core with engagement := .unsettled object } :=
    custody_setThread
  unfold State.pthreadJoin at taken
  split at taken
  · rename_i other named
    split at taken
    · rename_i target atOther
      split_ifs at taken with refused ended
      · cases taken
        exact .same
      · rw [not_or] at refused
        cases taken
        have joined := Moves.joined (custody_found found) engaged (custody_find?.trans named)
          refused.2 (custody_found atOther)
        have there : (state.setThread tid
            { thread with place := .joined object }).threads[other]? = some target :=
          (List.getElem?_set_ne (Ne.symm refused.2)).trans atOther
        have reaped : (state.setThread tid
            { thread with place := .joined object }).threads.modify other
              (fun one => { one with reaped := true }) =
            (state.setThread tid { thread with place := .joined object }).threads.set other
              { target with reaped := true } := modify_found _ there
        rw [reaped]
        rw [← left] at joined
        have set : ((state.setThread tid { thread with place := .joined object }).setThread other
            { target with reaped := true }).custody =
            (state.setThread tid { thread with place := .joined object }).custody.setCore other
              { target.core with reaped := true } := custody_setThread
        rw [← set] at joined
        exact joined
    · cases taken
  · cases taken
    exact .same

theorem create_moves {name : String} {base : ThreadBase} {mask : Mask}
    (called : state.caller? tid = some thread) (atObject : state.objects[object]? = some base)
    (permitted : OneAtATime state (.create tid object name)) :
    Moves state.custody
      (State.custody
        { state.setThread tid { thread with mask := mask, place := .blocked object thread.mask } with
          objects := state.objects.set object { base with threadName := name } }) := by
  obtain ⟨found, _, outside⟩ := caller?_eq_some called
  have renamed : (fun other => (state.objects.set object
      { base with threadName := name })[other]?.map ThreadBase.threadId) =
      state.custody.threadId := by
    funext other
    change _ = (state.objects[other]?).map ThreadBase.threadId
    by_cases same : object = other
    · subst same
      rw [getElem?_set_found atObject, atObject]
      rfl
    · rw [List.getElem?_set_ne same]
  have engaged : Moves state.custody (state.custody.setCore tid
      { thread.core with engagement := .creating object }) := by
    refine .engage _ (custody_found found) ?_ permitted
    change thread.place.engagement = .none
    rw [outside]
    rfl
  unfold State.custody at engaged ⊢
  dsimp only [State.setThread]
  rw [List.map_set, renamed]
  exact engaged

theorem restore_moves {oldSigmask mask : Mask} {result : Int} {aborted : Bool}
    (found : state.threads[tid]? = some thread)
    (place : thread.place = .created object oldSigmask result) :
    Moves state.custody
      (State.custody
        { state.setThread tid
            { thread with
              mask := mask
              place := if result = 0 then .outside else .failed object } with
          aborted := aborted }) := by
  by_cases success : result = 0
  · have engaged : thread.core.engagement = .created object := by
      change thread.place.engagement = _
      rw [place]
      exact if_pos success
    rw [if_pos success]
    exact moves_set rfl rfl (.leave (custody_found found) engaged)
  · rw [if_neg success]
    refine moves_same found rfl ?_
    unfold PThread.core
    rw [place]
    exact congrArg (Core.mk _ · _ _ _) (if_neg success).symm

theorem detach_moves {other : Nat} (named : state.find? threadId = some other)
    (permitted : OneAtATime state (.detach tid object))
    (stored : state.custody.threadId object = some threadId) :
    Moves state.custody
      (State.custody { state with threads := state.threads.modify other fun one =>
        { one with detached := true, reaped := one.reaped || one.ended } }) := by
  obtain ⟨core, atCore, _, _⟩ := find?_eq_some (custody_find?.trans named)
  obtain ⟨target, atOther, rfl⟩ : ∃ target, state.threads[other]? = some target ∧
      target.core = core := by
    change (state.threads.map PThread.core)[other]? = some core at atCore
    rw [List.getElem?_map] at atCore
    exact Option.map_eq_some_iff.mp atCore
  rw [modify_found _ atOther]
  exact moves_set rfl rfl (.detach (target.reaped || target.ended) permitted.1 permitted.2
    stored (custody_find?.trans named) (custody_found atOther))

theorem finish_moves (found : state.threads[tid]? = some thread) :
    Moves state.custody
      (state.setThread tid
        { thread with ended := true, reaped := thread.reaped || thread.detached }).custody := by
  by_cases detached : thread.detached = true
  · refine moves_set rfl ?_ (.gone (custody_found found) detached)
    unfold PThread.core
    rw [detached, Bool.or_true]
  · refine moves_same found rfl ?_
    unfold PThread.core
    rw [Bool.not_eq_true] at detached
    rw [detached, Bool.or_false]

theorem step_moves (taken : step blockable state action = some next)
    (permitted : OneAtATime state action) : Moves state.custody next.custody := by
  rw [step, Option.ite_none_left_eq_some] at taken
  have done := taken.2
  have stored {object : Nat} {base : ThreadBase} (found : state.objects[object]? = some base) :
      state.custody.threadId object = some base.threadId := by
    change (state.objects[object]?).map ThreadBase.threadId = _
    rw [found]
    rfl
  cases action with
  | sigmask tid mask =>
      obtain ⟨thread, called, rfl⟩ := Option.map_eq_some_iff.mp done
      exact moves_same (caller?_eq_some called).1 rfl rfl
  | create tid object name =>
      obtain ⟨thread, called, created⟩ := Option.bind_eq_some_iff.mp done
      obtain ⟨base, atObject, rfl⟩ := Option.map_eq_some_iff.mp created
      split
      · exact create_moves called atObject permitted
      · exact .same
  | pthreadCreate tid threadId result =>
      obtain ⟨thread, found, created⟩ := Option.bind_eq_some_iff.mp done
      split at created
      · rename_i object oldSigmask place
        cases created
        exact pthreadCreate_moves found place permitted
      · cases created
  | restore tid =>
      obtain ⟨thread, found, restored⟩ := Option.bind_eq_some_iff.mp done
      split at restored
      · rename_i object oldSigmask result place
        cases restored
        exact restore_moves found place
      · cases restored
  | kill tid object signal =>
      obtain ⟨thread, called, killed⟩ := Option.bind_eq_some_iff.mp done
      obtain ⟨base, atObject, rfl⟩ := Option.map_eq_some_iff.mp killed
      split
      · rename_i positive
        exact moves_engage (.killing object base.threadId signal) called rfl
          ⟨permitted.1, permitted.2, stored atObject, positive⟩
      · exact .same
  | pthreadKill tid =>
      obtain ⟨thread, found, killed⟩ := Option.bind_eq_some_iff.mp done
      split at killed
      · rename_i object threadId signal place
        cases killed
        exact pthreadKill_moves found place
      · cases killed
  | join tid object =>
      obtain ⟨thread, called, joined⟩ := Option.bind_eq_some_iff.mp done
      obtain ⟨base, atObject, rfl⟩ := Option.map_eq_some_iff.mp joined
      split
      · rename_i positive
        exact moves_engage (.joining object base.threadId) called rfl
          ⟨permitted.1, permitted.2, stored atObject, positive⟩
      · exact .same
  | pthreadJoin tid =>
      obtain ⟨thread, found, joined⟩ := Option.bind_eq_some_iff.mp done
      split at joined
      · rename_i object threadId place
        exact pthreadJoin_moves found place joined
      · cases joined
  | clearThreadId tid =>
      obtain ⟨thread, found, cleared⟩ := Option.bind_eq_some_iff.mp done
      split at cleared
      · rename_i object place
        cases cleared
        have engaged : thread.core.engagement = .unsettled object := by
          change thread.place.engagement = _
          rw [place]
          rfl
        rw [custody_store, custody_setThread]
        exact .clear (custody_found found) engaged
      · cases cleared
  | detach tid object =>
      obtain ⟨thread, _, detached⟩ := Option.bind_eq_some_iff.mp done
      obtain ⟨base, atObject, rfl⟩ := Option.map_eq_some_iff.mp detached
      split
      · rename_i other named
        exact detach_moves named permitted (stored atObject)
      · exact .same
  | signal tid signal =>
      obtain ⟨thread, found, rfl⟩ := Option.map_eq_some_iff.mp done
      exact moves_same found rfl rfl
  | handle tid signal =>
      obtain ⟨thread, found, handled⟩ := Option.bind_eq_some_iff.mp done
      split_ifs at handled
      cases handled
      exact moves_same found rfl rfl
  | finish tid =>
      obtain ⟨thread, called, rfl⟩ := Option.map_eq_some_iff.mp done
      exact finish_moves (caller?_eq_some called).1

end Steps

theorem reachable_custody {blockable : Mask} {state : State}
    (reached : Runs.Reachable (processes blockable) OneAtATime state) : Kept state.custody := by
  apply reached.invariant
  · rintro current ⟨threads, distinct, objects, latest, _, sent, _⟩
    have fresh {core : Core} (member : core ∈ current.custody.cores) :
        core.self ≠ 0 ∧ core.engagement = .none := by
      obtain ⟨thread, present, rfl⟩ := List.mem_map.mp member
      obtain ⟨self, mask, rfl, positive, _⟩ := threads thread present
      exact ⟨positive, rfl⟩
    refine ⟨fun core member => (fresh member).1, ?_, ?_, ?_, ?_, ?_⟩
    · intro first second one two atFirst atSecond _ _ same
      have selves : current.custody.cores.map Core.self = current.threads.map PThread.self :=
        List.map_map
      rw [← selves] at distinct
      have atOne : (current.custody.cores.map Core.self)[first]? = some one.self := by
        rw [List.getElem?_map, atFirst]
        rfl
      have atTwo : (current.custody.cores.map Core.self)[second]? = some one.self := by
        rw [List.getElem?_map, atSecond, same]
        rfl
      exact (List.getElem?_inj (List.getElem?_eq_some_iff.mp atOne).1 distinct).mp
        (atOne.trans atTwo.symm)
    · intro first second one two object atFirst _ engaged _
      rw [(fresh (List.mem_of_getElem? atFirst)).2] at engaged
      cases engaged
    · intro object threadId stored _ _
      obtain ⟨base, found, rfl⟩ := Option.map_eq_some_iff.mp stored
      rw [objects base (List.mem_of_getElem? found)]
      exact Or.inl rfl
    · intro core member object threadId reading
      rw [(fresh member).2] at reading
      rcases reading with impossible | impossible
      · cases impossible
      · cases impossible
    · intro entry member
      change entry ∈ current.sent at member
      rw [sent] at member
      cases member
  · intro current action following _ kept permitted taken
    exact (step_moves taken permitted).kept kept

/-- A signal that `kill` sends goes to a thread that the object created, and an identity
that `kill` or `join` is about to use names the unjoined thread of its object. -/
theorem identities_lead_home {blockable : Mask} {state : State}
    (reached : Runs.Reachable (processes blockable) OneAtATime state) :
    (∀ object receiver, (object, receiver) ∈ state.sent → ∃ tid thread, receiver = some tid ∧
      state.threads[tid]? = some thread ∧ thread.origin = some object) ∧
      ∀ thread ∈ state.threads, ∀ object threadId,
        (∃ signal, thread.place = .killing object threadId signal) ∨
          thread.place = .joining object threadId →
        ∃ other target, state.find? threadId = some other ∧ state.latest object = some other ∧
          state.threads[other]? = some target ∧ target.origin = some object := by
  have kept := reachable_custody reached
  have thread {tid : Nat} {core : Core} (found : state.custody.cores[tid]? = some core) :
      ∃ thread, state.threads[tid]? = some thread ∧ thread.core = core := by
    change (state.threads.map PThread.core)[tid]? = some core at found
    rw [List.getElem?_map] at found
    exact Option.map_eq_some_iff.mp found
  constructor
  · intro object receiver member
    obtain ⟨tid, core, got, found, made⟩ := kept.sent (object, receiver) member
    obtain ⟨own, atTid, rfl⟩ := thread found
    exact ⟨tid, own, got, atTid, made⟩
  · intro caller member object threadId reading
    have engaged : caller.core.engagement = .killing object threadId ∨
        caller.core.engagement = .joining object threadId := by
      change caller.place.engagement = _ ∨ caller.place.engagement = _
      rcases reading with ⟨signal, killing⟩ | joining
      · rw [killing]
        exact Or.inl rfl
      · rw [joining]
        exact Or.inr rfl
    obtain ⟨_, names⟩ := kept.reads caller.core (List.mem_map_of_mem member) object threadId engaged
    obtain ⟨other, core, named, latest, found, made⟩ := kept.find names
    obtain ⟨own, atOther, rfl⟩ := thread found
    exact ⟨other, own, custody_find?.symm.trans named, latest, atOther, made⟩

instance (custody : Custody) (object : Nat) : Decidable (custody.Free object) :=
  inferInstanceAs (Decidable (∀ core ∈ custody.cores, core.engagement.object ≠ some object))

instance (custody : Custody) (object : Nat) : Decidable (custody.Killable object) :=
  inferInstanceAs (Decidable (∀ core ∈ custody.cores, core.engagement.object = some object →
    core.engagement.kills = true))

instance (custody : Custody) (object : Nat) : Decidable (custody.Detached object) :=
  inferInstanceAs (Decidable (∃ tid ∈ custody.latest object, ∃ core ∈ custody.cores[tid]?,
    core.detached = true))

instance (state : State) (action : Action) : Decidable (OneAtATime state action) :=
  match action with
  | .create _ _ _ => inferInstanceAs (Decidable (_ ∧ _))
  | .pthreadCreate _ _ _ => inferInstanceAs (Decidable (_ ∧ ∀ core ∈ _, _))
  | .kill _ _ _ => inferInstanceAs (Decidable (_ ∧ _))
  | .join _ _ => inferInstanceAs (Decidable (_ ∧ _))
  | .detach _ _ => inferInstanceAs (Decidable (_ ∧ _))
  | .sigmask _ _ | .restore _ | .pthreadKill _ | .pthreadJoin _ | .clearThreadId _
  | .signal _ _ | .handle _ _ | .finish _ => inferInstanceAs (Decidable True)

/-- The object is used for two threads, one after the other, and the system gives the
second one the identity of the first. -/
theorem identities_lead_home_reused :
    ∃ (state : State) (first second : PThread),
      Runs.Reachable (processes fun _ => true) OneAtATime state ∧
        state.sent = [(0, some 2), (0, some 1)] ∧ state.threads[1]? = some first ∧
        state.threads[2]? = some second ∧ first.self = second.self ∧
        first.origin = some 0 ∧ second.origin = some 0 := by
  have initial : (processes fun _ => true).initial
      ⟨[.new 1 (fun _ => false) none], [ThreadBase.new], fun _ => none, [], [], false⟩ := by
    refine ⟨?_, List.pairwise_singleton _ _, ?_, fun _ => rfl, rfl, rfl, rfl⟩
    · intro thread member
      exact ⟨1, fun _ => false, List.mem_singleton.mp member, one_ne_zero, fun _ _ => rfl⟩
    · intro base member
      exact List.mem_singleton.mp member
  obtain ⟨state, reached, passed⟩ := Runs.exists_of_replay OneAtATime initial
    [.create 0 0 "first", .pthreadCreate 0 2 0, .restore 0, .kill 0 0 10, .pthreadKill 0,
      .finish 1, .join 0 0, .pthreadJoin 0, .clearThreadId 0, .create 0 0 "second",
      .pthreadCreate 0 2 0, .restore 0, .kill 0 0 12, .pthreadKill 0]
    (fun state : State => decide (state.sent = [(0, some 2), (0, some 1)] ∧
      state.threads.map PThread.self = [1, 2, 2]))
    (by decide +kernel)
  obtain ⟨sent, selves⟩ := of_decide_eq_true passed
  have home := (identities_lead_home reached).1
  obtain ⟨tid, second, got, atSecond, secondMade⟩ := home 0 (some 2) (by rw [sent]; decide)
  obtain ⟨other, first, gotToo, atFirst, firstMade⟩ := home 0 (some 1) (by rw [sent]; decide)
  cases got
  cases gotToo
  have self {place : Nat} {thread : PThread} (found : state.threads[place]? = some thread) :
      [1, 2, 2][place]? = some thread.self := by
    rw [← selves, List.getElem?_map, found]
    rfl
  have firstSelf : 2 = first.self := Option.some.inj (self atFirst)
  have secondSelf : 2 = second.self := Option.some.inj (self atSecond)
  exact ⟨state, first, second, reached, sent, atFirst, atSecond, firstSelf.symm.trans secondSelf,
    firstMade, secondMade⟩

end BlueThread.Thread.Process
