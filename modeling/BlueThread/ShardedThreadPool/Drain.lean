/-
`drain` as a barrier.

A drain waits until every worker is in the drained section. A worker enters the
section with an empty shard, but it leaves it only some time after the flag was
cleared, and one that is still there when the next drain sets the flag again
stays without another look at its shard. So a drain covers the items queued
before its call if no such worker has one of them.
-/

import BlueThread.ShardedThreadPool.Counters
import Mathlib.Data.List.Perm.Basic

namespace BlueThread.ShardedThreadPool

open Population

def shardAt (shards : List (List Nat)) (index : Nat) : List Nat := (shards[index]?).getD []

def ClientPc.since? : ClientPc → Option Nat
  | .drainCalled since => some since
  | .drainWait since => some since
  | .drainWoken since => some since
  | _ => none

def ClientPc.awaited? : ClientPc → Option Nat
  | .drainWait since => some since
  | .drainWoken since => some since
  | _ => none

/-- One drain after another, and neither pause nor stop. -/
def Successive (state : State) : Action → Prop
  | .drain _ => ∀ client ∈ state.clients, client.pc.since? = none
  | .pause _ => False
  | .unpause _ => False
  | .stop _ => False
  | _ => True

/-- No worker in the drained section has an item in its shard that is older than
the call. -/
def Spared (workers : List Worker) (shards : List (List Nat)) (since : Nat) : Prop :=
  ∀ one ∈ workers, one.drained ≠ 0 → ∀ ticket ∈ shardAt shards one.threadIndex, since ≤ ticket

/-- What a drain has to find when it takes the lock. -/
def DrainFresh (state : State) : Action → Prop
  | .drainLock client =>
      ∀ one ∈ state.clients[client]?, ∀ since ∈ one.pc.since?,
        Spared state.workers state.shards since
  | _ => True

instance (workers : List Worker) (shards : List (List Nat)) (since : Nat) :
    Decidable (Spared workers shards since) :=
  inferInstanceAs (Decidable (∀ one ∈ workers, _))

instance (state : State) (action : Action) : Decidable (Successive state action) :=
  match action with
  | .drain _ => inferInstanceAs (Decidable (∀ client ∈ state.clients, _))
  | .pause _ | .unpause _ | .stop _ => inferInstanceAs (Decidable False)
  | .work _ | .dequeue _ _ _ | .complete _ _ | .timeout _ | .spurious _ | .queue _
  | .queueFront _ | .setWq | .start | .join _ | .drainLock _ | .resume _ =>
      inferInstanceAs (Decidable True)

instance (state : State) (action : Action) : Decidable (DrainFresh state action) :=
  match action with
  | .drainLock client => inferInstanceAs (Decidable (∀ one ∈ state.clients[client]?, _))
  | .work _ | .dequeue _ _ _ | .complete _ _ | .timeout _ | .spurious _ | .queue _
  | .queueFront _ | .setWq | .start | .stop _ | .join _ | .pause _ | .unpause _ | .drain _
  | .resume _ => inferInstanceAs (Decidable True)

/-! ### Items -/

def WorkerPc.held : WorkerPc → List Nat
  | .process held => held
  | _ => []

structure Located (numThreads queued : Nat) (processed : List Nat) (shards : List (List Nat))
    (workers : List Worker) : Prop where
  sharded : shards.length = numThreads
  found : ∀ ticket < queued, ticket ∈ processed ∨ (∃ items ∈ shards, ticket ∈ items) ∨
    ∃ one ∈ workers, ticket ∈ one.pc.held

theorem mem_eraseIdx_or_taken {tickets : List Nat} {place ticket taken : Nat}
    (atPlace : tickets[place]? = some taken) (member : ticket ∈ tickets) :
    ticket = taken ∨ ticket ∈ tickets.eraseIdx place := by
  obtain ⟨inside, rfl⟩ := List.getElem?_eq_some_iff.mp atPlace
  have split := List.getElem_cons_eraseIdx_perm inside
  exact List.mem_cons.mp (split.mem_iff.mpr member)

section Items

variable {numThreads queued : Nat} {processed : List Nat} {shards : List (List Nat)}
variable {workers : List Worker}

theorem Located.regroup {after : List Worker}
    (located : Located numThreads queued processed shards workers)
    (kept : ∀ one ∈ workers, ∀ ticket ∈ one.pc.held, ∃ other ∈ after, ticket ∈ other.pc.held) :
    Located numThreads queued processed shards after := by
  refine ⟨located.sharded, ?_⟩
  intro ticket known
  rcases located.found ticket known with done | waiting | ⟨one, member, holds⟩
  · exact Or.inl done
  · exact Or.inr (Or.inl waiting)
  · exact Or.inr (Or.inr (kept one member ticket holds))

theorem Located.setWorker {worker : Nat} {old new : Worker}
    (located : Located numThreads queued processed shards workers)
    (found : workers[worker]? = some old) (same : new.pc.held = old.pc.held) :
    Located numThreads queued processed shards (workers.set worker new) := by
  apply located.regroup
  intro one member ticket holds
  rcases mem_set_or_replaced new found member with rfl | kept
  · exact ⟨new, mem_set_new new found, same ▸ holds⟩
  · exact ⟨one, kept, holds⟩

theorem Located.notifyWorkers (located : Located numThreads queued processed shards workers) :
    Located numThreads queued processed shards (workers.map Worker.notify) := by
  apply located.regroup
  intro one member ticket holds
  refine ⟨one.notify, List.mem_map.mpr ⟨one, member, rfl⟩, ?_⟩
  obtain ⟨index, pc⟩ := one
  cases pc with
  | process held => exact holds
  | _ => cases holds

theorem Located.dequeue {worker index shard place taken : Nat} {held items : List Nat}
    (located : Located numThreads queued processed shards workers)
    (found : workers[worker]? = some ⟨index, .process held⟩)
    (atShard : shards[shard]? = some items) (atPlace : items[place]? = some taken) :
    Located numThreads queued processed (shards.set shard (items.eraseIdx place))
      (workers.set worker ⟨index, .process (taken :: held)⟩) := by
  refine ⟨List.length_set.trans located.sharded, ?_⟩
  have added := mem_set_new ⟨index, .process (taken :: held)⟩ found
  intro ticket known
  rcases located.found ticket known with done | ⟨bucket, inShards, inBucket⟩ | ⟨one, member, holds⟩
  · exact Or.inl done
  · right
    rcases mem_set_or_replaced (items.eraseIdx place) atShard inShards with rfl | kept
    · rcases mem_eraseIdx_or_taken atPlace inBucket with rfl | remaining
      · exact Or.inr ⟨_, added, List.mem_cons_self⟩
      · exact Or.inl ⟨_, mem_set_new _ atShard, remaining⟩
    · exact Or.inl ⟨bucket, kept, inBucket⟩
  · right
    right
    rcases mem_set_or_replaced ⟨index, .process (taken :: held)⟩ found member with rfl | kept
    · exact ⟨_, added, List.mem_cons_of_mem _ holds⟩
    · exact ⟨one, kept, holds⟩

theorem Located.complete {worker index place taken : Nat} {held : List Nat}
    (located : Located numThreads queued processed shards workers)
    (found : workers[worker]? = some ⟨index, .process held⟩)
    (atPlace : held[place]? = some taken) :
    Located numThreads queued (taken :: processed) shards
      (workers.set worker ⟨index, .process (held.eraseIdx place)⟩) := by
  refine ⟨located.sharded, ?_⟩
  intro ticket known
  rcases located.found ticket known with done | waiting | ⟨one, member, holds⟩
  · exact Or.inl (List.mem_cons_of_mem _ done)
  · exact Or.inr (Or.inl waiting)
  · rcases mem_set_or_replaced ⟨index, .process (held.eraseIdx place)⟩ found member with rfl | kept
    · rcases mem_eraseIdx_or_taken atPlace holds with rfl | remaining
      · exact Or.inl List.mem_cons_self
      · exact Or.inr (Or.inr ⟨_, mem_set_new _ found, remaining⟩)
    · exact Or.inr (Or.inr ⟨one, kept, holds⟩)

theorem Located.insert {shard : Nat} {items after : List Nat}
    (located : Located numThreads queued processed shards workers)
    (atShard : shards[shard]? = some items) (new : queued ∈ after) (kept : items ⊆ after) :
    Located numThreads (queued + 1) processed (shards.set shard after) workers := by
  refine ⟨List.length_set.trans located.sharded, ?_⟩
  intro ticket known
  by_cases last : ticket = queued
  · subst last
    exact Or.inr (Or.inl ⟨after, mem_set_new after atShard, new⟩)
  · rcases located.found ticket (by omega) with done | ⟨bucket, inShards, inBucket⟩ | holds
    · exact Or.inl done
    · right
      left
      rcases mem_set_or_replaced after atShard inShards with rfl | other
      · exact ⟨after, mem_set_new after atShard, kept inBucket⟩
      · exact ⟨bucket, other, inBucket⟩
    · exact Or.inr (Or.inr holds)

theorem Located.spawn (located : Located numThreads queued processed shards workers)
    (more : List Worker) :
    Located numThreads queued processed shards (workers ++ more) := by
  apply located.regroup
  intro one member ticket holds
  exact ⟨one, List.mem_append_left _ member, holds⟩

end Items

theorem Move.held {state : State} {index : Nat} {pc next : WorkerPc}
    (moved : Move state index pc next) : next.held = pc.held := by
  cases moved with
  | wake pc => cases pc <;> rfl
  | _ => rfl

theorem Effect.located {state next : State} {action : Action} (effect : Effect state action next)
    (located : Located state.numThreads state.queued state.processed state.shards
      state.workers) :
    Located next.numThreads next.queued next.processed next.shards next.workers := by
  cases effect with
  | move found moved => exact located.setWorker found moved.held
  | pauseEnter found paused => exact located.setWorker found rfl
  | pausePass found unpaused => exact located.setWorker found rfl
  | pauseLeave found unpaused => exact located.setWorker found rfl
  | drainEnter found empty draining => exact located.setWorker found rfl
  | drainPass found empty idle => exact located.setWorker found rfl
  | drainLeave found idle => exact located.setWorker found rfl
  | dequeue found atShard atPlace => exact located.dequeue found atShard atPlace
  | complete found atPlace => exact located.complete found atPlace
  | insert atShard inserted =>
      rcases inserted with rfl | rfl
      · exact located.insert atShard (List.mem_append_right _ List.mem_cons_self)
          (List.subset_append_left _ _)
      · exact located.insert atShard List.mem_cons_self (List.subset_cons_self _ _)
  | start asked => exact located.spawn _
  | unpause asked found => exact located.notifyWorkers
  | drainReturn found entry full => exact located.notifyWorkers
  | _ => exact located

/-! ### Workers that stay -/

section Stays

variable {workers : List Worker} {shards : List (List Nat)} {since : Nat}

theorem Spared.setWorker {worker : Nat} {old new : Worker} (spared : Spared workers shards since)
    (found : workers[worker]? = some old) (same : new.threadIndex = old.threadIndex)
    (entered : new.drained ≠ 0 → old.drained ≠ 0 ∨ shardAt shards old.threadIndex = []) :
    Spared (workers.set worker new) shards since := by
  intro one member stays ticket inShard
  rcases List.mem_or_eq_of_mem_set member with kept | rfl
  · exact spared one kept stays ticket inShard
  · rw [same] at inShard
    rcases entered stays with before | empty
    · exact spared old (List.mem_of_getElem? found) before ticket inShard
    · rw [empty] at inShard
      cases inShard

theorem Spared.notifyWorkers (spared : Spared workers shards since) :
    Spared (workers.map Worker.notify) shards since := by
  intro one member stays ticket inShard
  obtain ⟨before, present, rfl⟩ := List.mem_map.mp member
  obtain ⟨index, _, drained⟩ := notify_kept before
  rw [drained] at stays
  rw [index] at inShard
  exact spared before present stays ticket inShard

theorem Spared.setShard {shard : Nat} {items after : List Nat}
    (spared : Spared workers shards since) (atShard : shards[shard]? = some items)
    (newer : ∀ ticket ∈ after, ticket ∈ items ∨ since ≤ ticket) :
    Spared workers (shards.set shard after) since := by
  intro one member stays ticket inShard
  have older := spared one member stays ticket
  unfold shardAt at inShard older
  by_cases same : shard = one.threadIndex
  · rw [← same, getElem?_set_found atShard] at inShard
    rw [← same, atShard] at older
    rcases newer ticket inShard with kept | late
    · exact older kept
    · exact late
  · rw [List.getElem?_set_ne same] at inShard
    exact older inShard

theorem Spared.spawn {missing : Nat} (spared : Spared workers shards since) :
    Spared (workers ++ (List.range missing).map fun index => ⟨index, .starting⟩) shards since := by
  intro one member stays
  rcases List.mem_append.mp member with kept | added
  · exact spared one kept stays
  · obtain ⟨index, _, rfl⟩ := List.mem_map.mp added
    exact absurd rfl stays

end Stays

theorem shardAt_empty {state : State} {index : Nat} (empty : state.isShardEmpty index = true) :
    shardAt state.shards index = [] := by
  unfold State.isShardEmpty at empty
  unfold shardAt
  cases found : state.shards[index]? with
  | none => rfl
  | some items =>
      rw [found] at empty
      exact List.isEmpty_iff.mp empty

/-- Drains know how much was queued before them, and those that took the lock are
not deceived by a worker that stays. -/
structure Covered (queued : Nat) (workers : List Worker) (shards : List (List Nat))
    (clients : List Client) : Prop where
  called : ∀ client ∈ clients, ∀ since ∈ client.pc.since?, since ≤ queued
  spared : ∀ client ∈ clients, ∀ since ∈ client.pc.awaited?, Spared workers shards since

theorem since_of_awaited {pc : ClientPc} {since : Nat} (awaited : since ∈ pc.awaited?) :
    since ∈ pc.since? := by
  cases pc with
  | drainWait other => exact awaited
  | drainWoken other => exact awaited
  | _ => cases awaited

section Cover

variable {queued : Nat} {workers : List Worker} {shards : List (List Nat)}
variable {clients : List Client}

theorem Covered.change {later : Nat} {others : List Worker} {buckets : List (List Nat)}
    (covered : Covered queued workers shards clients) (more : queued ≤ later)
    (kept : ∀ since ≤ queued, Spared workers shards since → Spared others buckets since) :
    Covered later others buckets clients := by
  refine ⟨?_, ?_⟩
  · intro client member since called
    exact (covered.called client member since called).trans more
  · intro client member since awaited
    exact kept since (covered.called client member since (since_of_awaited awaited))
      (covered.spared client member since awaited)

theorem Covered.setWorker {worker : Nat} {old new : Worker}
    (covered : Covered queued workers shards clients) (found : workers[worker]? = some old)
    (same : new.threadIndex = old.threadIndex)
    (entered : new.drained ≠ 0 → old.drained ≠ 0 ∨ shardAt shards old.threadIndex = []) :
    Covered queued (workers.set worker new) shards clients := by
  apply covered.change (Nat.le_refl _)
  intro since _ spared
  exact spared.setWorker found same entered

theorem Covered.setClient {client : Nat} {new : Client}
    (covered : Covered queued workers shards clients)
    (called : ∀ since ∈ new.pc.since?, since ≤ queued)
    (spared : ∀ since ∈ new.pc.awaited?, Spared workers shards since) :
    Covered queued workers shards (clients.set client new) := by
  refine ⟨?_, ?_⟩
  · intro one member
    rcases List.mem_or_eq_of_mem_set member with kept | rfl
    · exact covered.called one kept
    · exact called
  · intro one member
    rcases List.mem_or_eq_of_mem_set member with kept | rfl
    · exact covered.spared one kept
    · exact spared

theorem notify_awaited (client : Client) :
    client.notify.pc.since? = client.pc.since? ∧
      client.notify.pc.awaited? = client.pc.awaited? := by
  obtain ⟨pc, pauses⟩ := client
  cases pc <;> exact ⟨rfl, rfl⟩

theorem Covered.notifyClients (covered : Covered queued workers shards clients) :
    Covered queued workers shards (clients.map Client.notify) := by
  refine ⟨?_, ?_⟩
  · intro client member since called
    obtain ⟨before, present, rfl⟩ := List.mem_map.mp member
    rw [(notify_awaited before).1] at called
    exact covered.called before present since called
  · intro client member since awaited
    obtain ⟨before, present, rfl⟩ := List.mem_map.mp member
    rw [(notify_awaited before).2] at awaited
    exact covered.spared before present since awaited

end Cover

theorem Covered.entry {state : State} {action : Action} {client pauses since : Nat}
    {before : ClientPc} {flag : Bool}
    (covered : Covered state.queued state.workers state.shards state.clients)
    (fresh : DrainFresh state action) (found : state.clients[client]? = some ⟨before, pauses⟩)
    (entry : Entry (action = .drainLock client ∧ state.wq = true) (.drainCalled since)
      (.drainWoken since) state.drainThreads before flag) :
    since ≤ state.queued ∧ Spared state.workers state.shards since := by
  have member := List.mem_of_getElem? found
  cases entry with
  | call asked =>
      obtain ⟨rfl, _⟩ := asked
      exact ⟨covered.called _ member since rfl, fresh _ found since rfl⟩
  | resumed => exact ⟨covered.called _ member since rfl, covered.spared _ member since rfl⟩

theorem Effect.covered {state next : State} {action : Action} (effect : Effect state action next)
    (fresh : DrainFresh state action)
    (covered : Covered state.queued state.workers state.shards state.clients) :
    Covered next.queued next.workers next.shards next.clients := by
  cases effect with
  | move found moved =>
      refine covered.setWorker found rfl ?_
      intro stays
      left
      unfold Worker.drained at stays ⊢
      rw [← moved.kept.2]
      exact stays
  | pauseEnter found paused =>
      exact covered.notifyClients.setWorker found rfl fun stays => absurd rfl stays
  | pausePass found unpaused =>
      exact covered.notifyClients.setWorker found rfl fun stays => absurd rfl stays
  | pauseLeave found unpaused => exact covered.setWorker found rfl fun stays => absurd rfl stays
  | drainEnter found empty draining =>
      exact covered.notifyClients.setWorker found rfl fun _ => Or.inr (shardAt_empty empty)
  | drainPass found empty idle =>
      exact covered.notifyClients.setWorker found rfl fun stays => absurd rfl stays
  | drainLeave found idle => exact covered.setWorker found rfl fun stays => absurd rfl stays
  | dequeue found atShard atPlace =>
      apply covered.change (Nat.le_refl _)
      intro since _ spared
      refine Spared.setWorker ?_ found rfl fun stays => absurd rfl stays
      apply spared.setShard atShard
      intro ticket kept
      exact Or.inl (List.mem_of_mem_eraseIdx kept)
  | complete found atPlace => exact covered.setWorker found rfl fun stays => absurd rfl stays
  | insert atShard inserted =>
      apply covered.change (Nat.le_succ _)
      intro since early spared
      apply spared.setShard atShard
      intro ticket member
      rcases inserted with rfl | rfl
      · rcases List.mem_append.mp member with old | new
        · exact Or.inl old
        · exact Or.inr (List.mem_singleton.mp new ▸ early)
      · rcases List.mem_cons.mp member with rfl | old
        · exact Or.inr early
        · exact Or.inl old
  | setWq => exact covered
  | start asked => exact covered.change (Nat.le_refl _) fun _ _ spared => spared.spawn
  | stop asked found alone => exact covered.setClient nofun nofun
  | join found ended => exact covered.setClient nofun nofun
  | pauseBlock found entry short => exact covered.setClient nofun nofun
  | pauseReturn found entry full => exact covered.setClient nofun nofun
  | unpause asked found =>
      exact (covered.change (Nat.le_refl _) fun _ _ spared => spared.notifyWorkers).setClient
        nofun nofun
  | drainCall asked found =>
      refine covered.setClient ?_ nofun
      intro since called
      cases called
      exact Nat.le_refl _
  | drainBlock found entry short =>
      obtain ⟨early, spared⟩ := covered.entry fresh found entry
      refine covered.setClient ?_ ?_
      · intro since called
        cases called
        exact early
      · intro since awaited
        cases awaited
        exact spared
  | drainReturn found entry full =>
      exact (covered.change (Nat.le_refl _) fun _ _ spared => spared.notifyWorkers).setClient
        nofun nofun
  | @spurious client one found =>
      have member := List.mem_of_getElem? found
      obtain ⟨sameSince, sameAwaited⟩ := notify_awaited one
      refine covered.setClient ?_ ?_
      · intro since called
        exact covered.called one member since (sameSince ▸ called)
      · intro since awaited
        exact covered.spared one member since (sameAwaited ▸ awaited)
  | abort stopThreads pauseThreads drainThreads unset => exact covered

/-! ### The barrier -/

def Completed (returned processed : List Nat) : Prop :=
  ∀ since ∈ returned, ∀ ticket < since, ticket ∈ processed

/-- With everybody in the section, what is not done is in the shard of a worker
that stays. -/
theorem processed_of_full {state : State} {since : Nat}
    (crewed : Crewed state.numThreads state.threads state.workers state.clients)
    (counted : Counted state.numPaused state.numDrained state.workers)
    (located : Located state.numThreads state.queued state.processed state.shards state.workers)
    (full : state.numThreads = state.numDrained) (early : since ≤ state.queued)
    (spared : Spared state.workers state.shards since) :
    ∀ ticket < since, ticket ∈ state.processed := by
  have few := crewed.length_le
  have drained := counted.drained
  have most := total_le_length Worker.drained state.workers drained_le
  have length : state.workers.length = state.numThreads := by omega
  have stays (one : Worker) (member : one ∈ state.workers) : one.drained = 1 :=
    counted_of_total_eq_length Worker.drained drained_le (by omega) member
  intro ticket old
  rcases located.found ticket (by omega) with done | ⟨items, member, inItems⟩ | ⟨one, member, holds⟩
  · exact done
  · exfalso
    obtain ⟨index, atIndex⟩ := List.mem_iff_getElem?.mp member
    have inside := (List.getElem?_eq_some_iff.mp atIndex).1
    have indexed : index ∈ state.workers.map Worker.threadIndex := by
      rcases crewed.started with ⟨_, nobody⟩ | ⟨_, all⟩
      · rw [nobody] at length
        have sharded := located.sharded
        rw [List.length_nil] at length
        omega
      · rw [all]
        exact List.mem_range.mpr (located.sharded ▸ inside)
    obtain ⟨one, present, rfl⟩ := List.mem_map.mp indexed
    have inShard : ticket ∈ shardAt state.shards one.threadIndex := by
      unfold shardAt
      rw [atIndex]
      exact inItems
    have late := spared one present (by rw [stays one present]; decide) ticket inShard
    omega
  · exfalso
    have inSection := stays one member
    obtain ⟨index, pc⟩ := one
    cases pc with
    | process held => cases inSection
    | _ => cases holds

theorem Effect.completed {state next : State} {action : Action}
    (effect : Effect state action next) (fresh : DrainFresh state action)
    (crewed : Crewed state.numThreads state.threads state.workers state.clients)
    (counted : Counted state.numPaused state.numDrained state.workers)
    (located : Located state.numThreads state.queued state.processed state.shards state.workers)
    (covered : Covered state.queued state.workers state.shards state.clients)
    (completed : Completed state.returned state.processed) :
    Completed next.returned next.processed := by
  cases effect with
  | complete found atPlace =>
      intro since returned ticket old
      exact List.mem_cons_of_mem _ (completed since returned ticket old)
  | drainReturn found entry full =>
      obtain ⟨early, spared⟩ := covered.entry fresh found entry
      intro since returned
      rcases List.mem_cons.mp returned with rfl | before
      · have processed := processed_of_full crewed counted located full early spared
        exact processed
      · exact completed since before
  | _ => exact completed

section Reached

variable {discipline : State → Action → Prop} {state : State}

theorem reachable_located (reached : Runs.Reachable system discipline state) :
    Located state.numThreads state.queued state.processed state.shards state.workers := by
  apply reached.invariant
  · rintro current ⟨numThreads, clients, small, rfl⟩
    exact ⟨List.length_replicate, fun _ known => absurd known (Nat.not_lt_zero _)⟩
  · intro current action following _ located _ taken
    exact (step_effect taken).located located

theorem reachable_covered
    (fresh : ∀ state action, discipline state action → DrainFresh state action)
    (reached : Runs.Reachable system discipline state) :
    Covered state.queued state.workers state.shards state.clients := by
  apply reached.invariant
  · rintro current ⟨numThreads, clients, small, rfl⟩
    refine ⟨?_, ?_⟩
    · intro client member
      rw [List.eq_of_mem_replicate member]
      nofun
    · intro client member
      rw [List.eq_of_mem_replicate member]
      nofun
  · intro current action following _ covered permitted taken
    exact (step_effect taken).covered (fresh current action permitted) covered

end Reached

/-- In a run without `stop` in which no drain takes the lock while a worker that stays
has an item older than the call, whatever was queued before a drain that returned is
processed. -/
theorem drained_items_processed {state : State}
    (reached : Runs.Reachable system
      (fun state action => NoStop action ∧ DrainFresh state action) state) :
    ∀ since ∈ state.returned, ∀ ticket < since, ticket ∈ state.processed := by
  have completed : Completed state.returned state.processed := by
    apply reached.invariant
    · rintro current ⟨numThreads, clients, small, rfl⟩
      nofun
    · intro current action following before completed permitted taken
      have running := fun (state : State) (action : Action)
        (permitted : NoStop action ∧ DrainFresh state action) => permitted.1
      exact (step_effect taken).completed permitted.2 (reachable_crewed running before)
        (reachable_counted running before) (reachable_located before)
        (reachable_covered (fun _ _ permitted => permitted.2) before) completed
  exact completed

/-- Two drains, with an item queued between them while the worker is still in the
section, and processed before the second drain takes the lock. -/
theorem drained_items_processed_run :
    ∃ state : State, Runs.Reachable system
        (fun state action => NoStop action ∧ DrainFresh state action) state ∧
      state.returned = [1, 0] ∧ 0 ∈ state.processed := by
  obtain ⟨state, reached, passed⟩ := Runs.exists_of_replay
    (fun state action => NoStop action ∧ DrainFresh state action)
    (show system.initial (State.initial 1 1) from ⟨1, 1, by decide, rfl⟩)
    [.setWq, .start, .work 0, .work 0, .work 0, .drain 0, .drainLock 0, .work 0, .work 0,
      .resume 0, .queue 0, .drain 0, .work 0, .dequeue 0 0 0, .drainLock 0, .complete 0 0,
      .work 0, .work 0, .work 0, .work 0, .work 0, .resume 0]
    (fun state => decide (state.returned = [1, 0])) (by decide +kernel)
  have returned := of_decide_eq_true passed
  exact ⟨state, reached, returned,
    drained_items_processed reached 1 (by rw [returned]; decide) 0 Nat.one_pos⟩

/-- The second drain finds the counter of the first and returns at once. -/
theorem drained_item_unprocessed :
    ∃ state : State, Runs.Reachable system Successive state ∧
      1 ∈ state.returned ∧ 0 ∉ state.processed := by
  obtain ⟨state, reached, passed⟩ := Runs.exists_of_replay Successive
    (show system.initial (State.initial 1 1) from ⟨1, 1, by decide, rfl⟩)
    [.setWq, .start, .work 0, .work 0, .work 0, .drain 0, .drainLock 0, .work 0, .work 0,
      .resume 0, .queue 0, .drain 0, .drainLock 0]
    (fun state => decide (1 ∈ state.returned ∧ 0 ∉ state.processed)) (by decide +kernel)
  exact ⟨state, reached, of_decide_eq_true passed⟩

end BlueThread.ShardedThreadPool
