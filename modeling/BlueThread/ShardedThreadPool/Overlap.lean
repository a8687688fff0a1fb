/-
Control requests of several clients on the sharded pool.

The requests are flags, and each client that is done clears its flag for all. A
drain that waits while another returns keeps its counter only as long as no
worker leaves the section; a pause that overlaps another loses its flag at the
first `unpause`.
-/

import BlueThread.ShardedThreadPool.Pause

namespace BlueThread.ShardedThreadPool

open Population

/-- Inside the wait of `drain`. -/
def Client.awaitsDrain (client : Client) : Bool :=
  match client.pc with
  | .drainWait _ => true
  | .drainWoken _ => true
  | _ => false

/-- Inside the wait of `pause`, or between its return and the `unpause`. -/
def Client.asksPause (client : Client) : Bool :=
  match client.pc with
  | .pauseWait => true
  | .pauseWoken => true
  | _ => 0 < client.pauses

/-- Every client undoes only pauses of its own that returned. -/
def Bracketed (state : State) : Action → Prop
  | .unpause client => ∀ one ∈ state.clients[client]?, 0 < one.pauses
  | _ => True

/-- No worker leaves the drained section while a client is inside `drain`, and
nobody undoes a pause while another one is asked for. -/
def Undisturbed (state : State) : Action → Prop
  | .work worker =>
      ∀ one ∈ state.workers[worker]?, one.pc = .drainWoken → state.drainThreads = false →
        ∀ client ∈ state.clients, client.awaitsDrain = false
  | .unpause client =>
      (∀ one ∈ state.clients[client]?, one.pauses = 1) ∧
        ∀ other ∈ state.clients.eraseIdx client, other.asksPause = false
  | _ => True

instance (state : State) (action : Action) : Decidable (Bracketed state action) :=
  match action with
  | .unpause client => inferInstanceAs (Decidable (∀ one ∈ state.clients[client]?, _))
  | .work _ | .dequeue _ _ _ | .complete _ _ | .timeout _ | .spurious _ | .queue _
  | .queueFront _ | .setWq | .start | .stop _ | .join _ | .pause _ | .drain _
  | .drainLock _ | .resume _ => inferInstanceAs (Decidable True)

instance (state : State) (action : Action) : Decidable (Undisturbed state action) :=
  match action with
  | .work worker => inferInstanceAs (Decidable (∀ one ∈ state.workers[worker]?, _))
  | .unpause client => inferInstanceAs (Decidable ((∀ one ∈ state.clients[client]?, _) ∧ _))
  | .dequeue _ _ _ | .complete _ _ | .timeout _ | .spurious _ | .queue _
  | .queueFront _ | .setWq | .start | .stop _ | .join _ | .pause _ | .drain _
  | .drainLock _ | .resume _ => inferInstanceAs (Decidable True)

/-! ### Requests stand -/

/-- Whatever the client asks for still stands, and it got past a null `wq`. -/
structure Stands (wq pauseThreads drainThreads : Bool) (numDrained numThreads : Nat)
    (client : Client) : Prop where
  drain : client.awaitsDrain = true →
    wq = true ∧ (drainThreads = true ∨ numDrained = numThreads)
  pause : client.asksPause = true → wq = true ∧ pauseThreads = true

def Standing (state : State) : Prop :=
  state.numDrained < 2 ^ 32 ∧ ∀ client ∈ state.clients,
    Stands state.wq state.pauseThreads state.drainThreads state.numDrained state.numThreads client

theorem notify_asks (client : Client) :
    client.notify.awaitsDrain = client.awaitsDrain ∧
      client.notify.asksPause = client.asksPause := by
  obtain ⟨pc, pauses⟩ := client
  cases pc <;> exact ⟨rfl, rfl⟩

theorem decrement_increment_small {counter : Nat} (small : counter < 2 ^ 32) :
    decrement (increment counter) = counter := by
  unfold decrement increment
  omega

section Clients

variable {wq pauseThreads drainThreads : Bool} {numDrained numThreads : Nat}
variable {client other : Client}

theorem Stands.same (stands : Stands wq pauseThreads drainThreads numDrained numThreads client)
    (drains : other.awaitsDrain = client.awaitsDrain)
    (pauses : other.asksPause = client.asksPause) :
    Stands wq pauseThreads drainThreads numDrained numThreads other where
  drain waits := stands.drain (drains ▸ waits)
  pause asks := stands.pause (pauses ▸ asks)

theorem Stands.notify (stands : Stands wq pauseThreads drainThreads numDrained numThreads client) :
    Stands wq pauseThreads drainThreads numDrained numThreads client.notify :=
  stands.same (notify_asks client).1 (notify_asks client).2

theorem Stands.raisePause
    (stands : Stands wq pauseThreads drainThreads numDrained numThreads client) :
    Stands wq true drainThreads numDrained numThreads client where
  drain := stands.drain
  pause asks := ⟨(stands.pause asks).1, rfl⟩

theorem Stands.raiseDrain
    (stands : Stands wq pauseThreads drainThreads numDrained numThreads client) (count : Nat) :
    Stands wq pauseThreads true count numThreads client where
  drain waits := ⟨(stands.drain waits).1, Or.inl rfl⟩
  pause := stands.pause

theorem Stands.full
    (stands : Stands wq pauseThreads drainThreads numDrained numThreads client)
    (full : numThreads = numDrained) :
    Stands wq pauseThreads false numDrained numThreads client where
  drain waits := ⟨(stands.drain waits).1, Or.inr full.symm⟩
  pause := stands.pause

end Clients

theorem stands_set {stands : Client → Prop} {clients : List Client} {client : Nat} {new : Client}
    (others : ∀ other ∈ clients, stands other) (moved : stands new) :
    ∀ one ∈ clients.set client new, stands one := by
  intro one member
  rcases List.mem_or_eq_of_mem_set member with kept | rfl
  · exact others one kept
  · exact moved

theorem mem_eraseIdx_of_ne {clients : List Client} {client place : Nat} {one : Client}
    (found : clients[place]? = some one) (apart : place ≠ client) :
    one ∈ clients.eraseIdx client :=
  List.mem_eraseIdx_iff_getElem?.mpr ⟨place, apart, found⟩

theorem Effect.standing {state next : State} {action : Action} (effect : Effect state action next)
    (undisturbed : Undisturbed state action) (standing : Standing state) : Standing next := by
  obtain ⟨small, stands⟩ := standing
  have of_found {client : Nat} {one : Client} (found : state.clients[client]? = some one) :=
    stands one (List.mem_of_getElem? found)
  have notified : ∀ one ∈ state.clients.map Client.notify, Stands state.wq state.pauseThreads
      state.drainThreads state.numDrained state.numThreads one := by
    intro one member
    obtain ⟨before, present, rfl⟩ := List.mem_map.mp member
    exact (stands before present).notify
  cases effect with
  | pauseEnter found paused => exact ⟨small, notified⟩
  | pausePass found unpaused => exact ⟨small, notified⟩
  | drainEnter found empty draining =>
      refine ⟨Nat.mod_lt _ (by decide), ?_⟩
      intro one member
      have raised := (notified one member).raiseDrain (increment state.numDrained)
      rw [← draining] at raised
      exact raised
  | drainPass found empty idle =>
      have same : decrement (increment state.numDrained) = state.numDrained :=
        decrement_increment_small small
      refine ⟨Nat.mod_lt _ (by decide), ?_⟩
      intro one member
      have kept := notified one member
      rw [← same] at kept
      exact kept
  | drainLeave found idle asked =>
      subst asked
      have nobody := undisturbed _ found rfl idle
      refine ⟨Nat.mod_lt _ (by decide), ?_⟩
      intro one member
      refine ⟨?_, (stands one member).pause⟩
      intro waits
      rw [nobody one member] at waits
      cases waits
  | setWq =>
      refine ⟨small, ?_⟩
      intro one member
      exact ⟨fun waits => ⟨rfl, ((stands one member).drain waits).2⟩,
        fun asks => ⟨rfl, ((stands one member).pause asks).2⟩⟩
  | stop asked found alone => exact ⟨small, stands_set stands ((of_found found).same rfl rfl)⟩
  | join found ended => exact ⟨small, stands_set stands ((of_found found).same rfl rfl)⟩
  | pauseBlock found entry short =>
      cases entry with
      | call asked =>
          exact ⟨small, stands_set (fun one member => (stands one member).raisePause)
            ⟨nofun, fun _ => ⟨asked.2, rfl⟩⟩⟩
      | resumed => exact ⟨small, stands_set stands ((of_found found).same rfl rfl)⟩
  | pauseReturn found entry full =>
      cases entry with
      | call asked =>
          exact ⟨small, stands_set (fun one member => (stands one member).raisePause)
            ⟨nofun, fun _ => ⟨asked.2, rfl⟩⟩⟩
      | resumed => exact ⟨small, stands_set stands ⟨nofun, fun _ => (of_found found).pause rfl⟩⟩
  | @unpause client pauses asked found =>
      subst asked
      obtain ⟨own, alone⟩ := undisturbed
      have last : pauses = 1 := own _ found
      subst last
      refine ⟨small, ?_⟩
      intro one member
      obtain ⟨place, atPlace⟩ := List.mem_iff_getElem?.mp member
      rcases getElem?_set_cases found atPlace with ⟨_, rfl⟩ | ⟨apart, before⟩
      · exact ⟨nofun, nofun⟩
      · refine ⟨(of_found before).drain, ?_⟩
        intro asks
        rw [alone one (mem_eraseIdx_of_ne before (Ne.symm apart))] at asks
        cases asks
  | drainCall asked found => exact ⟨small, stands_set stands ((of_found found).same rfl rfl)⟩
  | drainBlock found entry short =>
      cases entry with
      | call asked =>
          exact ⟨small, stands_set (fun one member => (stands one member).raiseDrain _)
            ⟨fun _ => ⟨asked.2, Or.inl rfl⟩, (of_found found).pause⟩⟩
      | resumed => exact ⟨small, stands_set stands ((of_found found).same rfl rfl)⟩
  | drainReturn found entry full =>
      have idle := of_found found
      refine ⟨small, stands_set (fun one member => (stands one member).full full) ⟨nofun, ?_⟩⟩
      cases entry with
      | call asked => exact idle.pause
      | resumed => exact idle.pause
  | spurious found => exact ⟨small, stands_set stands (of_found found).notify⟩
  | abort stopThreads pauseThreads drainThreads unset =>
      refine ⟨small, ?_⟩
      intro one member
      refine ⟨?_, ?_⟩
      · intro waits
        have set := ((stands one member).drain waits).1
        rw [unset] at set
        cases set
      · intro asks
        have set := ((stands one member).pause asks).1
        rw [unset] at set
        cases set
  | _ => exact ⟨small, stands⟩

theorem reachable_standing {discipline : State → Action → Prop} {state : State}
    (undisturbed : ∀ state action, discipline state action → Undisturbed state action)
    (reached : Runs.Reachable system discipline state) : Standing state := by
  apply reached.invariant
  · rintro current ⟨numThreads, clients, small, rfl⟩
    refine ⟨Nat.two_pow_pos 32, ?_⟩
    intro client member
    rw [List.eq_of_mem_replicate member]
    exact ⟨nofun, nofun⟩
  · intro current action following _ standing permitted taken
    exact (step_effect taken).standing (undisturbed current action permitted) standing

/-- As long as no worker leaves a drain that is still awaited and no `unpause`
meets another pause, every request of every client stands. -/
theorem requests_stand {state : State}
    (reached : Runs.Reachable system
      (fun state action => Bracketed state action ∧ Undisturbed state action) state) :
    (∀ client ∈ state.clients, client.awaitsDrain = true →
        state.drainThreads = true ∨ state.numDrained = state.numThreads) ∧
      ∀ client ∈ state.clients, client.asksPause = true → state.pauseThreads = true := by
  obtain ⟨_, stands⟩ := reachable_standing (fun _ _ permitted => permitted.2) reached
  exact ⟨fun client member waits => ((stands client member).drain waits).2,
    fun client member asks => ((stands client member).pause asks).2⟩

/-- The second of two drains resumes on the counter of the first, while a third
client waits for its pause. -/
theorem requests_stand_run :
    ∃ state : State, Runs.Reachable system
        (fun state action => Bracketed state action ∧ Undisturbed state action) state ∧
      state.clients = [⟨.idle, 0⟩, ⟨.drainWoken 0, 0⟩, ⟨.pauseWait, 0⟩] ∧
      (state.drainThreads = true ∨ state.numDrained = state.numThreads) ∧
      state.pauseThreads = true := by
  obtain ⟨state, reached, passed⟩ := Runs.exists_of_replay
    (fun state action => Bracketed state action ∧ Undisturbed state action)
    (show system.initial (State.initial 1 3) from ⟨1, 3, by decide, rfl⟩)
    [.setWq, .start, .work 0, .work 0, .work 0, .drain 0, .drain 1, .drainLock 0, .drainLock 1,
      .work 0, .work 0, .resume 0, .pause 2]
    (fun state : State => decide (state.clients =
      [⟨.idle, 0⟩, ⟨.drainWoken 0, 0⟩, ⟨.pauseWait, 0⟩]))
    (by decide +kernel)
  have clients := of_decide_eq_true passed
  obtain ⟨drains, pauses⟩ := requests_stand reached
  exact ⟨state, reached, clients,
    drains ⟨.drainWoken 0, 0⟩ (by rw [clients]; decide) rfl,
    pauses ⟨.pauseWait, 0⟩ (by rw [clients]; decide) rfl⟩

/-- A drain that another one left behind, and a pause that another one undid. -/
theorem requests_cancelled :
    (∃ state : State, Runs.Reachable system Bracketed state ∧
      state.clients = [⟨.idle, 0⟩, ⟨.drainWait 0, 0⟩] ∧
      state.drainThreads = false ∧ state.numDrained ≠ state.numThreads) ∧
    ∃ state : State, Runs.Reachable system Bracketed state ∧
      state.clients = [⟨.idle, 0⟩, ⟨.idle, 1⟩] ∧ state.pauseThreads = false := by
  constructor
  · obtain ⟨state, reached, passed⟩ := Runs.exists_of_replay Bracketed
      (show system.initial (State.initial 1 2) from ⟨1, 2, by decide, rfl⟩)
      [.setWq, .start, .work 0, .work 0, .work 0, .drain 0, .drain 1, .drainLock 0, .drainLock 1,
        .work 0, .work 0, .resume 0, .work 0, .resume 1]
      (fun state : State => decide (state.clients = [⟨.idle, 0⟩, ⟨.drainWait 0, 0⟩] ∧
        state.drainThreads = false ∧ state.numDrained ≠ state.numThreads))
      (by decide +kernel)
    exact ⟨state, reached, of_decide_eq_true passed⟩
  · obtain ⟨state, reached, passed⟩ := Runs.exists_of_replay Bracketed
      (show system.initial (State.initial 1 2) from ⟨1, 2, by decide, rfl⟩)
      [.setWq, .start, .work 0, .work 0, .pause 0, .work 0, .work 0, .resume 0, .pause 1,
        .unpause 0]
      (fun state : State => decide (state.clients = [⟨.idle, 0⟩, ⟨.idle, 1⟩] ∧
        state.pauseThreads = false))
      (by decide +kernel)
    exact ⟨state, reached, of_decide_eq_true passed⟩

end BlueThread.ShardedThreadPool
