import WireSentinel.Client.Recovery
import WireSentinel.Queue.Rest
import WireSentinel.System.EndToEnd

/-!
# The client comes to rest

The threads, the network and the server together: what comes in and what goes
wrong pays for every step, whoever takes it. Where nothing is left to do that
is free, all frames have been parsed, the server has processed every request
it was handed, and the payload thread waits for packets.
-/

namespace WireSentinel

/-- The requests the server has not processed yet. -/
def System.pending (s : System) : List Request :=
  (requests s.exchange.thread.trace).filter (· ∉ s.exchange.processed)

def System.variant (s : System) : Nat :=
  4 * s.threads.variant + s.exchange.thread.pc.distance + s.pending.length

/-- What comes in, and what goes wrong. The server is free: it has what it
works on from the client. -/
def Agent.cost (s : System) : Agent → Nat
  | .capture turn => 4 * (Choice.capture turn).cost s.threads
  | .spurious role => 4 * (Choice.spurious role).cost s.threads
  | .client i => i.cost s.exchange.thread
  | .processing _ | .payload .. | .server _ => 0

namespace System

/-- The payload thread is at the network only outside its section. -/
structure Sound (s : System) : Prop where
  threads : s.threads.Sound
  faithful : s.exchange.Faithful
  waits : s.threads.payload ≠ .lock → s.threads.payload ≠ .unlock → s.exchange.thread.pc = .wait

variable {c : Settings} {s s' : System} {agent : Agent} {choice : Choice}

theorem Sound.start (uuidFile : Option CString) (recvBuffer : List Char) :
    Sound (.start uuidFile recvBuffer) :=
  ⟨.start, .start uuidFile recvBuffer, fun h => absurd rfl h⟩

-- ---------------------------------------------------------------------------
-- At the queue
-- ---------------------------------------------------------------------------

theorem Sound.queue (hs : s.Sound) (h : s.queue choice = some s')
    (hwaits : s'.threads.payload ≠ .lock → s'.threads.payload ≠ .unlock →
      s.exchange.thread.pc = .wait) : s'.Sound := by
  obtain ⟨threads, hthreads, rfl⟩ := Option.map_eq_some_iff.mp h
  exact ⟨hs.threads.step hthreads, hs.faithful, hwaits⟩

/-- A step at the queue is paid for four times over. -/
theorem Sound.queue_variant (hs : s.Sound) (h : s.queue choice = some s') :
    s'.variant + 4 ≤ s.variant + 4 * choice.cost s.threads := by
  obtain ⟨threads, hthreads, rfl⟩ := Option.map_eq_some_iff.mp h
  have hvariant := hs.threads.variant hthreads
  simp only [System.variant, System.pending]
  omega

theorem queue_payload (h : s.queue choice = some s') (hchoice : choice ≠ .payload) :
    s'.threads.payload = s.threads.payload := by
  obtain ⟨threads, hthreads, rfl⟩ := Option.map_eq_some_iff.mp h
  cases choice with
  | capture turn => cases captureStep_move hthreads <;> rfl
  | processing turn =>
    obtain ⟨r, -, rfl⟩ := Option.map_eq_some_iff.mp hthreads
    rfl
  | payload => exact absurd rfl hchoice
  | spurious role =>
    simp only [Threads.step] at hthreads
    split at hthreads <;> cases hthreads
    rfl

theorem queue_unlock (h : s.queue .payload = some s') (hpc : s.threads.payload = .unlock) :
    s'.threads.payload = .lock := by
  obtain ⟨threads, hthreads, rfl⟩ := Option.map_eq_some_iff.mp h
  obtain ⟨⟨monitor, pipeline, pc⟩, hloop, rfl⟩ := Option.map_eq_some_iff.mp hthreads
  have hstep := loopStep_ok hloop
  rw [hpc] at hstep
  cases hstep with
  | unlocked => rfl

-- ---------------------------------------------------------------------------
-- At the network
-- ---------------------------------------------------------------------------

theorem length_pending_cons (r : Request) (rs processed : List Request) :
    ((r :: rs).filter (· ∉ processed)).length ≤ (rs.filter (· ∉ processed)).length + 1 := by
  rw [List.filter_cons]
  split
  · rfl
  · exact Nat.le_succ _

/-- A call is paid for, and with it the request it hands over. -/
theorem variant_client {i : Input} {exchange : Exchange} (threads : Threads)
    (h : s.exchange.step c (.client i) = some exchange) :
    (System.mk threads exchange).exchange.thread.pc.distance +
        (System.mk threads exchange).pending.length + 1 ≤
      s.exchange.thread.pc.distance + s.pending.length + i.cost s.exchange.thread := by
  simp only [Exchange.step] at h
  split at h
  · obtain ⟨t', ht', rfl⟩ := Option.map_eq_some_iff.mp h
    simp only [System.pending]
    cases Thread.step_nears ht' with
    | aside hrequests hle =>
      rw [hrequests]
      omega
    | handed r hrequests hle =>
      rw [hrequests]
      have hone := length_pending_cons r (requests s.exchange.thread.trace) s.exchange.processed
      omega
  · cases h

theorem variant_server {request : Request} (h : s.talk c (.server request) = some s') :
    s'.variant + 1 ≤ s.variant := by
  obtain ⟨exchange, hexchange, rfl⟩ := Option.map_eq_some_iff.mp h
  simp only [Exchange.step] at hexchange
  split at hexchange <;> cases hexchange
  rename_i hnew
  have hless : ((requests s.exchange.thread.trace).filter
      (· ∉ request :: s.exchange.processed)).length < s.pending.length := by
    have hsplit : (requests s.exchange.thread.trace).filter (· ∉ request :: s.exchange.processed) =
        s.pending.filter (· ≠ request) := by
      rw [System.pending, List.filter_filter]
      refine List.filter_congr fun r hr => ?_
      simp
    rw [hsplit, List.length_filter_lt_length_iff_exists]
    exact ⟨request, by simp [System.pending, hnew.1, hnew.2], by simp⟩
  simp only [System.variant]
  exact Nat.add_lt_add_left hless _

/-- Where the list is written out, the section pays for the request. -/
theorem Sound.take (hs : s.Sound) (hpc : s.threads.payload = .take)
    (h : s.take c now stack heap = some s') : s'.Sound ∧ s'.variant + 1 ≤ s.variant := by
  simp only [System.take, Option.bind_eq_bind, Option.bind_eq_some_iff] at h
  obtain ⟨batch, -, threads, hthreads, exchange, hexchange, heq⟩ := h
  obtain rfl := Option.some.inj heq
  have hwait : s.exchange.thread.pc = .wait := hs.waits (by simp [hpc]) (by simp [hpc])
  have hunlock : threads.payload = .unlock := by
    obtain ⟨⟨monitor, pipeline, pc⟩, hloop, rfl⟩ := Option.map_eq_some_iff.mp hthreads
    have hstep := loopStep_ok hloop
    rw [hpc] at hstep
    cases hstep with
    | took => rfl
  have hqueue := hs.threads.variant hthreads
  have hclient := variant_client threads hexchange
  refine ⟨⟨hs.threads.step hthreads, hs.faithful.step hexchange, ?_⟩, ?_⟩
  · exact fun _ hne => absurd hunlock hne
  · have hcost : Input.cost s.exchange.thread ⟨.batch (batch.map Tagged.value), now, stack, heap⟩ =
        4 := by simp [Input.cost, hwait]
    rw [hcost] at hclient
    simp only [Choice.cost, System.variant] at hqueue hclient ⊢
    omega

theorem Sound.step (hs : s.Sound) (h : s.step c agent = some s') :
    s'.Sound ∧ s'.variant + 1 ≤ s.variant + agent.cost s := by
  -- a step at the queue that leaves the payload thread where it is, or at it
  have hqueue : ∀ choice, s.queue choice = some s' →
      (s'.threads.payload ≠ .lock → s'.threads.payload ≠ .unlock →
        s.exchange.thread.pc = .wait) →
      s'.Sound ∧ s'.variant + 1 ≤ s.variant + 4 * choice.cost s.threads := by
    intro choice h hwaits
    have hvariant := hs.queue_variant h
    exact ⟨hs.queue h hwaits, by omega⟩
  have hother : ∀ choice, choice ≠ .payload → s.queue choice = some s' →
      s'.Sound ∧ s'.variant + 1 ≤ s.variant + 4 * choice.cost s.threads := by
    intro choice hchoice h
    refine hqueue choice h ?_
    rw [queue_payload h hchoice]
    exact hs.waits
  cases agent with
  | capture turn =>
    simp only [System.step] at h
    split at h
    · exact hother _ (by simp) h
    · cases h
  | processing turn => exact hother _ (by simp) h
  | spurious role => exact hother _ (by simp) h
  | payload now stack heap =>
    simp only [System.step] at h
    split at h
    · exact hs.take ‹_› h
    · exact hqueue .payload h fun hne => absurd (queue_unlock h ‹_›) hne
    · split at h
      · exact hqueue .payload h fun _ _ => ‹_›
      · cases h
  | client i =>
    simp only [System.step] at h
    split at h
    · cases h
    · rename_i hlock _
      obtain ⟨exchange, hexchange, rfl⟩ := Option.map_eq_some_iff.mp h
      have hclient := variant_client s.threads hexchange
      refine ⟨⟨hs.threads, hs.faithful.step hexchange, fun hne => absurd hlock hne⟩, ?_⟩
      simp only [System.variant, Agent.cost] at hclient ⊢
      omega
    · cases h
  | server request =>
    have hvariant := variant_server h
    obtain ⟨exchange, hexchange, rfl⟩ := Option.map_eq_some_iff.mp h
    have hthread : exchange.thread = s.exchange.thread := by
      simp only [Exchange.step] at hexchange
      split at hexchange <;> cases hexchange
      rfl
    refine ⟨⟨hs.threads, hs.faithful.step hexchange, ?_⟩, hvariant⟩
    dsimp only
    rw [hthread]
    exact hs.waits

-- ---------------------------------------------------------------------------
-- Progress
-- ---------------------------------------------------------------------------

/-- Nothing is left to do: all frames are parsed and all requests processed,
and the payload thread sleeps at the queue, or is ended, or waits for the
response to a request it has sent only a part of. -/
structure AtRest (s : System) : Prop where
  parsed : s.threads.Parsed
  pending : s.pending = []
  payload :
    (s.threads.payload = .waiting ∧ s.threads.monitor.asleep .payload = some .condPayload ∧
        s.exchange.thread.pc = .wait) ∨
      (s.threads.payload = .lock ∧ (s.exchange.thread.pc.Ended ∨
        s.exchange.thread.pc = .ingestRecv ∧ justHanded s.exchange.thread.trace = false))

/-- The batch is there to be taken. -/
theorem Sound.take_progress (c : Settings) (hs : s.Sound) (hpc : s.threads.payload = .take) :
    ∃ s', s.take c noon [] [] = some s' := by
  obtain ⟨threads, hthreads⟩ := hs.threads.payload_progress
    (fun h => absurd (by simp [hpc, LoopPc.Locked]) h) (by simp [hpc])
  have hwait : s.exchange.thread.pc = .wait := hs.waits (by simp [hpc]) (by simp [hpc])
  obtain ⟨raw, packets, -, hpackets, -⟩ := hs.threads.pipeline
  have hne : packets ≠ [] := mt hpackets.inicio_eq_none_iff.mpr (hs.threads.packets hpc)
  obtain ⟨exchange, hexchange⟩ : ∃ exchange,
      s.exchange.step c (.client ⟨.batch (packets.map Tagged.value), noon, [], []⟩) =
        some exchange := by
    simp [Exchange.step, Exchange.hears, Thread.step, hwait, hne]
  exact ⟨⟨threads, exchange⟩, by
    simp [System.take, hpackets.freeAll.1, Except.toOption, hthreads, hexchange]⟩

/-- A request that was handed over whole and processed has a response. -/
theorem Sound.hears (hs : s.Sound) (hpending : s.pending = [])
    (hpc : s.exchange.thread.pc = .ingestRecv)
    (hhanded : justHanded s.exchange.thread.trace = true) :
    ∃ request, request ∈ s.exchange.replies := by
  have hphase := hs.faithful.sourced.phase
  rw [Thread.Phase, hpc] at hphase
  obtain ⟨before, htrace, -, -⟩ := hphase
  rw [htrace, justHanded, decide_eq_true_eq] at hhanded
  have hconnections : connections s.exchange.thread.trace = connections before := by
    rw [htrace]
    rfl
  let r : Request := ⟨batches before, connections before, s.exchange.thread.requests⟩
  have hmem : r ∈ requests s.exchange.thread.trace := by
    rw [htrace, requests, if_pos hhanded]
    exact List.mem_cons_self
  have hprocessed : r ∈ s.exchange.processed := by
    have hall := List.filter_eq_nil_iff.mp hpending r hmem
    simpa using hall
  refine ⟨r.number, List.mem_map_of_mem (List.mem_filter.mpr ⟨hprocessed, ?_⟩)⟩
  rw [hconnections]
  exact decide_eq_true rfl

/-- At the network the client can go on, or waits in vain for a response. -/
theorem Sound.client_progress (c : Settings) (hs : s.Sound) (hpc : s.threads.payload = .lock)
    (hpending : s.pending = []) (hwait : s.exchange.thread.pc ≠ .wait)
    (hgoes : ¬ s.exchange.thread.pc.Ended) :
    (s.exchange.thread.pc = .ingestRecv ∧ justHanded s.exchange.thread.trace = false) ∨
      ∃ i s', s.step c (.client i) = some s' ∧ i.cost s.exchange.thread = 0 := by
  have hcall : ∀ request, s.exchange.hears ⟨s.exchange.thread.served request, noon, [], []⟩ →
      ∃ i s', s.step c (.client i) = some s' ∧ i.cost s.exchange.thread = 0 := by
    intro request hhears
    obtain ⟨t', hstep, hcost⟩ := Thread.progress c request hwait hgoes
    refine ⟨_, { s with exchange := { s.exchange with thread := t' } }, ?_, hcost⟩
    have hnone : ∀ pkts, s.exchange.thread.served request ≠ .batch pkts := by
      unfold Thread.served
      split <;> simp
    simp only [System.step]
    split
    · exact absurd ‹_› (hnone _)
    · simp [System.talk, Exchange.step, hhears, hstep]
    · simp_all
  by_cases hrecv : s.exchange.thread.pc = .ingestRecv
  · cases hhanded : justHanded s.exchange.thread.trace with
    | false => exact .inl ⟨hrecv, rfl⟩
    | true =>
      obtain ⟨request, hreply⟩ := hs.hears hpending hrecv hhanded
      refine .inr (hcall request ?_)
      simp [Exchange.hears, Thread.served, hrecv, okChunk, hreply]
  · refine .inr (hcall 0 ?_)
    unfold Exchange.hears
    split
    · exact absurd ‹_› hrecv
    · rfl

/-- The payload thread can go on at the queue. -/
theorem Sound.payload_step (c : Settings) (hs : s.Sound)
    (hwait : s.threads.payload ≠ .unlock → s.exchange.thread.pc = .wait)
    (h : ∃ threads, s.threads.step .payload = some threads) :
    ∃ s', s.step c (.payload noon [] []) = some s' := by
  obtain ⟨threads, hthreads⟩ := h
  have hqueue : s.queue .payload = some { s with threads } := by
    rw [System.queue, hthreads, Option.map_some]
  cases hpc : s.threads.payload with
  | take =>
    obtain ⟨s', hs'⟩ := hs.take_progress c hpc
    exact ⟨s', by simpa [System.step, hpc] using hs'⟩
  | unlock => exact ⟨_, by simpa [System.step, hpc] using hqueue⟩
  | lock | test | wait | waiting =>
    exact ⟨_, by simpa [System.step, hpc, hwait (by simp [hpc])] using hqueue⟩

/-- Where the two other threads have nothing to do, the payload thread can go
on, at the queue or at the network. -/
theorem Sound.payload_progress (c : Settings) (hs : s.Sound) (hparsed : s.threads.Parsed)
    (hpending : s.pending = []) :
    s.AtRest ∨ ∃ agent s', s.step c agent = some s' ∧ agent.cost s = 0 := by
  have hlocked : ¬ s.threads.payload.Locked := fun hinside => by
    have howner := hs.threads.inv.guards .payload hinside
    rw [hparsed.owner] at howner
    cases howner
  have hstep : s.exchange.thread.pc = .wait →
      (s.threads.payload = .waiting → s.threads.monitor.asleep .payload = none) →
      ∃ agent s', s.step c agent = some s' ∧ agent.cost s = 0 := by
    intro hwait hawake
    obtain ⟨s', hs'⟩ := hs.payload_step c (fun _ => hwait)
      (hs.threads.payload_progress (fun _ => hparsed.owner) hawake)
    exact ⟨_, s', hs', rfl⟩
  cases hpc : s.threads.payload with
  | test | wait | take | unlock => exact absurd (by rw [hpc]; trivial) hlocked
  | waiting =>
    have hwait := hs.waits (by simp [hpc]) (by simp [hpc])
    cases hasleep : s.threads.monitor.asleep .payload with
    | none => exact .inr (hstep hwait fun _ => hasleep)
    | some cond =>
      obtain ⟨rfl, -⟩ := hs.threads.inv.sleeper _ _ hasleep
      exact .inl ⟨hparsed, hpending, .inl ⟨hpc, hasleep, hwait⟩⟩
  | lock =>
    by_cases hwait : s.exchange.thread.pc = .wait
    · exact .inr (hstep hwait fun h => absurd (hpc.symm.trans h) (by simp))
    · by_cases hended : s.exchange.thread.pc.Ended
      · exact .inl ⟨hparsed, hpending, .inr ⟨hpc, .inl hended⟩⟩
      · rcases hs.client_progress c hpc hpending hwait hended with hpart | ⟨i, s', hclient, hcost⟩
        · exact .inl ⟨hparsed, hpending, .inr ⟨hpc, .inr hpart⟩⟩
        · exact .inr ⟨_, s', hclient, hcost⟩

/-- As long as not all is at rest, somebody can do something for nothing. -/
theorem Sound.progress (c : Settings) (hs : s.Sound) :
    s.AtRest ∨ ∃ agent s', s.step c agent = some s' ∧ agent.cost s = 0 := by
  cases hpending : s.pending with
  | cons r rest =>
    have hr : r ∈ s.pending := hpending ▸ List.mem_cons_self
    obtain ⟨hrequest, hnew⟩ := List.mem_filter.mp hr
    exact .inr ⟨.server r, _, by
      simp [System.step, System.talk, Exchange.step, hrequest, of_decide_eq_true hnew]
      rfl, rfl⟩
  | nil =>
    by_cases howner : s.threads.monitor.owner = some .payload
    · have hinside : s.threads.payload.Locked := hs.threads.held _ howner
      have hwait : s.threads.payload ≠ .unlock → s.exchange.thread.pc = .wait :=
        hs.waits fun h => by simp [h, LoopPc.Locked] at hinside
      obtain ⟨s', hs'⟩ := hs.payload_step c hwait
        (hs.threads.payload_progress (fun h => absurd hinside h)
          fun h => by simp [h, LoopPc.Locked] at hinside)
      exact .inr ⟨_, s', hs', rfl⟩
    · rcases hs.threads.others_progress howner with
        hparsed | ⟨hpc, turn, threads, hfits, hstep⟩ | ⟨threads, hstep⟩
      · exact hs.payload_progress c hparsed hpending
      · refine .inr ⟨.capture turn, { s with threads }, ?_, ?_⟩
        · simp [System.step, hfits, System.queue, hstep]
        · rw [Agent.cost, Choice.cost_capture hpc]
      · exact .inr ⟨.processing oneByte, { s with threads }, by
          simp [System.step, System.queue, hstep], rfl⟩

-- ---------------------------------------------------------------------------
-- Runs
-- ---------------------------------------------------------------------------

/-- What comes in and goes wrong during a run. -/
def paid (c : Settings) : System → List Agent → Nat :=
  spent (System.step c) fun s agent => agent.cost s

variable {uuidFile : Option CString} {recvBuffer : List Char} {agents more : List Agent}
  {t : System}

theorem Sound.run (hs : s.Sound) (h : WireSentinel.run (System.step c) s agents = some s') :
    s'.Sound ∧ agents.length + s'.variant ≤ s.variant + paid c s agents := by
  refine ⟨run_keeps (fun _ _ _ hstep hs => (Sound.step hs hstep).1) hs h, ?_⟩
  exact run_bounded (fun _ _ _ hstep hs => Sound.step hs hstep) hs h

end System

/-- A run of the whole is no longer than what comes in and what goes wrong pays
for. From any state of it, when nothing comes in and nothing goes wrong, only
`variant` steps are left, whoever takes them; and where nobody can take a step
that is free, all frames have been parsed, the server has processed all it was
handed, and the payload thread sleeps, has ended, or waits in vain behind a
`send` that took only a part of the request. -/
theorem system_comes_to_rest {c : Settings} {uuidFile : Option CString} {recvBuffer : List Char}
    {agents more : List Agent} {s t : System}
    (h : run (System.step c) (.start uuidFile recvBuffer) agents = some s)
    (hmore : run (System.step c) s more = some t) :
    agents.length + s.variant ≤ 30 + System.paid c (.start uuidFile recvBuffer) agents ∧
      (System.paid c s more = 0 → more.length + t.variant ≤ s.variant) ∧
      ((∀ agent t', t.step c agent = some t' → 0 < agent.cost t) → t.AtRest) := by
  obtain ⟨hs, hlength⟩ := (System.Sound.start uuidFile recvBuffer).run h
  obtain ⟨ht, hlater⟩ := hs.run hmore
  refine ⟨hlength, fun hquiet => ?_, fun hstuck => ?_⟩
  · rwa [hquiet] at hlater
  · rcases ht.progress c with hrest | ⟨agent, t', hstep, hcost⟩
    · exact hrest
    · have hpos := hstuck agent t' hstep
      omega

/-- The parser and the payload thread go to sleep. -/
def fallAsleep : List Agent :=
  List.replicate 3 (.processing oneByte) ++ List.replicate 3 (.payload noon [] [])

/-- The client registers, and goes to sleep. -/
theorem system_comes_to_rest_local :
    ∃ s t, run (System.step localSettings) (.start none (List.replicate 2048 '\x00'))
        ((greet localSettings 3 (okChunk 1) noon ['\x00']).map .client) = some s ∧
      run (System.step localSettings) s fallAsleep = some t ∧ 6 + t.variant ≤ s.variant := by
  have h : (run (System.step localSettings) (.start none (List.replicate 2048 '\x00'))
      ((greet localSettings 3 (okChunk 1) noon ['\x00']).map .client)).any fun s =>
        (run (System.step localSettings) s fallAsleep).any fun _ =>
          System.paid localSettings s fallAsleep = 0 := by
    decide +kernel
  simp only [Option.any_eq_true, decide_eq_true_eq] at h
  obtain ⟨s, hs, t, ht, hpaid⟩ := h
  obtain ⟨-, hquiet, -⟩ := system_comes_to_rest hs ht
  exact ⟨s, t, hs, ht, hquiet hpaid⟩

end WireSentinel
