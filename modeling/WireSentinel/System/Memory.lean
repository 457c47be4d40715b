import WireSentinel.System.EndToEnd

/-!
# Memory

What the payload loop allocates and frees again: the nodes of the two lists,
and the two buffers of a request. `no_leak` is about whole runs of the system,
with all that is evicted, refused, sent and sent again; not about what
`get_file_key`, `case_not_ok` and `start_server` allocate, some of which is never
freed.
-/

namespace WireSentinel

-- ---------------------------------------------------------------------------
-- The lists
-- ---------------------------------------------------------------------------

/-- Both lists count their live nodes. -/
structure Pipeline.Balanced (p : Pipeline) : Prop where
  raw : p.raw.Balanced
  packets : p.packets.Balanced

variable {p p' : Pipeline}

theorem freeTemp_balanced {q q' : BufferList} {temp : Nat} (hq : q.Balanced)
    (h : freeTemp temp q = .ok q') : q'.Balanced := by
  obtain ⟨s, hs, h⟩ := bind_eq_ok.mp h
  cases h
  obtain ⟨hlive, hcount⟩ := freeFirst_conserves hs
  simp only [Front.Conserves, Front.Counts, List.length_nil] at hlive hcount
  unfold Queue.Balanced at hq ⊢
  dsimp only
  omega

theorem resetList_balanced {q q' : PacketList} (hstores : q.Stores 1000 vs) (hq : q.Balanced)
    (h : resetList q = .ok q') : q'.Balanced := by
  obtain ⟨q₁, hfree, h⟩ := bind_eq_ok.mp h
  obtain ⟨s, hs, hq₁⟩ := bind_eq_ok.mp hfree
  cases hq₁
  cases h
  unfold Queue.Balanced
  rw [Queue.freeAll_live hstores hq hs]
  rfl

theorem Pipeline.Balanced.step {action : Action} (hp : p.Balanced) (hi : p.Inv)
    (h : p.step action = .ok p') : p'.Balanced := by
  cases action with
  | capture hint junk buffer bytesRecived =>
    cases capture_section h with
    | nothing => exact hp
    | added raw evicted hpos hadd => exact ⟨hp.raw.insertLast hadd, hp.packets⟩
  | processing hint now =>
    have hraw : ∀ next, Queue.Balanced { p.raw with inicio := next } := fun _ => hp.raw
    cases routineProcessing_section h with
    | nothing => exact hp
    | rejected temp item raw hrecords hfree =>
      exact ⟨freeTemp_balanced (hraw _) hfree, hp.packets⟩
    | recorded temp item raw node packets evicted hrecords hinsert hfree =>
      exact ⟨freeTemp_balanced (hraw _) hfree, hp.packets.insertLast hinsert⟩
  | payload =>
    obtain ⟨raw, packets, -, hpackets, -⟩ := hi
    cases routinePayload_section h with
    | nothing => exact hp
    | shipped batch packets hne hwalk hreset =>
      exact ⟨hp.raw, resetList_balanced hpackets hp.packets hreset⟩

/-- Around their calls the threads do no more than the sections. -/
theorem Threads.pipeline_balanced {th th' : Threads} {choice : Choice}
    (hp : th.pipeline.Balanced) (hi : th.pipeline.Inv) (h : th.step choice = some th') :
    th'.pipeline.Balanced := by
  rcases threads_step_pipeline h with heq | ⟨action, haction⟩
  · rw [heq]
    exact hp
  · exact hp.step hi haction

-- ---------------------------------------------------------------------------
-- The buffers of a request
-- ---------------------------------------------------------------------------

/-- How many pairs of `json_payload` and `json_request` are allocated. -/
def buffers : List Event → Int
  | [] => 0
  | .took _ :: past => buffers past + 1
  | .released :: past => buffers past - 1
  | _ :: past => buffers past

/-- Between the `malloc`s and the `free`s of a turn of the loop. -/
def Pc.Allocated : Pc → Bool
  | .ingestSend | .ingestResend | .ingestRecv | .registerSend .ingest
  | .registerRecv .ingest => true
  | .getaddrinfo site | .socket site | .connect site | .close site => site ≠ .startup
  | _ => false

/-- Unless the process has ended, the buffers are those of the turn. -/
def Thread.Frees (t : Thread) : Prop :=
  t.pc ≠ .exited → t.pc ≠ .crashed → buffers t.trace = if t.pc.Allocated then 1 else 0

variable {c : Settings} {i : Input} {t t' : Thread}

theorem Thread.Frees.keep (hf : t.Frees) (hpc : t.pc ≠ .exited ∧ t.pc ≠ .crashed)
    (hbuffers : buffers t'.trace = buffers t.trace)
    (hsame : t'.pc ≠ .exited → t'.pc ≠ .crashed → t'.pc.Allocated = t.pc.Allocated) :
    t'.Frees := by
  intro hne hne'
  rw [hbuffers, hf hpc.1 hpc.2, hsame hne hne']

theorem Thread.Frees.step (hf : t.Frees) (h : t.step c i = some t') : t'.Frees := by
  cases Thread.step_sound h with
  | @resolved site ok hpc ha =>
    refine hf.keep (by simp [hpc]) rfl fun _ hne => ?_
    rcases Thread.resolved_pc site ok t with h | ⟨-, -, h⟩
    · simp [h, hpc, Pc.Allocated]
    · exact absurd h hne
  | opened hpc ha =>
    exact hf.keep (by simp [hpc]) rfl (by simp [hpc, Thread.record, Pc.Allocated])
  | @connected site hpc ha =>
    refine hf.keep (by simp [hpc]) rfl fun _ _ => ?_
    cases site <;> simp [hpc, Thread.goto, Thread.resume, Pc.Allocated]
  | refused hpc ha =>
    exact hf.keep (by simp [hpc]) rfl (by simp [hpc, Thread.goto, Pc.Allocated])
  | configured hpc ha =>
    refine hf.keep (by simp [hpc]) (by rw [Thread.startUp_trace]; rfl) fun _ hne => ?_
    rcases Thread.startUp_pc c i (t.record (.configured t.socketfd)) with h | h | h
    · simp [h, hpc, Pc.Allocated]
    · simp [h, hpc, Pc.Allocated]
    · exact absurd h hne
  | @authSent n hpc ha hn =>
    refine hf.keep (by simp [hpc]) rfl ?_
    by_cases hfail : n < 0 <;> simp [hpc, hfail, Thread.goto, Pc.Allocated]
  | authReceived hpc ha =>
    obtain ⟨htrace, hpc'⟩ := Thread.authReceived_spec c _ i t
    refine hf.keep (by simp [hpc]) (by rw [htrace]; rfl) fun _ hne => ?_
    rcases hpc' with h | h | h
    · simp [h, hpc, Pc.Allocated]
    · simp [h, hpc, Pc.Allocated]
    · exact absurd h hne
  | @registerSent caller n hpc ha hn =>
    refine hf.keep (by simp [hpc]) rfl ?_
    by_cases hfail : n < 0
    · simp [hfail, Thread.goto]
    · cases caller <;> simp [hpc, hfail, Thread.goto, Pc.Allocated]
  | @registerReceived caller received hpc ha =>
    rcases Thread.registerReceived_spec caller received i t with ⟨-, pc, hpc', h⟩ | ⟨uuid, -, h⟩
    all_goals rw [h]
    · exact fun hne hne' => (hpc'.elim hne hne').elim
    · have hbuffers := hf (by simp [hpc]) (by simp [hpc])
      rw [hpc] at hbuffers
      cases caller with
      | startup => exact fun _ _ => hbuffers
      | ingest => exact fun _ _ => congrArg (· - 1) hbuffers
  | took hpc ha hne =>
    rcases Thread.takeBatch_spec c _ i.now t with h | ⟨payload, -, h⟩
    all_goals rw [h]
    · exact fun _ hne' => absurd rfl hne'
    · have hbuffers := hf (by simp [hpc]) (by simp [hpc])
      rw [hpc] at hbuffers
      exact fun _ _ => congrArg (· + 1) hbuffers
  | @ingestSent n hpc ha hn =>
    refine hf.keep (by simp [hpc]) rfl ?_
    by_cases hfail : n = -1 <;> simp [hpc, hfail, Thread.ingestSent, Pc.Allocated]
  | @ingestResent n hpc ha hn =>
    refine hf.keep (by simp [hpc]) rfl ?_
    by_cases hfail : n = -1 <;> simp [hpc, hfail, Thread.ingestSent, Pc.Allocated]
  | @ingestReceived received hpc ha =>
    cases received with
    | failed =>
      exact hf.keep (by simp [hpc]) rfl (by simp [hpc, Thread.ingestReceived, Pc.Allocated])
    | data chunk =>
      have hbuffers := hf (by simp [hpc]) (by simp [hpc])
      rw [hpc] at hbuffers
      rcases Thread.ingestReceived_spec c chunk i t with ⟨-, h⟩ | ⟨-, h⟩ | ⟨-, h⟩
      all_goals rw [h]
      · exact fun _ hne' => absurd rfl hne'
      · exact fun _ _ => hbuffers
      · exact fun _ _ => congrArg (· - 1) hbuffers
  | closed hpc ha =>
    exact hf.keep (by simp [hpc]) rfl (by simp [hpc, Thread.goto, Pc.Allocated])

-- ---------------------------------------------------------------------------
-- Runs
-- ---------------------------------------------------------------------------

/-- The live nodes of a list's heap are those on the list, at most 1000. -/
def OnList (q : Queue α) : Prop :=
  ∃ cells, Linked q.heap q.inicio cells ∧ cells.length ≤ 1000 ∧
    ∀ p, (∃ node, q.heap.get p = some node) ↔ p ∈ cells.map Prod.fst

theorem onList_of_balanced {q : Queue α} (h : q.Stores 1000 vs) (hq : q.Balanced) : OnList q := by
  have hle := h.le
  obtain ⟨cells, hlinked, rfl, hiff⟩ := h.live_iff hq
  exact ⟨cells, hlinked, by simpa using hle, hiff⟩

structure System.Tidy (s : System) : Prop where
  inv : s.threads.pipeline.Inv
  balanced : s.threads.pipeline.Balanced
  frees : s.exchange.thread.Frees

theorem System.Tidy.start (uuidFile : Option CString) (recvBuffer : List Char) :
    System.Tidy (.start uuidFile recvBuffer) :=
  ⟨pipeline_start, ⟨Queue.balanced_empty _, Queue.balanced_empty _⟩, fun _ _ => rfl⟩

theorem System.Tidy.step {s s' : System} {agent : Agent} (ht : s.Tidy)
    (h : s.step c agent = some s') : s'.Tidy := by
  have hthreads : s'.threads.pipeline.Inv ∧ s'.threads.pipeline.Balanced := by
    rcases System.step_threads h with heq | ⟨choice, hchoice⟩
    · rw [heq]
      exact ⟨ht.inv, ht.balanced⟩
    · exact ⟨Threads.pipeline_inv ht.inv hchoice,
        Threads.pipeline_balanced ht.balanced ht.inv hchoice⟩
  refine ⟨hthreads.1, hthreads.2, ?_⟩
  rcases System.step_exchange h with heq | ⟨party, hparty, -⟩
  · rw [heq]
    exact ht.frees
  · cases party with
    | client i =>
      simp only [Exchange.step] at hparty
      split at hparty
      · obtain ⟨t', ht', heq⟩ := Option.map_eq_some_iff.mp hparty
        rw [← heq]
        exact ht.frees.step ht'
      · cases hparty
    | server request =>
      simp only [Exchange.step] at hparty
      split at hparty
      · rw [← Option.some.inj hparty]
        exact ht.frees
      · cases hparty

/-- No node is lost: at any time, whatever has been evicted, refused or sent,
the live nodes are those the two lists lead to, at most 1000 each, and while
the payload thread runs, of the buffers for requests one pair is allocated
during a turn of its loop, and none otherwise.

Premise: the state is reached by any order of the steps of the threads and
the server. -/
theorem no_leak (c : Settings) (uuidFile : Option CString) (recvBuffer : List Char)
    (agents : List Agent) {s : System}
    (h : run (System.step c) (.start uuidFile recvBuffer) agents = some s) :
    OnList s.threads.pipeline.raw ∧ OnList s.threads.pipeline.packets ∧
      (s.exchange.thread.pc ≠ .exited → s.exchange.thread.pc ≠ .crashed →
        buffers s.exchange.thread.trace = if s.exchange.thread.pc.Allocated then 1 else 0) := by
  obtain ⟨⟨raw, packets, hraw, hpackets, -⟩, hbalanced, hfrees⟩ :=
    run_keeps (fun _ _ _ hs ht => System.Tidy.step ht hs) (.start uuidFile recvBuffer) h
  exact ⟨onList_of_balanced hraw hbalanced.raw, onList_of_balanced hpackets hbalanced.packets,
    hfrees⟩

theorem no_leak_syn :
    ∃ s, run (System.step localSettings) (.start none (List.replicate 2048 '\x00')) synAgents =
        some s ∧
      OnList s.threads.pipeline.raw ∧ OnList s.threads.pipeline.packets ∧
        (s.exchange.thread.pc ≠ .exited → s.exchange.thread.pc ≠ .crashed →
          buffers s.exchange.thread.trace = if s.exchange.thread.pc.Allocated then 1 else 0) := by
  obtain ⟨s, hrun, -⟩ := run_synAgents
  exact ⟨s, hrun, no_leak _ _ _ _ hrun⟩

end WireSentinel
