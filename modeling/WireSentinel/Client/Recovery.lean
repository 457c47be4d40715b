import WireSentinel.Client.Delivery
import WireSentinel.Client.Ingest

/-!
# How the payload thread gets back to its queue

`Pc.distance` counts the calls to the queue if all goes well. Each call
brings the thread nearer, or it is one that fails and costs what it takes to
make up for it; and as long as the thread is on its way, there is a call that
goes well.
-/

namespace WireSentinel

def Pc.distance : Pc → Nat
  | .wait | .exited | .crashed => 0
  | .authRecv | .registerRecv _ | .ingestRecv => 1
  | .authSend | .registerSend _ => 2
  | .setsockopt | .ingestSend | .ingestResend => 3
  | .connect _ => 4
  | .socket _ => 5
  | .getaddrinfo _ => 6
  | .close _ => 7

/-- What it takes to make up for a call that fails, or for the code of the
response, or to send a batch. -/
def Input.cost (t : Thread) (i : Input) : Nat :=
  match t.pc, i.answer with
  | .connect _, .connect false => 2
  | .ingestSend, .send result | .ingestResend, .send result => if result = -1 then 5 else 0
  | .authRecv, .recv received =>
    if extractStatusCode (responseText received i.stack) = some 200 then 0 else 2
  | .ingestRecv, .recv .failed => 7
  | .ingestRecv, .recv (.data chunk) => if t.statusRead chunk i = some 200 then 0 else 2
  | .wait, .batch _ => 4
  | _, _ => 0

/-- The answer of a network and a server where all goes well; a response is
one to the request with this number. -/
def Thread.served (t : Thread) (request : Nat) : Answer :=
  match t.pc with
  | .getaddrinfo _ => .getaddrinfo true
  | .socket _ => .socket 3
  | .connect _ => .connect true
  | .setsockopt => .setsockopt
  | .authSend | .registerSend _ => .send t.buffer.length
  | .ingestSend | .ingestResend => .send t.jsonRequest.length
  | .authRecv | .registerRecv _ | .ingestRecv => .recv (.data (okChunk request))
  | .close _ | .wait | .exited | .crashed => .close

variable {c : Settings} {i : Input} {t t' : Thread}

-- ---------------------------------------------------------------------------
-- Nearer, or paid for
-- ---------------------------------------------------------------------------

/-- The thread gets nearer to its queue by one call, or by two if it has handed
a request over. -/
inductive Thread.Nears (cost : Nat) (t t' : Thread) : Prop
  | aside (hrequests : WireSentinel.requests t'.trace = WireSentinel.requests t.trace)
      (hle : t'.pc.distance + 1 ≤ t.pc.distance + cost)
  | handed (r : Request)
      (hrequests : WireSentinel.requests t'.trace = r :: WireSentinel.requests t.trace)
      (hle : t'.pc.distance + 2 ≤ t.pc.distance + cost)

theorem Thread.Nears.later {cost : Nat} (later : List Event) (htrace : t'.trace = later ++ t.trace)
    (hlater : ∀ e ∈ later, e.Aside) (hle : t'.pc.distance + 1 ≤ t.pc.distance + cost) :
    t.Nears cost t' := by
  refine .aside ?_ hle
  rw [htrace]
  exact append_of_skips Event.Aside.requests hlater _

theorem Thread.Nears.sent (hpc : t.pc = .ingestSend ∨ t.pc = .ingestResend) (site : Site)
    (n : Int) : t.Nears (if n = -1 then 5 else 0) (t.ingestSent site n) := by
  have hstart : t.pc.distance = 3 := by
    rcases hpc with hpc | hpc
    all_goals
      rw [hpc]
      rfl
  by_cases hfail : n = -1
  · have hnext : (t.ingestSent site n).pc.distance = 7 :=
      congrArg Pc.distance (if_pos hfail : (t.ingestSent site n).pc = .close site)
    refine .aside (if_neg (by omega)) ?_
    rw [hstart, hnext, if_pos hfail]
  · have hnext : (t.ingestSent site n).pc.distance = 1 :=
      congrArg Pc.distance (if_neg hfail : (t.ingestSent site n).pc = .ingestRecv)
    by_cases hwhole : n = t.jsonRequest.length
    · refine .handed _ (if_pos hwhole) ?_
      rw [hstart, hnext]
      exact Nat.le_add_right 3 _
    · refine .aside (if_neg hwhole) ?_
      rw [hstart, hnext]
      exact Nat.le_add_right_of_le (by decide)

theorem Thread.Nears.authReceived (hpc : t.pc = .authRecv) (received : Received) (i : Input) :
    t.Nears (if extractStatusCode (responseText received i.stack) = some 200 then 0 else 2)
      (t.authReceived c received i) := by
  refine .later [_, _] (Thread.authReceived_spec c received i t).1 (by simp [Event.Aside]) ?_
  rw [hpc]
  unfold Thread.authReceived
  dsimp only
  cases extractStatusCode (responseText received i.stack) with
  | none => exact Nat.le_add_right 1 _
  | some code =>
    dsimp only
    split
    · rcases Thread.getUuid_pc i.heap .wait (t.answered .clientAuth received (some code) none)
        with h | h
      all_goals
        rw [h]
        exact Nat.le_add_right 1 _
    · rename_i hcode
      rw [if_neg (by simpa using hcode)]
      exact Nat.le_refl 3

theorem Thread.Nears.registerReceived {caller : Caller} (hpc : t.pc = .registerRecv caller)
    (received : Received) (i : Input) (cost : Nat) :
    t.Nears cost (t.registerReceived caller received i) := by
  rcases Thread.registerReceived_spec caller received i t with
    ⟨-, pc, rfl | rfl, heq⟩ | ⟨uuid, -, heq⟩
  all_goals rw [heq]
  · exact .later [_, _] rfl (by simp [Event.Aside]) (by simp [hpc, Thread.goto, Pc.distance])
  · exact .later [_, _] rfl (by simp [Event.Aside]) (by simp [hpc, Thread.goto, Pc.distance])
  · cases caller with
    | startup =>
      exact .later [_, _] rfl (by simp [Event.Aside])
        (by simp [hpc, Thread.identified, Thread.goto, Pc.distance])
    | ingest =>
      exact .later [_, _, _] rfl (by simp [Event.Aside])
        (by simp [hpc, Thread.identified, Thread.goto, Pc.distance])

theorem Thread.Nears.ingestReceived (hpc : t.pc = .ingestRecv) (chunk : Chunk) (i : Input) :
    t.Nears (if t.statusRead chunk i = some 200 then 0 else 2)
      (t.ingestReceived c (.data chunk) i) := by
  rcases Thread.ingestReceived_spec c chunk i t with ⟨hcode, heq⟩ | ⟨hcode, heq⟩ | ⟨hcode, heq⟩
  all_goals rw [heq]
  · exact .later [_, _] rfl (by simp [Event.Aside]) (by simp [hpc, Thread.goto, Pc.distance])
  · refine .later [_, _] rfl (by simp [Event.Aside]) ?_
    rw [hpc, if_neg (show t.statusRead chunk i ≠ some 200 from hcode)]
    exact Nat.le_refl 3
  · exact .later [_, _, _] rfl (by simp [Event.Aside]) (by simp [hpc, Thread.goto, Pc.distance])

/-- Each call brings the thread nearer to its queue, or is paid for. -/
theorem Thread.step_nears (h : t.step c i = some t') : t.Nears (i.cost t) t' := by
  unfold Input.cost
  cases Thread.step_sound h with
  | @resolved site ok hpc ha =>
    refine .later [_] rfl (by simp [Event.Aside]) ?_
    rcases Thread.resolved_pc site ok t with hpc' | ⟨-, -, hpc'⟩
    all_goals simp [hpc, hpc', Pc.distance]
  | opened hpc ha =>
    exact .later [_] rfl (by simp [Event.Aside]) (by simp [hpc, Thread.record, Pc.distance])
  | @connected site hpc ha =>
    refine .later [_] rfl (by simp [Event.Aside]) ?_
    cases site <;> simp [hpc, Thread.goto, Thread.resume, Pc.distance]
  | refused hpc ha =>
    exact .later [_] rfl (by simp [Event.Aside]) (by simp [hpc, ha, Thread.goto, Pc.distance])
  | configured hpc ha =>
    refine .later [_] (Thread.startUp_trace ..) (by simp [Event.Aside]) ?_
    rw [hpc]
    rcases Thread.startUp_pc c i (t.record (.configured t.socketfd)) with h | h | h
    all_goals
      rw [h]
      exact Nat.le_add_right_of_le (by decide)
  | @authSent n hpc ha hn =>
    refine .later [_] rfl (by simp [Event.Aside]) ?_
    simp only [hpc, Thread.goto]
    split <;> exact Nat.le_add_right_of_le (by decide)
  | authReceived hpc ha =>
    rw [hpc, ha]
    exact .authReceived hpc _ i
  | @registerSent caller n hpc ha hn =>
    refine .later [_] rfl (by simp [Event.Aside]) ?_
    simp only [hpc, Thread.goto]
    split <;> simp [Pc.distance]
  | registerReceived hpc ha => exact .registerReceived hpc _ i _
  | took hpc ha hne =>
    rw [hpc, ha]
    rcases Thread.takeBatch_spec c _ i.now t with heq | ⟨payload, -, heq⟩
    all_goals rw [heq]
    · exact .later [] rfl (by simp) (by simp [hpc, Thread.goto, Pc.distance])
    · exact .aside rfl (by simp [hpc, Pc.distance])
  | ingestSent hpc ha hn =>
    rw [hpc, ha]
    exact .sent (.inl hpc) .sendLoop _
  | ingestResent hpc ha hn =>
    rw [hpc, ha]
    exact .sent (.inr hpc) .recvLoop _
  | @ingestReceived received hpc ha =>
    rw [hpc, ha]
    cases received with
    | failed =>
      refine .aside ?_ (by simp [hpc, Thread.ingestReceived, Pc.distance])
      rfl
    | data chunk => exact .ingestReceived hpc chunk i
  | closed hpc ha =>
    exact .later [_] rfl (by simp [Event.Aside]) (by simp [hpc, Thread.goto, Pc.distance])

-- ---------------------------------------------------------------------------
-- On its way
-- ---------------------------------------------------------------------------

/-- On its way to the queue the thread is never stuck. -/
theorem Thread.progress (c : Settings) (request : Nat) (hpc : t.pc ≠ .wait) (hgoes : ¬ t.pc.Ended) :
    ∃ t', t.step c ⟨t.served request, noon, [], []⟩ = some t' ∧
      Input.cost t ⟨t.served request, noon, [], []⟩ = 0 := by
  have hok : StatusOk (okChunk request).bytes := statusOk_ok localUuid
  cases h : t.pc with
  | getaddrinfo | socket | connect | setsockopt | registerRecv | close =>
    exact ⟨_, by simp [Thread.step, Thread.served, h]; rfl, by simp [Input.cost, Thread.served, h]⟩
  | authSend | registerSend =>
    exact ⟨_, by simp [Thread.step, Thread.served, h, SendResult]; rfl,
      by simp [Input.cost, Thread.served, h]⟩
  | ingestSend | ingestResend =>
    exact ⟨_, by simp [Thread.step, Thread.served, h, SendResult]; rfl,
      by simp [Input.cost, Thread.served, h]⟩
  | authRecv =>
    have hcode : extractStatusCode (responseText (.data (okChunk request)) []) = some 200 := by
      rw [responseText, Received.bytes]
      exact hok.extractStatusCode _
    exact ⟨_, by simp [Thread.step, Thread.served, h]; rfl,
      by simp [Input.cost, Thread.served, h, hcode]⟩
  | ingestRecv =>
    exact ⟨_, by simp [Thread.step, Thread.served, h]; rfl,
      by simp [Input.cost, Thread.served, h, hok.statusRead]⟩
  | wait => exact absurd h hpc
  | exited | crashed => exact absurd (by rw [h]; trivial) hgoes

end WireSentinel
