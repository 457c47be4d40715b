import WireSentinel.Client.Session

/-!
# The delivery of a batch

A batch is out of the packet queue when it is sent, and its request is freed
behind the loops around `send` and `recv`. These test for `-1` only, so that
they end as well on a short count, on the end of the connection, and on a
response that is not read. `batches_delivered_iff` says what they deliver
otherwise.
-/

namespace WireSentinel

open Text (lit cString)

-- ---------------------------------------------------------------------------
-- What it is to deliver
-- ---------------------------------------------------------------------------

/-- No other batch is taken. -/
def Event.KeepsBatch : Event → Prop
  | .took _ => False
  | _ => True

/-- Nor is the connection another one. -/
def Event.KeepsConnection : Event → Prop
  | .took _ | .opened _ | .closed _ => False
  | _ => True

/-- The batch taken last is this one. -/
def Holding (request : CString) : List Event → Prop :=
  Since Event.KeepsBatch fun past => past.head? = some (.took request)

/-- Since it was taken, it has been handed to the connection whole, as the
request with this number. -/
def Handed (fd : Int) (number : Nat) (request : CString) : List Event → Prop :=
  Since Event.KeepsConnection fun past => ∃ before,
    past = .sent fd .ingest number request request.length :: before ∧ Holding request before

/-- And then a response to it with status 200 has been read from that
connection. -/
def Confirmed : List Event → Prop :=
  Since Event.KeepsBatch fun past => ∃ fd chunk request before,
    past = .received fd .ingest (.data chunk) :: before ∧ StatusOk chunk.bytes ∧
      Handed fd chunk.request request before

def Delivered (past : List Event) (e : Event) : Prop := e = .released → Confirmed past

/-- The code `routine_payload` reads from `recv_buffer` behind its loops. -/
def Thread.statusRead (t : Thread) (chunk : Chunk) (i : Input) : Option Int :=
  extractStatusCode (cString ((t.fill chunk).recvBuffer ++ i.stack))

/-- Where the code behind the loops reads 200, the `send` took the whole
request, and the bytes `recv` returned are a response to it with status 200;
where it reads another code, no registration follows that gives a UUID. -/
def Answers (t : Thread) (i : Input) : Prop :=
  (t.pc = .ingestRecv → ∀ chunk, i.answer = .recv (.data chunk) →
    t.statusRead chunk i = some 200 →
      t.result = t.jsonRequest.length ∧ chunk.request = t.requests ∧ StatusOk chunk.bytes) ∧
  (t.pc = .registerRecv .ingest → ∀ received, i.answer = .recv received →
    registeredUuid (responseText received i.stack) = none)

-- ---------------------------------------------------------------------------
-- Histories of a batch
-- ---------------------------------------------------------------------------

variable {c : Settings} {i : Input} {t t' : Thread} {past : List Event} {e : Event}

/-- No other batch is taken, and no response comes in. -/
def Event.Waits : Event → Prop
  | .took _ | .received _ .ingest (.data _) => False
  | _ => True

def Pending (request : CString) : List Event → Prop :=
  Since Event.Waits fun past => past.head? = some (.took request)

def NotHanded (past : List Event) : Prop := ∀ fd number request, ¬ Handed fd number request past

theorem Event.Waits.keepsBatch (h : e.Waits) : e.KeepsBatch := by
  cases e <;> simp_all [Event.Waits, Event.KeepsBatch]

theorem Pending.holding (h : Pending request past) : Holding request past :=
  h.mono (fun _ he => he.keepsBatch) fun _ h => h

theorem not_confirmed_cons (he : e.Waits ∨ ∃ request, e = .took request)
    (h : e.Waits → ¬ Confirmed past) : ¬ Confirmed (e :: past) := by
  rintro (⟨fd, chunk, request, before, heq, -⟩ | ⟨hkeep, hconf⟩)
  · cases heq
    simp [Event.Waits] at he
  · rcases he with he | ⟨request, rfl⟩
    · exact h he hconf
    · exact hkeep

theorem Pending.not_confirmed (h : Pending request past) : ¬ Confirmed past := by
  induction past with
  | nil => simp [Pending, Since] at h
  | cons e past ih =>
    rcases h with h | ⟨he, h⟩
    · obtain rfl : e = .took request := Option.some.inj h
      exact not_confirmed_cons (.inr ⟨_, rfl⟩) fun he => absurd he (by simp [Event.Waits])
    · exact not_confirmed_cons (.inl he) fun _ => ih h

theorem notHanded_cons
    (he : ∀ fd number request, e ≠ .sent fd .ingest number request request.length)
    (h : e.KeepsConnection → NotHanded past) : NotHanded (e :: past) := by
  rintro fd number request (⟨before, heq, -⟩ | ⟨hkeep, hhanded⟩)
  · exact he fd number request (List.cons.inj heq).1
  · exact h hkeep fd number request hhanded

theorem handed_sent_iff (h : NotHanded past) :
    Handed fd number request (.sent fd' .ingest number' request' n :: past) ↔
      fd = fd' ∧ number = number' ∧ request = request' ∧ n = request.length ∧
        Holding request past := by
  constructor
  · rintro (⟨before, heq, hhold⟩ | ⟨-, hhanded⟩)
    · obtain ⟨heq, rfl⟩ := List.cons.inj heq
      cases heq
      exact ⟨rfl, rfl, rfl, rfl, hhold⟩
    · exact absurd hhanded (h _ _ _)
  · rintro ⟨rfl, rfl, rfl, rfl, hhold⟩
    exact Since.now ⟨_, rfl, hhold⟩

theorem confirmed_received_iff (h : ¬ Confirmed past) :
    Confirmed (.received fd .ingest (.data chunk) :: past) ↔
      StatusOk chunk.bytes ∧ ∃ request, Handed fd chunk.request request past := by
  constructor
  · rintro (⟨fd, chunk, request, before, heq, hok, hhanded⟩ | ⟨-, hconf⟩)
    · obtain ⟨heq, rfl⟩ := List.cons.inj heq
      cases heq
      exact ⟨hok, request, hhanded⟩
    · exact absurd hconf h
  · rintro ⟨hok, request, hhanded⟩
    exact Since.now ⟨_, _, _, _, rfl, hok, hhanded⟩

theorem confirmed_cons_iff (he : e.Waits) : Confirmed (e :: past) ↔ Confirmed past := by
  constructor
  · intro h
    by_contra hpast
    exact not_confirmed_cons (.inl he) (fun _ => hpast) h
  · exact fun h => Since.later h he.keepsBatch

theorem delivered_cons_iff (h : e ≠ .released) :
    Always Delivered (e :: past) ↔ Always Delivered past :=
  and_iff_right fun he => absurd he h

-- ---------------------------------------------------------------------------
-- Each step
-- ---------------------------------------------------------------------------

/-- What is known of the batch at each call. -/
def Thread.Phase (t : Thread) : Prop :=
  match t.pc with
  | .getaddrinfo site | .socket site | .close site =>
    site ≠ .startup → Pending t.jsonRequest t.trace
  | .connect site => site ≠ .startup → Pending t.jsonRequest t.trace ∧ NotHanded t.trace
  | .ingestSend | .ingestResend => Pending t.jsonRequest t.trace ∧ NotHanded t.trace
  | .ingestRecv => ∃ before,
      t.trace = .sent t.socketfd .ingest t.requests t.jsonRequest t.result :: before ∧
        Pending t.jsonRequest before ∧ NotHanded before
  | .registerSend .ingest | .registerRecv .ingest => ¬ Confirmed t.trace
  | _ => True

theorem Thread.Phase.of_pc (h : t.pc = .setsockopt ∨ t.pc = .authSend ∨ t.pc = .authRecv ∨
    t.pc = .registerSend .startup ∨ t.pc = .registerRecv .startup ∨ t.pc = .wait ∨
    t.pc = .exited ∨ t.pc = .crashed) : t.Phase := by
  unfold Thread.Phase
  rcases h with h | h | h | h | h | h | h | h <;> simp [h]

theorem Answers.of_pc (h : t.pc ≠ .ingestRecv) (h' : t.pc ≠ .registerRecv .ingest) : Answers t i :=
  ⟨fun hpc => absurd hpc h, fun hpc => absurd hpc h'⟩

/-- A step keeps what is known, and keeps all batches delivered exactly when
it meets the condition. -/
def Thread.Keeps (t : Thread) (i : Input) (t' : Thread) : Prop :=
  t'.Phase ∧ (Always Delivered t'.trace ↔ Always Delivered t.trace ∧ Answers t i)

theorem Thread.Keeps.quiet (hphase : t'.Phase) (ht : t.pc ≠ .ingestRecv)
    (ht' : t.pc ≠ .registerRecv .ingest)
    (htrace : Always Delivered t'.trace ↔ Always Delivered t.trace) : t.Keeps i t' :=
  ⟨hphase, htrace.trans (and_iff_left (.of_pc ht ht')).symm⟩

theorem Thread.Keeps.ingestSent (hp : Pending t.jsonRequest t.trace) (hn : NotHanded t.trace)
    (ht : t.pc ≠ .ingestRecv) (ht' : t.pc ≠ .registerRecv .ingest) (site : Site)
    (n : Int) : t.Keeps i (t.ingestSent site n) := by
  refine .quiet ?_ ht ht' (delivered_cons_iff (by simp))
  by_cases hfail : n = -1
  · simp only [Thread.Phase, Thread.ingestSent, hfail, ↓reduceIte]
    exact fun _ => hp.later trivial
  · simp only [Thread.Phase, Thread.ingestSent, hfail, ↓reduceIte]
    exact ⟨t.trace, rfl, hp, hn⟩

/-- Behind a `recv` of bytes the batch is confirmed if the condition's first
half holds of them. -/
theorem Thread.confirmed_iff {before : List Event}
    (htrace : t.trace = .sent t.socketfd .ingest t.requests t.jsonRequest t.result :: before)
    (hp : Pending t.jsonRequest before) (hn : NotHanded before) (chunk : Chunk)
    (code : Option Int) (uuid : Option CString) :
    Confirmed ((t.fill chunk).answered .ingest (.data chunk) code uuid).trace ↔
      t.result = t.jsonRequest.length ∧ chunk.request = t.requests ∧ StatusOk chunk.bytes := by
  have hnot : ¬ Confirmed t.trace := by
    rw [htrace]
    exact not_confirmed_cons (.inl trivial) fun _ => hp.not_confirmed
  have hextracted : Confirmed ((t.fill chunk).answered .ingest (.data chunk) code uuid).trace ↔
      Confirmed (.received t.socketfd .ingest (.data chunk) :: t.trace) :=
    confirmed_cons_iff trivial
  rw [hextracted, confirmed_received_iff hnot, htrace]
  constructor
  · rintro ⟨hok, request, hhanded⟩
    obtain ⟨-, hnumber, rfl, hresult, -⟩ := (handed_sent_iff hn).mp hhanded
    exact ⟨hresult, hnumber, hok⟩
  · rintro ⟨hresult, hnumber, hok⟩
    exact ⟨hok, _, (handed_sent_iff hn).mpr ⟨rfl, hnumber, rfl, hresult, hp.holding⟩⟩

theorem StatusOk.statusRead (h : StatusOk chunk.bytes) (t : Thread) (i : Input) :
    t.statusRead chunk i = some 200 := by
  unfold Thread.statusRead Thread.fill
  rw [List.append_assoc]
  exact h.extractStatusCode _

theorem Thread.Keeps.ingestReceived (hpc : t.pc = .ingestRecv) {before : List Event}
    (htrace : t.trace = .sent t.socketfd .ingest t.requests t.jsonRequest t.result :: before)
    (hp : Pending t.jsonRequest before) (hn : NotHanded before)
    (ha : i.answer = .recv (.data chunk)) : t.Keeps i (t.ingestReceived c (.data chunk) i) := by
  have hconf := Thread.confirmed_iff htrace hp hn chunk (t.statusRead chunk i) none
  have hall : Always Delivered
      ((t.fill chunk).answered .ingest (.data chunk) (t.statusRead chunk i) none).trace ↔
        Always Delivered t.trace :=
    (delivered_cons_iff (by simp)).trans (delivered_cons_iff (by simp))
  have hsecond : t.pc ≠ .registerRecv .ingest := by simp [hpc]
  have hvacuous : t.statusRead chunk i ≠ some 200 → Answers t i := by
    refine fun hne => ⟨fun _ chunk' ha' h200 => ?_, fun h => absurd h hsecond⟩
    rw [ha] at ha'
    cases ha'
    exact absurd h200 hne
  rcases Thread.ingestReceived_spec c chunk i t with ⟨hcode, h⟩ | ⟨hcode, h⟩ | ⟨hcode, h⟩
  all_goals rw [h]
  · refine ⟨.of_pc (by simp [Thread.goto]), hall.trans (and_iff_left (hvacuous ?_)).symm⟩
    unfold Thread.statusRead
    simp [hcode]
  · refine ⟨fun hc => ?_, hall.trans (and_iff_left (hvacuous hcode)).symm⟩
    exact hcode ((hconf.mp hc).2.2.statusRead t i)
  · refine ⟨.of_pc (by simp [Thread.goto]), ?_⟩
    have hiff : Answers t i ↔
        t.result = t.jsonRequest.length ∧ chunk.request = t.requests ∧ StatusOk chunk.bytes := by
      refine ⟨fun hans => hans.1 hpc chunk ha hcode, fun hans => ⟨fun _ chunk' ha' _ => ?_,
        fun h => absurd h hsecond⟩⟩
      rw [ha] at ha'
      cases ha'
      exact hans
    rw [hiff, ← hconf, ← hall, and_comm]
    exact and_congr_left fun _ => ⟨fun h => h rfl, fun h _ => h⟩

theorem Thread.Keeps.registerReceived (hpc : t.pc = .registerRecv caller)
    (hnot : caller = .ingest → ¬ Confirmed t.trace) (ha : i.answer = .recv received) :
    t.Keeps i (t.registerReceived caller received i) := by
  have hall : ∀ code uuid, Always Delivered (t.answered .register received code uuid).trace ↔
      Always Delivered t.trace := fun _ _ =>
    (delivered_cons_iff (by simp)).trans (delivered_cons_iff (by simp))
  have hconf : ∀ code uuid, Confirmed (t.answered .register received code uuid).trace ↔
      Confirmed t.trace := fun _ _ =>
    Iff.trans (confirmed_cons_iff trivial) (confirmed_cons_iff trivial)
  have hfirst : t.pc ≠ .ingestRecv := by simp [hpc]
  rcases Thread.registerReceived_spec caller received i t with
    ⟨hnone, pc, hpc', h⟩ | ⟨uuid, hsome, h⟩
  all_goals rw [h]
  · have hans : Answers t i := by
      refine ⟨fun h => absurd h hfirst, fun _ received' ha' => ?_⟩
      rw [ha] at ha'
      cases ha'
      exact hnone
    refine ⟨.of_pc ?_, (hall _ _).trans (and_iff_left hans).symm⟩
    rcases hpc' with rfl | rfl <;> simp [Thread.goto]
  · cases caller with
    | startup =>
      exact .quiet (.of_pc (by simp [Thread.identified, Thread.goto])) hfirst (by simp [hpc])
        (hall _ _)
    | ingest =>
      refine ⟨.of_pc (by simp [Thread.identified, Thread.goto]), ?_⟩
      constructor
      · rintro ⟨hreleased, -⟩
        exact absurd ((hconf _ _).mp (hreleased rfl)) (hnot rfl)
      · rintro ⟨-, -, hans⟩
        rw [hans hpc received ha] at hsome
        cases hsome

theorem Thread.Phase.step (hphase : t.Phase) (h : t.step c i = some t') : t.Keeps i t' := by
  unfold Thread.Phase at hphase
  cases Thread.step_sound h with
  | @resolved site ok hpc ha =>
    rw [hpc] at hphase
    refine .quiet ?_ (by simp [hpc]) (by simp [hpc]) (delivered_cons_iff (by simp))
    rcases Thread.resolved_pc site ok t with hpc' | ⟨-, -, hpc'⟩
    · rw [Thread.Phase, hpc']
      exact fun hsite => (hphase hsite).later trivial
    · exact .of_pc (by simp [hpc'])
  | opened hpc ha =>
    rw [hpc] at hphase
    refine .quiet (fun hsite => ⟨(hphase hsite).later trivial, ?_⟩) (by simp [hpc]) (by simp [hpc])
      (delivered_cons_iff (by simp))
    exact notHanded_cons (by simp) fun hkeep => hkeep.elim
  | @connected site hpc ha =>
    rw [hpc] at hphase
    refine .quiet ?_ (by simp [hpc]) (by simp [hpc]) (delivered_cons_iff (by simp))
    have hnext : site ≠ .startup → Pending t.jsonRequest (.connected t.socketfd :: t.trace) ∧
        NotHanded (.connected t.socketfd :: t.trace) := by
      intro hsite
      obtain ⟨hp, hn⟩ := hphase hsite
      exact ⟨hp.later trivial, notHanded_cons (by simp) fun _ => hn⟩
    cases site with
    | startup => exact .of_pc (.inl rfl)
    | sendLoop => exact hnext (by simp)
    | recvLoop => exact hnext (by simp)
  | refused hpc ha =>
    rw [hpc] at hphase
    exact .quiet (fun hsite => (hphase hsite).1.later trivial) (by simp [hpc]) (by simp [hpc])
      (delivered_cons_iff (by simp))
  | configured hpc ha =>
    refine .quiet (.of_pc ?_) (by simp [hpc]) (by simp [hpc]) ?_
    · rcases Thread.startUp_pc c i (t.record (.configured t.socketfd)) with h | h | h <;> simp [h]
    · rw [Thread.startUp_trace]
      exact delivered_cons_iff (by simp)
  | authSent hpc ha hn =>
    refine .quiet (.of_pc ?_) (by simp [hpc]) (by simp [hpc]) (delivered_cons_iff (by simp))
    simp only [Thread.goto]
    split <;> simp
  | @authReceived received hpc ha =>
    obtain ⟨htrace, hpc'⟩ := Thread.authReceived_spec c received i t
    refine .quiet (.of_pc ?_) (by simp [hpc]) (by simp [hpc]) ?_
    · rcases hpc' with h | h | h <;> simp [h]
    · rw [htrace]
      exact (delivered_cons_iff (by simp)).trans (delivered_cons_iff (by simp))
  | @registerSent caller n hpc ha hn =>
    rw [hpc] at hphase
    refine .quiet ?_ (by simp [hpc]) (by simp [hpc]) (delivered_cons_iff (by simp))
    by_cases hfail : n < 0
    · exact .of_pc (by simp [Thread.goto, hfail])
    · cases caller with
      | startup => exact .of_pc (by simp [Thread.goto, hfail])
      | ingest =>
        simp only [Thread.Phase, Thread.goto, hfail, ↓reduceIte]
        exact not_confirmed_cons (.inl trivial) fun _ => hphase
  | registerReceived hpc ha =>
    refine .registerReceived hpc (fun hcaller => ?_) ha
    rw [hpc, hcaller] at hphase
    exact hphase
  | took hpc ha hne =>
    rcases Thread.takeBatch_spec c _ i.now t with h | ⟨payload, -, h⟩
    all_goals rw [h]
    · exact .quiet (.of_pc (by simp [Thread.goto])) (by simp [hpc]) (by simp [hpc]) .rfl
    · refine .quiet ⟨Since.now rfl, ?_⟩ (by simp [hpc]) (by simp [hpc])
        (delivered_cons_iff (by simp))
      exact notHanded_cons (by simp) fun hkeep => hkeep.elim
  | ingestSent hpc ha hn =>
    rw [hpc] at hphase
    exact .ingestSent hphase.1 hphase.2 (by simp [hpc]) (by simp [hpc]) _ _
  | ingestResent hpc ha hn =>
    rw [hpc] at hphase
    exact .ingestSent hphase.1 hphase.2 (by simp [hpc]) (by simp [hpc]) _ _
  | @ingestReceived received hpc ha =>
    rw [hpc] at hphase
    obtain ⟨before, htrace, hp, hn⟩ := hphase
    cases received with
    | failed =>
      refine ⟨fun _ => ?_, ?_⟩
      · have hsent : Pending t.jsonRequest t.trace := by
          rw [htrace]
          exact hp.later trivial
        exact hsent.later trivial
      · refine (delivered_cons_iff (by simp)).trans (and_iff_left ⟨fun _ chunk ha' => ?_, ?_⟩).symm
        · rw [ha] at ha'
          cases ha'
        · simp [hpc]
    | data chunk => exact .ingestReceived hpc htrace hp hn ha
  | closed hpc ha =>
    rw [hpc] at hphase
    exact .quiet (fun hsite => (hphase hsite).later trivial) (by simp [hpc]) (by simp [hpc])
      (delivered_cons_iff (by simp))

def endChunk (request : Nat) : Chunk := ⟨[], request, by decide⟩

def deliveredBatch : List Input :=
  greet localSettings 3 (okChunk 1) noon ['\x00'] ++
    turn localRequest [synRecord] (okChunk 2) noon ['\x00']

/-- Another batch is sent, and the server closes the connection. -/
def lostBatch : List Input :=
  deliveredBatch ++ turn localRequest [synRecord] (endChunk 3) noon ['\x00']

theorem run_deliveredBatch :
    ∃ t, run (Thread.step localSettings) localStart deliveredBatch = some t ∧
    t.pc = .wait ∧ t.uuid = some localUuid ∧
      ∃ more, t.recvBuffer = (okChunk 2).bytes ++ more := by
  have hgreet : run (Thread.step localSettings) localStart
      (greet localSettings 3 (okChunk 1) noon ['\x00']) = some _ := run_greet 3 registeredUuid_local
  have hread : ∀ more stack,
      extractStatusCode (cString ((okChunk 2).bytes ++ more ++ stack)) = some 200 := by
    intro more stack
    rw [List.append_assoc]
    exact (statusOk_ok _).extractStatusCode _
  exact ⟨_, (run_append hgreet _).trans
    (run_turn rfl (by simp) localSettings_payload rfl (hread _ _)), rfl, rfl, _, rfl⟩

/-- Whatever the calls return, the batches released are delivered if and only
if the steps meet the condition. -/
theorem batches_delivered_iff (c : Settings) (uuidFile : Option CString)
    (recvBuffer : List Char) (inputs : List Input)
    (h : run (Thread.step c) (.start uuidFile recvBuffer) inputs = some t) :
    Always Delivered t.trace ↔
      Along (Thread.step c) Answers (.start uuidFile recvBuffer) inputs := by
  have hstart : (Thread.start uuidFile recvBuffer).Phase := fun hsite => absurd rfl hsite
  rw [run_iff (fun _ _ _ hstep hphase => hphase.step hstep) hstart h]
  exact and_iff_right trivial

theorem batches_delivered_iff_local :
    ∃ t, run (Thread.step localSettings) localStart deliveredBatch = some t ∧
      (Always Delivered t.trace ↔
        Along (Thread.step localSettings) Answers localStart deliveredBatch) := by
  obtain ⟨t, hrun, -⟩ := run_deliveredBatch
  exact ⟨t, hrun, batches_delivered_iff _ _ _ _ hrun⟩

/-- The response before is still in the buffer, and is read again. -/
theorem batch_lost :
    ∃ t, run (Thread.step localSettings) localStart lostBatch = some t ∧
      ¬ Always Delivered t.trace := by
  obtain ⟨t, hrun, hpc, huuid, more, hmore⟩ := run_deliveredBatch
  have hread : extractStatusCode (cString ((t.fill (endChunk 3)).recvBuffer ++ ['\x00'])) =
      some 200 := by
    have hbuffer : (t.fill (endChunk 3)).recvBuffer = (okChunk 2).bytes ++ more := hmore
    rw [hbuffer, List.append_assoc]
    exact (statusOk_ok _).extractStatusCode _
  have hrequest : generateRequest (localSettings.sender noon)
      (payloadText localSettings.services [synRecord]) t.uuidText = localRequest := by
    unfold Thread.uuidText
    rw [huuid]
    rfl
  refine ⟨_, (run_append hrun _).trans
    (run_turn hpc (by simp) localSettings_payload hrequest hread), ?_⟩
  rintro ⟨hreleased, -⟩
  have hpending : Pending localRequest (.sent t.socketfd .ingest (t.requests + 1) localRequest
      localRequest.length :: .took localRequest :: t.trace) :=
    Since.later (Since.now rfl) trivial
  have hconf := (confirmed_cons_iff (by trivial)).mp (hreleased rfl)
  have hok := ((confirmed_received_iff hpending.not_confirmed).mp hconf).1
  exact not_statusOk_nil hok

end WireSentinel
