import WireSentinel.Queue.Flush
import WireSentinel.System.Client
import Mathlib.Data.List.Forall2

/-!
# From the wire to the server

What the server reads from the requests is what the parser made of the
captured frames: `ingested_sound` says that nothing is made up, and
`delivered_in_order` that nothing that left the queues is lost or overtaken,
under the assumptions that the code's handling of responses needs.
-/

namespace WireSentinel

-- ---------------------------------------------------------------------------
-- Assumptions
-- ---------------------------------------------------------------------------

/-- A batch is sent under a UUID that fits the header. -/
def Agent.Plain (s : System) : Agent → Prop
  | .payload .. => s.threads.payload = .take → PlainUuid s.exchange.thread.uuidText
  | _ => True

/-- No batch is taken. -/
def Party.Talks : Party → Prop
  | .client i => ∀ pkts, i.answer ≠ .batch pkts
  | .server _ => True

def Agent.Hears (s : System) : Agent → Prop
  | .client i => HearsLast s.exchange.thread i
  | _ => True

-- ---------------------------------------------------------------------------
-- What a request says
-- ---------------------------------------------------------------------------

/-- The server reads the batch from the request. -/
def Tells (c : Settings) (batch : List (Tagged FullInternetPacket)) (request : CString) : Prop :=
  decodeIngest request = some (batch.map fun t => t.value.view c.services)

structure System.Inv (c : Settings) (s : System) : Prop where
  pipeline : s.threads.pipeline.Inv
  fits : s.threads.Fits
  faithful : s.exchange.Faithful
  texts : List.Forall₂ (Tells c) s.threads.pipeline.ledger.shipped (taken s.exchange.thread.trace)

variable {c : Settings} {i : Input} {t t' : Thread} {s s' : System}

theorem Thread.step_taken (h : t.step c i = some t') (ha : ∀ pkts, i.answer ≠ .batch pkts) :
    taken t'.trace = taken t.trace := by
  have haside : ∀ later, t'.trace = later ++ t.trace → (∀ e ∈ later, e.Aside) →
      taken t'.trace = taken t.trace := fun later htrace hlater =>
    htrace ▸ append_of_skips Event.Aside.taken hlater _
  have hm := Thread.step_move h
  cases hm with
  | resolved site ok hpc hpc' htrace => exact haside [_] htrace (by simp [Event.Aside])
  | unresolved hpc hpc' htrace => exact haside [_] htrace (by simp [Event.Aside])
  | opened site fd hpc hpc' hfd htrace => exact haside [_] htrace (by simp [Event.Aside])
  | connected site hpc ha hpc' hfd htrace => exact haside [_] htrace (by simp [Event.Aside])
  | refused site hpc ha hpc' htrace => exact haside [_] htrace (by simp [Event.Aside])
  | configured hpc hpc' hfd htrace => exact haside [_] htrace (by simp [Event.Aside])
  | talked talk hbusy hpc hpc' hfd htalk htrace =>
    exact haside talk htrace fun e he => (htalk e he).aside
  | took request hpc hpc' hfd htrace =>
    cases Thread.step_sound h with
    | took _ hbatch => exact absurd hbatch (ha _)
    | _ => simp_all
  | answered chunk talk hpc hpc' hfd htalk htrace =>
    refine haside (talk ++ [.received t.socketfd .ingest (.data chunk)]) (by simpa using htrace) ?_
    refine List.forall_mem_append.mpr ⟨fun e he => (htalk e he).aside, ?_⟩
    exact List.forall_mem_singleton.mpr trivial
  | closed site hpc hpc' htrace => exact haside [_] htrace (by simp [Event.Aside])
  | sent n request result hpc hresult hpc' hfd htrace =>
    rw [htrace]
    rfl
  | sendFailed site n request hpc hsite hpc' hfd htrace =>
    rw [htrace]
    rfl
  | recvFailed hpc hpc' hfd htrace =>
    rw [htrace]
    rfl

theorem Exchange.step_taken {e e' : Exchange} {party : Party} (hparty : party.Talks)
    (h : e.step c party = some e') : taken e'.thread.trace = taken e.thread.trace := by
  cases party with
  | client i =>
    simp only [Exchange.step] at h
    split at h
    · obtain ⟨t', ht', rfl⟩ := Option.map_eq_some_iff.mp h
      exact Thread.step_taken ht' hparty
    · cases h
  | server request =>
    simp only [Exchange.step] at h
    split at h <;> cases h
    rfl

/-- Where a batch is taken, a request is written. -/
theorem Exchange.step_batch {e e' : Exchange} {pkts : List FullInternetPacket}
    (hpkts : ∀ pkt ∈ pkts, Produced pkt) (hlen : pkts.length ≤ 1000)
    (h : e.step c (.client ⟨.batch pkts, now, stack, heap⟩) = some e') :
    pkts ≠ [] ∧ taken e'.thread.trace = taken e.thread.trace ++
      [generateRequest (c.sender now) (payloadText c.services pkts) e.thread.uuidText] := by
  simp only [Exchange.step] at h
  split at h
  · obtain ⟨t', ht', rfl⟩ := Option.map_eq_some_iff.mp h
    have hpayload := generateJsonPayload_eq c.services (fun pkt h => (hpkts pkt h).sized) hlen
    generalize hi : (⟨.batch pkts, now, stack, heap⟩ : Input) = i at ht'
    cases Thread.step_sound ht' with
    | took hpc ha hne =>
      subst hi
      cases ha
      refine ⟨hne, ?_⟩
      simp [Thread.takeBatch, hpayload, Thread.record, taken]
    | _ => subst hi; simp_all
  · cases h

-- ---------------------------------------------------------------------------
-- Each step
-- ---------------------------------------------------------------------------

theorem Ledger.Accounts.produced {l : Ledger} (ha : l.Accounts raw packets) (hf : l.Fits) :
    ∀ t ∈ packets, Produced t.value := by
  intro t ht
  obtain ⟨item, hitem, -, -, now, node, hnode, heq⟩ := ha.sent t (List.mem_append_right _ ht)
  obtain ⟨hpos, hle⟩ := hf item (List.mem_of_getElem? hitem)
  exact ⟨item.content, item.recvlen, now, hpos, hle, node, hnode, heq⟩

theorem System.Inv.start (c : Settings) (uuidFile : Option CString) (recvBuffer : List Char) :
    System.Inv c (.start uuidFile recvBuffer) :=
  ⟨pipeline_start, ⟨trivial, by simp [Ledger.Fits, System.start]⟩, .start uuidFile recvBuffer,
    List.Forall₂.nil⟩

theorem System.Inv.queue {choice : Choice} (hi : s.Inv c) (h : s.queue choice = some s')
    (hledger : ∀ threads, s.threads.step choice = some threads →
      threads.pipeline.ledger.shipped = s.threads.pipeline.ledger.shipped ∧ threads.Fits) :
    s'.Inv c := by
  obtain ⟨threads, hthreads, rfl⟩ := Option.map_eq_some_iff.mp h
  obtain ⟨hshipped, hfits⟩ := hledger threads hthreads
  refine ⟨Threads.pipeline_inv hi.pipeline hthreads, hfits, hi.faithful, ?_⟩
  dsimp only
  rw [hshipped]
  exact hi.texts

theorem System.Inv.talk (hi : s.Inv c) (party : Party) (hparty : party.Talks)
    (h : s.talk c party = some s') : s'.Inv c := by
  obtain ⟨exchange, hexchange, rfl⟩ := Option.map_eq_some_iff.mp h
  refine ⟨hi.pipeline, hi.fits, hi.faithful.step hexchange, ?_⟩
  dsimp only
  rw [Exchange.step_taken hparty hexchange]
  exact hi.texts

/-- What is taken is what the parser has put on the list. -/
theorem System.Inv.took (hi : s.Inv c) (h : s.take c now stack heap = some s') :
    ∃ packets, walk s.threads.pipeline.packets.heap s.threads.pipeline.packets.heap.length
          s.threads.pipeline.packets.inicio = .ok packets ∧
      (∀ pkt ∈ packets.map Tagged.value, Produced pkt) ∧ (packets.map Tagged.value).length ≤ 1000 ∧
      s.threads.step .payload = some s'.threads ∧
      s.exchange.step c (.client ⟨.batch (packets.map Tagged.value), now, stack, heap⟩) =
        some s'.exchange := by
  obtain ⟨raw, packets, hraw, hpackets, ha⟩ := hi.pipeline
  simp only [System.take, hpackets.freeAll.1, Except.toOption, Option.bind_eq_bind,
    Option.bind_some, Option.bind_eq_some_iff] at h
  obtain ⟨threads, hthreads, exchange, hexchange, heq⟩ := h
  obtain rfl := Option.some.inj heq
  refine ⟨packets, hpackets.freeAll.1, ?_, ?_, hthreads, hexchange⟩
  · exact List.forall_mem_map.mpr (ha.produced hi.fits.ledger)
  · rw [List.length_map]
    exact hpackets.le

/-- The batch that leaves the queue is the one the next request tells of. -/
theorem System.Inv.take (hc : c.Plain) (hi : s.Inv c) (hpc : s.threads.payload = .take)
    (huuid : PlainUuid s.exchange.thread.uuidText) (h : s.take c now stack heap = some s') :
    s'.Inv c := by
  obtain ⟨packets, hwalk, hproduced, hlen, hthreads, hexchange⟩ := hi.took h
  obtain ⟨hne, htaken⟩ := Exchange.step_batch hproduced hlen hexchange
  obtain ⟨hcapture, hwork⟩ := payloadStep_take hpc hthreads
  obtain ⟨hshipped, hcaptured⟩ := payload_ledger hwalk (by simpa using hne) hwork
  refine ⟨Threads.pipeline_inv hi.pipeline hthreads, ⟨?_, ?_⟩, hi.faithful.step hexchange, ?_⟩
  · rw [hcapture]
    exact hi.fits.capture
  · unfold Ledger.Fits
    rw [hcaptured]
    exact hi.fits.ledger
  · rw [hshipped, htaken]
    refine List.rel_append hi.texts (List.Forall₂.cons ?_ List.Forall₂.nil)
    rw [Tells, decodeIngest_ok hc hne hproduced hlen huuid, List.map_map]
    rfl

theorem System.Inv.step {agent : Agent} (hc : c.Plain) (h : s.step c agent = some s')
    (hplain : agent.Plain s) (hi : s.Inv c) : s'.Inv c := by
  cases agent with
  | capture turn =>
    simp only [System.step] at h
    split at h
    · rename_i hle
      exact hi.queue h fun threads => captureStep_ledger hi.fits hle
    · cases h
  | processing turn => exact hi.queue h fun threads => processingStep_ledger hi.fits
  | payload now stack heap =>
    have hother : s.threads.payload ≠ .take → s.queue .payload = some s' → s'.Inv c := by
      intro hpc h
      refine hi.queue h fun threads hthreads => ?_
      obtain ⟨hcapture, hpipeline⟩ := payloadStep_other hpc hthreads
      rw [hpipeline]
      exact ⟨rfl, hcapture ▸ hi.fits.capture, hpipeline ▸ hi.fits.ledger⟩
    simp only [System.step] at h
    split at h
    · rename_i hpc
      exact hi.take hc hpc (hplain hpc) h
    · rename_i hpc
      exact hother (by simp [hpc]) h
    · rename_i hne _
      split at h
      · exact hother hne h
      · cases h
  | client i =>
    simp only [System.step] at h
    split at h
    · cases h
    · rename_i hbatch
      exact hi.talk (.client i) hbatch h
    · cases h
  | server request => exact hi.talk (.server request) trivial h
  | spurious role =>
    refine hi.queue h fun threads hthreads => ?_
    simp only [Threads.step] at hthreads
    split at hthreads <;> cases hthreads
    exact ⟨rfl, hi.fits.capture, hi.fits.ledger⟩

/-- For the threads the whole is one more interleaving. -/
theorem System.step_threads {agent : Agent} (h : s.step c agent = some s') :
    s'.threads = s.threads ∨ ∃ choice, s.threads.step choice = some s'.threads := by
  have hqueue : ∀ choice, s.queue choice = some s' →
      ∃ choice, s.threads.step choice = some s'.threads := by
    intro choice h
    obtain ⟨threads, hthreads, rfl⟩ := Option.map_eq_some_iff.mp h
    exact ⟨choice, hthreads⟩
  have htalk : ∀ party, s.talk c party = some s' → s'.threads = s.threads := by
    intro party h
    obtain ⟨exchange, -, rfl⟩ := Option.map_eq_some_iff.mp h
    rfl
  cases agent with
  | capture turn =>
    simp only [System.step] at h
    split at h
    · exact .inr (hqueue _ h)
    · cases h
  | processing turn => exact .inr (hqueue _ h)
  | payload now stack heap =>
    simp only [System.step] at h
    split at h
    · simp only [System.take, Option.bind_eq_bind, Option.bind_eq_some_iff] at h
      obtain ⟨batch, -, threads, hthreads, exchange, -, heq⟩ := h
      obtain rfl := Option.some.inj heq
      exact .inr ⟨_, hthreads⟩
    · exact .inr (hqueue _ h)
    · split at h
      · exact .inr (hqueue _ h)
      · cases h
  | client i =>
    simp only [System.step] at h
    split at h
    · cases h
    · exact .inl (htalk _ h)
    · cases h
  | server request => exact .inl (htalk _ h)
  | spurious role => exact .inr (hqueue _ h)

/-- For the network and the server the whole is one more run of the two. -/
theorem System.step_exchange {agent : Agent} (h : s.step c agent = some s') :
    s'.exchange = s.exchange ∨ ∃ party, s.exchange.step c party = some s'.exchange ∧
      (agent.Hears s → party.Hears s.exchange) := by
  have hqueue : ∀ choice, s.queue choice = some s' → s'.exchange = s.exchange := by
    intro choice h
    obtain ⟨threads, -, rfl⟩ := Option.map_eq_some_iff.mp h
    rfl
  have htalk : ∀ party, s.talk c party = some s' → s.exchange.step c party = some s'.exchange := by
    intro party h
    obtain ⟨exchange, hexchange, rfl⟩ := Option.map_eq_some_iff.mp h
    exact hexchange
  cases agent with
  | capture turn =>
    simp only [System.step] at h
    split at h
    · exact .inl (hqueue _ h)
    · cases h
  | processing turn => exact .inl (hqueue _ h)
  | payload now stack heap =>
    simp only [System.step] at h
    split at h
    · simp only [System.take, Option.bind_eq_bind, Option.bind_eq_some_iff] at h
      obtain ⟨batch, -, threads, -, exchange, hexchange, heq⟩ := h
      obtain rfl := Option.some.inj heq
      refine .inr ⟨_, hexchange, fun _ _ chunk ha => ?_⟩
      cases ha
    · exact .inl (hqueue _ h)
    · split at h
      · exact .inl (hqueue _ h)
      · cases h
  | client i =>
    simp only [System.step] at h
    split at h
    · cases h
    · exact .inr ⟨_, htalk _ h, id⟩
    · cases h
  | server request => exact .inr ⟨_, htalk _ h, fun _ => trivial⟩
  | spurious role => exact .inl (hqueue _ h)

theorem System.Inv.run (hc : c.Plain) {uuidFile : Option CString} {recvBuffer : List Char}
    {agents : List Agent} (h : run (System.step c) (.start uuidFile recvBuffer) agents = some s)
    (hplain : Along (System.step c) (fun s agent => agent.Plain s) (.start uuidFile recvBuffer)
      agents) : s.Inv c :=
  run_inv (fun _ _ _ hstep hplain hi => System.Inv.step hc hstep hplain hi)
    (.start c uuidFile recvBuffer) hplain h

-- ---------------------------------------------------------------------------
-- Runs
-- ---------------------------------------------------------------------------

/-- The server has processed the batch, and read it as what it is. -/
def System.Ingested (c : Settings) (s : System) (batch : Nat)
    (pkts : List (Tagged FullInternetPacket)) : Prop :=
  ∃ r ∈ s.exchange.processed, r.batch = batch ∧ ∃ text,
    (r, text) ∈ handedOver s.exchange.thread.trace ∧ Tells c pkts text

theorem System.Inv.tells (hi : s.Inv c) (hr : r ∈ s.exchange.processed) :
    ∃ k batch text, r.batch = k + 1 ∧ s.threads.pipeline.ledger.shipped[k]? = some batch ∧
      (r, text) ∈ handedOver s.exchange.thread.trace ∧ Tells c batch text := by
  obtain ⟨text, hmem, k, hk, htext⟩ := hi.faithful.mem hr
  have hlength := hi.texts.length_eq
  obtain ⟨hlt, rfl⟩ := List.getElem?_eq_some_iff.mp htext
  have hlt' : k < s.threads.pipeline.ledger.shipped.length := hlength ▸ hlt
  exact ⟨k, _, _, hk, List.getElem?_eq_getElem hlt', hmem, hi.texts.get hlt' hlt⟩

theorem System.Inv.ingested (hi : s.Inv c) (hpos : 0 < s.exchange.ingested (k + 1))
    (hbatch : s.threads.pipeline.ledger.shipped[k]? = some batch) :
    s.Ingested c (k + 1) batch := by
  obtain ⟨r, hr, heq⟩ := Exchange.ingested_pos.mp hpos
  obtain ⟨k', batch', text, hk, hbatch', hmem, htells⟩ := hi.tells hr
  obtain rfl : k = k' := Nat.succ.inj (heq.symm.trans hk)
  obtain rfl := Option.some.inj (hbatch.symm.trans hbatch')
  exact ⟨r, hr, heq, text, hmem, htells⟩

-- ---------------------------------------------------------------------------
-- A frame all the way
-- ---------------------------------------------------------------------------

/-- The frame is captured and parsed. -/
def synQueued : List Choice :=
  List.replicate 5 (.capture synTurn) ++ List.replicate 4 (.processing synTurn)

/-- With its record alone in the packet queue. -/
def Threads.holdsSyn (th : Threads) : Bool :=
  let packets := th.pipeline.packets
  (walk packets.heap packets.heap.length packets.inicio).toOption.any
    (·.map Tagged.value = [synRecord])

theorem run_synQueued :
    ∃ th₁ th₂ th₃ th₄ th₅, run Threads.step {} synQueued = some th₁ ∧ th₁.payload = .lock ∧
      th₁.step .payload = some th₂ ∧ th₂.payload = .test ∧ th₂.step .payload = some th₃ ∧
      th₃.payload = .take ∧ th₃.holdsSyn ∧ th₃.step .payload = some th₄ ∧ th₄.payload = .unlock ∧
      th₄.step .payload = some th₅ ∧ th₅.payload = .lock := by
  have h : (run Threads.step {} synQueued).any fun th₁ =>
      th₁.payload = .lock ∧ (th₁.step .payload).any fun th₂ =>
      th₂.payload = .test ∧ (th₂.step .payload).any fun th₃ =>
      th₃.payload = .take ∧ th₃.holdsSyn ∧ (th₃.step .payload).any fun th₄ =>
      th₄.payload = .unlock ∧ (th₄.step .payload).any fun th₅ => th₅.payload = .lock := by
    decide +kernel
  simp only [Option.any_eq_true, decide_eq_true_eq] at h
  obtain ⟨th₁, h₁, hpc₁, th₂, h₂, hpc₂, th₃, h₃, hpc₃, hsyn, th₄, h₄, hpc₄, th₅, h₅, hpc₅⟩ := h
  exact ⟨th₁, th₂, th₃, th₄, th₅, h₁, hpc₁, h₂, hpc₂, h₃, hpc₃, hsyn, h₄, hpc₄, h₅, hpc₅⟩

/-- At the queue, and not where the batch is taken. -/
theorem System.step_queue {th : Threads} (hpc : s.threads.payload ≠ .take)
    (hwait : s.exchange.thread.pc = .wait) (h : s.threads.step .payload = some th) :
    s.step c (.payload now stack heap) = some { s with threads := th } := by
  have hqueue : s.queue .payload = some { s with threads := th } := by
    rw [System.queue, h]
    rfl
  simp only [System.step]
  split
  · exact absurd ‹_› hpc
  · exact hqueue
  · rw [if_pos hwait]
    exact hqueue

def Choice.agent : Choice → Agent
  | .capture turn => .capture turn
  | .processing turn => .processing turn
  | .payload => .payload noon [] []
  | .spurious role => .spurious role

def Party.agent : Party → Agent
  | .client i => .client i
  | .server request => .server request

theorem run_queue {th : Threads} (h : run Threads.step {} synQueued = some th) (e : Exchange) :
    run (System.step c) ⟨{}, e⟩ (synQueued.map Choice.agent) = some ⟨th, e⟩ := by
  have hstep : ∀ choice ∈ synQueued, ∀ th : Threads,
      System.step c ⟨th, e⟩ choice.agent = (th.step choice).map (⟨·, e⟩) := by
    intro choice hchoice th
    rcases List.mem_append.mp hchoice with hchoice | hchoice
    · obtain rfl := List.eq_of_mem_replicate hchoice
      rfl
    · obtain rfl := List.eq_of_mem_replicate hchoice
      rfl
  rw [run_map (f := fun th => (⟨th, e⟩ : System)) hstep, h]
  rfl

theorem run_talk {e e' : Exchange} {parties : List Party}
    (hparties : ∀ party ∈ parties, party.Talks) (hpc : s.threads.payload = .lock)
    (h : run (Exchange.step c) e parties = some e')
    (hears : Along (Exchange.step c) (fun e party => party.Hears e) e parties) :
    run (System.step c) ⟨s.threads, e⟩ (parties.map Party.agent) = some ⟨s.threads, e'⟩ ∧
      Along (System.step c) (fun s agent => agent.Plain s ∧ agent.Hears s) ⟨s.threads, e⟩
        (parties.map Party.agent) := by
  have hstep : ∀ party ∈ parties, ∀ e : Exchange,
      System.step c ⟨s.threads, e⟩ party.agent = (e.step c party).map (⟨s.threads, ·⟩) := by
    intro party hparty e
    cases party with
    | client i =>
      simp only [Party.agent, System.step, hpc]
      split
      · exact absurd ‹_› (hparties _ hparty _)
      · rfl
      · simp_all
    | server request => rfl
  refine ⟨?_, along_map hstep (fun e party hparty => ?_) hears⟩
  · rw [run_map (f := fun e => (⟨s.threads, e⟩ : System)) hstep, h]
    rfl
  · cases party with
    | client i => exact ⟨trivial, hparty⟩
    | server request => exact ⟨trivial, trivial⟩

def synAgents : List Agent :=
  ((greet localSettings 3 (okChunk 1) noon ['\x00']).map .client).map Party.agent ++
    (synQueued.map Choice.agent ++ (List.replicate 4 (.payload noon ['\x00'] []) ++
      (exchanged localRequest [synRecord] (okChunk 2) noon ['\x00'] ⟨1, 1, 2⟩).tail.map
        Party.agent))

theorem run_synAgents :
    ∃ s, run (System.step localSettings) (.start none (List.replicate 2048 '\x00')) synAgents =
        some s ∧ s.exchange.processed = [⟨1, 1, 2⟩] ∧
      (∃ n, .sent 3 .register 1 (localSettings.registerRequest noon) n ∈
        s.exchange.thread.trace) ∧
      (∃ n, .sent 3 .ingest 2 localRequest n ∈ s.exchange.thread.trace) ∧
      Along (System.step localSettings) (fun s agent => agent.Plain s ∧ agent.Hears s)
        (.start none (List.replicate 2048 '\x00')) synAgents := by
  obtain ⟨t, hgreet, hpc, huuid, t', hrun, hregister, hingest, halong⟩ := run_greeted
  obtain ⟨th₁, th₂, th₃, th₄, th₅, h₁, hpc₁, h₂, hpc₂, h₃, hpc₃, hsyn, h₄, hpc₄, h₅, hpc₅⟩ :=
    run_synQueued
  have hplain : PlainUuid t.uuidText := by
    rw [Thread.uuidText, huuid]
    decide
  rw [exchanged, List.map_cons, List.cons_append, run, List.foldlM_cons, Option.bind_eq_bind,
    Option.bind_eq_some_iff] at hrun
  obtain ⟨e, htake, hrun⟩ := hrun
  have htook : (⟨th₃, ⟨t, []⟩⟩ : System).take localSettings noon ['\x00'] [] = some ⟨th₄, e⟩ := by
    simp only [Threads.holdsSyn, Option.any_eq_true, decide_eq_true_eq] at hsyn
    obtain ⟨batch, hwalk, hbatch⟩ := hsyn
    simp [System.take, hwalk, hbatch, h₄, htake]
  have hwait₂ : System.step localSettings ⟨th₁, ⟨t, []⟩⟩ (.payload noon ['\x00'] []) =
      some ⟨th₂, ⟨t, []⟩⟩ := System.step_queue (by simp [hpc₁]) hpc h₂
  have hwait₃ : System.step localSettings ⟨th₂, ⟨t, []⟩⟩ (.payload noon ['\x00'] []) =
      some ⟨th₃, ⟨t, []⟩⟩ := System.step_queue (by simp [hpc₂]) hpc h₃
  have hstep₄ : System.step localSettings ⟨th₃, ⟨t, []⟩⟩ (.payload noon ['\x00'] []) =
      some ⟨th₄, e⟩ := by
    simp only [System.step, hpc₃, htook]
  have hstep₅ : System.step localSettings ⟨th₄, e⟩ (.payload noon ['\x00'] []) =
      some ⟨th₅, e⟩ := by
    simp only [System.step, hpc₄, System.queue, h₅, Option.map_some]
  have hplain₁ : ∀ th : Threads, Agent.Plain ⟨th, ⟨t, []⟩⟩ (.payload noon ['\x00'] []) :=
    fun _ _ => hplain
  have hplain₅ : Agent.Plain ⟨th₄, e⟩ (.payload noon ['\x00'] []) := by
    simp [Agent.Plain, hpc₄]
  obtain ⟨hstart, hfair⟩ := run_talk (s := ⟨{}, ⟨localStart, []⟩⟩)
    (by simp [greet, Party.Talks]) rfl hgreet (along_clients (noResponse_greet 3 _))
  obtain ⟨hrest, hfair'⟩ := run_talk (s := ⟨th₅, e⟩) (by simp [Party.Talks]) hpc₅ hrun
    (halong.2 e htake)
  have hqueue := run_queue (c := localSettings) h₁ ⟨t, []⟩
  have hfair₁ : Along (System.step localSettings) (fun s agent => agent.Plain s ∧ agent.Hears s)
      ⟨{}, ⟨t, []⟩⟩ (synQueued.map Choice.agent) :=
    along_of_mem (by simp [synQueued, Choice.agent, Agent.Plain, Agent.Hears]) _
  refine ⟨⟨th₅, ⟨t', [⟨1, 1, 2⟩]⟩⟩, ?_, rfl, hregister, hingest, ?_⟩
  · refine (run_append hstart _).trans ((run_append hqueue _).trans ?_)
    refine (run_cons hwait₂ _).trans ((run_cons hwait₃ _).trans ((run_cons hstep₄ _).trans
      ((run_cons hstep₅ _).trans hrest)))
  · refine Along.append hfair hstart (Along.append hfair₁ hqueue ?_)
    refine .cons ⟨hplain₁ _, trivial⟩ hwait₂ (.cons ⟨hplain₁ _, trivial⟩ hwait₃
      (.cons ⟨hplain₁ _, trivial⟩ hstep₄ (.cons ⟨hplain₅, trivial⟩ hstep₅ hfair')))

/-- Whatever the server reads from a request it processes is a batch that
left the packet queue, packet by packet, and each packet is the record of a
captured frame.

Premises: the tables' names need no escapes, the address and the port are as
`create_security_file` accepts them, and batches are sent under UUIDs of one
line that fit the header; the state is reached by any order of the steps of
the threads and the server. -/
theorem ingested_sound (c : Settings) (hc : c.Plain) (uuidFile : Option CString)
    (recvBuffer : List Char) (agents : List Agent) {s : System}
    (h : run (System.step c) (.start uuidFile recvBuffer) agents = some s)
    (hplain : Along (System.step c) (fun s agent => agent.Plain s) (.start uuidFile recvBuffer)
      agents) :
    ∀ r ∈ s.exchange.processed, ∃ batch ∈ s.threads.pipeline.ledger.shipped,
      s.Ingested c r.batch batch ∧ ∀ t ∈ batch,
        ∃ item ∈ s.threads.pipeline.ledger.captured[t.frame]?, item.Recorded t.value := by
  have hi := System.Inv.run hc h hplain
  intro r hr
  obtain ⟨k, batch, text, -, hbatch, hmem, htells⟩ := hi.tells hr
  obtain ⟨raw, packets, -, -, ha⟩ := hi.pipeline
  have hshipped := List.mem_of_getElem? hbatch
  refine ⟨batch, hshipped, ⟨r, hr, rfl, text, hmem, htells⟩, fun t ht => ha.sent t ?_⟩
  exact List.mem_append_left _ (List.mem_flatten.mpr ⟨batch, hshipped, ht⟩)

theorem ingested_sound_syn :
    ∃ s, run (System.step localSettings) (.start none (List.replicate 2048 '\x00')) synAgents =
        some s ∧
      ∀ r ∈ s.exchange.processed, ∃ batch ∈ s.threads.pipeline.ledger.shipped,
        s.Ingested localSettings r.batch batch ∧ ∀ t ∈ batch,
          ∃ item ∈ s.threads.pipeline.ledger.captured[t.frame]?, item.Recorded t.value := by
  obtain ⟨s, hrun, -, -, -, hfair⟩ := run_synAgents
  exact ⟨s, hrun, ingested_sound _ localSettings_plain _ _ _ hrun (hfair.mono fun _ _ h => h.1)⟩

end WireSentinel
