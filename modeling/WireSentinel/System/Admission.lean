import WireSentinel.Client.Credential
import WireSentinel.System.EndToEnd

/-!
# The server lets the client in

Each request the client sends in a run of the whole is one the server reads
at its first blank line, finds the endpoint of, and whose credential it can
make itself from the key and the headers; and `credentials_shared_iff` says
when two of them show the same credential.
-/

namespace WireSentinel

/-- A request that is sent is put together for its endpoint. -/
def Event.Composed (c : Settings) : Event → Prop
  | .sent _ endpoint _ text _ => ∃ signed, WireSentinel.Composed c endpoint text signed
  | _ => True

/-- Whatever UUID `get_UUID` reads from the file, it is plain. -/
def PlainFile (uuidFile : Option CString) : Prop :=
  ∀ file ∈ uuidFile, ∀ heap uuid, getUuid heap file = some uuid → PlainUuid uuid

/-- What a connection is made for: to start up, or for the request at hand. -/
def Thread.Prepared (c : Settings) (t : Thread) : Site → Prop
  | .startup => PlainFile t.uuidFile
  | .sendLoop | .recvLoop => ∃ signed, WireSentinel.Composed c .ingest t.jsonRequest signed

/-- What is sent next, if something is. -/
def Thread.Ready (c : Settings) (t : Thread) : Prop :=
  match t.pc with
  | .getaddrinfo site | .socket site | .connect site | .close site => t.Prepared c site
  | .setsockopt => PlainFile t.uuidFile
  | .authSend => ∃ signed, WireSentinel.Composed c .clientAuth t.buffer signed
  | .registerSend _ => ∃ signed, WireSentinel.Composed c .register t.buffer signed
  | .ingestSend | .ingestResend | .ingestRecv => t.Prepared c .recvLoop
  | .authRecv | .registerRecv _ | .wait | .exited | .crashed => True

/-- All requests that were sent are put together so, and so is the next. -/
structure Thread.Composed (c : Settings) (t : Thread) : Prop where
  sent : ∀ e ∈ t.trace, e.Composed c
  ready : t.Ready c

/-- A batch is one of the parser thread. -/
def Input.Fed (i : Input) : Prop :=
  ∀ pkts, i.answer = .batch pkts → (∀ pkt ∈ pkts, Produced pkt) ∧ pkts.length ≤ 1000

variable {c : Settings} {i : Input} {t t' : Thread} {s s' : System} {e : Event}

-- ---------------------------------------------------------------------------
-- Between the calls
-- ---------------------------------------------------------------------------

theorem Thread.Ready.of_pc (h : t.pc = .wait ∨ t.pc = .exited ∨ t.pc = .crashed ∨ t.pc = .authRecv ∨
    ∃ caller, t.pc = .registerRecv caller) : t.Ready c := by
  unfold Thread.Ready
  rcases h with h | h | h | h | ⟨caller, h⟩ <;> rw [h] <;> trivial

theorem Thread.Ready.site {site : Site} (h : t.Ready c)
    (hpc : t.pc = .getaddrinfo site ∨ t.pc = .socket site ∨ t.pc = .connect site ∨
      t.pc = .close site) : t.Prepared c site := by
  unfold Thread.Ready at h
  rcases hpc with hpc | hpc | hpc | hpc
  all_goals
    rw [hpc] at h
    exact h

theorem Thread.Ready.atHand (h : t.Ready c)
    (hpc : t.pc = .ingestSend ∨ t.pc = .ingestResend ∨ t.pc = .ingestRecv) :
    t.Prepared c .recvLoop := by
  unfold Thread.Ready at h
  rcases hpc with hpc | hpc | hpc
  all_goals
    rw [hpc] at h
    exact h

theorem Thread.Ready.startUp (h : PlainFile t.uuidFile) (i : Input) : (t.startUp c i).Ready c := by
  unfold Thread.startUp
  split
  · exact ⟨_, .register i.now⟩
  · unfold Thread.getUuid
    split
    · contradiction
    · rename_i file hfile
      split
      · exact .of_pc (.inr (.inr (.inl rfl)))
      · rename_i uuid huuid
        exact ⟨_, .clientAuth i.now (h file hfile i.heap uuid huuid)⟩

theorem Thread.Ready.authReceived (c : Settings) (received : Received) (i : Input) (t : Thread) :
    (t.authReceived c received i).Ready c := by
  unfold Thread.authReceived
  dsimp only
  split
  · exact .of_pc (.inr (.inr (.inl rfl)))
  · split
    · rcases Thread.getUuid_pc i.heap .wait (t.answered .clientAuth received _ none) with hpc | hpc
      · exact .of_pc (.inl hpc)
      · exact .of_pc (.inr (.inr (.inl hpc)))
    · exact ⟨_, .register i.now⟩

theorem Thread.Ready.takeBatch (huuid : PlainUuid t.uuidText)
    {pkts : List FullInternetPacket} (hpkts : ∀ pkt ∈ pkts, Produced pkt)
    (hlen : pkts.length ≤ 1000) (now : Tm) : (t.takeBatch c pkts now).Ready c := by
  have hpayload := generateJsonPayload_eq c.services (fun pkt h => (hpkts pkt h).sized) hlen
  unfold Thread.takeBatch
  rw [hpayload]
  exact ⟨_, .ingest now hpkts hlen huuid⟩

theorem Thread.Ready.ingestSent (h : t.Prepared c .recvLoop) {site : Site}
    (hsite : site ≠ .startup) (n : Int) : (t.ingestSent site n).Ready c := by
  unfold Thread.Ready
  by_cases hfail : n = -1
  · rw [show (t.ingestSent site n).pc = .close site from if_pos hfail]
    cases site with
    | startup => exact absurd rfl hsite
    | sendLoop | recvLoop => exact h
  · rw [show (t.ingestSent site n).pc = .ingestRecv from if_neg hfail]
    exact h

-- ---------------------------------------------------------------------------
-- Each step
-- ---------------------------------------------------------------------------

theorem Thread.Composed.start (c : Settings) {uuidFile : Option CString}
    (hfile : PlainFile uuidFile) (recvBuffer : List Char) :
    (Thread.start uuidFile recvBuffer).Composed c :=
  ⟨by simp [Thread.start], hfile⟩

theorem Thread.Composed.later (ha : t.Composed c) (later : List Event)
    (hlater : ∀ e ∈ later, e.Composed c) (htrace : t'.trace = later ++ t.trace)
    (hready : t'.Ready c) : t'.Composed c := by
  refine ⟨?_, hready⟩
  rw [htrace]
  exact List.forall_mem_append.mpr ⟨hlater, ha.sent⟩

theorem Thread.Composed.step (ha : t.Composed c)
    (huuid : ∀ pkts, i.answer = .batch pkts → PlainUuid t.uuidText) (hfed : i.Fed)
    (h : t.step c i = some t') : t'.Composed c := by
  have hready := ha.ready
  cases Thread.step_sound h with
  | @resolved site ok hpc hanswer =>
    refine ha.later [_] (by simp [Event.Composed]) rfl ?_
    rcases Thread.resolved_pc site ok t with hpc' | ⟨-, -, hpc'⟩
    · rw [Thread.Ready, hpc']
      exact hready.site (.inl hpc)
    · exact .of_pc (.inr (.inr (.inl hpc')))
  | opened hpc hanswer =>
    exact ha.later [_] (by simp [Event.Composed]) rfl (hready.site (.inr (.inl hpc)))
  | @connected site hpc hanswer =>
    refine ha.later [_] (by simp [Event.Composed]) rfl ?_
    have hprepared := hready.site (.inr (.inr (.inl hpc)))
    cases site with
    | startup | sendLoop | recvLoop => exact hprepared
  | refused hpc hanswer =>
    exact ha.later [_] (by simp [Event.Composed]) rfl (hready.site (.inr (.inr (.inl hpc))))
  | configured hpc hanswer =>
    rw [Thread.Ready, hpc] at hready
    exact ha.later [_] (by simp [Event.Composed]) (Thread.startUp_trace ..)
      (.startUp (t := t.record (.configured t.socketfd)) hready i)
  | @authSent n hpc hanswer hn =>
    rw [Thread.Ready, hpc] at hready
    refine ha.later [_] (by simpa [Event.Composed] using hready) rfl (.of_pc ?_)
    by_cases hfail : n < 0
    · exact .inr (.inl (if_pos hfail))
    · exact .inr (.inr (.inr (.inl (if_neg hfail))))
  | authReceived hpc hanswer =>
    obtain ⟨htrace, -⟩ := Thread.authReceived_spec c _ i t
    exact ha.later [_, _] (by simp [Event.Composed]) htrace (.authReceived ..)
  | @registerSent caller n hpc hanswer hn =>
    rw [Thread.Ready, hpc] at hready
    refine ha.later [_] (by simpa [Event.Composed] using hready) rfl (.of_pc ?_)
    by_cases hfail : n < 0
    · exact .inr (.inl (if_pos hfail))
    · exact .inr (.inr (.inr (.inr ⟨caller, if_neg hfail⟩)))
  | @registerReceived caller received hpc hanswer =>
    rcases Thread.registerReceived_spec caller received i t with
      ⟨-, pc, rfl | rfl, heq⟩ | ⟨uuid, -, heq⟩
    all_goals rw [heq]
    · exact ha.later [_, _] (by simp [Event.Composed]) rfl (.of_pc (.inr (.inl rfl)))
    · exact ha.later [_, _] (by simp [Event.Composed]) rfl (.of_pc (.inr (.inr (.inl rfl))))
    · cases caller with
      | startup => exact ha.later [_, _] (by simp [Event.Composed]) rfl (.of_pc (.inl rfl))
      | ingest => exact ha.later [_, _, _] (by simp [Event.Composed]) rfl (.of_pc (.inl rfl))
  | @took pkts hpc hanswer hne =>
    obtain ⟨hpkts, hlen⟩ := hfed pkts hanswer
    have hnext : (t.takeBatch c pkts i.now).Ready c := .takeBatch (huuid pkts hanswer) hpkts hlen
      i.now
    rcases Thread.takeBatch_spec c pkts i.now t with heq | ⟨payload, -, heq⟩
    all_goals rw [heq] at hnext ⊢
    · exact ha.later [] (by simp) rfl hnext
    · exact ha.later [_] (by simp [Event.Composed]) rfl hnext
  | ingestSent hpc hanswer hn =>
    have hprepared := hready.atHand (.inl hpc)
    refine ha.later [_] (fun e he => ?_) rfl (.ingestSent hprepared (by simp) _)
    obtain rfl := List.mem_singleton.mp he
    exact hprepared
  | ingestResent hpc hanswer hn =>
    have hprepared := hready.atHand (.inr (.inl hpc))
    refine ha.later [_] (fun e he => ?_) rfl (.ingestSent hprepared (by simp) _)
    obtain rfl := List.mem_singleton.mp he
    exact hprepared
  | @ingestReceived received hpc hanswer =>
    cases received with
    | failed =>
      exact ha.later [_] (by simp [Event.Composed]) rfl (hready.atHand (.inr (.inr hpc)))
    | data chunk =>
      rcases Thread.ingestReceived_spec c chunk i t with ⟨-, heq⟩ | ⟨-, heq⟩ | ⟨-, heq⟩
      all_goals rw [heq]
      · exact ha.later [_, _] (by simp [Event.Composed]) rfl (.of_pc (.inr (.inr (.inl rfl))))
      · exact ha.later [_, _] (by simp [Event.Composed]) rfl ⟨_, .register i.now⟩
      · exact ha.later [_, _, _] (by simp [Event.Composed]) rfl (.of_pc (.inl rfl))
  | closed hpc hanswer =>
    exact ha.later [_] (by simp [Event.Composed]) rfl (hready.site (.inr (.inr (.inr hpc))))

-- ---------------------------------------------------------------------------
-- Runs
-- ---------------------------------------------------------------------------

/-- For the payload thread the whole is a run of its own, with the batches of
the parser. -/
theorem System.Inv.step_thread {agent : Agent} (hi : s.Inv c) (h : s.step c agent = some s') :
    s'.exchange.thread = s.exchange.thread ∨
      ∃ i, i.Fed ∧ (agent = .client i ∨ ∃ pkts, i.answer = .batch pkts) ∧
        (agent.Plain s → ∀ pkts, i.answer = .batch pkts → PlainUuid s.exchange.thread.uuidText) ∧
        s.exchange.thread.step c i = some s'.exchange.thread := by
  have hqueue : ∀ choice, s.queue choice = some s' → s'.exchange.thread = s.exchange.thread := by
    intro choice h
    obtain ⟨threads, -, rfl⟩ := Option.map_eq_some_iff.mp h
    rfl
  have hclient : ∀ i : Input, s.exchange.step c (.client i) = some s'.exchange →
      s.exchange.thread.step c i = some s'.exchange.thread := by
    intro i h
    simp only [Exchange.step] at h
    split at h
    · obtain ⟨t', ht', heq⟩ := Option.map_eq_some_iff.mp h
      rw [← heq]
      exact ht'
    · cases h
  cases agent with
  | capture turn =>
    simp only [System.step] at h
    split at h
    · exact .inl (hqueue _ h)
    · cases h
  | processing turn => exact .inl (hqueue _ h)
  | payload now stack heap =>
    simp only [System.step] at h
    split at h
    · rename_i htake
      obtain ⟨packets, -, hproduced, hlen, -, hexchange⟩ := hi.took h
      refine .inr ⟨_, ?_, .inr ⟨_, rfl⟩, fun hplain _ _ => hplain htake, hclient _ hexchange⟩
      rintro pkts heq
      cases heq
      exact ⟨hproduced, hlen⟩
    · exact .inl (hqueue _ h)
    · split at h
      · exact .inl (hqueue _ h)
      · cases h
  | client i =>
    simp only [System.step] at h
    split at h
    · cases h
    · rename_i hbatch
      obtain ⟨exchange, hexchange, rfl⟩ := Option.map_eq_some_iff.mp h
      exact .inr ⟨i, fun pkts ha => absurd ha (hbatch pkts), .inl rfl,
        fun _ pkts ha => absurd ha (hbatch pkts), hclient i hexchange⟩
    · cases h
  | server request =>
    left
    obtain ⟨exchange, hexchange, rfl⟩ := Option.map_eq_some_iff.mp h
    simp only [Exchange.step] at hexchange
    split at hexchange <;> cases hexchange
    rfl
  | spurious role => exact .inl (hqueue _ h)

theorem System.run_composed (hc : c.Plain) (hfile : PlainFile uuidFile)
    {recvBuffer : List Char} {agents : List Agent}
    (h : run (System.step c) (.start uuidFile recvBuffer) agents = some s)
    (hplain : Along (System.step c) (fun s agent => agent.Plain s) (.start uuidFile recvBuffer)
      agents) : s.exchange.thread.Composed c := by
  have hstep : ∀ s agent s', System.step c s agent = some s' → agent.Plain s →
      s.Inv c ∧ s.exchange.thread.Composed c → s'.Inv c ∧ s'.exchange.thread.Composed c := by
    rintro s agent s' hstep hplain ⟨hi, ha⟩
    refine ⟨hi.step hc hstep hplain, ?_⟩
    rcases hi.step_thread hstep with heq | ⟨i, hfed, -, huuid, hthread⟩
    · rw [heq]
      exact ha
    · exact ha.step (huuid hplain) hfed hthread
  exact (run_inv hstep ⟨.start c uuidFile recvBuffer, .start c hfile recvBuffer⟩ hplain h).2

/-- Some run of the client hands this text to the kernel, for this endpoint. -/
def Settings.Sends (c : Settings) (endpoint : Endpoint) (text : CString) : Prop :=
  ∃ uuidFile recvBuffer agents s fd number result, PlainFile uuidFile ∧
    run (System.step c) (.start uuidFile recvBuffer) agents = some s ∧
    Along (System.step c) (fun s agent => agent.Plain s) (.start uuidFile recvBuffer) agents ∧
    .sent fd endpoint number text result ∈ s.exchange.thread.trace

theorem Settings.Sends.composed (hc : c.Plain) (h : c.Sends endpoint text) :
    ∃ signed, Composed c endpoint text signed := by
  obtain ⟨uuidFile, recvBuffer, agents, s, fd, number, result, hfile, hrun, hplain, hsent⟩ := h
  exact (System.run_composed hc hfile hrun hplain).sent _ hsent

/-- In every interleaving of everything, each request that is sent is one the
server lets in, at the endpoint it is for: to register, to be recognised, and
to hand a batch over, the first time and again.

Premises: the address and the port are as `create_security_file` accepts them,
and the UUID from the file and the one a batch is sent with are one line that
fits the header. -/
theorem requests_admitted (hc : c.Plain) {uuidFile : Option CString} (hfile : PlainFile uuidFile)
    {recvBuffer : List Char} {agents : List Agent}
    (h : run (System.step c) (.start uuidFile recvBuffer) agents = some s)
    (hplain : Along (System.step c) (fun s agent => agent.Plain s) (.start uuidFile recvBuffer)
      agents) (hsent : .sent fd endpoint number text result ∈ s.exchange.thread.trace) :
    ∃ signed, admits c.hmac c.key text = some (endpoint, signed) := by
  obtain ⟨signed, hcomposed⟩ := (System.run_composed hc hfile h hplain).sent _ hsent
  exact ⟨signed, hcomposed.admits hc⟩

/-- A registration, and an ingest request. -/
theorem requests_admitted_syn :
    (∃ signed, admits localSettings.hmac localSettings.key (localSettings.registerRequest noon) =
        some (.register, signed)) ∧
      ∃ signed, admits localSettings.hmac localSettings.key localRequest =
        some (.ingest, signed) := by
  obtain ⟨s, hrun, -, ⟨n, hregister⟩, ⟨n', hingest⟩, hfair⟩ := run_synAgents
  have hplain := hfair.mono fun _ _ h => h.1
  exact ⟨requests_admitted localSettings_plain (by simp [PlainFile]) hrun hplain hregister,
    requests_admitted localSettings_plain (by simp [PlainFile]) hrun hplain hingest⟩

/-- Two requests that clients with the same configuration send show the same
credential exactly if both are greetings, to register or to be recognised,
with the same time, or both ingest requests with the same time and the same
length; or if the HMAC of two texts that differ is the same. -/
theorem credentials_shared_iff (hc : c.Plain) (h : c.Sends endpoint text)
    (h' : c.Sends endpoint' text') :
    ∃ a b, Composed c endpoint text a ∧ Composed c endpoint' text' b ∧
      (presented text = presented text' ↔
        a = b ∨ a.text ≠ b.text ∧ c.hmac c.key a.text = c.hmac c.key b.text) := by
  obtain ⟨a, ha⟩ := h.composed hc
  obtain ⟨b, hb⟩ := h'.composed hc
  exact ⟨a, b, ha, hb, credential_binds (ha.admits hc) (hb.admits hc)⟩

/-- A registration, and an ingest request. -/
theorem credentials_shared_iff_syn :
    ∃ a b, Composed localSettings .register (localSettings.registerRequest noon) a ∧
      Composed localSettings .ingest localRequest b ∧
      (presented (localSettings.registerRequest noon) = presented localRequest ↔
        a = b ∨ a.text ≠ b.text ∧ localSettings.hmac localSettings.key a.text =
          localSettings.hmac localSettings.key b.text) := by
  obtain ⟨s, hrun, -, ⟨n, hregister⟩, ⟨n', hingest⟩, hfair⟩ := run_synAgents
  have hplain := hfair.mono fun _ _ h => h.1
  exact credentials_shared_iff localSettings_plain
    ⟨_, _, _, s, _, _, _, by simp [PlainFile], hrun, hplain, hregister⟩
    ⟨_, _, _, s, _, _, _, by simp [PlainFile], hrun, hplain, hingest⟩

end WireSentinel
