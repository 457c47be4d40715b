import WireSentinel.Client.Recovery
import WireSentinel.System.Lives

/-!
# What ends the client

`exit` and the invalid accesses of the payload thread, each with the event
that is its cause. Nothing else ends it, in any process: no failure of a
connection, nor of a `send` or a `recv` of a batch.
-/

namespace WireSentinel

open Text (cString)

/-- The server's address cannot be found as the client starts, a `send` of one
of the first requests fails, a registration gives no UUID, or there is no code
in a response. -/
def Event.Fatal : Event → Prop
  | .resolved site ok => site = .startup ∧ ok = false
  | .sent _ endpoint _ _ result => endpoint ≠ .ingest ∧ result < 0
  | .extracted endpoint _ code uuid => if endpoint = .register then uuid = none else code = none
  | _ => False

/-- The thread is ended exactly if the last event is fatal. -/
def Thread.EndsRightly (t : Thread) : Prop := t.pc.Ended ↔ ∃ e ∈ t.trace.head?, e.Fatal

variable {c : Settings} {i : Input} {t t' : Thread} {before : Option CString}

namespace Thread

theorem EndsRightly.goes {e : Event} {past : List Event} (htrace : t.trace = e :: past)
    (hpc : ¬ t.pc.Ended) (he : ¬ e.Fatal) : t.EndsRightly := by
  refine iff_of_false hpc ?_
  rintro ⟨e', he', hfatal⟩
  rw [htrace] at he'
  exact he (Option.some.inj he' ▸ hfatal)

theorem EndsRightly.ends {e : Event} {past : List Event} (htrace : t.trace = e :: past)
    (hpc : t.pc.Ended) (he : e.Fatal) : t.EndsRightly := by
  refine iff_of_true hpc ⟨e, ?_, he⟩
  rw [htrace]
  rfl

theorem EndsRightly.sent {endpoint : Endpoint} {text : CString} {n : Int} {pc : Pc}
    (hendpoint : endpoint ≠ .ingest) (hpc : ¬ pc.Ended) :
    ((t.hand endpoint text n).goto (if n < 0 then .exited else pc)).EndsRightly := by
  by_cases hfail : n < 0
  · rw [if_pos hfail]
    exact .ends rfl trivial ⟨hendpoint, hfail⟩
  · rw [if_neg hfail]
    exact .goes rfl hpc fun h => hfail h.2

theorem EndsRightly.startUp (hk : t.Known before) (i : Input) {e : Event} {past : List Event}
    (htrace : t.trace = e :: past) (he : ¬ e.Fatal) : (t.startUp c i).EndsRightly := by
  refine .goes ((Thread.startUp_trace c i t).trans htrace) ?_ he
  unfold Thread.startUp
  split
  · exact not_false
  · rw [hk.getUuid]
    exact not_false

theorem EndsRightly.authReceived (hk : t.Known before) (received : Received) (i : Input) :
    (t.authReceived c received i).EndsRightly := by
  have hanswered : ∀ code, (t.answered .clientAuth received code none).Known before := fun _ =>
    hk.later [_, _] (by simp [Event.given, Event.Claims]) rfl rfl hk.held hk.presents
  unfold Thread.authReceived
  cases extractStatusCode (responseText received i.stack) with
  | none => exact .ends rfl trivial rfl
  | some code =>
    dsimp only
    split
    · rw [(hanswered _).getUuid]
      exact .goes rfl not_false (by simp [Event.Fatal])
    · exact .goes rfl not_false (by simp [Event.Fatal])

theorem EndsRightly.registerReceived (caller : Caller) (received : Received) (i : Input) :
    (t.registerReceived caller received i).EndsRightly := by
  rcases Thread.registerReceived_spec caller received i t with
    ⟨hnone, pc, hpc, heq⟩ | ⟨uuid, huuid, heq⟩
  · rw [heq, hnone]
    refine .ends rfl ?_ rfl
    rcases hpc with rfl | rfl <;> trivial
  · rw [heq, huuid]
    cases caller with
    | startup => exact .goes rfl not_false (by simp [Event.Fatal])
    | ingest => exact .goes rfl not_false (by simp [Event.Fatal])

theorem EndsRightly.takeBatch {pkts : List FullInternetPacket}
    (hpkts : ∀ pkt ∈ pkts, Produced pkt) (hlen : pkts.length ≤ 1000) (now : Tm) :
    (t.takeBatch c pkts now).EndsRightly := by
  unfold Thread.takeBatch
  rw [generateJsonPayload_eq c.services (fun pkt h => (hpkts pkt h).sized) hlen]
  exact .goes rfl not_false not_false

theorem EndsRightly.ingestSent (site : Site) (n : Int) : (t.ingestSent site n).EndsRightly := by
  refine .goes rfl ?_ (by simp [Event.Fatal])
  simp only [Thread.ingestSent]
  split <;> exact not_false

theorem EndsRightly.ingestReceived (received : Received) (i : Input) :
    (t.ingestReceived c received i).EndsRightly := by
  cases received with
  | failed => exact .goes rfl not_false not_false
  | data chunk =>
    unfold Thread.ingestReceived
    dsimp only
    cases extractStatusCode (cString ((t.fill chunk).recvBuffer ++ i.stack)) with
    | none => exact .ends rfl trivial rfl
    | some code =>
      dsimp only
      split
      · exact .goes rfl not_false (by simp [Event.Fatal])
      · exact .goes rfl not_false not_false

/-- A thread that has taken a step is ended exactly if that was fatal. -/
theorem EndsRightly.step (hk : t.Known before) (hfed : i.Fed) (h : t.step c i = some t') :
    t'.EndsRightly := by
  cases Thread.step_sound h with
  | @resolved site ok =>
    by_cases hlost : site = .startup ∧ ok = false
    · have hpc : (t.resolved site ok).pc = .crashed := if_pos hlost
      exact .ends rfl (hpc ▸ trivial) hlost
    · have hpc : (t.resolved site ok).pc = .socket site := if_neg hlost
      exact .goes rfl (hpc ▸ not_false) hlost
  | opened => exact .goes rfl not_false not_false
  | @connected site =>
    refine .goes rfl ?_ not_false
    cases site <;> exact not_false
  | refused => exact .goes rfl not_false not_false
  | configured hpc ha =>
    have hconfigured : (t.record (.configured t.socketfd)).Known before :=
      hk.later [_] (by simp [Event.given, Event.Claims]) rfl rfl hk.held hk.presents
    exact .startUp hconfigured i rfl not_false
  | authSent => exact .sent (by simp) not_false
  | authReceived => exact .authReceived hk _ i
  | registerSent => exact .sent (by simp) not_false
  | registerReceived => exact .registerReceived _ _ i
  | took hpc ha =>
    obtain ⟨hpkts, hlen⟩ := hfed _ ha
    exact .takeBatch hpkts hlen i.now
  | ingestSent => exact .ingestSent _ _
  | ingestResent => exact .ingestSent _ _
  | ingestReceived => exact .ingestReceived _ i
  | closed => exact .goes rfl not_false not_false

end Thread

/-- However often the client has been started and killed, its payload thread
ends exactly by a fatal event: an address that cannot be found, a `send` of
one of the first requests that fails, a registration that gives no UUID, or a
response without a code.

Premises: those of `lives_identified`. -/
theorem lives_ended_iff {hmac : CString → CString → Digest} {services : Services}
    (hservices : services.Unescaped) {lives : List Life} {d : Disk}
    (h : run (Disk.live hmac services) {} lives = some d)
    (hlives : Along (Disk.live hmac services) (Life.Sensible hmac services) {} lives) {life : Life}
    (hlife : life.Sensible hmac services d) {console : Console} {s : System}
    (hboot : d.boot life = .ok console)
    (hsettings : console.file.bind (Settings.read hmac services) = some c)
    (hrun : run (System.step c) (.start d.uuidFile life.recvBuffer) life.agents = some s) :
    s.exchange.thread.pc.Ended ↔ ∃ e ∈ s.exchange.thread.trace.head?, e.Fatal := by
  have hd := Disk.sound_of_run hservices h hlives
  have hc := hd.plain hservices hlife hboot hsettings
  have hgrants := hlife.grants console c hboot hsettings
  rw [hd.uuidFile] at hrun hgrants
  have hstep : ∀ s agent s', System.step c s agent = some s' → agent.Grants s →
      (s.Inv c ∧ s.exchange.thread.Known d.granted) ∧ s.exchange.thread.EndsRightly →
      (s'.Inv c ∧ s'.exchange.thread.Known d.granted) ∧ s'.exchange.thread.EndsRightly := by
    rintro s agent s' hstep hgrants ⟨⟨hi, hk⟩, hends⟩
    obtain ⟨hkept, hthread⟩ := System.step_known hc hgrants hstep hi hk
    refine ⟨hkept, ?_⟩
    rcases hthread with heq | ⟨i, hfed, hthread⟩
    · exact heq ▸ hends
    · exact .step hk hfed hthread
  have hstart : (Thread.start (d.granted.map setUuid) life.recvBuffer).EndsRightly :=
    iff_of_false not_false (by simp [Thread.start])
  exact (run_inv hstep ⟨⟨.start .., .start hd.stored⟩, hstart⟩ hgrants hrun).2

/-- Only the first `getaddrinfo` ends the client. -/
example : ((Thread.start none []).step localSettings ⟨.getaddrinfo false, noon, [], []⟩).map
    Thread.pc = some .crashed := rfl

/-- The registration cannot be sent. -/
def unsentLife : Life :=
  { firstLife with agents := [
      .client ⟨.getaddrinfo true, noon, [], []⟩, .client ⟨.socket 3, noon, [], []⟩,
      .client ⟨.connect true, noon, [], []⟩, .client ⟨.setsockopt, noon, [], []⟩,
      .client ⟨.send (-1), noon, [], []⟩] }

theorem lives_ended_iff_unsent :
    ∃ s, run (System.step localSettings) (.start none unsentLife.recvBuffer) unsentLife.agents =
        some s ∧
      (s.exchange.thread.pc.Ended ↔ ∃ e ∈ s.exchange.thread.trace.head?, e.Fatal) := by
  have hrun : (run (System.step localSettings) (.start none unsentLife.recvBuffer)
      unsentLife.agents).isSome := by
    decide +kernel
  obtain ⟨s, hs⟩ := Option.isSome_iff_exists.mp hrun
  obtain ⟨console, hboot, hfile⟩ := boot_firstLife
  have hsettings : console.file.bind (Settings.read localSettings.hmac localSettings.services) =
      some localSettings := by
    rw [hfile, Option.bind_some, read_localConfiguration]
  have hsensible : unsentLife.Sensible localSettings.hmac localSettings.services {} :=
    sensible_local hboot hfile (by decide) (by decide +kernel)
  have hlives : run (Disk.live localSettings.hmac localSettings.services) {} [] = some {} := rfl
  exact ⟨s, hs, lives_ended_iff localSettings_plain.services hlives trivial hsensible hboot
    hsettings hs⟩

end WireSentinel
