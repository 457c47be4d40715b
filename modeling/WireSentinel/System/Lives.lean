import WireSentinel.Config.Prompts
import WireSentinel.System.Admission

/-!
# One process after another

The client is killed and started again; the configuration and the UUID are
all that a process leaves to the next, each in its file. `lives_identified`
says that every request of every process is let in, and carries the UUID that
was extracted last, whichever process it was that registered.
-/

namespace WireSentinel

open Text (lit cString breakAt)

/-- What is on disk between two processes. `granted` is the last UUID that a
process has extracted from a registration, not one still on its way when it was
killed; no function looks at it. -/
structure Disk where
  security : Option CString := none
  uuidFile : Option CString := none
  granted : Option CString := none

/-- A process: what is typed and what is on the stack as it starts, how many
rounds of the prompts it has time for, and what happens until it is killed. -/
structure Life where
  console : Console
  rounds : Nat
  recvBuffer : List Char
  agents : List Agent

/-- The UUID the client takes from a registration. -/
def Event.given : Event → Option CString
  | .extracted .register _ _ uuid => uuid
  | _ => none

/-- The last UUID given, or the one from the processes before. -/
def latest (before : Option CString) (trace : List Event) : Option CString :=
  (trace.findSome? Event.given).or before

namespace Disk

/-- `main` up to its threads. -/
def boot (life : Life) (d : Disk) : Except Halt Console :=
  fileGreeter life.rounds { life.console with file := d.security }

/-- What a process leaves, also one that does not get as far as its threads.
A file is written as a whole or not at all: a process that is killed while it
writes one is not among these. -/
def live (hmac : CString → CString → Digest) (services : Services) (d : Disk) (life : Life) :
    Option Disk :=
  match d.boot life with
  | .error _ => some d
  | .ok console =>
    match console.file.bind (Settings.read hmac services) with
    | none => some { d with security := console.file }
    | some c =>
      (run (System.step c) (.start d.uuidFile life.recvBuffer) life.agents).map fun s =>
        { security := console.file
          uuidFile := s.exchange.thread.uuidFile
          granted := latest d.granted s.exchange.thread.trace }

/-- A file that was only opened to be written, as `fopen` leaves it, is read
behind its end. -/
example : fileGreeter 1 ⟨some [], ['\n'], [], [], []⟩ = .error .crashed := rfl

end Disk

-- ---------------------------------------------------------------------------
-- Assumptions
-- ---------------------------------------------------------------------------

/-- A line that the file and the header can hold. -/
def Storable (uuid : CString) : Prop := '\n' ∉ uuid ∧ uuid.length ≤ 1657

instance : DecidablePred Storable := fun _ => inferInstanceAs (Decidable (_ ∧ _))

/-- The UUID the next `recv` gives the client, if it does. -/
def Thread.offered (t : Thread) (i : Input) : Option CString :=
  match t.pc, i.answer with
  | .registerRecv _, .recv received => registeredUuid (responseText received i.stack)
  | _, _ => none

def Agent.Grants (s : System) : Agent → Prop
  | .client i => ∀ uuid ∈ s.exchange.thread.offered i, Storable uuid
  | _ => True

instance (s : System) : DecidablePred (Agent.Grants s)
  | .client _ => inferInstanceAs (Decidable (∀ uuid ∈ _, Storable uuid))
  | .capture _ | .processing _ | .payload .. | .server _ | .spurious _ => isTrue trivial

/-- The arrays on the stack hold strings, and what the server grants can be
stored. -/
structure Life.Sensible (hmac : CString → CString → Digest) (services : Services) (d : Disk)
    (life : Life) : Prop where
  strings : life.console.Strings
  grants : ∀ console c, d.boot life = .ok console →
    console.file.bind (Settings.read hmac services) = some c →
    Along (System.step c) Agent.Grants (.start d.uuidFile life.recvBuffer) life.agents

-- ---------------------------------------------------------------------------
-- The UUID in one process
-- ---------------------------------------------------------------------------

/-- The UUID that goes with a request. -/
def Endpoint.identity (uuid : Option CString) : Endpoint → Option CString
  | .register => none
  | .clientAuth | .ingest => uuid

def Event.Claims (uuid : Option CString) : Event → Prop
  | .sent _ endpoint _ text _ => claimed text = endpoint.identity uuid
  | _ => True

/-- Each request carries the UUID that was given last before it. -/
def Claimed (before : Option CString) (trace : List Event) : Prop :=
  ∀ e past, e :: past <:+ trace → e.Claims (latest before past)

/-- The request for the batch at hand carries this UUID, and the pointer holds
one. -/
def Thread.Under (uuid : Option CString) (t : Thread) : Prop :=
  t.uuid ≠ none ∧ WireSentinel.claimed t.jsonRequest = uuid

/-- What is sent next, if something is, carries this UUID. -/
def Thread.Presents (uuid : Option CString) (t : Thread) : Prop :=
  match t.pc with
  | .authSend => uuid ≠ none ∧ claimed t.buffer = uuid
  | .authRecv => uuid ≠ none
  | .registerSend _ => claimed t.buffer = none
  | .wait => t.uuid ≠ none
  | .ingestSend | .ingestResend | .ingestRecv => t.Under uuid
  | .getaddrinfo site | .socket site | .connect site | .close site =>
    site ≠ .startup → t.Under uuid
  | .setsockopt | .registerRecv _ | .exited | .crashed => True

/-- The file holds the UUID given last, and so does the pointer unless it is
`NULL`. -/
structure Thread.Known (before : Option CString) (t : Thread) : Prop where
  file : t.uuidFile = (latest before t.trace).map setUuid
  held : ∀ uuid ∈ t.uuid, latest before t.trace = some uuid
  stored : ∀ uuid ∈ latest before t.trace, '\x00' ∉ uuid ∧ Storable uuid
  presents : t.Presents (latest before t.trace)
  claimed : Claimed before t.trace

variable {before uuid : Option CString} {trace events past : List Event} {t t' : Thread} {i : Input}
  {c : Settings} {e : Event}

theorem latest_append (h : ∀ e ∈ events, e.given = none) :
    latest before (events ++ past) = latest before past := by
  rw [latest, List.findSome?_append, List.findSome?_eq_none_iff.mpr h, Option.none_or, latest]

theorem Claimed.cons (he : e.Claims (latest before past)) (h : Claimed before past) :
    Claimed before (e :: past) := by
  intro e' past' hsuffix
  rcases List.suffix_cons_iff.mp hsuffix with heq | hsuffix
  · obtain ⟨rfl, rfl⟩ := List.cons.inj heq
    exact he
  · exact h e' past' hsuffix

theorem Claimed.append (h : Claimed before past)
    (hevents : ∀ e ∈ events, e.given = none ∧ e.Claims (latest before past)) :
    Claimed before (events ++ past) := by
  induction events with
  | nil => exact h
  | cons e events ih =>
    obtain ⟨⟨-, he⟩, hevents⟩ := List.forall_mem_cons.mp hevents
    have hlatest : latest before (events ++ past) = latest before past :=
      latest_append fun e he => (hevents e he).1
    exact .cons (hlatest ▸ he) (ih hevents)

theorem Storable.plain {uuid : CString} (h : Storable uuid) : PlainUuid uuid :=
  ⟨Text.oneLine_of_not_mem h.1, h.2⟩

/-- A string has no character 0. -/
theorem nul_not_mem_registeredUuid {response : List Char}
    (h : registeredUuid (cString response) = some uuid') : '\x00' ∉ uuid' := by
  intro hmem
  unfold registeredUuid at h
  split at h
  · obtain ⟨⟨head, body⟩, hbreak, rfl⟩ := Option.map_eq_some_iff.mp h
    have hin : '\x00' ∈ cString response :=
      Text.breakAt_sound hbreak ▸ List.mem_append_right _ hmem
    exact Text.not_mem_cString _ hin
  · cases h

theorem Thread.Presents.of_pc
    (h : t.pc = .exited ∨ t.pc = .crashed ∨ ∃ caller, t.pc = .registerRecv caller) :
    t.Presents uuid := by
  unfold Thread.Presents
  rcases h with h | h | ⟨caller, h⟩ <;> rw [h] <;> trivial

theorem Thread.Presents.site {site : Site} (h : t.Presents uuid)
    (hpc : t.pc = .getaddrinfo site ∨ t.pc = .socket site ∨ t.pc = .connect site ∨
      t.pc = .close site) (hsite : site ≠ .startup) : t.Under uuid := by
  unfold Thread.Presents at h
  rcases hpc with hpc | hpc | hpc | hpc
  all_goals
    rw [hpc] at h
    exact h hsite

theorem Thread.Presents.ingestSent (h : t.Under uuid) (site : Site) (n : Int) :
    (t.ingestSent site n).Presents uuid := by
  unfold Thread.Presents
  by_cases hfail : n = -1
  · rw [show (t.ingestSent site n).pc = .close site from if_pos hfail]
    exact fun _ => h
  · rw [show (t.ingestSent site n).pc = .ingestRecv from if_neg hfail]
    exact h

namespace Thread.Known

theorem start {recvBuffer : List Char}
    (hstored : ∀ uuid ∈ before, '\x00' ∉ uuid ∧ Storable uuid) :
    (Thread.start (before.map setUuid) recvBuffer).Known before :=
  ⟨rfl, by simp [Thread.start], hstored, fun h => absurd rfl h, by simp [Claimed, Thread.start]⟩

/-- Nothing is given, and what is sent carries the UUID given last. -/
theorem later (hk : t.Known before) (events : List Event)
    (hevents : ∀ e ∈ events, e.given = none ∧ e.Claims (latest before t.trace))
    (htrace : t'.trace = events ++ t.trace) (hfile : t'.uuidFile = t.uuidFile)
    (hheld : ∀ uuid ∈ t'.uuid, latest before t.trace = some uuid)
    (hpresents : t'.Presents (latest before t.trace)) : t'.Known before := by
  have hlatest : latest before t'.trace = latest before t.trace :=
    htrace ▸ latest_append fun e he => (hevents e he).1
  refine ⟨?_, ?_, ?_, ?_, ?_⟩
  · rw [hfile, hlatest]
    exact hk.file
  · rw [hlatest]
    exact hheld
  · rw [hlatest]
    exact hk.stored
  · rw [hlatest]
    exact hpresents
  · rw [htrace]
    exact hk.claimed.append hevents

theorem sent (hk : t.Known before) {endpoint : Endpoint} {text : CString} {result : Int}
    (hclaimed : WireSentinel.claimed text = endpoint.identity (latest before t.trace))
    (htrace : t'.trace = .sent t.socketfd endpoint (t.requests + 1) text result :: t.trace)
    (hfile : t'.uuidFile = t.uuidFile) (huuid : t'.uuid = t.uuid)
    (hpresents : t'.Presents (latest before t.trace)) : t'.Known before := by
  refine hk.later [_] ?_ htrace hfile (huuid ▸ hk.held) hpresents
  exact List.forall_mem_singleton.mpr ⟨rfl, hclaimed⟩

/-- `%s` of the pointer fits the requests. -/
theorem plain (hk : t.Known before) : PlainUuid t.uuidText := by
  unfold Thread.uuidText
  cases huuid : t.uuid with
  | none =>
    simp only [Option.getD_none, Text.lit_eq, String.reduceToList]
    decide
  | some uuid => exact (hk.stored uuid (hk.held uuid huuid)).2.plain

/-- `get_UUID` finds what was given last. -/
theorem getUuid (hk : t.Known before) (heap : List Char) (next : Pc) :
    t.getUuid heap next = { t with uuid := latest before t.trace, pc := next } := by
  have hfile := hk.file
  unfold Thread.getUuid
  cases hlatest : latest before t.trace with
  | none =>
    rw [hlatest] at hfile
    rw [hfile]
    rfl
  | some uuid =>
    obtain ⟨hnul, hnl, hlen⟩ := hk.stored uuid hlatest
    have hread : WireSentinel.getUuid heap (setUuid uuid) = some uuid :=
      (getUuid_setUuid_iff hnul heap).mpr ⟨hnl, hlen.trans (by decide)⟩
    rw [hlatest] at hfile
    rw [hfile]
    simp only [Option.map_some, hread]

theorem startUp (hc : c.Plain) (hk : t.Known before) (i : Input) :
    (t.startUp c i).Known before := by
  have hlatest : latest before t.trace = none ↔ t.uuidFile = none := by
    rw [hk.file, Option.map_eq_none_iff]
  unfold Thread.startUp
  split
  · exact hk.later [] (by simp) rfl rfl hk.held (claimed_registerRequest hc i.now)
  · rename_i hne
    rw [hk.getUuid]
    obtain ⟨uuid, huuid⟩ := Option.ne_none_iff_exists'.mp (mt hlatest.mp hne)
    refine hk.later [] (by simp) rfl rfl (fun u hu => hu) ?_
    refine ⟨mt hlatest.mp hne, ?_⟩
    simp only [Thread.uuidText, huuid, Option.getD_some]
    exact claimed_clientAuthRequest hc i.now (hk.stored uuid huuid).2.plain

theorem authReceived (hc : c.Plain) (hk : t.Known before) (hne : latest before t.trace ≠ none)
    (received : Received) (i : Input) : (t.authReceived c received i).Known before := by
  have hanswered : ∀ code, (t.answered .clientAuth received code none).Known before := fun _ =>
    hk.later [_, _] (by simp [Event.given, Event.Claims]) rfl rfl hk.held hk.presents
  unfold Thread.authReceived
  dsimp only
  split
  · exact hk.later [_, _] (by simp [Event.given, Event.Claims]) rfl rfl hk.held
      (.of_pc (.inr (.inl rfl)))
  · split
    · rw [(hanswered _).getUuid]
      exact (hanswered _).later [] (by simp) rfl rfl (fun _ hu => hu) hne
    · exact hk.later [_, _] (by simp [Event.given, Event.Claims]) rfl rfl hk.held
        (claimed_registerRequest hc i.now)

/-- A registration that is granted is in the file and in memory at once. -/
theorem registerReceived (hk : t.Known before) (caller : Caller) (received : Received) (i : Input)
    (hgrants : ∀ uuid ∈ registeredUuid (responseText received i.stack), Storable uuid) :
    (t.registerReceived caller received i).Known before := by
  rcases Thread.registerReceived_spec caller received i t with
    ⟨hnone, pc, hpc, heq⟩ | ⟨uuid, huuid, heq⟩
  · rw [heq, hnone]
    refine hk.later [_, _] (by simp [Event.given, Event.Claims]) rfl rfl hk.held (.of_pc ?_)
    rcases hpc with rfl | rfl
    · exact .inl rfl
    · exact .inr (.inl rfl)
  · rw [heq, huuid]
    have hnul : '\x00' ∉ uuid := nul_not_mem_registeredUuid huuid
    have hclaimed : Claimed before (t.answered .register received
        (extractStatusCode (responseText received i.stack)) (some uuid)).trace :=
      .cons trivial (.cons trivial hk.claimed)
    have hstored : ∀ u ∈ some uuid, '\x00' ∉ u ∧ Storable u := by
      rintro _ ⟨⟩
      exact ⟨hnul, hgrants uuid huuid⟩
    cases caller with
    | startup => exact ⟨rfl, fun _ hu => hu, hstored, Option.some_ne_none _, hclaimed⟩
    | ingest => exact ⟨rfl, fun _ hu => hu, hstored, Option.some_ne_none _, .cons trivial hclaimed⟩

theorem takeBatch (hc : c.Plain) (hk : t.Known before) (hne : t.uuid ≠ none)
    {pkts : List FullInternetPacket} (hpkts : ∀ pkt ∈ pkts, Produced pkt)
    (hlen : pkts.length ≤ 1000) (now : Tm) : (t.takeBatch c pkts now).Known before := by
  obtain ⟨uuid, huuid⟩ := Option.ne_none_iff_exists'.mp hne
  have hlatest := hk.held uuid huuid
  have hpayload := generateJsonPayload_eq c.services (fun pkt h => (hpkts pkt h).sized) hlen
  have hrequest := claimed_generateRequest hc hpkts hlen hk.plain now
  unfold Thread.takeBatch
  rw [hpayload]
  refine hk.later [_] (by simp [Event.given, Event.Claims]) rfl rfl hk.held ⟨hne, ?_⟩
  rw [hlatest]
  rw [show t.uuidText = uuid by rw [Thread.uuidText, huuid, Option.getD_some]] at hrequest ⊢
  exact hrequest

theorem step (hc : c.Plain) (hk : t.Known before) (hfed : i.Fed)
    (hgrants : ∀ uuid ∈ t.offered i, Storable uuid) (h : t.step c i = some t') :
    t'.Known before := by
  have hpresents := hk.presents
  cases Thread.step_sound h with
  | @resolved site ok hpc hanswer =>
    refine hk.later [_] (by simp [Event.given, Event.Claims]) rfl rfl hk.held ?_
    rcases Thread.resolved_pc site ok t with hpc' | ⟨-, -, hpc'⟩
    · rw [Thread.Presents, hpc']
      exact fun hsite => hpresents.site (.inl hpc) hsite
    · exact .of_pc (.inr (.inl hpc'))
  | opened hpc hanswer =>
    exact hk.later [_] (by simp [Event.given, Event.Claims]) rfl rfl hk.held fun hsite =>
      hpresents.site (.inr (.inl hpc)) hsite
  | @connected site hpc hanswer =>
    refine hk.later [_] (by simp [Event.given, Event.Claims]) rfl rfl hk.held ?_
    cases site with
    | startup => trivial
    | sendLoop | recvLoop => exact hpresents.site (.inr (.inr (.inl hpc))) (by simp)
  | refused hpc hanswer =>
    exact hk.later [_] (by simp [Event.given, Event.Claims]) rfl rfl hk.held fun hsite =>
      hpresents.site (.inr (.inr (.inl hpc))) hsite
  | configured hpc hanswer =>
    have hconfigured : (t.record (.configured t.socketfd)).Known before :=
      hk.later [_] (by simp [Event.given, Event.Claims]) rfl rfl hk.held hpresents
    exact hconfigured.startUp hc i
  | @authSent n hpc hanswer hn =>
    rw [Thread.Presents, hpc] at hpresents
    obtain ⟨hne, hclaimed⟩ := hpresents
    refine hk.sent hclaimed rfl rfl rfl ?_
    by_cases hfail : n < 0
    · exact .of_pc (.inl (if_pos hfail))
    · rw [Thread.Presents, show Thread.pc _ = Pc.authRecv from if_neg hfail]
      exact hne
  | authReceived hpc hanswer =>
    rw [Thread.Presents, hpc] at hpresents
    exact hk.authReceived hc hpresents _ i
  | @registerSent caller n hpc hanswer hn =>
    rw [Thread.Presents, hpc] at hpresents
    refine hk.sent hpresents rfl rfl rfl (.of_pc ?_)
    by_cases hfail : n < 0
    · exact .inl (if_pos hfail)
    · exact .inr (.inr ⟨caller, if_neg hfail⟩)
  | registerReceived hpc hanswer =>
    rw [Thread.offered, hpc, hanswer] at hgrants
    exact hk.registerReceived _ _ i hgrants
  | @took pkts hpc hanswer hne =>
    rw [Thread.Presents, hpc] at hpresents
    obtain ⟨hpkts, hlen⟩ := hfed pkts hanswer
    exact hk.takeBatch hc hpresents hpkts hlen i.now
  | ingestSent hpc hanswer hn =>
    rw [Thread.Presents, hpc] at hpresents
    exact hk.sent hpresents.2 rfl rfl rfl (.ingestSent hpresents _ _)
  | ingestResent hpc hanswer hn =>
    rw [Thread.Presents, hpc] at hpresents
    exact hk.sent hpresents.2 rfl rfl rfl (.ingestSent hpresents _ _)
  | @ingestReceived received hpc hanswer =>
    rw [Thread.Presents, hpc] at hpresents
    cases received with
    | failed =>
      exact hk.later [_] (by simp [Event.given, Event.Claims]) rfl rfl hk.held fun _ => hpresents
    | data chunk =>
      rcases Thread.ingestReceived_spec c chunk i t with ⟨-, heq⟩ | ⟨-, heq⟩ | ⟨-, heq⟩
      all_goals rw [heq]
      · exact hk.later [_, _] (by simp [Event.given, Event.Claims]) rfl rfl hk.held
          (.of_pc (.inr (.inl rfl)))
      · exact hk.later [_, _] (by simp [Event.given, Event.Claims]) rfl rfl hk.held
          (claimed_registerRequest hc i.now)
      · exact hk.later [_, _, _] (by simp [Event.given, Event.Claims]) rfl rfl hk.held hpresents.1
  | closed hpc hanswer =>
    exact hk.later [_] (by simp [Event.given, Event.Claims]) rfl rfl hk.held fun hsite =>
      hpresents.site (.inr (.inr (.inr hpc))) hsite

end Thread.Known

-- ---------------------------------------------------------------------------
-- One process
-- ---------------------------------------------------------------------------

variable {s : System} {recvBuffer : List Char} {agents : List Agent}

/-- A step of the whole keeps what is known of the UUID; for the payload thread
it is one of its own, or none. -/
theorem System.step_known {s' : System} {agent : Agent} (hc : c.Plain)
    (hgrants : agent.Grants s) (h : s.step c agent = some s')
    (hi : s.Inv c) (hk : s.exchange.thread.Known before) :
    (s'.Inv c ∧ s'.exchange.thread.Known before) ∧
      (s'.exchange.thread = s.exchange.thread ∨
        ∃ i, i.Fed ∧ s.exchange.thread.step c i = some s'.exchange.thread) := by
  have hplain : agent.Plain s := by
    cases agent with
    | payload => exact fun _ => hk.plain
    | _ => trivial
  have hi' := hi.step hc h hplain
  rcases hi.step_thread h with heq | ⟨i, hfed, hinput, -, hthread⟩
  · exact ⟨⟨hi', heq ▸ hk⟩, .inl heq⟩
  · refine ⟨⟨hi', hk.step hc hfed ?_ hthread⟩, .inr ⟨i, hfed, hthread⟩⟩
    rcases hinput with rfl | ⟨pkts, hbatch⟩
    · exact hgrants
    · unfold Thread.offered
      rw [hbatch]
      split <;> simp_all

theorem plainFile_setUuid (h : ∀ uuid ∈ before, '\x00' ∉ uuid ∧ Storable uuid) :
    PlainFile (before.map setUuid) := by
  intro file hfile heap uuid huuid
  obtain ⟨stored, hstored, rfl⟩ := Option.mem_map.mp hfile
  obtain ⟨hnul, hstorable⟩ := h stored hstored
  have hread := (getUuid_setUuid_iff hnul heap).mpr ⟨hstorable.1, hstorable.2.trans (by decide)⟩
  obtain rfl := Option.some.inj (hread.symm.trans huuid)
  exact hstorable.plain

/-- The process that finds the UUID granted last in its file. -/
theorem System.run_known (hc : c.Plain) (hstored : ∀ uuid ∈ before, '\x00' ∉ uuid ∧ Storable uuid)
    (h : run (System.step c) (.start (before.map setUuid) recvBuffer) agents = some s)
    (hgrants : Along (System.step c) Agent.Grants (.start (before.map setUuid) recvBuffer)
      agents) :
    s.exchange.thread.Composed c ∧ s.exchange.thread.Known before := by
  have hstep : ∀ s agent s', System.step c s agent = some s' → agent.Grants s →
      (s.Inv c ∧ s.exchange.thread.Known before) ∧ s.exchange.thread.Composed c →
      (s'.Inv c ∧ s'.exchange.thread.Known before) ∧ s'.exchange.thread.Composed c := by
    rintro s agent s' hstep hgrants ⟨⟨hi, hk⟩, ha⟩
    obtain ⟨hkept, hthread⟩ := System.step_known hc hgrants hstep hi hk
    refine ⟨hkept, ?_⟩
    rcases hthread with heq | ⟨i, hfed, hthread⟩
    · exact heq ▸ ha
    · exact ha.step (fun _ _ => hk.plain) hfed hthread
  obtain ⟨⟨-, hk⟩, ha⟩ := run_inv hstep ⟨⟨.start .., .start hstored⟩,
    .start c (plainFile_setUuid hstored) recvBuffer⟩ hgrants h
  exact ⟨ha, hk⟩

theorem Configuration.plain (l : Configuration) {services : Services}
    (hservices : services.Unescaped) (hmac : CString → CString → Digest) :
    (l.settings hmac services).Plain :=
  ⟨hservices, ⟨l.within.2.1, l.url_text.1⟩, ⟨l.within.2.2, l.port_text.1⟩⟩

namespace Disk

/-- Both files are as the client writes them, and the UUID is the one granted
last. -/
structure Sound (d : Disk) : Prop where
  security : ∀ file ∈ d.security, ∃ l : Configuration, file = l.text
  uuidFile : d.uuidFile = d.granted.map setUuid
  stored : ∀ uuid ∈ d.granted, '\x00' ∉ uuid ∧ Storable uuid

variable {hmac : CString → CString → Digest} {services : Services} {d d' : Disk} {life : Life}

theorem Sound.boot (hd : d.Sound) (hstrings : life.console.Strings) :
    d.boot life = .error .prompting ∨
      ∃ console l, d.boot life = .ok console ∧ console.file = some (Configuration.text l) ∧
        (d.security ≠ none → ¬ life.console.Declines → console.file = d.security) :=
  fileGreeter_sound (c := { life.console with file := d.security }) hstrings hd.security _

theorem Sound.live (hservices : services.Unescaped) (hd : d.Sound)
    (hlife : life.Sensible hmac services d) (h : d.live hmac services life = some d') :
    d'.Sound := by
  rcases hd.boot hlife.strings with hprompting | ⟨console, l, hboot, hfile, -⟩
  · simp only [Disk.live, hprompting, Option.some_inj] at h
    exact h ▸ hd
  · have hsettings : console.file.bind (Settings.read hmac services) =
        some (l.settings hmac services) := by
      rw [hfile, Option.bind_some, l.read]
    simp only [Disk.live, hboot, hsettings] at h
    obtain ⟨s, hrun, rfl⟩ := Option.map_eq_some_iff.mp h
    have hgrants := hlife.grants console _ hboot hsettings
    rw [hd.uuidFile] at hrun hgrants
    obtain ⟨-, hk⟩ := System.run_known (l.plain hservices hmac) hd.stored hrun hgrants
    refine ⟨?_, hk.file, hk.stored⟩
    rintro file hsecurity
    exact ⟨l, Option.some.inj (hsecurity.symm.trans hfile)⟩

theorem sound_of_run (hservices : services.Unescaped) {lives : List Life}
    (h : run (Disk.live hmac services) {} lives = some d)
    (hlives : Along (Disk.live hmac services) (Life.Sensible hmac services) {} lives) :
    d.Sound := by
  have hempty : Disk.Sound {} := ⟨by simp, rfl, by simp⟩
  exact run_inv (fun _ _ _ hlive hlife hd => hd.live hservices hlife hlive) hempty hlives h

/-- What a process that gets to its threads has read. -/
theorem Sound.plain (hservices : services.Unescaped) (hd : d.Sound) {console : Console}
    (hlife : life.Sensible hmac services d) (hboot : d.boot life = .ok console)
    (hsettings : console.file.bind (Settings.read hmac services) = some c) : c.Plain := by
  rcases hd.boot hlife.strings with hprompting | ⟨console', l, hboot', hfile, -⟩
  · rw [hboot] at hprompting
    cases hprompting
  · obtain rfl := Except.ok.inj (hboot.symm.trans hboot')
    rw [hfile, Option.bind_some, l.read] at hsettings
    exact Option.some.inj hsettings ▸ l.plain hservices hmac

end Disk

-- ---------------------------------------------------------------------------
-- All processes
-- ---------------------------------------------------------------------------

/-- The configuration is typed, and the client registers. -/
def firstLife : Life where
  console := ⟨none, Text.typed [lit "secret", lit "localhost", lit "8080"], [], [], []⟩
  rounds := 1
  recvBuffer := List.replicate 2048 '\x00'
  agents := (greet localSettings 3 (okChunk 1) noon ['\x00']).map .client

theorem boot_firstLife : ∃ console, Disk.boot firstLife {} = .ok console ∧
    console.file = some localConfiguration.text := by
  let l := localConfiguration
  have hfaithful : Faithful [l.key, l.url, l.port] firstLife.console :=
    faithful_of_taken ⟨l.key_text.1, by decide +kernel⟩ ⟨l.url_text.1, by decide +kernel⟩
      ⟨l.port_text.1, by decide +kernel⟩ rfl
  obtain ⟨-, -, hround⟩ := hfaithful
  rw [if_pos l.within] at hround
  obtain ⟨console, hprompts, hfile⟩ := hround
  exact ⟨console, (fileGreeter_none rfl 1).trans hprompts, hfile⟩

theorem sensible_local {d : Disk} {life : Life} {console : Console}
    (hboot : d.boot life = .ok console) (hfile : console.file = some localConfiguration.text)
    (hstrings : life.console.Strings)
    (hgrants : Along (System.step localSettings) Agent.Grants (.start d.uuidFile life.recvBuffer)
      life.agents) : life.Sensible localSettings.hmac localSettings.services d := by
  refine ⟨hstrings, fun console' c hboot' hsettings => ?_⟩
  obtain rfl := Except.ok.inj (hboot.symm.trans hboot')
  rw [hfile, Option.bind_some] at hsettings
  obtain rfl := Option.some.inj (read_localConfiguration.symm.trans hsettings)
  exact hgrants

end WireSentinel
