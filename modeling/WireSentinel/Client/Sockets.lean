import WireSentinel.Client.Session
import WireSentinel.Client.Moves

/-!
# The sockets of the payload thread

`routine_payload` replaces its socket whenever a `send` or `recv` of an
ingest request fails. It sets the receive timeout behind the first
`start_server` only, and `start_server` opens a socket for each attempt
without closing the one before. `timeout_set_iff` and `sole_socket_iff` say
in which runs neither shows.
-/

namespace WireSentinel

variable {c : Settings} {i : Input} {t t' : Thread} {past : List Event} {e : Event} {fd : Int}

-- ---------------------------------------------------------------------------
-- The receive timeout
-- ---------------------------------------------------------------------------

def Event.KeepsSocket : Event → Prop
  | .opened _ | .closed _ => False
  | _ => True

/-- `SO_RCVTIMEO` has been set on the socket that is open now. -/
def TimeoutSet (fd : Int) : List Event → Prop :=
  Since Event.KeepsSocket fun past => past.head? = some (.configured fd)

/-- A `send` or `recv` of an ingest request that returned -1. -/
def Event.Fails : Event → Prop
  | .sent _ .ingest _ _ result => result = -1
  | .received _ .ingest .failed => True
  | _ => False

def Undisturbed (past : List Event) : Prop := ∀ e ∈ past, ¬ e.Fails

theorem timeoutSet_cons (hkeep : e.KeepsSocket) (hne : ∀ fd, e ≠ .configured fd) :
    TimeoutSet fd (e :: past) ↔ TimeoutSet fd past := by
  constructor
  · rintro (h | ⟨-, h⟩)
    · exact absurd (Option.some.inj h) (hne fd)
    · exact h
  · exact fun h => Since.later h hkeep

theorem not_timeoutSet_opened (fd fd' : Int) (past : List Event) :
    ¬ TimeoutSet fd (.opened fd' :: past) := by
  rintro (h | ⟨hkeep, -⟩)
  · cases h
  · exact hkeep

theorem undisturbed_cons : Undisturbed (e :: past) ↔ ¬ e.Fails ∧ Undisturbed past :=
  List.forall_mem_cons

/-- Neither the timeout is set or lost, nor does an ingest request fail. -/
structure Event.Quiet (e : Event) : Prop where
  keeps : e.KeepsSocket
  unset : ∀ fd, e ≠ .configured fd
  succeeds : ¬ e.Fails

theorem Event.Talk.quiet (h : e.Talk) : e.Quiet := by
  cases e with
  | sent fd endpoint number text result =>
    cases endpoint with
    | ingest => exact absurd rfl h
    | _ => exact ⟨trivial, by simp, by simp [Event.Fails]⟩
  | received fd endpoint received =>
    cases endpoint with
    | ingest => exact absurd rfl h
    | _ => exact ⟨trivial, by simp, by simp [Event.Fails]⟩
  | extracted | released => exact ⟨trivial, by simp, by simp [Event.Fails]⟩
  | _ => exact h.elim

theorem quiet_append {later : List Event} (h : ∀ e ∈ later, e.Quiet) (fd : Int)
    (past : List Event) :
    (TimeoutSet fd (later ++ past) ↔ TimeoutSet fd past) ∧
      (Undisturbed (later ++ past) ↔ Undisturbed past) := by
  induction later with
  | nil => exact ⟨.rfl, .rfl⟩
  | cons e later ih =>
    obtain ⟨he, hlater⟩ := List.forall_mem_cons.mp h
    obtain ⟨hset, hquiet⟩ := ih hlater
    refine ⟨(timeoutSet_cons he.keeps he.unset).trans hset, ?_⟩
    rw [List.cons_append, undisturbed_cons, hquiet]
    exact and_iff_right he.succeeds

/-- What is known of the timeout at each call. -/
def Thread.SetUp (t : Thread) : Prop :=
  match t.pc with
  | .getaddrinfo site | .socket site | .close site => Undisturbed t.trace ↔ site = .startup
  | .connect site => (Undisturbed t.trace ↔ site = .startup) ∧ ∀ fd, ¬ TimeoutSet fd t.trace
  | .setsockopt => Undisturbed t.trace
  | .exited | .crashed => True
  | _ => TimeoutSet t.socketfd t.trace ↔ Undisturbed t.trace

theorem Thread.setUp_busy (h : t.pc.Busy) :
    t.SetUp ↔ (TimeoutSet t.socketfd t.trace ↔ Undisturbed t.trace) := by
  unfold Thread.SetUp
  cases hpc : t.pc <;> simp_all [Pc.Busy]

theorem Thread.setUp_ended (h : t.pc.Ended) : t.SetUp := by
  unfold Thread.SetUp
  cases hpc : t.pc <;> simp_all [Pc.Ended]

theorem Thread.SetUp.quiet (h : t.SetUp) (later : List Event) (hpc : t.pc.Busy)
    (hpc' : t'.pc.Busy ∨ t'.pc.Ended) (hfd : t'.socketfd = t.socketfd)
    (hlater : ∀ e ∈ later, e.Quiet) (htrace : t'.trace = later ++ t.trace) : t'.SetUp := by
  rcases hpc' with hpc' | hended
  · obtain ⟨hset, hquiet⟩ := quiet_append hlater t.socketfd t.trace
    rw [Thread.setUp_busy hpc] at h
    rw [Thread.setUp_busy hpc', htrace, hfd, hset, hquiet]
    exact h
  · exact Thread.setUp_ended hended

/-- The new socket has no timeout before `setsockopt`. -/
theorem Thread.SetUp.connected (h : t.SetUp) (hpc : t.pc = .connect site)
    (hpc' : t'.pc = Thread.resume site)
    (htrace : t'.trace = .connected t.socketfd :: t.trace) : t'.SetUp := by
  simp only [Thread.SetUp, hpc] at h
  obtain ⟨hsite, hunset⟩ := h
  have hquiet : Undisturbed t'.trace ↔ site = .startup := by
    rw [htrace, undisturbed_cons, hsite]
    exact and_iff_right (by simp [Event.Fails])
  have hset : ¬ TimeoutSet t'.socketfd t'.trace := by
    rw [htrace]
    exact fun hset => hunset _ ((timeoutSet_cons (by trivial) (by simp)).mp hset)
  have hbusy : site ≠ .startup → t'.pc.Busy → t'.SetUp := by
    intro hne hbusy
    rw [Thread.setUp_busy hbusy, hquiet]
    exact iff_of_false hset hne
  cases site with
  | startup =>
    simp only [Thread.SetUp, hpc', Thread.resume]
    exact hquiet.mpr rfl
  | sendLoop => exact hbusy (by simp) (by simp [hpc', Thread.resume, Pc.Busy])
  | recvLoop => exact hbusy (by simp) (by simp [hpc', Thread.resume, Pc.Busy])

/-- A failure closes the connection that had the timeout. -/
theorem Thread.SetUp.failed (hpc' : t'.pc = .close site) (hsite : site ≠ .startup)
    (htrace : t'.trace = e :: t.trace) (he : e.Fails) : t'.SetUp := by
  simp only [Thread.SetUp, hpc', htrace, undisturbed_cons]
  exact iff_of_false (fun h => h.1 he) hsite

theorem Thread.SetUp.move (h : t.SetUp) (hm : Move i t t') : t'.SetUp := by
  cases hm with
  | resolved site ok hpc hpc' htrace =>
    simp only [Thread.SetUp, hpc] at h
    simp only [Thread.SetUp, hpc', htrace, undisturbed_cons, h]
    exact and_iff_right (by simp [Event.Fails])
  | unresolved hpc hpc' htrace => exact Thread.setUp_ended (by simp [hpc', Pc.Ended])
  | opened site fd hpc hpc' hfd htrace =>
    simp only [Thread.SetUp, hpc] at h
    simp only [Thread.SetUp, hpc', htrace, undisturbed_cons, h]
    exact ⟨and_iff_right (by simp [Event.Fails]), fun _ => not_timeoutSet_opened _ _ _⟩
  | connected site hpc ha hpc' hfd htrace => exact h.connected hpc hpc' htrace
  | refused site hpc ha hpc' htrace =>
    simp only [Thread.SetUp, hpc] at h
    simp only [Thread.SetUp, hpc', htrace, undisturbed_cons, h.1]
    exact and_iff_right (by simp [Event.Fails])
  | configured hpc hpc' hfd htrace =>
    simp only [Thread.SetUp, hpc] at h
    rcases hpc'.busy_or_ended with hbusy | hended
    · rw [Thread.setUp_busy hbusy, htrace, hfd, undisturbed_cons]
      exact iff_of_true (Since.now rfl) ⟨by simp [Event.Fails], h⟩
    · exact Thread.setUp_ended hended
  | talked talk hbusy hpc hpc' hfd htalk htrace =>
    exact h.quiet talk hbusy hpc'.busy_or_ended hfd (fun e he => (htalk e he).quiet) htrace
  | took request hpc hpc' hfd htrace =>
    refine h.quiet [_] (by simp [hpc, Pc.Busy]) (.inl (by simp [hpc', Pc.Busy])) hfd ?_ htrace
    exact List.forall_mem_singleton.mpr ⟨trivial, by simp, by simp [Event.Fails]⟩
  | sent number text result hpc hresult hpc' hfd htrace =>
    refine h.quiet [_] ?_ (.inl (by simp [hpc', Pc.Busy])) hfd ?_ htrace
    · rcases hpc with hpc | hpc <;> simp [hpc, Pc.Busy]
    · exact List.forall_mem_singleton.mpr ⟨trivial, by simp, hresult⟩
  | sendFailed site number text hpc hsite hpc' hfd htrace => exact .failed hpc' hsite htrace rfl
  | recvFailed hpc hpc' hfd htrace => exact .failed hpc' (by simp) htrace trivial
  | answered chunk talk hpc hpc' hfd htalk htrace =>
    refine h.quiet (talk ++ [.received t.socketfd .ingest (.data chunk)]) (by simp [hpc, Pc.Busy])
      hpc'.busy_or_ended hfd ?_ (by simpa using htrace)
    refine List.forall_mem_append.mpr ⟨fun e he => (htalk e he).quiet, ?_⟩
    exact List.forall_mem_singleton.mpr ⟨trivial, by simp, by simp [Event.Fails]⟩
  | closed site hpc hpc' htrace =>
    simp only [Thread.SetUp, hpc] at h
    simp only [Thread.SetUp, hpc', htrace, undisturbed_cons, h]
    exact and_iff_right (by simp [Event.Fails])

/-- Whatever the calls return, a response to an ingest request is waited for
under the timeout exactly as long as no ingest request has failed.

Premises: the thread has come that far, and waits for such a response. -/
theorem timeout_set_iff (c : Settings) (uuidFile : Option CString) (recvBuffer : List Char)
    (inputs : List Input)
    (h : run (Thread.step c) (.start uuidFile recvBuffer) inputs = some t)
    (hpc : t.pc = .ingestRecv) : TimeoutSet t.socketfd t.trace ↔ Undisturbed t.trace := by
  have hstart : (Thread.start uuidFile recvBuffer).SetUp :=
    iff_of_true (by simp [Undisturbed, Thread.start]) rfl
  have hreached : t.SetUp :=
    run_keeps (fun _ _ _ hstep hset => hset.move (Thread.step_move hstep)) hstart h
  rwa [Thread.setUp_busy (by simp [hpc, Pc.Busy])] at hreached

def reconnected : List Input :=
  greet localSettings 3 (okChunk 1) noon ['\x00'] ++
    timedOut localRequest [synRecord] 4 noon ['\x00']

theorem run_reconnected :
    ∃ t, run (Thread.step localSettings) localStart reconnected = some t ∧ t.pc = .ingestRecv ∧
      t.socketfd = 4 ∧ ∃ request past,
        t.trace = .sent 4 .ingest 3 request request.length :: .connected 4 :: .opened 4 :: past :=
  ⟨_, (run_append (run_greet 3 registeredUuid_local) _).trans
    (run_timedOut rfl (by simp) localSettings_payload rfl 4), rfl, rfl, _, _, rfl⟩

theorem timeout_set_iff_reconnected :
    ∃ t, run (Thread.step localSettings) localStart reconnected = some t ∧
      (TimeoutSet t.socketfd t.trace ↔ Undisturbed t.trace) := by
  obtain ⟨t, hrun, hpc, -⟩ := run_reconnected
  exact ⟨t, hrun, timeout_set_iff _ _ _ _ hrun hpc⟩

/-- On the second connection the client waits without a timeout. -/
theorem timeout_counterexample :
    ¬ ∀ (c : Settings) (uuidFile : Option CString) (recvBuffer : List Char) (inputs : List Input)
      (t : Thread), run (Thread.step c) (.start uuidFile recvBuffer) inputs = some t →
      t.pc = .ingestRecv → TimeoutSet t.socketfd t.trace := by
  intro h
  obtain ⟨t, hrun, hpc, hfd, request, past, htrace⟩ := run_reconnected
  have hset := h _ _ _ _ t hrun hpc
  rw [htrace] at hset
  exact not_timeoutSet_opened _ _ _
    ((timeoutSet_cons (by trivial) (by simp)).mp ((timeoutSet_cons (by trivial) (by simp)).mp hset))

-- ---------------------------------------------------------------------------
-- Open sockets
-- ---------------------------------------------------------------------------

/-- A list of descriptors with what `socket` returned: -1 is none. -/
def withSocket (fd : Int) (fds : List Int) : List Int := if fd < 0 then fds else fd :: fds

/-- The descriptors that `socket` returned and `close` was not called on
since. -/
def openSockets : List Event → List Int
  | [] => []
  | .opened fd :: past => withSocket fd (openSockets past)
  | .closed fd :: past => (openSockets past).erase fd
  | _ :: past => openSockets past

/-- The descriptors that `connect` failed on. -/
def refusedSockets : List Event → List Int
  | [] => []
  | .refused fd :: past => withSocket fd (refusedSockets past)
  | _ :: past => refusedSockets past

/-- `start_server` has just returned. -/
def Returned (t : Thread) : Prop := ∃ fd past, t.trace = .connected fd :: past

/-- No descriptor is opened, closed or refused. -/
def Event.Still : Event → Prop
  | .opened _ | .closed _ | .refused _ => False
  | _ => True

theorem Event.Talk.still (h : e.Talk) : e.Still := by
  cases e <;> simp_all [Event.Talk, Event.Still]

theorem still_cons (h : e.Still) (past : List Event) :
    openSockets (e :: past) = openSockets past ∧
      refusedSockets (e :: past) = refusedSockets past := by
  cases e with
  | opened fd | closed fd | refused fd => exact h.elim
  | _ => exact ⟨rfl, rfl⟩

theorem still_append {later : List Event} (h : ∀ e ∈ later, e.Still) (past : List Event) :
    openSockets (later ++ past) = openSockets past ∧
      refusedSockets (later ++ past) = refusedSockets past := by
  constructor
  · exact append_of_skips (fun e past he => (still_cons he past).1) h past
  · exact append_of_skips (fun e past he => (still_cons he past).2) h past

theorem mem_withSocket {d : Int} {fds : List Int} :
    d ∈ withSocket fd fds ↔ (d = fd ∧ 0 ≤ fd) ∨ d ∈ fds := by
  unfold withSocket
  split
  · rename_i hneg
    simp [Int.not_le.mpr hneg]
  · rename_i hpos
    simp [Int.not_lt.mp hpos]

theorem mem_refusedSockets {d : Int} : d ∈ refusedSockets past ↔ 0 ≤ d ∧ .refused d ∈ past := by
  induction past with
  | nil => simp [refusedSockets]
  | cons e past ih =>
    cases e with
    | refused fd =>
      rw [refusedSockets, mem_withSocket, ih]
      constructor
      · rintro (⟨rfl, hpos⟩ | ⟨hpos, hin⟩)
        · exact ⟨hpos, List.mem_cons_self⟩
        · exact ⟨hpos, List.mem_cons_of_mem _ hin⟩
      · rintro ⟨hpos, hin⟩
        rcases List.mem_cons.mp hin with heq | hin
        · cases heq
          exact .inl ⟨rfl, hpos⟩
        · exact .inr ⟨hpos, hin⟩
    | _ => simp [refusedSockets, ih]

theorem erase_withSocket {fds : List Int} (h : ∀ d ∈ fds, 0 ≤ d) :
    (withSocket fd fds).erase fd = fds := by
  unfold withSocket
  split
  · rename_i hneg
    exact List.erase_of_not_mem fun hin => absurd (h fd hin) (Int.not_le.mpr hneg)
  · exact List.erase_cons_head ..

theorem withSocket_eq_singleton {fds : List Int} (h : ∀ d ∈ fds, 0 ≤ d) :
    withSocket fd fds = [fd] ↔ 0 ≤ fd ∧ fds = [] := by
  unfold withSocket
  split
  · rename_i hneg
    constructor
    · rintro rfl
      exact absurd (h fd List.mem_cons_self) (Int.not_le.mpr hneg)
    · exact fun hpos => absurd hpos.1 (Int.not_le.mpr hneg)
  · rename_i hpos
    simp [Int.not_lt.mp hpos]

/-- `socket` has been called, and its result not been closed since. -/
def Pc.HasSocket : Pc → Prop
  | .getaddrinfo _ | .socket _ | .exited | .crashed => False
  | _ => True

/-- As long as the thread goes on, every refused descriptor is open, and so is
the one in use. -/
def Thread.Leaks (t : Thread) : Prop :=
  match t.pc with
  | .getaddrinfo _ | .socket _ => openSockets t.trace = refusedSockets t.trace
  | .exited | .crashed => True
  | _ => openSockets t.trace = withSocket t.socketfd (refusedSockets t.trace)

theorem Thread.leaks_of_hasSocket (h : t.pc.HasSocket) :
    t.Leaks ↔ openSockets t.trace = withSocket t.socketfd (refusedSockets t.trace) := by
  unfold Thread.Leaks
  cases hpc : t.pc <;> simp_all [Pc.HasSocket]

theorem Thread.leaks_ended (h : t.pc.Ended) : t.Leaks := by
  unfold Thread.Leaks
  cases hpc : t.pc <;> simp_all [Pc.Ended]

theorem Pc.Busy.hasSocket {pc : Pc} (h : pc.Busy) : pc.HasSocket := by
  cases pc <;> simp_all [Pc.Busy, Pc.HasSocket]

theorem Pc.hasSocket_resume (site : Site) : (Thread.resume site).HasSocket := by
  cases site <;> trivial

theorem Thread.Leaks.still (h : t.Leaks) (events : List Event) (hpc : t.pc.HasSocket)
    (hpc' : t'.pc.HasSocket) (hfd : t'.socketfd = t.socketfd)
    (hstill : ∀ e ∈ events, Event.Still e) (htrace : t'.trace = events ++ t.trace) : t'.Leaks := by
  obtain ⟨hopen, hrefused⟩ := still_append hstill t.trace
  rw [Thread.leaks_of_hasSocket hpc] at h
  rw [Thread.leaks_of_hasSocket hpc', htrace, hopen, hrefused, hfd, h]

/-- On a connection, or by a call that ends the thread. -/
theorem Thread.Leaks.apart (h : t.Leaks) (events : List Event) (hpc : t.pc.HasSocket)
    (hpc' : t'.pc.Apart) (hfd : t'.socketfd = t.socketfd)
    (hstill : ∀ e ∈ events, Event.Still e) (htrace : t'.trace = events ++ t.trace) : t'.Leaks := by
  rcases hpc'.busy_or_ended with hbusy | hended
  · exact h.still events hpc hbusy.hasSocket hfd hstill htrace
  · exact Thread.leaks_ended hended

theorem Thread.Leaks.move (h : t.Leaks) (hm : Move i t t') : t'.Leaks := by
  cases hm with
  | resolved site ok hpc hpc' htrace =>
    simp only [Thread.Leaks, hpc] at h
    simp only [Thread.Leaks, hpc', htrace, openSockets, refusedSockets, h]
  | unresolved hpc hpc' htrace => exact Thread.leaks_ended (by simp [hpc', Pc.Ended])
  | opened site fd hpc hpc' hfd htrace =>
    simp only [Thread.Leaks, hpc] at h
    simp only [Thread.Leaks, hpc', htrace, openSockets, refusedSockets, hfd, h]
  | connected site hpc ha hpc' hfd htrace =>
    refine h.still [_] (by simp [hpc, Pc.HasSocket]) ?_ hfd (by simp [Event.Still]) htrace
    rw [hpc']
    exact Pc.hasSocket_resume site
  | refused site hpc ha hpc' htrace =>
    rw [Thread.leaks_of_hasSocket (by simp [hpc, Pc.HasSocket])] at h
    simp only [Thread.Leaks, hpc', htrace, openSockets, refusedSockets, h]
  | configured hpc hpc' hfd htrace =>
    exact h.apart [_] (by simp [hpc, Pc.HasSocket]) hpc' hfd (by simp [Event.Still]) htrace
  | talked talk hbusy hpc hpc' hfd htalk htrace =>
    exact h.apart talk hbusy.hasSocket hpc' hfd (fun e he => (htalk e he).still) htrace
  | took request hpc hpc' hfd htrace =>
    exact h.still [_] (by simp [hpc, Pc.HasSocket]) (by simp [hpc', Pc.HasSocket]) hfd
      (by simp [Event.Still]) htrace
  | sent number text result hpc hresult hpc' hfd htrace =>
    refine h.still [_] ?_ (by simp [hpc', Pc.HasSocket]) hfd (by simp [Event.Still]) htrace
    rcases hpc with hpc | hpc <;> simp [hpc, Pc.HasSocket]
  | sendFailed site number text hpc hsite hpc' hfd htrace =>
    refine h.still [_] ?_ (by simp [hpc', Pc.HasSocket]) hfd (by simp [Event.Still]) htrace
    rcases hpc with hpc | hpc <;> simp [hpc, Pc.HasSocket]
  | recvFailed hpc hpc' hfd htrace =>
    exact h.still [_] (by simp [hpc, Pc.HasSocket]) (by simp [hpc', Pc.HasSocket]) hfd
      (by simp [Event.Still]) htrace
  | answered chunk talk hpc hpc' hfd htalk htrace =>
    refine h.apart (talk ++ [.received t.socketfd .ingest (.data chunk)])
      (by simp [hpc, Pc.HasSocket]) hpc' hfd ?_ (by simpa using htrace)
    refine List.forall_mem_append.mpr ⟨fun e he => (htalk e he).still, ?_⟩
    exact List.forall_mem_singleton.mpr trivial
  | closed site hpc hpc' htrace =>
    rw [Thread.leaks_of_hasSocket (by simp [hpc, Pc.HasSocket])] at h
    simp only [Thread.Leaks, hpc', htrace, openSockets, refusedSockets, h]
    exact erase_withSocket fun d hd => (mem_refusedSockets.mp hd).1

/-- When `start_server` has just returned, its caller goes on. -/
def Thread.InUse (t : Thread) : Prop := Returned t → ∃ site, t.pc = Thread.resume site

theorem Thread.InUse.move (h : t.InUse) (hm : Move i t t') : t'.InUse := by
  rintro ⟨fd, past, hpast⟩
  -- the last event is that `connect` has succeeded, so that no other call was the last
  have hother : ∀ e rest, t'.trace = e :: rest → (∀ fd, e ≠ .connected fd) →
      ∃ site, t'.pc = Thread.resume site := by
    intro e rest htrace hne
    rw [htrace] at hpast
    exact absurd (List.cons.inj hpast).1 (hne fd)
  cases hm with
  | connected site hpc ha hpc' hfd htrace => exact ⟨site, hpc'⟩
  | talked talk hbusy hpc hpc' hfd htalk htrace =>
    cases talk with
    | nil =>
      obtain ⟨site, hsite⟩ := h ⟨fd, past, htrace.symm.trans hpast⟩
      rw [hsite] at hpc
      cases site <;> exact hpc.elim
    | cons e talk =>
      refine hother e _ htrace fun fd heq => ?_
      exact (heq ▸ htalk e List.mem_cons_self : Event.Talk (.connected fd))
  | answered chunk talk hpc hpc' hfd htalk htrace =>
    cases talk with
    | nil => exact hother _ _ htrace (by simp)
    | cons e talk =>
      refine hother e _ htrace fun fd heq => ?_
      exact (heq ▸ htalk e List.mem_cons_self : Event.Talk (.connected fd))
  | _ => exact hother _ _ ‹_› (by simp)

/-- Behind `start_server` the socket in use is the only open one exactly if
it is one, and `connect` has never failed on a socket.

Premises: the thread has come that far, and `start_server` has just
returned. -/
theorem sole_socket_iff (c : Settings) (uuidFile : Option CString) (recvBuffer : List Char)
    (inputs : List Input)
    (h : run (Thread.step c) (.start uuidFile recvBuffer) inputs = some t) (hret : Returned t) :
    openSockets t.trace = [t.socketfd] ↔
      0 ≤ t.socketfd ∧ ∀ fd, .refused fd ∈ t.trace → fd < 0 := by
  have hleaks : t.Leaks := by
    have hstart : (Thread.start uuidFile recvBuffer).Leaks := rfl
    exact run_keeps (fun _ _ _ hstep hleaks => hleaks.move (Thread.step_move hstep)) hstart h
  have huse : t.InUse := by
    have hstart : (Thread.start uuidFile recvBuffer).InUse := by
      rintro ⟨fd, past, hpast⟩
      cases hpast
    exact run_keeps (fun _ _ _ hstep huse => huse.move (Thread.step_move hstep)) hstart h
  have hsocket : t.pc.HasSocket := by
    obtain ⟨site, hsite⟩ := huse hret
    rw [hsite]
    exact Pc.hasSocket_resume site
  have hreal : ∀ d ∈ refusedSockets t.trace, 0 ≤ d := fun d hd => (mem_refusedSockets.mp hd).1
  rw [(Thread.leaks_of_hasSocket hsocket).mp hleaks, withSocket_eq_singleton hreal,
    List.eq_nil_iff_forall_not_mem]
  refine and_congr_right fun _ => forall_congr' fun fd => ?_
  rw [mem_refusedSockets]
  constructor
  · exact fun hnot hin => Int.not_le.mp fun hpos => hnot ⟨hpos, hin⟩
  · exact fun hneg hin => absurd (hneg hin.2) (Int.not_lt.mpr hin.1)

/-- The server is not there for the first attempt. -/
def refusedOnce : List Input :=
  [.getaddrinfo true, .socket 3, .connect false, .socket 4, .connect true].map fun answer =>
    ⟨answer, noon, [], []⟩

theorem run_refusedOnce :
    ∃ t, run (Thread.step localSettings) localStart refusedOnce = some t ∧ t.socketfd = 4 ∧
      t.trace = [.connected 4, .opened 4, .refused 3, .opened 3, .resolved .startup true] :=
  ⟨_, rfl, rfl, rfl⟩

theorem sole_socket_iff_refusedOnce :
    ∃ t, run (Thread.step localSettings) localStart refusedOnce = some t ∧
      (openSockets t.trace = [t.socketfd] ↔
        0 ≤ t.socketfd ∧ ∀ fd, .refused fd ∈ t.trace → fd < 0) := by
  obtain ⟨t, hrun, -, htrace⟩ := run_refusedOnce
  exact ⟨t, hrun, sole_socket_iff _ _ _ _ hrun ⟨4, _, htrace⟩⟩

/-- The socket of the first attempt stays open. -/
theorem sole_socket_counterexample :
    ¬ ∀ (c : Settings) (uuidFile : Option CString) (recvBuffer : List Char) (inputs : List Input)
      (t : Thread), run (Thread.step c) (.start uuidFile recvBuffer) inputs = some t →
      Returned t → openSockets t.trace = [t.socketfd] := by
  intro h
  obtain ⟨t, hrun, hfd, htrace⟩ := run_refusedOnce
  have hsole := h _ _ _ _ t hrun ⟨4, _, htrace⟩
  rw [htrace, hfd] at hsole
  exact absurd hsole (by decide)

end WireSentinel
