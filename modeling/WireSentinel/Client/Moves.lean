import WireSentinel.Client.Thread

/-!
# The calls of the payload thread, by kind

Most of what `routine_payload` does between two calls matters to neither its
socket nor its batch. `Thread.step_move` sorts the steps by what they do to
these two.
-/

namespace WireSentinel

/-- `exit`, or an invalid access. -/
def Pc.Ended : Pc → Prop
  | .exited | .crashed => True
  | _ => False

/-- Calls on a connection that is set up, or the wait for a batch. -/
def Pc.Busy : Pc → Prop
  | .authSend | .authRecv | .registerSend _ | .registerRecv _ | .wait | .ingestSend
  | .ingestResend | .ingestRecv => True
  | _ => False

/-- Calls on such a connection with no batch at hand, or no call. -/
def Pc.Apart : Pc → Prop
  | .authSend | .authRecv | .registerSend _ | .registerRecv _ | .wait | .exited | .crashed => True
  | _ => False

/-- Neither the sockets change, nor is a batch taken or an ingest request
sent or answered. -/
def Event.Talk : Event → Prop
  | .sent _ endpoint .. | .received _ endpoint _ => endpoint ≠ .ingest
  | .extracted .. | .released => True
  | _ => False

/-- A step of the thread, as far as its socket and its batch are
concerned. -/
inductive Move (i : Input) (t t' : Thread) : Prop
  | resolved (site : Site) (ok : Bool) (hpc : t.pc = .getaddrinfo site)
      (hpc' : t'.pc = .socket site) (htrace : t'.trace = .resolved site ok :: t.trace)
  | unresolved (hpc : t.pc = .getaddrinfo .startup) (hpc' : t'.pc = .crashed)
      (htrace : t'.trace = .resolved .startup false :: t.trace)
  | opened (site : Site) (fd : Int) (hpc : t.pc = .socket site) (hpc' : t'.pc = .connect site)
      (hfd : t'.socketfd = fd) (htrace : t'.trace = .opened fd :: t.trace)
  | connected (site : Site) (hpc : t.pc = .connect site) (ha : i.answer = .connect true)
      (hpc' : t'.pc = Thread.resume site) (hfd : t'.socketfd = t.socketfd)
      (htrace : t'.trace = .connected t.socketfd :: t.trace)
  | refused (site : Site) (hpc : t.pc = .connect site) (ha : i.answer = .connect false)
      (hpc' : t'.pc = .socket site) (htrace : t'.trace = .refused t.socketfd :: t.trace)
  | configured (hpc : t.pc = .setsockopt) (hpc' : t'.pc.Apart) (hfd : t'.socketfd = t.socketfd)
      (htrace : t'.trace = .configured t.socketfd :: t.trace)
  | talked (past : List Event) (hbusy : t.pc.Busy) (hpc : t.pc.Apart) (hpc' : t'.pc.Apart)
      (hfd : t'.socketfd = t.socketfd) (htalk : ∀ e ∈ past, e.Talk)
      (htrace : t'.trace = past ++ t.trace)
  | took (request : CString) (hpc : t.pc = .wait) (hpc' : t'.pc = .ingestSend)
      (hfd : t'.socketfd = t.socketfd) (htrace : t'.trace = .took request :: t.trace)
  | sent (number : Nat) (text : CString) (result : Int)
      (hpc : t.pc = .ingestSend ∨ t.pc = .ingestResend) (hresult : result ≠ -1)
      (hpc' : t'.pc = .ingestRecv) (hfd : t'.socketfd = t.socketfd)
      (htrace : t'.trace = .sent t.socketfd .ingest number text result :: t.trace)
  | sendFailed (site : Site) (number : Nat) (text : CString)
      (hpc : t.pc = .ingestSend ∨ t.pc = .ingestResend) (hsite : site ≠ .startup)
      (hpc' : t'.pc = .close site) (hfd : t'.socketfd = t.socketfd)
      (htrace : t'.trace = .sent t.socketfd .ingest number text (-1) :: t.trace)
  | recvFailed (hpc : t.pc = .ingestRecv) (hpc' : t'.pc = .close .recvLoop)
      (hfd : t'.socketfd = t.socketfd)
      (htrace : t'.trace = .received t.socketfd .ingest .failed :: t.trace)
  | answered (chunk : Chunk) (past : List Event) (hpc : t.pc = .ingestRecv) (hpc' : t'.pc.Apart)
      (hfd : t'.socketfd = t.socketfd) (htalk : ∀ e ∈ past, e.Talk)
      (htrace : t'.trace = past ++ .received t.socketfd .ingest (.data chunk) :: t.trace)
  | closed (site : Site) (hpc : t.pc = .close site) (hpc' : t'.pc = .getaddrinfo site)
      (htrace : t'.trace = .closed t.socketfd :: t.trace)

variable {c : Settings} {i : Input} {t t' : Thread}

theorem Pc.Apart.busy_or_ended {pc : Pc} (h : pc.Apart) : pc.Busy ∨ pc.Ended := by
  cases pc <;> simp_all [Pc.Apart, Pc.Busy, Pc.Ended]

@[simp] theorem Thread.getUuid_socketfd (heap : List Char) (next : Pc) (t : Thread) :
    (t.getUuid heap next).socketfd = t.socketfd := by
  unfold Thread.getUuid
  split
  · rfl
  · split <;> rfl

@[simp] theorem Thread.startUp_socketfd (c : Settings) (i : Input) (t : Thread) :
    (t.startUp c i).socketfd = t.socketfd := by
  unfold Thread.startUp
  split
  · rfl
  · exact Thread.getUuid_socketfd _ _ t

@[simp] theorem Thread.authReceived_socketfd (c : Settings) (received : Received) (i : Input)
    (t : Thread) : (t.authReceived c received i).socketfd = t.socketfd := by
  unfold Thread.authReceived
  dsimp only
  split
  · rfl
  · split
    · exact Thread.getUuid_socketfd ..
    · rfl

theorem Move.ingestSent (hpc : t.pc = .ingestSend ∨ t.pc = .ingestResend)
    (hsite : site ≠ .startup) (n : Int) : Move i t (t.ingestSent site n) := by
  by_cases hn : n = -1
  · subst hn
    exact .sendFailed site _ _ hpc hsite rfl rfl rfl
  · exact .sent _ _ n hpc hn (by simp [Thread.ingestSent, hn]) rfl rfl

theorem Thread.step_move (h : t.step c i = some t') : Move i t t' := by
  cases Thread.step_sound h with
  | @resolved site ok hpc ha =>
    rcases Thread.resolved_pc site ok t with hpc' | ⟨rfl, rfl, hpc'⟩
    · exact .resolved site ok hpc hpc' rfl
    · exact .unresolved hpc hpc' rfl
  | opened hpc ha => exact .opened _ _ hpc rfl rfl rfl
  | connected hpc ha => exact .connected _ hpc ha rfl rfl rfl
  | refused hpc ha => exact .refused _ hpc ha rfl rfl
  | configured hpc ha =>
    refine .configured hpc ?_ (Thread.startUp_socketfd ..) (Thread.startUp_trace ..)
    rcases Thread.startUp_pc c i (t.record (.configured t.socketfd)) with h | h | h
    all_goals simp [h, Pc.Apart]
  | @authSent n hpc ha hn =>
    refine .talked [_] (by simp [hpc, Pc.Busy]) (by simp [hpc, Pc.Apart]) ?_ rfl
      (by simp [Event.Talk]) rfl
    simp only [Thread.goto]
    split <;> trivial
  | authReceived hpc ha =>
    obtain ⟨htrace, hpc'⟩ := Thread.authReceived_spec c _ i t
    refine .talked [_, _] (by simp [hpc, Pc.Busy]) (by simp [hpc, Pc.Apart]) ?_
      (Thread.authReceived_socketfd ..) (by simp [Event.Talk]) htrace
    rcases hpc' with h | h | h
    all_goals simp [h, Pc.Apart]
  | registerSent hpc ha hn =>
    refine .talked [_] (by simp [hpc, Pc.Busy]) (by simp [hpc, Pc.Apart]) ?_ rfl
      (by simp [Event.Talk]) rfl
    simp only [Thread.goto]
    split <;> trivial
  | @registerReceived caller received hpc ha =>
    rcases Thread.registerReceived_spec caller received i t with
      ⟨-, pc, hpc', h⟩ | ⟨uuid, -, h⟩
    all_goals rw [h]
    · refine .talked [_, _] (by simp [hpc, Pc.Busy]) (by simp [hpc, Pc.Apart]) ?_ rfl
        (by simp [Event.Talk]) rfl
      rcases hpc' with rfl | rfl <;> trivial
    · cases caller with
      | startup =>
        exact .talked [_, _] (by simp [hpc, Pc.Busy]) (by simp [hpc, Pc.Apart]) trivial rfl
          (by simp [Event.Talk]) rfl
      | ingest =>
        exact .talked [_, _, _] (by simp [hpc, Pc.Busy]) (by simp [hpc, Pc.Apart]) trivial rfl
          (by simp [Event.Talk]) rfl
  | took hpc ha hne =>
    rcases Thread.takeBatch_spec c _ i.now t with h | ⟨payload, -, h⟩
    all_goals rw [h]
    · exact .talked [] (by simp [hpc, Pc.Busy]) (by simp [hpc, Pc.Apart]) trivial rfl (by simp) rfl
    · exact .took _ hpc rfl rfl rfl
  | ingestSent hpc ha hn => exact .ingestSent (.inl hpc) (by simp) _
  | ingestResent hpc ha hn => exact .ingestSent (.inr hpc) (by simp) _
  | @ingestReceived received hpc ha =>
    cases received with
    | failed => exact .recvFailed hpc rfl rfl rfl
    | data chunk =>
      rcases Thread.ingestReceived_spec c chunk i t with ⟨-, h⟩ | ⟨-, h⟩ | ⟨-, h⟩
      all_goals rw [h]
      · exact .answered chunk [_] hpc trivial rfl (by simp [Event.Talk]) rfl
      · exact .answered chunk [_] hpc trivial rfl (by simp [Event.Talk]) rfl
      · exact .answered chunk [_, _] hpc trivial rfl (by simp [Event.Talk]) rfl
  | closed hpc ha => exact .closed _ hpc rfl rfl

/-- What has happened stays. -/
theorem Move.suffix (hm : Move i t t') : t.trace <:+ t'.trace := by
  cases hm with
  | talked past hbusy hpc hpc' hfd htalk htrace => exact ⟨past, htrace.symm⟩
  | answered chunk past hpc hpc' hfd htalk htrace =>
    rw [htrace]
    exact (List.suffix_cons _ _).trans (List.suffix_append _ _)
  | _ => exact ⟨[_], Eq.symm ‹_›⟩

end WireSentinel
