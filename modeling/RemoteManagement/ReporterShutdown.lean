import RemoteManagement.ReporterThreads

/-!
# Shutting the reporter down

The main thread joins the consumers before it tells the poll thread to stop. A
consumer that waits for the mutex cannot be joined, and the poll thread keeps
the mutex while it looks for a lost server. Each step that loses the server to
the poll thread while a consumer has yet to send can end in this cycle, and
nothing else can.
-/

namespace ReporterShutdown

open ThriftTypes GuardedRun ReporterThreads

variable {n : Nat}

/-- The main thread joins a consumer that waits for the mutex, and the poll
thread has it until a connection to the lost server is made. -/
def WaitCycle (s : Reporter n) : Prop :=
  ∃ i rest req, s.main = .joining i rest ∧ (s.consumers i).pc = .locking req ∧
    s.mtx = some .poll ∧
    (s.poll = .handshakeTCP true .loopTest ∨ s.poll = .handshakeTCP true .opening) ∧
    s.reachable = false

section Cycles

/-- A cycle before the flag is cleared is never left: no step clears it. -/
theorem step_waitCycle (s : Reporter n) (e : Event n) (t : Reporter n)
    (hs : Locked s ∧ s.pollRequests = true ∧ WaitCycle s) (h : step s e = some t) :
    Locked t ∧ t.pollRequests = true ∧ WaitCycle t := by
  obtain ⟨locked, flag, i, rest, req, main, waits, mtx, poll, down⟩ := hs
  refine ⟨step_locked s e t locked h, ?_⟩
  cases e with
  | main => simp [step, mainStep, main, waits] at h
  | gather j other =>
    obtain ⟨hpc, rfl⟩ := gather_eq h
    have hij : i ≠ j := by
      rintro rfl
      simp [waits] at hpc
    refine ⟨flag, i, rest, req, main, ?_, mtx, poll, down⟩
    simpa [Reporter.setPc, setConsumer_consumers, hij] using waits
  | consumer j =>
    have hij : i ≠ j := by
      rintro rfl
      simp [step, consumerStep, waits, mtx] at h
    obtain ⟨c, moves⟩ := consumerStep_moves h
    refine ⟨moves.pollRequests.trans flag, i, rest, req, moves.main.trans main, ?_, ?_,
      moves.poll ▸ poll, moves.reachable.trans down⟩
    · rw [moves.consumers, Function.update_of_ne hij]
      exact waits
    · rcases moves.mutex with ⟨same, -⟩ | ⟨free, -⟩ | ⟨holds, -, -⟩
      · exact same.trans mtx
      · exact absurd (free.symm.trans mtx) (by simp)
      · exact absurd ((locked.consumers j holds).symm.trans mtx) (by simp)
  | poll ok =>
    have unanswered : s.answers ok → ok = false := by
      intro answers
      cases ok with
      | false => rfl
      | true => simp [Reporter.answers, down] at answers
    rcases poll with poll | poll
    · simp only [step, pollStep, poll, handshakeStep, flag, if_true,
        Option.ite_none_right_eq_some, Option.some.injEq] at h
      obtain ⟨-, rfl⟩ := h
      exact ⟨rfl, i, rest, req, main, waits, mtx, Or.inr rfl, down⟩
    · simp only [step, pollStep, poll, handshakeStep, Option.ite_none_right_eq_some,
        Option.some.injEq] at h
      obtain ⟨answers, rfl⟩ := h
      exact ⟨flag, i, rest, req, main, waits, mtx, Or.inl (by simp [unanswered answers]), down⟩
  | serverDown =>
    obtain rfl := Option.some.inj h
    exact ⟨flag, i, rest, req, main, waits, mtx, poll, rfl⟩

theorem waitCycle_forever {es later : List (Event n)} {s t : Reporter n}
    (h : run step start es = some s) (flag : s.pollRequests = true) (cycle : WaitCycle s)
    (ht : run step s later = some t) : WaitCycle t := by
  have locked : Locked s := run_preserves step_locked locked_start h
  exact (run_preserves step_waitCycle ⟨locked, flag, cycle⟩ ht).2.2

end Cycles

section Orderly

/-- The server is lost, or a request fails without it, only when that leaves no
consumer behind that has yet to send. -/
def Orderly (s : Reporter n) : Event n → Prop
  | .poll ok => FailsToSend s ok → s.reachable = false → Silent s
  | .serverDown => s.poll.Connecting → Silent s
  | .main | .gather _ _ | .consumer _ => True

instance decidableOrderly (s : Reporter n) : ∀ e, Decidable (Orderly s e)
  | .poll ok => inferInstanceAs (Decidable (FailsToSend s ok → s.reachable = false → Silent s))
  | .serverDown => inferInstanceAs (Decidable (s.poll.Connecting → Silent s))
  | .main | .gather _ _ | .consumer _ => isTrue trivial

structure Sound (s : Reporter n) : Prop where
  staged : Staged s
  silent : s.reachable = false → s.poll.Connecting → Silent s

theorem sound_start : Sound (start : Reporter n) := ⟨staged_start, fun _ => False.elim⟩

theorem step_sound (s : Reporter n) (e : Event n) (t : Reporter n)
    (hs : Sound s) (orderly : Orderly s e) (h : step s e = some t) : Sound t := by
  refine ⟨step_staged s e t hs.staged h, fun down connecting => ?_⟩
  cases e with
  | main =>
    have moves := mainStep_moves h
    rcases moves.threads with ⟨starting, -, poll | poll⟩ | ⟨-, -, poll, silent⟩
    · rw [poll, hs.staged.starting starting] at connecting
      exact connecting.elim
    · rw [poll] at connecting
      exact connecting.elim
    · exact silent (hs.silent (moves.reachable ▸ down) (poll ▸ connecting))
  | gather i req =>
    obtain ⟨hpc, rfl⟩ := gather_eq h
    exact silent_setConsumer (hs.silent down connecting)
      (fun _ => by simp [Consumer.CanSend, hpc])
  | consumer i =>
    obtain ⟨c, moves⟩ := consumerStep_moves h
    rw [Silent, moves.consumers]
    exact silent_setConsumer (hs.silent (moves.reachable ▸ down) (moves.poll ▸ connecting))
      moves.canSend
  | poll ok =>
    have moves := pollStep_moves h
    rw [Silent, moves.consumers]
    rcases moves.connecting connecting with before | fails
    · exact hs.silent (moves.reachable ▸ down) before
    · exact orderly fails (moves.reachable ▸ down)
  | serverDown =>
    obtain rfl := Option.some.inj h
    exact orderly connecting

theorem not_waitCycle {s : Reporter n} (hs : Sound s) : ¬ WaitCycle s := by
  rintro ⟨i, rest, req, -, waits, -, poll, down⟩
  have connecting : s.poll.Connecting := by
    rcases poll with poll | poll
    · rw [poll]
      trivial
    · rw [poll]
      trivial
  exact hs.silent down connecting i (by simp [Consumer.CanSend, waits])

/-- In an orderly run the main thread never waits so. -/
theorem orderly_run_no_waitCycle (es : List (Event n)) (s : Reporter n)
    (orderly : Guarded step Orderly start es) (h : run step start es = some s) : ¬ WaitCycle s :=
  not_waitCycle (run_invariant step_sound sound_start orderly h)

end Orderly

section Losses

/-- Only the consumer `i` has moved, and nobody told it to stop. -/
structure Keeps (s t : Reporter n) (i : Fin n) : Prop where
  main : t.main = s.main
  poll : t.poll = s.poll
  reachable : t.reachable = s.reachable
  others : ∀ j, j ≠ i → t.consumers j = s.consumers j

theorem keeps_setPc (s : Reporter n) (i : Fin n) (pc : ConsumerPc) (count : Nat) :
    Keeps s { s.setPc i pc with requestCounter := count } i :=
  ⟨rfl, rfl, rfl, fun _ hj => Function.update_of_ne hj _ _⟩

/-- On its own a consumer comes to wait for the mutex if it has yet to send,
and to its end if it has not. -/
def Settles (s : Reporter n) (i : Fin n) : Prop :=
  ∃ t, Reaches step s t ∧ Keeps s t i ∧
    (((s.consumers i).CanSend ∧ ∃ req, (t.consumers i).pc = .locking req) ∨
      (¬ (s.consumers i).CanSend ∧ (t.consumers i).pc = .finished))

theorem settles_of_step {s : Reporter n} {i : Fin n} {e : Event n} {pc : ConsumerPc} {count : Nat}
    (h : step s e = some { s.setPc i pc with requestCounter := count })
    (same : ({ s.consumers i with pc := pc } : Consumer).CanSend ↔ (s.consumers i).CanSend)
    (next : Settles { s.setPc i pc with requestCounter := count } i) : Settles s i := by
  obtain ⟨t, reaches, keeps, ends⟩ := next
  have first := keeps_setPc s i pc count
  have moved : ({ s.setPc i pc with requestCounter := count } : Reporter n).consumers i =
      { s.consumers i with pc := pc } := Function.update_self _ _ _
  rw [moved, same] at ends
  exact ⟨t, reaches.head h, ⟨keeps.main.trans first.main, keeps.poll.trans first.poll,
    keeps.reachable.trans first.reachable,
    fun j hj => (keeps.others j hj).trans (first.others j hj)⟩, ends⟩

theorem settles_gathering {s : Reporter n} {i : Fin n} (hpc : (s.consumers i).pc = .gathering) :
    Settles s i := by
  have first : step s (.gather i {}) = some (s.setPc i (.locking {})) := by simp [step, hpc]
  refine ⟨_, (Reaches.refl step _).head first, keeps_setPc s i _ _, Or.inl ⟨?_, {}, ?_⟩⟩
  · simp [Consumer.CanSend, hpc]
  · simp [Reporter.setPc, setConsumer_consumers]

theorem settles_loopTest {s : Reporter n} {i : Fin n} (hpc : (s.consumers i).pc = .loopTest) :
    Settles s i := by
  cases flag : (s.consumers i).isConsuming with
  | true =>
    have first : step s (.consumer i) = some (s.setPc i .gathering) := by
      simp [step, consumerStep, hpc, flag]
    refine settles_of_step first ?_ (settles_gathering ?_)
    · simp [Consumer.CanSend, hpc, flag]
    · simp [Reporter.setPc, setConsumer_consumers]
  | false =>
    have first : step s (.consumer i) = some (s.setPc i .finished) := by
      simp [step, consumerStep, hpc, flag]
    refine ⟨_, (Reaches.refl step _).head first, keeps_setPc s i _ _, Or.inr ⟨?_, ?_⟩⟩
    · simp [Consumer.CanSend, hpc, flag]
    · simp [Reporter.setPc, setConsumer_consumers]

theorem settles_sleeping {s : Reporter n} {i : Fin n} (hpc : (s.consumers i).pc = .sleeping) :
    Settles s i := by
  have first : step s (.consumer i) = some (s.setPc i .loopTest) := by
    simp [step, consumerStep, hpc]
  refine settles_of_step first ?_ (settles_loopTest ?_)
  · simp [Consumer.CanSend, hpc]
  · simp [Reporter.setPc, setConsumer_consumers]

theorem settles {s : Reporter n} {i : Fin n} (started : (s.consumers i).pc ≠ .idle)
    (free : ¬ (s.consumers i).Holds) : Settles s i := by
  cases hpc : (s.consumers i).pc with
  | idle => exact absurd hpc started
  | loopTest => exact settles_loopTest hpc
  | gathering => exact settles_gathering hpc
  | locking req =>
    exact ⟨s, Reaches.refl step s, ⟨rfl, rfl, rfl, fun _ _ => rfl⟩,
      Or.inl ⟨by simp [Consumer.CanSend, hpc], req, hpc⟩⟩
  | pushing req => simp [Consumer.Holds, hpc] at free
  | releasing =>
    have first : step s (.consumer i) =
        some { s.setPc i .sleeping with requestCounter := s.requestCounter + 1 } := by
      simp [step, consumerStep, hpc]
    refine settles_of_step first ?_ (settles_sleeping ?_)
    · simp [Consumer.CanSend, hpc]
    · simp [Reporter.setPc, setConsumer_consumers]
  | sleeping => exact settles_sleeping hpc
  | finished =>
    exact ⟨s, Reaches.refl step s, ⟨rfl, rfl, rfl, fun _ _ => rfl⟩,
      Or.inr ⟨by simp [Consumer.CanSend, hpc], hpc⟩⟩

def Doomed (s : Reporter n) : Prop := ∃ t, Reaches step s t ∧ WaitCycle t

theorem Doomed.of_reaches {s t : Reporter n} (h : Reaches step s t) (doomed : Doomed t) :
    Doomed s := by
  obtain ⟨u, hu, cycle⟩ := doomed
  exact ⟨u, h.trans hu, cycle⟩

/-- The poll thread looks for the lost server with the mutex held. -/
structure Trapped (s : Reporter n) : Prop where
  locked : Locked s
  staged : Staged s
  poll : s.poll = .handshakeTCP true .loopTest
  down : s.reachable = false

theorem Trapped.mtx {s : Reporter n} (hs : Trapped s) : s.mtx = some .poll :=
  hs.locked.poll (by simp [PollPc.Holds, hs.poll])

theorem Trapped.reaches {s t : Reporter n} (hs : Trapped s) (h : Reaches step s t)
    (poll : t.poll = s.poll) (reachable : t.reachable = s.reachable) : Trapped t := by
  obtain ⟨es, hes⟩ := h
  exact ⟨run_preserves step_locked hs.locked hes, run_preserves step_staged hs.staged hes,
    poll.trans hs.poll, reachable.trans hs.down⟩

theorem Trapped.settles {s : Reporter n} (hs : Trapped s) (started : ¬ s.main.Starting)
    (i : Fin n) : Settles s i := by
  apply ReporterShutdown.settles
  · intro idle
    have mem := hs.staged.started i idle
    cases hmain : s.main <;> simp_all [MainPc.Starting, MainPc.unstarted]
  · intro holds
    exact absurd ((hs.locked.consumers i holds).symm.trans hs.mtx) (by simp)

theorem Trapped.waitCycle {s : Reporter n} (hs : Trapped s) {i : Fin n} {rest : List (Fin n)}
    {req : RmsRequest} (main : s.main = .joining i rest)
    (waits : (s.consumers i).pc = .locking req) : WaitCycle s :=
  ⟨i, rest, req, main, waits, hs.mtx, Or.inl hs.poll, hs.down⟩

/-- A consumer that has finished is joined, and the others are left alone. -/
theorem Trapped.joins {s : Reporter n} (hs : Trapped s) {i : Fin n} {rest : List (Fin n)}
    (main : s.main = .joining i rest) (finished : (s.consumers i).pc = .finished) :
    ∃ t, Reaches step s t ∧ Trapped t ∧ t.main = .stopping rest ∧ t.consumers = s.consumers := by
  have join : step s .main = some { s with main := .stopping rest } := by
    simp [step, mainStep, main, finished]
  have reaches := (Reaches.refl step _).head join
  exact ⟨_, reaches, hs.reaches reaches rfl rfl, rfl, rfl⟩

/-- The main thread comes to the first consumer that has yet to send, by
induction on those that it has still to stop. -/
theorem Trapped.doomed_of_stopping {s : Reporter n} (hs : Trapped s) {rest : List (Fin n)}
    (main : s.main = .stopping rest) (sender : ∃ i ∈ rest, (s.consumers i).CanSend) :
    Doomed s := by
  induction rest generalizing s with
  | nil =>
    obtain ⟨i, mem, -⟩ := sender
    cases mem
  | cons j rest ih =>
    obtain ⟨t, reaches, keeps, ends⟩ := hs.settles (by simp [MainPc.Starting, main]) j
    have ht : Trapped t := hs.reaches reaches keeps.poll keeps.reachable
    have stop : step t .main = some { t.setConsumer j { t.consumers j with
        isConsuming := false } with main := .joining j rest } := by
      simp [step, mainStep, keeps.main, main]
    have stops := (Reaches.refl step _).head stop
    have hstop := ht.reaches stops rfl rfl
    have moved := setConsumer_consumers t j { t.consumers j with isConsuming := false }
    apply Doomed.of_reaches (reaches.trans stops)
    rcases ends with ⟨-, req, waits⟩ | ⟨silent, finished⟩
    · exact ⟨_, Reaches.refl step _, hstop.waitCycle rfl (by simpa [moved] using waits)⟩
    · obtain ⟨i, mem, canSend⟩ := sender
      have hij : i ≠ j := by
        rintro rfl
        exact silent canSend
      obtain ⟨u, joins, hu, humain, same⟩ := hstop.joins rfl (by simpa [moved] using finished)
      apply Doomed.of_reaches joins
      refine ih hu humain ⟨i, (List.mem_cons.mp mem).resolve_left hij, ?_⟩
      rw [same]
      simpa [moved, hij, keeps.others i hij] using canSend

theorem Trapped.doomed {s : Reporter n} (hs : Trapped s) (sender : ¬ Silent s) : Doomed s := by
  obtain ⟨i, canSend⟩ := not_forall_not.mp sender
  have mem : i ∈ s.main.ahead := by
    by_contra joined
    have finished := hs.staged.joined i joined
    simp [Consumer.CanSend, finished] at canSend
  cases main : s.main with
  | starting rest =>
    have idle := hs.staged.starting (by simp [MainPc.Starting, main])
    rw [hs.poll] at idle
    cases idle
  | waiting =>
    have signal : step s .main = some { s with main := .stopping (List.finRange n) } := by
      simp [step, mainStep, main]
    have reaches := (Reaches.refl step _).head signal
    apply Doomed.of_reaches reaches
    exact (hs.reaches reaches rfl rfl).doomed_of_stopping rfl ⟨i, List.mem_finRange i, canSend⟩
  | stopping rest =>
    rw [main] at mem
    exact hs.doomed_of_stopping main ⟨i, mem, canSend⟩
  | joining j rest =>
    obtain ⟨t, reaches, keeps, ends⟩ := hs.settles (by simp [MainPc.Starting, main]) j
    have ht : Trapped t := hs.reaches reaches keeps.poll keeps.reachable
    apply Doomed.of_reaches reaches
    rcases ends with ⟨-, req, waits⟩ | ⟨silent, finished⟩
    · exact ⟨t, Reaches.refl step t, ht.waitCycle (keeps.main.trans main) waits⟩
    · have hij : i ≠ j := by
        rintro rfl
        exact silent canSend
      obtain ⟨u, joins, hu, humain, same⟩ := ht.joins (keeps.main.trans main) finished
      rw [main] at mem
      apply Doomed.of_reaches joins
      refine hu.doomed_of_stopping humain ⟨i, (List.mem_cons.mp mem).resolve_left hij, ?_⟩
      rw [same, keeps.others i hij]
      exact canSend
  | releasing | joiningPoll | closing | stopped =>
    rw [main] at mem
    cases mem

/-- The poll thread goes on to the loop by itself. -/
theorem trapped_of_connecting {s : Reporter n} (locked : Locked s) (staged : Staged s)
    (connecting : s.poll.Connecting) (down : s.reachable = false) :
    ∃ t, Reaches step s t ∧ Trapped t ∧ t.consumers = s.consumers := by
  have arrive {t : Reporter n} (h : Reaches step s t) (poll : t.poll = .handshakeTCP true .loopTest)
      (reachable : t.reachable = s.reachable) : Trapped t := by
    obtain ⟨es, hes⟩ := h
    exact ⟨run_preserves step_locked locked hes, run_preserves step_staged staged hes, poll,
      reachable.trans down⟩
  cases poll : s.poll with
  | releasing =>
    have first : step s (.poll false) = some { s with
        requestCounter := s.requestCounter + 1, poll := .handshakeTCP true .loopTest } := by
      simp [step, pollStep, poll]
    have reaches := (Reaches.refl step _).head first
    exact ⟨_, reaches, arrive reaches rfl rfl, rfl⟩
  | handshakeTCP again pc =>
    rw [poll] at connecting
    cases again with
    | false => exact connecting.elim
    | true =>
      cases pc with
      | loopTest => exact ⟨s, Reaches.refl step s, arrive (Reaches.refl step s) poll rfl, rfl⟩
      | opening =>
        have first : step s (.poll false) =
            some { s with poll := .handshakeTCP true .loopTest } := by
          simp [step, pollStep, poll, handshakeStep, Reporter.answers]
        have reaches := (Reaches.refl step _).head first
        exact ⟨_, reaches, arrive reaches rfl rfl, rfl⟩
      | flagTest | calling => exact connecting.elim
  | idle | storing | handshaken result | loopTest | acquiring | flagTest | locking | sending
  | retryTest | ended =>
    rw [poll] at connecting
    exact connecting.elim

/-- Orderly steps are all that keep the main thread from the cycle: from any
other step a run can go on to it. -/
theorem doomed_of_not_orderly {es : List (Event n)} {s t : Reporter n} {e : Event n}
    (h : run step start es = some s) (disorderly : ¬ Orderly s e) (ht : step s e = some t) :
    Doomed t := by
  have locked : Locked t := step_locked s e t (run_preserves step_locked locked_start h) ht
  have staged : Staged t := step_staged s e t (run_preserves step_staged staged_start h) ht
  have doomed (connecting : t.poll.Connecting) (down : t.reachable = false)
      (sender : ¬ Silent t) : Doomed t := by
    obtain ⟨u, reaches, hu, same⟩ := trapped_of_connecting locked staged connecting down
    apply Doomed.of_reaches reaches
    apply hu.doomed
    rw [Silent, same]
    exact sender
  cases e with
  | main | gather i req | consumer i => exact absurd trivial disorderly
  | poll ok =>
    simp only [Orderly, Classical.not_imp] at disorderly
    obtain ⟨⟨sending, first, failed⟩, down, sender⟩ := disorderly
    obtain ⟨⟨type, req⟩, head, htype⟩ := Option.map_eq_some_iff.mp first
    obtain ⟨rest, queue⟩ := List.head?_eq_some_iff.mp head
    obtain rfl : type = .kTCP := htype
    simp only [step, pollStep, sending, queue, failed, Bool.false_eq_true, if_false,
      Option.some.injEq] at ht
    subst ht
    exact doomed trivial down sender
  | serverDown =>
    simp only [Orderly, Classical.not_imp] at disorderly
    obtain rfl := Option.some.inj ht
    exact doomed disorderly.1 rfl disorderly.2

end Losses

/-- A consumer sleeps after its first request, which the poll thread is about to send. -/
def firstRequest : List (Event 1) :=
  [.main, .main, .consumer 0, .gather 0 {}, .consumer 0, .consumer 0, .consumer 0] ++
    List.replicate 10 (.poll true)

/-- The consumer has been joined when the server is lost. -/
def lostAfterJoin : List (Event 1) :=
  firstRequest ++ [.main, .main, .consumer 0, .consumer 0, .main, .serverDown] ++
    List.replicate 3 (.poll false)

theorem orderly_run_no_waitCycle_lostAfterJoin :
    ¬ WaitCycle ((run step start lostAfterJoin).get (by decide)) :=
  orderly_run_no_waitCycle lostAfterJoin _ (by decide) (Option.some_get _).symm

/-- The server is lost, the consumer wakes up for its second request, and the
reporter is told to stop. -/
def lostBeforeStop : List (Event 1) :=
  firstRequest ++ [.serverDown, .poll false, .poll false, .poll false, .consumer 0, .consumer 0,
    .gather 0 {}, .main, .main]

theorem lostBeforeStop_waitCycle :
    WaitCycle ((run step start lostBeforeStop).get (by decide)) :=
  ⟨0, [], {}, rfl, rfl, rfl, Or.inr rfl, rfl⟩

end ReporterShutdown
