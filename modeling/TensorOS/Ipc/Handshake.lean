import TensorOS.Ipc.Service

/-!
# One client and the server

The handshake of a client with the server. The event is not remembered: a signal wakes the server
if it is inside `kernel_event_wait`, and does nothing otherwise. The server yields between its
answer and its next wait, and a client that calls again in this gap signals in vain: its request
stays in the mailbox, the server waits for the event and the client for the answer
(`service_wedges`).

When every signal is given while the server is blocked on the event this does not happen
(`service_handshake`).
-/

namespace TensorOS

variable {n : ℕ}

/-- A service with its processes. -/
abbrev ServiceSystem (n : ℕ) :=
  Coop n ServiceQueue (Service n ServiceQueue) ServiceOp ServiceResult

/-- There is a request, but the server waits for the event and the client for the answer. -/
def Wedged (server client : Fin n) (s : ServiceSystem n) : Prop :=
  s.object.requestMailbox.hasMessage ≠ 0 ∧
    s.BlockedOn s.object.requestEvent.waitQueue server ∧
    s.BlockedOn s.object.replySemaphore.waitQueue client

/-- The server has just blocked itself in its first `kernel_event_wait`; the one client and the
other processes have not run. -/
def HandshakeStart (server client : Fin n) (s : ServiceSystem n) : Prop :=
  ∃ s₀, ServiceStart server s₀ ∧ client ≠ server ∧ s₀.object.points client = .idle ∧
    (∀ i, i ≠ server → i ≠ client → s₀.object.points i = .bystander) ∧
    (s₀.kernel.processes server).state = .ready ∧
    s = (serviceProtocol n ServiceQueue).run s₀ [.resume server, .call .eventWait]

/-- A signal is given while the server is blocked on the event. -/
def SignalsInTime (server : Fin n) (s : ServiceSystem n) (_ : Fin n) (op : ServiceOp) : Prop :=
  op = .signal → s.BlockedOn s.object.requestEvent.waitQueue server

instance (server : Fin n) (s : ServiceSystem n) (i : Fin n) (op : ServiceOp) :
    Decidable (SignalsInTime server s i op) :=
  inferInstanceAs (Decidable (_ → _))

/-- A request in the mailbox is about to be signalled, or the server is about to take it. -/
structure HandshakeInv (server client : Fin n) (f : Fin n → Place ServiceQueue)
    (x : Service n ServiceQueue) : Prop where
  ok : ServiceOk x
  roles : (x.points server).role = .server ∧ (x.points client).role = .client ∧
    ∀ i, i ≠ server → i ≠ client → (x.points i).role = .bystander
  taken : x.requestMailbox.hasMessage ≠ 0 →
    (x.points client = .signal ∧ f client = .running) ∨ x.points server = .receive ∨
      f server = .woken .event

section Inv

variable {server client i : Fin n} {f : Fin n → Place ServiceQueue} {x : Service n ServiceQueue}

theorem HandshakeInv.wake (h : HandshakeInv server client f x) {queue : ServiceQueue}
    (hi : f i = .asleep queue) :
    HandshakeInv server client (Function.update f i (.woken queue)) x := by
  refine { h with taken := fun hfull ↦ ?_ }
  obtain ⟨hpoint, hrunning⟩ | hreceive | hwoken := h.taken hfull
  · refine Or.inl ⟨hpoint, ?_⟩
    rw [Function.update_of_ne, hrunning]
    rintro rfl
    simp [hi] at hrunning
  · exact Or.inr (Or.inl hreceive)
  · refine Or.inr (Or.inr ?_)
    rw [Function.update_of_ne, hwoken]
    rintro rfl
    simp [hi] at hwoken

theorem HandshakeInv.switch (h : HandshakeInv server client f x) (hnone : ∀ j, f j ≠ .running)
    (hi : f i = .away) : HandshakeInv server client (Function.update f i .running) x := by
  refine { h with taken := fun hfull ↦ ?_ }
  obtain ⟨-, hrunning⟩ | hreceive | hwoken := h.taken hfull
  · exact absurd hrunning (hnone client)
  · exact Or.inr (Or.inl hreceive)
  · refine Or.inr (Or.inr ?_)
    rw [Function.update_of_ne, hwoken]
    rintro rfl
    simp [hi] at hwoken

end Inv

section Round

variable {server client i : Fin n} {s : ServiceSystem n} {op : ServiceOp}
  {f g : Fin n → Place ServiceQueue} {k' : Kernel n ServiceQueue} {x' : Service n ServiceQueue}
  {outcome : Outcome ServiceQueue ServiceOp ServiceResult}

theorem ServiceMove.of_signal (hmove : ServiceMove i s.kernel s.object op k' x' outcome)
    (hpoint : s.object.points i = .signal) :
    op = .signal ∧ k' = (s.kernel.kernelWaitQueueWakeAll .event).1 := by
  cases hmove with
  | signals => exact ⟨rfl, rfl⟩
  | pauses hat =>
    rw [hpoint] at hat
    obtain hat | hat := hat <;> cases hat
  | waits hat | waited hat | receives hat | noRequest hat | locks hat | locked hat | computes hat
  | unlocks hat | replies hat | replyFull hat | releases hat | tokensFull hat | yields hat
  | requests hat | requestFull hat | acquires hat | noToken hat | collects hat | noReply hat =>
    rw [hpoint] at hat
    cases hat

theorem ServiceMove.of_receive (hmove : ServiceMove i s.kernel s.object op k' x' outcome)
    (hpoint : s.object.points i = .receive) : x'.requestMailbox.hasMessage = 0 := by
  cases hmove with
  | receives => rfl
  | noRequest _ hempty => exact hempty
  | pauses hat =>
    rw [hpoint] at hat
    obtain hat | hat := hat <;> cases hat
  | waits hat | waited hat | signals hat | locks hat | locked hat | computes hat
  | unlocks hat | replies hat | replyFull hat | releases hat | tokensFull hat | yields hat
  | requests hat | requestFull hat | acquires hat | noToken hat | collects hat | noReply hat =>
    rw [hpoint] at hat
    cases hat

theorem ServiceMove.of_waited (hmove : ServiceMove i s.kernel s.object op k' x' outcome)
    (hop : op = .eventWaited) : x'.points i = .receive := by
  subst hop
  cases hmove with
  | waited => rw [Service.goto_points, Function.update_self]

/-- A request that was in the mailbox before the round and still is. -/
theorem HandshakeInv.stays (h : HandshakeInv server client f s.object) (hsound : s.Sound)
    (hi : s.place i = .running) (hcond : SignalsInTime server s i op)
    (henters : (serviceProtocol n ServiceQueue).Enters ServiceParked s i op f)
    (hmove : ServiceMove i s.kernel s.object op k' x' outcome) (hw : s.kernel.Wakes k')
    (hpoints : ∀ j, j ≠ i → x'.points j = s.object.points j)
    (hplace : ∀ j, j ≠ i → g j = { s with kernel := k' }.place j)
    (hmailbox : x'.requestMailbox = s.object.requestMailbox)
    (hfull : s.object.requestMailbox.hasMessage ≠ 0) :
    (x'.points client = .signal ∧ g client = .running) ∨ x'.points server = .receive ∨
      g server = .woken .event := by
  have hevent : s.object.requestEvent.waitQueue = .event := congrFun h.ok.queues .event
  obtain ⟨hpoint, hrunning⟩ | hreceive | hwoken := h.taken hfull
  · -- the client is about to signal, so it is the one that does the round
    have hclient : i = client := by
      by_contra hne
      rw [henters.place_of_ne (Ne.symm hne)] at hrunning
      exact Coop.place_ne_running hi (Ne.symm hne) hrunning
    subst hclient
    obtain ⟨rfl, rfl⟩ := hmove.of_signal hpoint
    have hasleep : s.place server = .asleep .event := by
      rw [← hsound.blockedOn_iff, ← hevent]
      exact hcond rfl
    have hne : server ≠ i := by
      rintro rfl
      simp [hi] at hasleep
    refine Or.inr (Or.inr ?_)
    rw [hplace server hne, hsound.place_wakeAll
      (t := { s with kernel := (s.kernel.kernelWaitQueueWakeAll .event).1 }) rfl rfl]
    exact if_pos hasleep
  · refine Or.inr (Or.inl ?_)
    by_cases hserver : server = i
    · -- the server would have taken the request
      subst hserver
      exact absurd (hmailbox ▸ hmove.of_receive hreceive) hfull
    · rw [hpoints server hserver, hreceive]
  · by_cases hserver : server = i
    · -- the server is back from the event
      subst hserver
      refine Or.inr (Or.inl (hmove.of_waited ?_))
      obtain rfl | ⟨queue, hfi, hsite, -⟩ := henters.place_eq
      · simp [hi] at hwoken
      · rw [hwoken, Place.woken.injEq] at hfi
        rw [← hfi, h.ok.queues, Option.map_id] at hsite
        cases op <;> first | rfl | cases hsite
    · refine Or.inr (Or.inr ?_)
      rw [hplace server hserver]
      rw [henters.place_of_ne hserver] at hwoken
      obtain heq | heq := Coop.place_of_wakes (s := s) (t := { s with kernel := k' }) rfl hw server
      · rw [heq, hwoken]
      · rw [heq, hwoken]
        rfl

/-- **One round.** The places `g` at its end are those after its wake-ups, but for the process that
does it. -/
theorem HandshakeInv.round (h : HandshakeInv server client f s.object) (hsound : s.Sound)
    (hi : s.place i = .running) (hcond : SignalsInTime server s i op)
    (henters : (serviceProtocol n ServiceQueue).Enters ServiceParked s i op f)
    (hmove : ServiceMove i s.kernel s.object op k' x' outcome) (hw : s.kernel.Wakes k')
    (hqueues : x'.queueOf = s.object.queueOf)
    (hpoints : ∀ j, j ≠ i → x'.points j = s.object.points j)
    (hplace : ∀ j, j ≠ i → g j = { s with kernel := k' }.place j)
    (hself : ∀ result, outcome = .returns result → g i = .running) :
    HandshakeInv server client g x' := by
  refine ⟨hmove.ok h.ok hqueues, ?_, fun hfull ↦ ?_⟩
  · simp only [hmove.role]
    exact h.roles
  have hstays : x'.requestMailbox = s.object.requestMailbox →
      (x'.points client = .signal ∧ g client = .running) ∨ x'.points server = .receive ∨
        g server = .woken .event := fun hmailbox ↦
    h.stays hsound hi hcond henters hmove hw hpoints hplace hmailbox (hmailbox ▸ hfull)
  cases hmove with
  | receives => exact absurd rfl hfull
  | requests hat =>
    -- the client has just put its request into the mailbox
    have hclient : i = client := by
      by_contra hne
      have hrole : i ≠ server := by
        rintro rfl
        have hserver := h.roles.1
        rw [hat] at hserver
        cases hserver
      have hother := h.roles.2.2 i hrole hne
      rw [hat] at hother
      cases hother
    subst hclient
    refine Or.inl ⟨?_, hself _ rfl⟩
    rw [Service.goto_points, Function.update_self]
  | _ => exact hstays rfl

end Round

/-- **What the rounds keep**, when the signals are in time. -/
theorem handshake_keeps (server client : Fin n) :
    (serviceProtocol n ServiceQueue).Keeps ServiceParked (SignalsInTime server)
      (fun _ f x _ ↦ HandshakeInv server client f x) where
  wake h hi := h.wake hi
  switch h hnone hi := h.switch hnone hi
  round {s i op f} hsound hi hcond henters h := by
    have hcalls := calls_of_enters henters
    have hw := wakes_serviceRound i op s.kernel s.object
    have hmove := h.ok.move i s.kernel hcalls
    have hqueues := serviceRound_queueOf i op s.kernel s.object
    have hpoints : ∀ j, j ≠ i → (serviceRound i op s.kernel s.object).2.1.points j = _ :=
      fun j hj ↦ serviceRound_points hj op s.kernel s.object
    have hrunning : { s with kernel := (serviceRound i op s.kernel s.object).1 }.place i
        = .running := by
      obtain ⟨hp, hcurrent⟩ := Coop.place_eq_running.mp hi
      exact Coop.place_eq_running.mpr ⟨hp, hw.current.trans hcurrent⟩
    change Protocol.Settles _ i { s with kernel := (serviceRound i op s.kernel s.object).1 }.place
      (serviceRound i op s.kernel s.object).2.1 s.log (serviceRound i op s.kernel s.object).2.2
    generalize (serviceRound i op s.kernel s.object).2.2 = outcome at hmove ⊢
    cases outcome with
    | returns result =>
      exact h.round hsound hi hcond henters hmove hw hqueues hpoints (fun _ _ ↦ rfl)
        fun _ _ ↦ hrunning
    | yields result =>
      exact h.round hsound hi hcond henters hmove hw hqueues hpoints
        (fun j hj ↦ Function.update_of_ne hj _ _) fun _ hout ↦ by cases hout
    | waits queue next =>
      exact h.round hsound hi hcond henters hmove hw hqueues hpoints
        (fun j hj ↦ Function.update_of_ne hj _ _) fun _ hout ↦ by cases hout

theorem HandshakeStart.good {server client : Fin n} (hn : n < 2 ^ 32) {s : ServiceSystem n}
    (h : HandshakeStart server client s) :
    Protocol.Good ServiceParked (fun _ f x _ ↦ HandshakeInv server client f x) s := by
  obtain ⟨s₀, hstart, hne, hclient, hothers, -, rfl⟩ := h
  obtain ⟨hsound, hok, hempty, -, -⟩ := hstart.ok
  have hinv : HandshakeInv server client s₀.place s₀.object := by
    refine ⟨hok, ⟨?_, ?_, fun i hi hi' ↦ ?_⟩, fun hfull ↦ absurd hempty hfull⟩
    · rw [hstart.2.1.1]
      rfl
    · rw [hclient]
      rfl
    · rw [hothers i hi hi']
      rfl
  have hgood : Protocol.Good ServiceParked (fun _ f x _ ↦ HandshakeInv server client f x) s₀ :=
    ⟨hsound, hinv, fun i queue op hp ↦ by rw [hstart.1.pending i] at hp; cases hp⟩
  -- the start is two steps into the run, and neither is a signal
  have hstep : ∀ (t : ServiceSystem n) (l : CoopLabel n ServiceOp),
      Protocol.Good ServiceParked (fun _ f x _ ↦ HandshakeInv server client f x) t →
      (∀ t' i op, (serviceProtocol n ServiceQueue).enter t l = (t', some (i, op)) → op ≠ .signal) →
      Protocol.Good ServiceParked (fun _ f x _ ↦ HandshakeInv server client f x)
        ((serviceProtocol n ServiceQueue).step t l) := fun t l ht hl ↦
    (handshake_keeps server client).step service_lawful hn ht fun t' i op henter hop ↦
      absurd hop (hl t' i op henter)
  refine hstep _ _ (hstep _ _ hgood fun t' i op henter ↦ ?_) fun t' i op henter ↦ ?_
  · have hnone := (serviceProtocol n ServiceQueue).enter_resume_of_none (hstart.1.pending server)
    rw [henter] at hnone
    cases hnone
  · rw [Protocol.op_of_enter_call henter]
    decide

/-- **The handshake works when the signals are in time.** In every run of one client and the server
in which each signal is given while the server is blocked on the event, no request is left in the
mailbox with the server blocked on the event and the client blocked on the semaphore. -/
theorem service_handshake {capacity : UInt32} {server client : Fin capacity.toNat}
    {s : ServiceSystem capacity.toNat}
    (h : (serviceProtocol capacity.toNat ServiceQueue).Reaches (HandshakeStart server client)
      ((serviceProtocol _ _).Obeys (SignalsInTime server)) s) : ¬ Wedged server client s := by
  obtain ⟨hsound, hinv, hparked⟩ := (handshake_keeps server client).reaches service_lawful
    capacity.toNat_lt (fun s ↦ HandshakeStart.good capacity.toNat_lt)
    (fun s l t i op hok henter ↦ hok.round henter) h
  have hqueue := fun name ↦ congrFun hinv.ok.queues name
  rintro ⟨hfull, hserver, hclient⟩
  rw [show s.object.requestEvent.waitQueue = .event from hqueue .event,
    hsound.blockedOn_iff] at hserver
  rw [show s.object.replySemaphore.waitQueue = .tokens from hqueue .tokens,
    hsound.blockedOn_iff] at hclient
  obtain ⟨-, hrunning⟩ | hreceive | hwoken := hinv.taken hfull
  · simp [hclient] at hrunning
  · obtain ⟨⟨op, hp⟩, -⟩ := Coop.place_eq_asleep.mp hserver
    obtain ⟨hsite, hcalls⟩ := hparked server .event op hp
    rw [hinv.ok.queues, Option.map_id] at hsite
    rw [hreceive] at hcalls
    cases op <;> first | (cases hcalls; done) | cases hsite
  · simp [hserver] at hwoken

/-! ## The gap -/

/-- The server, one client and a bystander that have not run. -/
def handshakeFresh : ServiceSystem (3 : UInt32).toNat :=
  let points : Fin (3 : UInt32).toNat → ServicePoint := fun i ↦
    if i.val = 0 then .wait else if i.val = 1 then .idle else .bystander
  let created := (serviceCreate points (fun _ ↦ ⟨0, 0, 0⟩, 0x1000)).get (by rfl)
  .init (readyProcesses _) created.2 created.1

/-- The server is in its first wait. -/
def handshakeStart : ServiceSystem (3 : UInt32).toNat :=
  (serviceProtocol _ _).run handshakeFresh [.resume 0, .call .eventWait]

theorem handshakeStart_start : HandshakeStart 0 1 handshakeStart :=
  ⟨handshakeFresh, ⟨Coop.init_fresh _ _ fun _ ↦ rfl, ⟨rfl, by decide +kernel⟩,
    (fun _ ↦ ⟨0, 0, 0⟩, 0x1000), rfl⟩, by decide, rfl, by decide +kernel, rfl, rfl⟩

/-- A whole call of the client, up to its answer. -/
def handshakeRound (request : UInt32) : List (CoopLabel (3 : UInt32).toNat ServiceOp) :=
  [.call (.sendRequest request), .call .signal, .call .acquire, .resume 0,
    .call .receiveRequest, .call .lock, .call .compute, .call .unlock, .call .sendReply,
    .call .release, .call .yield, .resume 1, .call .receiveReply]

/-- The client has its answer and calls again, before the server is back in its wait. -/
def handshakeGap : List (CoopLabel (3 : UInt32).toNat ServiceOp) :=
  .resume 1 :: handshakeRound 5 ++
    [.call (.sendRequest 6), .call .signal, .call .acquire, .resume 0,
      .call .eventWait]

/-- **The service wedges**: without any stray wake-up there is a run to a state with a request in
the mailbox, the server blocked on the event and the client blocked on the semaphore. -/
theorem service_wedges : ∃ s : ServiceSystem (3 : UInt32).toNat,
    (serviceProtocol _ _).Reaches (HandshakeStart 0 1)
      (fun _ l ↦ l.isWake = false) s ∧ Wedged 0 1 s :=
  ⟨(serviceProtocol _ _).run handshakeStart handshakeGap,
    Protocol.Reaches.run_of_allows (.start handshakeStart_start) (by decide +kernel),
    by rw [Wedged]; decide +kernel⟩

/-- The same call, with the server back in its wait before the client calls again. -/
def handshakeInTime : List (CoopLabel (3 : UInt32).toNat ServiceOp) :=
  .resume 1 :: handshakeRound 5 ++
    [.call .yield, .resume 0, .call .eventWait, .resume 1,
      .call (.sendRequest 6), .call .signal, .call .acquire]

theorem service_handshake_in_time :
    let s := (serviceProtocol _ _).run handshakeStart handshakeInTime
    s.object.requestMailbox.hasMessage ≠ 0 ∧ ¬ Wedged 0 1 s :=
  ⟨by decide +kernel, service_handshake
    (Protocol.Reaches.run_of_allows (.start handshakeStart_start) (by decide +kernel))⟩

end TensorOS
