import TensorOS.Ipc.Handshake

/-!
# Several clients and the server

Requests and answers carry no name. The server takes the requests in the order in which they were
accepted and answers in this order, and the answers are collected in the order in which the clients
take the tokens. A client whose request comes later may take the token first, and then collects the
answer to another's request (`reply_misdelivered`).

When the tokens are taken in the order of the requests, every call collects the total that the
server computed for it (`replies_in_turn`).
-/

namespace TensorOS

variable {n : ℕ}

/-! ## What the log tells -/

/-- What has happened to requests and answers, each list in order: the accepted requests with their
clients, the requests the server has taken, those it has processed with the totals, the answers it
has sent, the clients that have taken a token, and the answers collected with their clients. -/
structure ServiceTrace (n : ℕ) where
  accepted : List (Fin n × UInt32)
  taken : List UInt32
  computed : List (UInt32 × UInt32)
  sent : List UInt32
  takers : List (Fin n)
  collected : List (Fin n × UInt32)

/-- One more entry of the log. -/
def ServiceTrace.add (t : ServiceTrace n) (entry : Fin n × ServiceResult) : ServiceTrace n :=
  match entry.2 with
  | .requested request => { t with accepted := t.accepted ++ [(entry.1, request)] }
  | .received request => { t with taken := t.taken ++ [request] }
  | .computed request total => { t with computed := t.computed ++ [(request, total)] }
  | .replied response => { t with sent := t.sent ++ [response] }
  | .acquired => { t with takers := t.takers ++ [entry.1] }
  | .responded response => { t with collected := t.collected ++ [(entry.1, response)] }
  | .nothing => t

/-- The trace of a log. -/
def serviceTrace (log : List (Fin n × ServiceResult)) : ServiceTrace n :=
  log.foldl ServiceTrace.add ⟨[], [], [], [], [], []⟩

theorem serviceTrace_append (log : List (Fin n × ServiceResult)) (entry : Fin n × ServiceResult) :
    serviceTrace (log ++ [entry]) = (serviceTrace log).add entry := by
  rw [serviceTrace, List.foldl_append, serviceTrace]
  rfl

/-- The clients of the accepted requests, in order. -/
def ServiceTrace.order (t : ServiceTrace n) : List (Fin n) := t.accepted.map Prod.fst

/-- The number of the latest request of the client. -/
def ServiceTrace.latestRequest (t : ServiceTrace n) (i : Fin n) : ℕ :=
  t.order.length - 1 - t.order.reverse.idxOf i

/-- The total that the server computed when it processed the latest request of the client. The
server takes the requests in their order, so it is the total with the number of the request. -/
def ServiceTrace.totalFor (t : ServiceTrace n) (i : Fin n) : Option UInt32 :=
  t.computed[t.latestRequest i]?.map Prod.snd

/-- Each call that has returned stored the total that the server computed for it. -/
def Answered (log : List (Fin n × ServiceResult)) : Prop :=
  ∀ m i response, log[m]? = some (i, .responded response) →
    (serviceTrace (log.take m)).totalFor i = some response

/-- A token is taken by the client whose request is next in the order of acceptance. -/
def TakesInTurn (s : ServiceSystem n) (i : Fin n) (op : ServiceOp) : Prop :=
  op = .acquire → s.object.replySemaphore.count ≠ 0 →
    (serviceTrace s.log).order[(serviceTrace s.log).takers.length]? = some i

instance (s : ServiceSystem n) (i : Fin n) (op : ServiceOp) : Decidable (TakesInTurn s i op) :=
  inferInstanceAs (Decidable (_ → _ → _))

/-! ## The invariant -/

/-- The request the server has in hand. -/
def ServicePoint.inHand : ServicePoint → List UInt32
  | .lock request | .compute request => [request]
  | _ => []

/-- The answer the server has in hand. -/
def ServicePoint.toSend : ServicePoint → List UInt32
  | .unlock response | .reply response => [response]
  | _ => []

/-- How many answers are sent without a token for them. -/
def ServicePoint.owed : ServicePoint → ℕ
  | .release => 1
  | _ => 0

/-- The client is between its request and its token. -/
def ServicePoint.waiting : ServicePoint → Bool
  | .signal | .acquire => true
  | _ => false

/-- Every request goes through the mailbox, the server's hands, the second mailbox and the hands of
a client with a token, in order. -/
structure Pipeline (server : Fin n) (x : Service n ServiceQueue) (t : ServiceTrace n) : Prop where
  serves : (x.points server).role = .server
  clients : ∀ i, i ≠ server → (x.points i).role ≠ .server
  taken : t.accepted.map Prod.snd = t.taken ++ x.requestMailbox.buffered
  processed : t.taken = t.computed.map Prod.fst ++ (x.points server).inHand
  sent : t.computed.map Prod.snd = t.sent ++ (x.points server).toSend
  collected : t.sent = t.collected.map Prod.snd ++ x.replyMailbox.buffered
  tokens : x.replySemaphore.count.toNat + t.takers.length + (x.points server).owed
    = t.sent.length
  order : ∃ waiting collecting, t.order = t.takers ++ waiting ∧ waiting.Nodup ∧
    t.takers = t.collected.map Prod.fst ++ collecting ∧
    (∀ i, i ∈ waiting ↔ (x.points i).waiting = true) ∧
    ∀ i, i ∈ collecting ↔ x.points i = .collect

section Pipeline

variable {server i : Fin n} {x y : Service n ServiceQueue} {t : ServiceTrace n}
  {point : ServicePoint}

/-- The server moves on. What it does to the mailboxes, the semaphore and the trace is left to
show. -/
theorem Pipeline.serverStep (h : Pipeline server x t) {t' : ServiceTrace n}
    (hpoints : y.points = x.points) (hrole : point.role = .server)
    (taken : t'.accepted.map Prod.snd = t'.taken ++ y.requestMailbox.buffered)
    (processed : t'.taken = t'.computed.map Prod.fst ++ point.inHand)
    (sent : t'.computed.map Prod.snd = t'.sent ++ point.toSend)
    (collected : t'.sent = t'.collected.map Prod.snd ++ y.replyMailbox.buffered)
    (tokens : y.replySemaphore.count.toNat + t'.takers.length + point.owed = t'.sent.length)
    (haccepted : t'.accepted = t.accepted) (htakers : t'.takers = t.takers)
    (hcollected : t'.collected = t.collected) : Pipeline server (y.goto server point) t' := by
  have hself : (y.goto server point).points server = point := by
    rw [Service.goto_points, Function.update_self]
  have hother : ∀ i, i ≠ server → (y.goto server point).points i = x.points i := fun i hi ↦ by
    rw [Service.goto_points, Function.update_of_ne hi, hpoints]
  obtain ⟨waiting, collecting, horder, hnodup, htake, hwait, hcollect⟩ := h.order
  refine ⟨by rw [hself, hrole], fun i hi ↦ by rw [hother i hi]; exact h.clients i hi, taken,
    by rw [hself]; exact processed, by rw [hself]; exact sent, collected,
    by rw [hself]; exact tokens, waiting, collecting, ?_, hnodup, ?_, fun i ↦ ?_, fun i ↦ ?_⟩
  · rw [ServiceTrace.order, haccepted, htakers]
    exact horder
  · rw [htakers, hcollected]
    exact htake
  -- the server is neither waiting nor collecting, before and after
  · by_cases hi : i = server
    · subst hi
      rw [hself, hwait]
      have hserves := h.serves
      refine iff_of_false ?_ ?_
      · intro hw
        cases hp : x.points i <;> simp_all [ServicePoint.waiting, ServicePoint.role]
      · intro hw
        cases point <;> simp_all [ServicePoint.waiting, ServicePoint.role]
    · rw [hother i hi, hwait]
  · by_cases hi : i = server
    · subst hi
      rw [hself, hcollect]
      refine iff_of_false (fun hp ↦ ?_) fun hp ↦ ?_
      · have hserves := h.serves
        rw [hp] at hserves
        cases hserves
      · rw [hp] at hrole
        cases hrole
    · rw [hother i hi, hcollect]

/-- A client moves on. -/
theorem Pipeline.clientStep (h : Pipeline server x t) {t' : ServiceTrace n} (hi : i ≠ server)
    (hpoints : y.points = x.points) (hrole : point.role ≠ .server)
    (taken : t'.accepted.map Prod.snd = t.taken ++ y.requestMailbox.buffered)
    (collected : t.sent = t'.collected.map Prod.snd ++ y.replyMailbox.buffered)
    (tokens : y.replySemaphore.count.toNat + t'.takers.length + (x.points server).owed
      = t.sent.length)
    (htaken : t'.taken = t.taken) (hcomputed : t'.computed = t.computed) (hsent : t'.sent = t.sent)
    (order : ∃ waiting collecting, t'.order = t'.takers ++ waiting ∧ waiting.Nodup ∧
      t'.takers = t'.collected.map Prod.fst ++ collecting ∧
      (∀ j, j ∈ waiting ↔ (Function.update x.points i point j).waiting = true) ∧
      ∀ j, j ∈ collecting ↔ Function.update x.points i point j = .collect) :
    Pipeline server (y.goto i point) t' := by
  have hserver : (y.goto i point).points server = x.points server := by
    rw [Service.goto_points, Function.update_of_ne (Ne.symm hi), hpoints]
  refine ⟨by rw [hserver]; exact h.serves, fun j hj ↦ ?_, by rw [htaken]; exact taken,
    by rw [htaken, hcomputed, hserver]; exact h.processed,
    by rw [hcomputed, hsent, hserver]; exact h.sent, by rw [hsent]; exact collected,
    by rw [hsent, hserver]; exact tokens, by rw [Service.goto_points, hpoints]; exact order⟩
  rw [Service.goto_points, hpoints, Function.update_apply]
  split
  · exact hrole
  · exact h.clients j hj

/-- There is at most one answer between the two mailboxes' ends, so at most one token. -/
theorem Pipeline.tokens_le (h : Pipeline server x t) :
    ∃ waiting collecting, t.order = t.takers ++ waiting ∧ waiting.Nodup ∧
      t.takers = t.collected.map Prod.fst ++ collecting ∧
      (∀ i, i ∈ waiting ↔ (x.points i).waiting = true) ∧
      (∀ i, i ∈ collecting ↔ x.points i = .collect) ∧
      x.replySemaphore.count.toNat + collecting.length + (x.points server).owed
        = x.replyMailbox.buffered.length := by
  obtain ⟨waiting, collecting, horder, hnodup, htake, hwait, hcollect⟩ := h.order
  refine ⟨waiting, collecting, horder, hnodup, htake, hwait, hcollect, ?_⟩
  have htokens := h.tokens
  rw [h.collected, htake, List.length_append, List.length_append, List.length_map,
    List.length_map] at htokens
  omega

theorem KernelMailbox.buffered_length_le {κ : Type} (mailbox : KernelMailbox κ) :
    mailbox.buffered.length ≤ 1 := by
  rw [KernelMailbox.buffered]
  split <;> simp

end Pipeline

/-- The last place of an element, counted from the end. -/
theorem length_sub_idxOf_reverse {α : Type*} [DecidableEq α] {a : α} {l l' : List α}
    (h : a ∉ l') :
    (l ++ a :: l').length - 1 - (l ++ a :: l').reverse.idxOf a = l.length := by
  have hindex : (l ++ a :: l').reverse.idxOf a = l'.length := by
    rw [List.reverse_append, List.reverse_cons, List.append_assoc,
      List.idxOf_append_of_notMem (by simpa using h)]
    simp
  rw [hindex, List.length_append, List.length_cons]
  omega

section Round

variable {server i : Fin n} {k k' : Kernel n ServiceQueue} {x x' : Service n ServiceQueue}
  {t : ServiceTrace n} {op : ServiceOp} {outcome : Outcome ServiceQueue ServiceOp ServiceResult}

theorem Pipeline.eq_server (h : Pipeline server x t) (hrole : (x.points i).role = .server) :
    i = server := by
  by_contra hne
  exact h.clients i hne hrole

theorem Pipeline.ne_server (h : Pipeline server x t) (hrole : (x.points i).role ≠ .server) :
    i ≠ server := by
  rintro rfl
  exact hrole h.serves

theorem Pipeline.receives (h : Pipeline server x t) (hat : x.points server = .receive)
    (hfull : x.requestMailbox.hasMessage ≠ 0) :
    Pipeline server ({ x with requestMailbox := { x.requestMailbox with hasMessage := 0 } }.goto
      server (.lock x.requestMailbox.message))
      (t.add (server, .received x.requestMailbox.message)) := by
  have htaken := h.taken
  have hprocessed := h.processed
  have hsent := h.sent
  have htokens := h.tokens
  rw [KernelMailbox.buffered, if_neg hfull] at htaken
  rw [hat] at hprocessed hsent htokens
  refine h.serverStep rfl rfl ?_ ?_ hsent h.collected htokens rfl rfl rfl
  · simpa [ServiceTrace.add, KernelMailbox.buffered] using htaken
  · simpa [ServiceTrace.add, ServicePoint.inHand] using hprocessed

theorem Pipeline.computes (h : Pipeline server x t) {request total : UInt32}
    (hat : x.points server = .compute request) {y : Service n ServiceQueue}
    (hy : y.points = x.points) (hrequests : y.requestMailbox = x.requestMailbox)
    (hreplies : y.replyMailbox = x.replyMailbox)
    (hsemaphore : y.replySemaphore = x.replySemaphore) :
    Pipeline server (y.goto server (.unlock total))
      (t.add (server, .computed request total)) := by
  have hprocessed := h.processed
  have hsent := h.sent
  have htokens := h.tokens
  rw [hat] at hprocessed hsent htokens
  refine h.serverStep hy rfl (hrequests ▸ h.taken) ?_ ?_ (hreplies ▸ h.collected)
    (hsemaphore ▸ htokens) rfl rfl rfl
  · simpa [ServiceTrace.add, ServicePoint.inHand] using hprocessed
  · simpa [ServiceTrace.add, ServicePoint.toSend] using hsent

theorem Pipeline.replies (h : Pipeline server x t) {response : UInt32}
    (hat : x.points server = .reply response) (hempty : x.replyMailbox.hasMessage = 0) :
    Pipeline server ({ x with replyMailbox := { x.replyMailbox with
        message := response, hasMessage := 1 } }.goto server .release)
      (t.add (server, .replied response)) := by
  have hprocessed := h.processed
  have hsent := h.sent
  have hcollected := h.collected
  have htokens := h.tokens
  rw [hat] at hprocessed hsent htokens
  rw [KernelMailbox.buffered, if_pos hempty, List.append_nil] at hcollected
  refine h.serverStep rfl rfl h.taken hprocessed ?_ ?_ ?_ rfl rfl rfl
  · simpa [ServiceTrace.add, ServicePoint.toSend] using hsent
  · simpa [ServiceTrace.add, KernelMailbox.buffered] using hcollected
  · simpa [ServiceTrace.add, ServicePoint.owed] using htokens

/-- The server gives a token. Nobody can have left one, so there is room for it. -/
theorem Pipeline.releases (h : Pipeline server x t) (hat : x.points server = .release) :
    x.replySemaphore.count = 0 ∧
      Pipeline server ({ x with replySemaphore := { x.replySemaphore with
        count := x.replySemaphore.count + 1 } }.goto server .yield) t := by
  obtain ⟨waiting, collecting, -, -, -, -, -, hle⟩ := h.tokens_le
  have hbuffered := x.replyMailbox.buffered_length_le
  have hprocessed := h.processed
  have hsent := h.sent
  have htokens := h.tokens
  rw [hat] at hle hprocessed hsent htokens
  simp only [ServicePoint.owed] at hle htokens
  have hzero : x.replySemaphore.count = 0 := by
    rw [← UInt32.toNat_inj, UInt32.toNat_zero]
    omega
  refine ⟨hzero, h.serverStep rfl rfl h.taken hprocessed hsent h.collected ?_ rfl rfl rfl⟩
  rw [hzero] at htokens ⊢
  simpa [ServicePoint.owed, add_comm] using htokens

/-- The server moves on without touching requests and answers. -/
theorem Pipeline.passes (h : Pipeline server x t) {y : Service n ServiceQueue}
    {point : ServicePoint} (hy : y.points = x.points)
    (hrequests : y.requestMailbox = x.requestMailbox)
    (hreplies : y.replyMailbox = x.replyMailbox)
    (hsemaphore : y.replySemaphore = x.replySemaphore) (hrole : point.role = .server)
    (hinHand : point.inHand = (x.points server).inHand)
    (htoSend : point.toSend = (x.points server).toSend)
    (howed : point.owed = (x.points server).owed) : Pipeline server (y.goto server point) t := by
  refine h.serverStep hy hrole (hrequests ▸ h.taken) ?_ ?_ (hreplies ▸ h.collected) ?_ rfl rfl rfl
  · rw [hinHand]
    exact h.processed
  · rw [htoSend]
    exact h.sent
  · rw [howed, hsemaphore]
    exact h.tokens

/-- A request is accepted: its client waits at the end of the line. -/
theorem Pipeline.requests (h : Pipeline server x t) (hi : i ≠ server) (hat : x.points i = .idle)
    (request : UInt32) (hempty : x.requestMailbox.hasMessage = 0) :
    Pipeline server ({ x with requestMailbox := { x.requestMailbox with
        message := request, hasMessage := 1 } }.goto i .signal)
      (t.add (i, .requested request)) := by
  have htaken := h.taken
  rw [KernelMailbox.buffered, if_pos hempty, List.append_nil] at htaken
  obtain ⟨waiting, collecting, horder, hnodup, htake, hwait, hcollect⟩ := h.order
  have hnot : i ∉ waiting := by
    rw [hwait, hat]
    decide
  refine h.clientStep hi rfl (by decide) ?_ h.collected h.tokens rfl rfl rfl
    ⟨waiting ++ [i], collecting, ?_, ?_, htake, fun j ↦ ?_, fun j ↦ ?_⟩
  · simpa [ServiceTrace.add, KernelMailbox.buffered] using htaken
  · change (t.accepted ++ [(i, request)]).map Prod.fst = t.takers ++ (waiting ++ [i])
    rw [List.map_append, ← List.append_assoc, ← horder]
    rfl
  · exact hnodup.append (List.nodup_singleton i) (by simpa using hnot)
  · rw [List.mem_append, List.mem_singleton, hwait, Function.update_apply]
    split
    · next hj => simp [hj, ServicePoint.waiting]
    · next hj => simp [hj]
  · rw [hcollect, Function.update_apply]
    split
    · next hj => simp [hj, hat]
    · rfl

theorem Pipeline.signals (h : Pipeline server x t) (hi : i ≠ server)
    (hat : x.points i = .signal) : Pipeline server (x.goto i .acquire) t := by
  obtain ⟨waiting, collecting, horder, hnodup, htake, hwait, hcollect⟩ := h.order
  refine h.clientStep hi rfl (by decide) h.taken h.collected h.tokens rfl rfl rfl
    ⟨waiting, collecting, horder, hnodup, htake, fun j ↦ ?_, fun j ↦ ?_⟩
  · rw [hwait, Function.update_apply]
    split
    · next hj => simp [hj, hat, ServicePoint.waiting]
    · rfl
  · rw [hcollect, Function.update_apply]
    split
    · next hj => simp [hj, hat]
    · rfl

/-- A client takes a token. It is the first of the line. -/
theorem Pipeline.acquires (h : Pipeline server x t) (hi : i ≠ server)
    (hne : x.replySemaphore.count ≠ 0) (hturn : t.order[t.takers.length]? = some i) :
    Pipeline server ({ x with replySemaphore := { x.replySemaphore with
        count := x.replySemaphore.count - 1 } }.goto i .collect) (t.add (i, .acquired)) := by
  obtain ⟨waiting, collecting, horder, hnodup, htake, hwait, hcollect⟩ := h.order
  have hcount : (x.replySemaphore.count - 1).toNat + 1 = x.replySemaphore.count.toNat := by
    have hpos : x.replySemaphore.count.toNat ≠ 0 := fun hzero ↦ hne (UInt32.toNat_inj.mp hzero)
    have hone : (1 : UInt32) ≤ x.replySemaphore.count := by
      rw [UInt32.le_iff_toNat_le, UInt32.toNat_one]
      omega
    rw [UInt32.toNat_sub_of_le _ _ hone, UInt32.toNat_one]
    omega
  have htokens := h.tokens
  -- the line begins with this client
  rw [horder, List.getElem?_append_right le_rfl, Nat.sub_self, ← List.head?_eq_getElem?] at hturn
  obtain ⟨rest, rfl⟩ := List.head?_eq_some_iff.mp hturn
  rw [List.nodup_cons] at hnodup
  refine h.clientStep hi rfl (by decide) h.taken h.collected ?_ rfl rfl rfl
    ⟨rest, collecting ++ [i], ?_, hnodup.2, ?_, fun j ↦ ?_, fun j ↦ ?_⟩
  · simp only [ServiceTrace.add, List.length_append, List.length_singleton]
    omega
  · simpa [ServiceTrace.add, ServiceTrace.order] using horder
  · change t.takers ++ [i] = t.collected.map Prod.fst ++ (collecting ++ [i])
    rw [← List.append_assoc, ← htake]
  · have hj := hwait j
    rw [List.mem_cons] at hj
    rw [Function.update_apply]
    split
    · next heq => simp [heq, hnodup.1, ServicePoint.waiting]
    · next heq => rwa [or_iff_right heq] at hj
  · rw [List.mem_append, List.mem_singleton, hcollect, Function.update_apply]
    split
    · next heq => simp [heq]
    · next heq => simp [heq]

/-- A client collects an answer. It is the one to its own request. -/
theorem Pipeline.collects (h : Pipeline server x t) (hi : i ≠ server) (hat : x.points i = .collect)
    (hfull : x.replyMailbox.hasMessage ≠ 0) :
    t.totalFor i = some x.replyMailbox.message ∧
      Pipeline server ({ x with replyMailbox := { x.replyMailbox with hasMessage := 0 } }.goto i
        .idle) (t.add (i, .responded x.replyMailbox.message)) := by
  obtain ⟨waiting, collecting, horder, hnodup, htake, hwait, hcollect, hle⟩ := h.tokens_le
  have hbuffered : x.replyMailbox.buffered = [x.replyMailbox.message] := by
    rw [KernelMailbox.buffered, if_neg hfull]
  have hcollected := h.collected
  have hmem : i ∈ collecting := (hcollect i).mpr hat
  -- nobody else has a token
  obtain rfl : collecting = [i] := by
    rw [hbuffered, List.length_singleton] at hle
    have hpos := List.length_pos_of_mem hmem
    obtain ⟨j, hj⟩ := List.length_eq_one_iff.mp (by omega : collecting.length = 1)
    rw [hj, List.mem_singleton] at hmem
    rw [hj, hmem]
  have hlatest : t.latestRequest i = t.collected.length := by
    have hnot : i ∉ waiting := by
      rw [hwait, hat]
      decide
    rw [ServiceTrace.latestRequest, horder, htake, List.append_assoc, List.singleton_append,
      length_sub_idxOf_reverse hnot, List.length_map]
  constructor
  · rw [ServiceTrace.totalFor, hlatest, ← List.getElem?_map, h.sent, h.collected, hbuffered]
    simp
  refine h.clientStep hi rfl (by decide) h.taken ?_ h.tokens rfl rfl rfl
    ⟨waiting, [], horder, hnodup, ?_, fun j ↦ ?_, fun j ↦ ?_⟩
  · rw [hbuffered] at hcollected
    simpa [ServiceTrace.add, KernelMailbox.buffered] using hcollected
  · simpa [ServiceTrace.add] using htake
  · rw [hwait, Function.update_apply]
    split
    · next hj => simp [hj, hat, ServicePoint.waiting]
    · rfl
  · have hj := hcollect j
    rw [List.mem_singleton] at hj
    rw [Function.update_apply]
    split
    · simp
    · next hne => simp [← hj, hne]

end Round

/-! ## The invariant along a round -/

/-- The log after a round. -/
def Outcome.logged {κ Op ρ : Type} (i : Fin n) (log : List (Fin n × ρ)) :
    Outcome κ Op ρ → List (Fin n × ρ)
  | .returns result | .yields result => log ++ [(i, result)]
  | .waits _ _ => log

theorem answered_append {log : List (Fin n × ServiceResult)} {i : Fin n} {result : ServiceResult}
    (h : Answered log) (hresult : ∀ response, result = .responded response →
      (serviceTrace log).totalFor i = some response) : Answered (log ++ [(i, result)]) := by
  intro m j response hm
  obtain hlt | hge := Nat.lt_or_ge m log.length
  · rw [List.getElem?_append_left hlt] at hm
    rw [List.take_append_of_le_length hlt.le]
    exact h m j response hm
  · rw [List.getElem?_append_right hge, List.getElem?_singleton] at hm
    split at hm
    · next hzero =>
      simp only [Option.some_inj, Prod.mk.injEq] at hm
      obtain ⟨rfl, hm⟩ := hm
      obtain rfl : m = log.length := by omega
      rw [List.take_left]
      exact hresult response hm
    · cases hm

/-- The invariant of the service with its log. -/
structure InTurn (server : Fin n) (x : Service n ServiceQueue)
    (log : List (Fin n × ServiceResult)) :
    Prop where
  ok : ServiceOk x
  pipeline : Pipeline server x (serviceTrace log)
  answered : Answered log

section InTurn

variable {server i : Fin n} {k k' : Kernel n ServiceQueue} {x x' : Service n ServiceQueue}
  {log : List (Fin n × ServiceResult)} {result : ServiceResult} {op : ServiceOp}
  {outcome : Outcome ServiceQueue ServiceOp ServiceResult}

theorem InTurn.append (h : InTurn server x log) (hok : ServiceOk x')
    (hpipeline : Pipeline server x' ((serviceTrace log).add (i, result)))
    (hresult : ∀ response, result = .responded response →
      (serviceTrace log).totalFor i = some response) :
    InTurn server x' (log ++ [(i, result)]) :=
  ⟨hok, by rwa [serviceTrace_append], answered_append h.answered hresult⟩

/-- **One round.** A token is taken by the first of the line. -/
theorem InTurn.round (h : InTurn server x log)
    (hturn : op = .acquire → x.replySemaphore.count ≠ 0 →
      (serviceTrace log).order[(serviceTrace log).takers.length]? = some i)
    (hmove : ServiceMove i k x op k' x' outcome) (hqueues : x'.queueOf = x.queueOf) :
    InTurn server x' (outcome.logged i log) := by
  have hok := hmove.ok h.ok hqueues
  have hp := h.pipeline
  have hserver : (x.points i).role = .server → i = server := hp.eq_server
  have hclient : (x.points i).role ≠ .server → i ≠ server := hp.ne_server
  cases hmove with
  | waits | noRequest | locked | replyFull | requestFull | noToken | noReply => exact h
  | pauses => exact h.append hok hp (by rintro _ ⟨⟩)
  | waited hat =>
    obtain rfl := hserver (by rw [hat]; rfl)
    refine h.append hok (hp.passes rfl rfl rfl rfl rfl ?_ ?_ ?_) (by rintro _ ⟨⟩) <;>
      rw [hat] <;> rfl
  | receives hat hfull =>
    obtain rfl := hserver (by rw [hat]; rfl)
    exact h.append hok (hp.receives hat hfull) (by rintro _ ⟨⟩)
  | locks hat =>
    obtain rfl := hserver (by rw [hat]; rfl)
    refine h.append hok (hp.passes rfl rfl rfl rfl rfl ?_ ?_ ?_) (by rintro _ ⟨⟩) <;>
      rw [hat] <;> rfl
  | computes hat =>
    obtain rfl := hserver (by rw [hat]; rfl)
    exact h.append hok (hp.computes hat rfl rfl rfl rfl) (by rintro _ ⟨⟩)
  | unlocks hat =>
    obtain rfl := hserver (by rw [hat]; rfl)
    refine h.append hok (hp.passes rfl rfl rfl rfl rfl ?_ ?_ ?_) (by rintro _ ⟨⟩) <;>
      rw [hat] <;> rfl
  | replies hat hempty =>
    obtain rfl := hserver (by rw [hat]; rfl)
    exact h.append hok (hp.replies hat hempty) (by rintro _ ⟨⟩)
  | releases hat =>
    obtain rfl := hserver (by rw [hat]; rfl)
    exact h.append hok (hp.releases hat).2 (by rintro _ ⟨⟩)
  | tokensFull hat hone =>
    obtain rfl := hserver (by rw [hat]; rfl)
    rw [(hp.releases hat).1] at hone
    cases hone
  | yields hat =>
    obtain rfl := hserver (by rw [hat]; rfl)
    refine h.append hok (hp.passes rfl rfl rfl rfl rfl ?_ ?_ ?_) (by rintro _ ⟨⟩) <;>
      rw [hat] <;> rfl
  | requests hat hempty =>
    have hne := hclient (by rw [hat]; decide)
    exact h.append hok (hp.requests hne hat _ hempty) (by rintro _ ⟨⟩)
  | signals hat =>
    have hne := hclient (by rw [hat]; decide)
    exact h.append hok (hp.signals hne hat) (by rintro _ ⟨⟩)
  | acquires hat hcount =>
    have hne := hclient (by rw [hat]; decide)
    exact h.append hok (hp.acquires hne hcount (hturn rfl hcount)) (by rintro _ ⟨⟩)
  | collects hat hfull =>
    have hne := hclient (by rw [hat]; decide)
    obtain ⟨htotal, hafter⟩ := hp.collects hne hat hfull
    refine h.append hok hafter ?_
    rintro _ ⟨⟩
    exact htotal

end InTurn

/-- **What the rounds keep**, when the tokens are taken in turn. -/
theorem replies_keeps (server : Fin n) :
    (serviceProtocol n ServiceQueue).Keeps ServiceParked TakesInTurn
      (fun _ _ x log ↦ InTurn server x log) where
  wake h _ := h
  switch h _ _ := h
  round {s i op f} hsound hi hcond henters h := by
    have hcalls := calls_of_enters henters
    have hround := h.round hcond (h.ok.move i s.kernel hcalls)
      (serviceRound_queueOf i op s.kernel s.object)
    change Protocol.Settles _ i _ (serviceRound i op s.kernel s.object).2.1 s.log
      (serviceRound i op s.kernel s.object).2.2
    generalize (serviceRound i op s.kernel s.object).2.2 = outcome at hround ⊢
    cases outcome <;> exact hround

theorem ServiceStart.inTurn {server : Fin n} {s : ServiceSystem n} (h : ServiceStart server s) :
    InTurn server s.object s.log := by
  obtain ⟨-, hok, hrequests, hreplies, hcount⟩ := h.ok
  obtain ⟨hserver, hothers⟩ := h.2.1
  have hpoints : ∀ i, (s.object.points i).waiting = false ∧ s.object.points i ≠ .collect := by
    intro i
    by_cases hi : i = server
    · rw [hi, hserver]
      decide
    · obtain hpoint | hpoint := hothers i hi <;> rw [hpoint] <;> decide
  have hpipeline : Pipeline server s.object ⟨[], [], [], [], [], []⟩ := by
    refine ⟨by rw [hserver]; rfl, fun i hi ↦ ?_, ?_, ?_, ?_, ?_, ?_, [], [], rfl, List.nodup_nil,
      rfl, fun i ↦ by simp [hpoints i], fun i ↦ by simp [hpoints i]⟩
    · obtain hpoint | hpoint := hothers i hi <;> rw [hpoint] <;> decide
    · simp [KernelMailbox.buffered, hrequests]
    · simp [hserver, ServicePoint.inHand]
    · simp [hserver, ServicePoint.toSend]
    · simp [KernelMailbox.buffered, hreplies]
    · simp [hserver, hcount, ServicePoint.owed]
  rw [show s.log = [] from h.1.log]
  exact ⟨hok, hpipeline, fun m i response hm ↦ by cases hm⟩

/-- **Answers reach their requests when the tokens are taken in turn.** In every run of the server
with any number of clients in which each token is taken by the client whose request is next, each
call that has returned stored the total that the server computed for its request. The server
processes the requests in the order in which they were accepted. -/
theorem replies_in_turn {capacity : UInt32} {server : Fin capacity.toNat}
    {s : ServiceSystem capacity.toNat}
    (h : (serviceProtocol capacity.toNat ServiceQueue).Reaches (ServiceStart server)
      ((serviceProtocol _ _).Obeys TakesInTurn) s) :
    Answered s.log ∧ (serviceTrace s.log).computed.map Prod.fst <+:
      (serviceTrace s.log).accepted.map Prod.snd := by
  obtain ⟨-, hinv, -⟩ := (replies_keeps server).reaches service_lawful capacity.toNat_lt
    (fun s hs ↦ ⟨hs.ok.1, hs.inTurn, fun i queue op hp ↦ by rw [hs.1.pending i] at hp; cases hp⟩)
    (fun s l t i op hok henter ↦ hok.round henter) h
  refine ⟨hinv.answered, ?_⟩
  rw [hinv.pipeline.taken, hinv.pipeline.processed, List.append_assoc]
  exact List.prefix_append _ _

/-! ## Barging -/

/-- The server and two clients that have not run. -/
def repliesStart : ServiceSystem (3 : UInt32).toNat :=
  let points : Fin (3 : UInt32).toNat → ServicePoint := fun i ↦ if i.val = 0 then .wait else .idle
  let created := (serviceCreate points (fun _ ↦ ⟨0, 0, 0⟩, 0x1000)).get (by rfl)
  .init (readyProcesses _) created.2 created.1

theorem repliesStart_start : ServiceStart 0 repliesStart :=
  ⟨Coop.init_fresh _ _ fun _ ↦ rfl, ⟨rfl, by decide +kernel⟩, (fun _ ↦ ⟨0, 0, 0⟩, 0x1000), rfl⟩

/-- The first client sends 5 and waits for a token; the server takes the request, answers, gives a
token and yields. -/
def repliesServed : List (CoopLabel (3 : UInt32).toNat ServiceOp) :=
  [.resume 0, .call .eventWait, .resume 1, .call (.sendRequest 5),
    .call .signal, .call .acquire, .resume 0, .call .receiveRequest, .call .lock,
    .call .compute, .call .unlock, .call .sendReply, .call .release, .call .yield]

/-- The second client sends 7 and takes the token. -/
def repliesBarge : List (CoopLabel (3 : UInt32).toNat ServiceOp) :=
  repliesServed ++ [.resume 2, .call (.sendRequest 7), .call .signal, .call .acquire,
    .call .receiveReply]

/-- **An answer is misdelivered**: without any stray wake-up there is a run in which a client is
answered with the total of another client's request. -/
theorem reply_misdelivered : ∃ s : ServiceSystem (3 : UInt32).toNat,
    (serviceProtocol _ _).Reaches (ServiceStart 0) (fun _ l ↦ l.isWake = false) s ∧
      ¬ Answered s.log := by
  refine ⟨(serviceProtocol _ _).run repliesStart repliesBarge,
    Protocol.Reaches.run_of_allows (.start repliesStart_start) (by decide +kernel), fun h ↦ ?_⟩
  have hlast := h 13 2 5 (by decide +kernel)
  exact absurd hlast (by decide +kernel)

/-- The first client takes the token before the second client is resumed. -/
def repliesInTurn : List (CoopLabel (3 : UInt32).toNat ServiceOp) :=
  repliesServed ++ [.resume 1, .call .receiveReply, .call .yield,
    .resume 2, .call (.sendRequest 7), .call .signal, .call .acquire]

theorem replies_in_turn_two :
    let s := (serviceProtocol _ _).run repliesStart repliesInTurn
    s.log[11]? = some (1, .responded 5) ∧ Answered s.log ∧
    (serviceTrace s.log).computed.map Prod.fst <+:
      (serviceTrace s.log).accepted.map Prod.snd :=
  ⟨by decide +kernel, replies_in_turn
    (Protocol.Reaches.run_of_allows (.start repliesStart_start) (by decide +kernel))⟩

end TensorOS
