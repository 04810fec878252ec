import TensorOS.Ui.Events

/-!
# The input service and the queue of events

`runtime_input.c`: a service with a queue of events, which its calls push and pop. The calls of the
service and those of the queue itself are one type here, `EventCall`, because they act on one queue.
A call is given pointers that may be null.

The purpose of the queue is stated by `EventCall.fifo`: a list of at most sixteen events, to which
events are appended at one end and from which they are taken at the other. Every run of calls on the
ring gives the answers of this list (`eventCalls_fifo`).
-/

namespace TensorOS

/-! ## The service -/

/-- `RUNTIME_UI_EVENT_QUEUE_CAPACITY`. -/
def uiEventQueueCapacity : ℕ := 16

def uiEventInputKey : UInt32 := 1
def uiEventInputPointerMove : UInt32 := 2
def uiEventInputPointerButton : UInt32 := 3
def uiEventFocus : UInt32 := 4

def inputRequestFlags : UInt32 := 1
def inputRequestDepth : UInt32 := 2

/-- `struct runtime_input_service`. -/
structure RuntimeInputService where
  flags : UInt32
  queue : RuntimeUiEventQueue

/-- `runtime_input_service_init`, on a service with any contents. -/
def runtimeInputServiceInit (service : RuntimeInputService) (flags : UInt32) :
    RuntimeInputService where
  flags := flags
  queue := runtimeUiEventQueueInit service.queue

/-- `runtime_input_service_request`: the response is there when the status is `OK`. -/
def runtimeInputServiceRequest (service : RuntimeInputService) (request : UInt32) :
    Int × Option UInt32 :=
  if request = inputRequestFlags then (Status.ok, some service.flags)
  else if request = inputRequestDepth then (Status.ok, some (UInt32.ofNat service.queue.count))
  else (Status.enosys, none)

/-- `runtime_input_push`. -/
def runtimeInputPush (service : RuntimeInputService)
    (type targetPid tick arg0 arg1 arg2 : UInt32) : Int × RuntimeInputService :=
  let event : RuntimeUiEvent :=
    { type := type, targetPid := targetPid, tick := tick, arg0 := arg0, arg1 := arg1, arg2 := arg2 }
  let (status, queue) := runtimeUiEventPush service.queue event
  (status, { service with queue := queue })

/-- `runtime_input_push_key`. -/
def runtimeInputPushKey (service : RuntimeInputService) (targetPid tick keycode pressed : UInt32) :
    Int × RuntimeInputService :=
  runtimeInputPush service uiEventInputKey targetPid tick keycode pressed 0

/-- `runtime_input_push_pointer_move`. -/
def runtimeInputPushPointerMove (service : RuntimeInputService) (targetPid tick x y : UInt32) :
    Int × RuntimeInputService :=
  runtimeInputPush service uiEventInputPointerMove targetPid tick x y 0

/-- `runtime_input_push_pointer_button`. -/
def runtimeInputPushPointerButton (service : RuntimeInputService)
    (targetPid tick button pressed : UInt32) : Int × RuntimeInputService :=
  runtimeInputPush service uiEventInputPointerButton targetPid tick button pressed 0

/-- `runtime_input_push_focus`. -/
def runtimeInputPushFocus (service : RuntimeInputService) (targetPid tick focused : UInt32) :
    Int × RuntimeInputService :=
  runtimeInputPush service uiEventFocus targetPid tick focused 0 0

/-- `runtime_input_pop`, and `runtime_ui_event_pop` on the queue of the service. -/
def runtimeInputPop (service : RuntimeInputService) :
    Int × Option RuntimeUiEvent × RuntimeInputService :=
  let (status, event, queue) := runtimeUiEventPop service.queue
  (status, event, { service with queue := queue })

/-! ## Calls -/

/-- The calls on the queue and those of the service. The pointer to the event that is pushed may be
null, and so may the pointer through which an event is returned. -/
inductive EventCall
  | push (event : Option RuntimeUiEvent)
  | peek (hasEvent : Bool)
  | pop (hasEvent : Bool)
  | pushKey (targetPid tick keycode pressed : UInt32)
  | pushPointerMove (targetPid tick x y : UInt32)
  | pushPointerButton (targetPid tick button pressed : UInt32)
  | pushFocus (targetPid tick focused : UInt32)
  | inputPop (hasEvent : Bool)

/-- The status that a call returns and the event that it stores. -/
abbrev EventAnswer := Int × Option RuntimeUiEvent

namespace EventCall

/-- A call on the service. -/
def run (call : EventCall) (service : RuntimeInputService) : EventAnswer × RuntimeInputService :=
  let answered : Int × RuntimeInputService → EventAnswer × RuntimeInputService :=
    fun (status, service) ↦ ((status, none), service)
  match call with
  | push none => ((Status.einval, none), service)
  | push (some event) =>
    let (status, queue) := runtimeUiEventPush service.queue event
    ((status, none), { service with queue := queue })
  | peek false | pop false | inputPop false => ((Status.einval, none), service)
  | peek true => (runtimeUiEventPeek service.queue, service)
  | pop true =>
    let (status, event, queue) := runtimeUiEventPop service.queue
    ((status, event), { service with queue := queue })
  | pushKey targetPid tick keycode pressed =>
    answered (runtimeInputPushKey service targetPid tick keycode pressed)
  | pushPointerMove targetPid tick x y =>
    answered (runtimeInputPushPointerMove service targetPid tick x y)
  | pushPointerButton targetPid tick button pressed =>
    answered (runtimeInputPushPointerButton service targetPid tick button pressed)
  | pushFocus targetPid tick focused =>
    answered (runtimeInputPushFocus service targetPid tick focused)
  | inputPop true =>
    let (status, event, service) := runtimeInputPop service
    ((status, event), service)

end EventCall

/-- Calls one after the other, with their answers. -/
def runEventCalls : List EventCall → RuntimeInputService →
    List EventAnswer × RuntimeInputService
  | [], service => ([], service)
  | call :: calls, service =>
    let (answer, service) := call.run service
    let (answers, service) := runEventCalls calls service
    (answer :: answers, service)

/-! ## The queue as a list -/

/-- An event is appended if it is one and there is room. -/
def fifoPush (event : RuntimeUiEvent) (stored : List RuntimeUiEvent) :
    EventAnswer × List RuntimeUiEvent :=
  if event.type = uiEventNone then ((Status.einval, none), stored)
  else if stored.length < uiEventQueueCapacity then ((Status.ok, none), stored ++ [event])
  else ((Status.enospc, none), stored)

/-- The oldest event is returned. -/
def fifoPeek : List RuntimeUiEvent → EventAnswer
  | [] => (Status.enoent, none)
  | event :: _ => (Status.ok, some event)

/-- What a call means for the list of the events that are stored, the oldest first. -/
def EventCall.fifo (call : EventCall) (stored : List RuntimeUiEvent) :
    EventAnswer × List RuntimeUiEvent :=
  match call with
  | push none | peek false | pop false | inputPop false => ((Status.einval, none), stored)
  | push (some event) => fifoPush event stored
  | peek true => (fifoPeek stored, stored)
  | pop true | inputPop true => (fifoPeek stored, stored.tail)
  | pushKey targetPid tick keycode pressed =>
    fifoPush ⟨uiEventInputKey, targetPid, tick, keycode, pressed, 0⟩ stored
  | pushPointerMove targetPid tick x y =>
    fifoPush ⟨uiEventInputPointerMove, targetPid, tick, x, y, 0⟩ stored
  | pushPointerButton targetPid tick button pressed =>
    fifoPush ⟨uiEventInputPointerButton, targetPid, tick, button, pressed, 0⟩ stored
  | pushFocus targetPid tick focused =>
    fifoPush ⟨uiEventFocus, targetPid, tick, focused, 0, 0⟩ stored

/-- The calls on the list, with their answers. -/
def fifoEventCalls : List EventCall → List RuntimeUiEvent →
    List EventAnswer × List RuntimeUiEvent
  | [], stored => ([], stored)
  | call :: calls, stored =>
    let (answer, stored) := call.fifo stored
    let (answers, stored) := fifoEventCalls calls stored
    (answer :: answers, stored)

/-! ## The ring behaves as the list -/

section Refinement

variable {queue : RuntimeUiEventQueue} {service service' : RuntimeInputService}
  {answer : EventAnswer} {spec : EventAnswer × List RuntimeUiEvent}

/-- What a call on a service answers and leaves is what a call on the list answers and leaves. If it
is refused, nothing has changed. -/
structure Follows (service : RuntimeInputService) (answer : EventAnswer)
    (service' : RuntimeInputService) (spec : EventAnswer × List RuntimeUiEvent) : Prop where
  answer_eq : answer = spec.1
  contents_eq : service'.queue.contents = spec.2
  count_le : service'.queue.count ≤ uiEventQueueCapacity
  flags_eq : service'.flags = service.flags
  refused : answer.1 ≠ Status.ok → service' = service

theorem follows_same (h : service.queue.count ≤ uiEventQueueCapacity)
    (hspec : spec = (answer, service.queue.contents)) : Follows service answer service spec := by
  rw [hspec]
  exact ⟨rfl, rfl, h, rfl, fun _ ↦ rfl⟩

theorem follows_push (h : service.queue.count ≤ uiEventQueueCapacity) (event : RuntimeUiEvent) :
    Follows service ((runtimeUiEventPush service.queue event).1, none)
      { service with queue := (runtimeUiEventPush service.queue event).2 }
      (fifoPush event service.queue.contents) := by
  rw [fifoPush, RuntimeUiEventQueue.length_contents]
  by_cases htype : event.type = uiEventNone
  · rw [runtimeUiEventPush, if_pos htype]
    exact follows_same h (if_pos htype)
  rw [if_neg htype]
  by_cases hroom : service.queue.count < uiEventQueueCapacity
  · obtain ⟨hok, hcount, hcontents⟩ := RuntimeUiEventQueue.push_of_room event hroom htype
    rw [if_pos hroom]
    refine ⟨by rw [hok], hcontents, ?_, rfl, fun hne ↦ absurd hok hne⟩
    rw [hcount]
    exact hroom
  · rw [RuntimeUiEventQueue.push_of_full event (not_lt.mp hroom) htype]
    exact follows_same h (if_neg hroom)

theorem peek_eq (queue : RuntimeUiEventQueue) :
    runtimeUiEventPeek queue = fifoPeek queue.contents := by
  rw [runtimeUiEventPeek]
  by_cases hempty : queue.count = 0
  · have hnil : queue.contents = [] :=
      List.eq_nil_of_length_eq_zero (RuntimeUiEventQueue.length_contents.trans hempty)
    rw [if_pos hempty, hnil]
    rfl
  · obtain ⟨-, -, hcontents⟩ := RuntimeUiEventQueue.pop_of_pos (Nat.pos_of_ne_zero hempty)
    rw [if_neg hempty, hcontents]
    rfl

/-- A pop answers what a peek answers. -/
theorem pop_answer_eq (queue : RuntimeUiEventQueue) :
    ((runtimeUiEventPop queue).1, (runtimeUiEventPop queue).2.1) = fifoPeek queue.contents := by
  rw [← peek_eq, runtimeUiEventPop, runtimeUiEventPeek]
  by_cases hempty : queue.count = 0
  · rw [if_pos hempty]
    rfl
  · rw [if_neg hempty]
    rfl

theorem follows_pop (h : service.queue.count ≤ uiEventQueueCapacity) :
    Follows service
      ((runtimeUiEventPop service.queue).1, (runtimeUiEventPop service.queue).2.1)
      { service with queue := (runtimeUiEventPop service.queue).2.2 }
      (fifoPeek service.queue.contents, service.queue.contents.tail) := by
  by_cases hempty : service.queue.count = 0
  · have hnil : service.queue.contents = [] :=
      List.eq_nil_of_length_eq_zero (RuntimeUiEventQueue.length_contents.trans hempty)
    rw [pop_answer_eq, (RuntimeUiEventQueue.pop_of_empty hempty).2]
    refine follows_same h ?_
    rw [hnil]
    rfl
  · obtain ⟨-, hcount, hcontents⟩ :=
      RuntimeUiEventQueue.pop_of_pos (Nat.pos_of_ne_zero hempty)
    refine ⟨pop_answer_eq _, ?_, ?_, rfl, fun hne ↦ absurd ?_ hne⟩
    · rw [hcontents]
      rfl
    · rw [hcount]
      exact (Nat.sub_le ..).trans h
    · rw [pop_answer_eq, hcontents]
      rfl

/-- **One call** on the ring is one call on the list. -/
theorem EventCall.follows (h : service.queue.count ≤ uiEventQueueCapacity) (call : EventCall) :
    Follows service (call.run service).1 (call.run service).2
      (call.fifo service.queue.contents) := by
  cases call with
  | push event =>
    cases event with
    | none => exact follows_same h rfl
    | some event => exact follows_push h event
  | peek hasEvent =>
    cases hasEvent with
    | false => exact follows_same h rfl
    | true =>
      refine follows_same h ?_
      rw [fifo, run, peek_eq]
  | pop hasEvent =>
    cases hasEvent with
    | false => exact follows_same h rfl
    | true => exact follows_pop h
  | pushKey targetPid tick keycode pressed =>
    exact follows_push h ⟨uiEventInputKey, targetPid, tick, keycode, pressed, 0⟩
  | pushPointerMove targetPid tick x y =>
    exact follows_push h ⟨uiEventInputPointerMove, targetPid, tick, x, y, 0⟩
  | pushPointerButton targetPid tick button pressed =>
    exact follows_push h ⟨uiEventInputPointerButton, targetPid, tick, button, pressed, 0⟩
  | pushFocus targetPid tick focused =>
    exact follows_push h ⟨uiEventFocus, targetPid, tick, focused, 0, 0⟩
  | inputPop hasEvent =>
    cases hasEvent with
    | false => exact follows_same h rfl
    | true => exact follows_pop h

/-- A run on the ring is the run on the list, from any state of the ring. -/
theorem runEventCalls_follows (h : service.queue.count ≤ uiEventQueueCapacity)
    (calls : List EventCall) :
    (runEventCalls calls service).1 = (fifoEventCalls calls service.queue.contents).1 ∧
      (runEventCalls calls service).2.queue.contents
        = (fifoEventCalls calls service.queue.contents).2 ∧
      (runEventCalls calls service).2.queue.count ≤ uiEventQueueCapacity ∧
      (runEventCalls calls service).2.flags = service.flags := by
  induction calls generalizing service with
  | nil => exact ⟨rfl, rfl, h, rfl⟩
  | cons call calls ih =>
    have hcall := call.follows h
    obtain ⟨hanswers, hcontents, hcount, hflags⟩ := ih hcall.count_le
    rw [hcall.contents_eq] at hanswers hcontents
    refine ⟨?_, hcontents, hcount, hflags.trans hcall.flags_eq⟩
    rw [runEventCalls, fifoEventCalls]
    exact congrArg₂ List.cons hcall.answer_eq hanswers

end Refinement

/-- **The queue of events is a queue**: from the initialisation on, the calls give the answers of a
list of capacity sixteen, the ring holds this list and reports its length, and a call that is
refused changes nothing. -/
theorem eventCalls_fifo (memory : RuntimeInputService) (flags : UInt32) (calls : List EventCall) :
    (runEventCalls calls (runtimeInputServiceInit memory flags)).1 = (fifoEventCalls calls []).1 ∧
      (runEventCalls calls (runtimeInputServiceInit memory flags)).2.queue.contents
        = (fifoEventCalls calls []).2 ∧
      (fifoEventCalls calls []).2.length ≤ uiEventQueueCapacity ∧
      runtimeInputServiceRequest (runEventCalls calls (runtimeInputServiceInit memory flags)).2
          inputRequestDepth
        = (Status.ok, some (UInt32.ofNat (fifoEventCalls calls []).2.length)) ∧
      ∀ call : EventCall,
        (call.run (runEventCalls calls (runtimeInputServiceInit memory flags)).2).1.1 ≠ Status.ok →
          (call.run (runEventCalls calls (runtimeInputServiceInit memory flags)).2).2
            = (runEventCalls calls (runtimeInputServiceInit memory flags)).2 := by
  have hinit : (runtimeInputServiceInit memory flags).queue.count ≤ uiEventQueueCapacity :=
    Nat.zero_le _
  obtain ⟨hanswers, hcontents, hcount, -⟩ := runEventCalls_follows hinit calls
  have hlength := congrArg List.length hcontents
  rw [RuntimeUiEventQueue.length_contents] at hlength
  refine ⟨hanswers, hcontents, ?_, ?_, fun call ↦ (call.follows hcount).refused⟩
  · exact hlength.symm.trans_le hcount
  · rw [runtimeInputServiceRequest, if_neg (by decide), if_pos rfl, hlength]
    rfl

end TensorOS
