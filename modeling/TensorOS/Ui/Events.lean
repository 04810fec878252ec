import TensorOS.Lib.Ring
import TensorOS.Syscall.Dispatch

/-!
# Events of the user interface

`runtime_ui.c`, as far as it is about events. Events wait in a ring of sixteen, from which they are
popped in the order in which they were pushed. The read index stays below sixteen and the count does
not exceed it, so that no sum of the two overflows.
-/

namespace TensorOS

/-! ## Events -/

def uiEventNone : UInt32 := 0
def uiEventTimer : UInt32 := 5

/-- `struct runtime_ui_event`. -/
structure RuntimeUiEvent where
  type : UInt32
  targetPid : UInt32
  tick : UInt32
  arg0 : UInt32
  arg1 : UInt32
  arg2 : UInt32
  deriving DecidableEq

/-- `struct runtime_ui_event_queue`. -/
structure RuntimeUiEventQueue where
  events : Fin 16 → RuntimeUiEvent
  readIndex : Fin 16
  count : ℕ

/-- `runtime_ui_event_queue_init`, on a queue with any events. -/
def runtimeUiEventQueueInit (queue : RuntimeUiEventQueue) : RuntimeUiEventQueue :=
  { queue with readIndex := 0, count := 0 }

/-- `runtime_ui_event_queue_write_index`. -/
def runtimeUiEventQueueWriteIndex (queue : RuntimeUiEventQueue) : Fin 16 :=
  Fin.ofNat 16 (queue.readIndex + queue.count)

/-- `runtime_ui_event_push`. -/
def runtimeUiEventPush (queue : RuntimeUiEventQueue) (event : RuntimeUiEvent) :
    Int × RuntimeUiEventQueue :=
  if event.type = uiEventNone then (Status.einval, queue)
  else if 16 ≤ queue.count then (Status.enospc, queue)
  else (Status.ok,
    { queue with
      events := Function.update queue.events (runtimeUiEventQueueWriteIndex queue) event
      count := queue.count + 1 })

/-- `runtime_ui_event_peek`: the event is there when the status is `OK`. -/
def runtimeUiEventPeek (queue : RuntimeUiEventQueue) : Int × Option RuntimeUiEvent :=
  if queue.count = 0 then (Status.enoent, none)
  else (Status.ok, some (queue.events queue.readIndex))

/-- `runtime_ui_event_pop`. -/
def runtimeUiEventPop (queue : RuntimeUiEventQueue) :
    Int × Option RuntimeUiEvent × RuntimeUiEventQueue :=
  let (status, event) := runtimeUiEventPeek queue
  if status ≠ Status.ok then (status, event, queue)
  else (Status.ok, event,
    { queue with
      readIndex := Fin.ofNat 16 (queue.readIndex + 1)
      count := queue.count - 1 })

/-! ## The ring -/

namespace RuntimeUiEventQueue

/-- The events in the ring, the oldest first. -/
def contents (queue : RuntimeUiEventQueue) : List RuntimeUiEvent :=
  (List.range queue.count).map fun k ↦ queue.events (Fin.ofNat 16 (queue.readIndex + k))

theorem contents_eq (queue : RuntimeUiEventQueue) :
    queue.contents = ringContents queue.events queue.readIndex queue.count := rfl

variable {queue : RuntimeUiEventQueue}

@[simp] theorem length_contents : queue.contents.length = queue.count := by
  rw [contents_eq, length_ringContents]

theorem push_of_full (event : RuntimeUiEvent) (h : 16 ≤ queue.count)
    (htype : event.type ≠ uiEventNone) :
    runtimeUiEventPush queue event = (Status.enospc, queue) := by
  rw [runtimeUiEventPush, if_neg htype, if_pos h]

theorem push_of_room (event : RuntimeUiEvent) (h : queue.count < 16)
    (htype : event.type ≠ uiEventNone) :
    (runtimeUiEventPush queue event).1 = Status.ok ∧
      (runtimeUiEventPush queue event).2.count = queue.count + 1 ∧
      (runtimeUiEventPush queue event).2.contents = queue.contents ++ [event] := by
  rw [runtimeUiEventPush, if_neg htype, if_neg (not_le.mpr h)]
  refine ⟨rfl, rfl, ?_⟩
  exact ringContents_update queue.events queue.readIndex h event

theorem pop_of_pos (h : 0 < queue.count) :
    (runtimeUiEventPop queue).2.1 = some (queue.events queue.readIndex) ∧
      (runtimeUiEventPop queue).2.2.count = queue.count - 1 ∧
      queue.contents = queue.events queue.readIndex :: (runtimeUiEventPop queue).2.2.contents := by
  have hpop : runtimeUiEventPop queue = (Status.ok, some (queue.events queue.readIndex),
      { queue with
        readIndex := Fin.ofNat 16 (queue.readIndex + 1)
        count := queue.count - 1 }) := by
    rw [runtimeUiEventPop, runtimeUiEventPeek, if_neg h.ne']
    rfl
  rw [hpop]
  refine ⟨rfl, rfl, ?_⟩
  obtain ⟨c, hc⟩ : ∃ c, queue.count = c + 1 := ⟨queue.count - 1, by omega⟩
  rw [contents_eq, contents_eq, hc]
  exact ringContents_succ queue.events queue.readIndex c

theorem pop_of_empty (h : queue.count = 0) :
    (runtimeUiEventPop queue).2.1 = none ∧ (runtimeUiEventPop queue).2.2 = queue := by
  rw [runtimeUiEventPop, runtimeUiEventPeek, if_pos h]
  exact ⟨rfl, rfl⟩

end RuntimeUiEventQueue

end TensorOS
