/-!
# The port state machine

`internal/application/ptpclient/fsm.go`: the slave-only port states of IEEE 1588-2008.
-/

namespace ProcessBus.Ptp.Client

/-- `PortState`. -/
inductive PortState
  | initializing | listening | uncalibrated | slave | faulty | stopped
deriving DecidableEq, Repr

/-- `FSMEvent`. -/
inductive FSMEvent
  | initComplete | rsSlave | masterClockSelected | announceTimeout | syncFault | fault
  | faultCleared | masterChanged
deriving DecidableEq, Repr

/-- `SlavePortFSM`; an event that a state does not mention leaves it. -/
def slavePortFSM : PortState → FSMEvent → PortState
  | .initializing, .fault => .faulty
  | .initializing, .initComplete => .listening
  | .faulty, .faultCleared => .initializing
  | .listening, .fault => .faulty
  | .listening, .rsSlave => .uncalibrated
  | .listening, .announceTimeout => .listening
  | .uncalibrated, .fault => .faulty
  | .uncalibrated, .announceTimeout => .listening
  | .uncalibrated, .masterClockSelected => .slave
  | .uncalibrated, .masterChanged => .uncalibrated
  | .slave, .fault => .faulty
  | .slave, .announceTimeout => .listening
  | .slave, .syncFault => .uncalibrated
  | .slave, .masterChanged => .uncalibrated
  | state, _ => state

/-- `UNCALIBRATED` and `SLAVE`: the states in which a port follows a master. -/
def PortState.Following (state : PortState) : Prop := state = .uncalibrated ∨ state = .slave

instance (state : PortState) : Decidable state.Following :=
  inferInstanceAs (Decidable (_ ∨ _))

/-- Without a master the port does not follow. -/
theorem not_following_announceTimeout (state : PortState) :
    ¬ (slavePortFSM state .announceTimeout).Following := by
  cases state <;> decide

/-- A port begins to follow on one event only. -/
theorem not_following_of_ne_rsSlave {state : PortState} {event : FSMEvent}
    (h : ¬ state.Following) (he : event ≠ .rsSlave) : ¬ (slavePortFSM state event).Following := by
  cases state with
  | uncalibrated => exact absurd (.inl rfl) h
  | slave => exact absurd (.inr rfl) h
  | initializing | listening | faulty | stopped =>
      cases event <;> first | decide | exact absurd rfl he

end ProcessBus.Ptp.Client
