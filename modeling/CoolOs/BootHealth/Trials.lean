import CoolOs.BootHealth.Events
import CoolOs.Updates.Verified

namespace CoolOs.BootHealth

open Actions Files Text Services Trust Updates Action List

/-!
# Updates on trial

An update is on trial from the moment it was applied until it is validated or rolled
back.  Every boot and every validation moves the trial on, and the boot record represents
where it stands.
-/

variable {update : Text} {machine : Machine} {signals : List Signal}

inductive Trial where
  | waiting
  | validating
  | stuck
  | withdrawn
  | closed

/-- What happens to a trial.  A boot says whether a rollback failed in it. -/
inductive Signal where
  | boot (failed : Bool)
  | close
  | invalid

def Trial.next : Trial -> Signal -> Trial
  | .withdrawn, .boot _ => .withdrawn
  | .closed, .boot _ => .closed
  | .validating, .boot failed => if failed then .stuck else .withdrawn
  | .waiting, .boot _ => .validating
  | .stuck, .boot _ => .validating
  | .withdrawn, .close => .withdrawn
  | _, .close => .closed
  | _, .invalid => .validating

theorem Trial.next_ne_waiting (trial : Trial) (signal : Signal) : trial.next signal ≠ .waiting := by
  cases trial <;> rcases signal with ⟨_ | _⟩ | _ | _ <;> simp [Trial.next]

variable {trial : Trial}

theorem Trial.next_closed {signal : Signal} (closed : trial.next signal = .closed) :
    signal = .close ∨ trial = .closed := by
  cases trial <;> rcases signal with ⟨_ | _⟩ | _ | _ <;> simp [Trial.next] at closed ⊢

theorem Trial.foldl_ne_waiting (some : signals ≠ []) :
    signals.foldl Trial.next trial ≠ .waiting := by
  induction signals using reverseRecOn with
  | nil => exact absurd rfl some
  | append_singleton earlier signal _ =>
    rw [foldl_append]
    exact Trial.next_ne_waiting _ signal

theorem Trial.foldl_closed (closed : signals.foldl Trial.next trial = .closed)
    (opened : trial ≠ .closed) : Signal.close ∈ signals := by
  induction signals using reverseRecOn with
  | nil => exact absurd closed opened
  | append_singleton earlier signal ih =>
    rw [foldl_append] at closed
    rcases Trial.next_closed closed with rfl | before
    · exact mem_append_right _ mem_cons_self
    · exact mem_append_left _ (ih before)

/-- Where a record says that the trial of an update stands. -/
def Represents (update : Text) : Trial -> BootState -> Prop
  | .waiting, state => state.status = pending ∧ state.pendingUpdate = update
  | .validating, state =>
    state.status = validating ∧ state.pendingUpdate = update ∧ 0 < state.attempts
  | .stuck, state => state.status = recoveryFailed ∧ state.pendingUpdate = update
  | .withdrawn, state => state.pendingUpdate = noUpdate ∧ state.lastAutoRollback = update
  | .closed, state => state.pendingUpdate = noUpdate

/-- What an event does to the trial of an update.  Reasons are single lines. -/
inductive Event.Signals (update : Text) : Event -> Signal -> Prop where
  | boot (failed : Bool) : Signals update .boot (.boot failed)
  | good {reason : Text} (single : '\n' ∉ reason) : Signals update (.good reason) .close
  | manual {reason : Text} (single : '\n' ∉ reason) : Signals update (.manual reason) .close
  | invalid {updateId reason : Text} (same : recordedName updateId = update)
      (single : '\n' ∉ reason) : Signals update (.invalid updateId reason) .invalid

section

variable {trial : Trial} {state : BootState}

theorem attempts_of_validating (named : isNone update = false)
    (stands : Represents update .validating state) : shouldAutoRollback state = true := by
  rcases stands with ⟨status, same, attempts⟩
  rw [shouldAutoRollback, same, named, status, decide_eq_true attempts]
  rfl

theorem not_attempts_of_status
    (other : (state.status == validating || state.status == booting) = false) :
    shouldAutoRollback state = false := by
  rw [shouldAutoRollback, other, Bool.and_false]

theorem not_attempts_of_none (none : state.pendingUpdate = noUpdate) :
    shouldAutoRollback state = false := by
  rw [shouldAutoRollback, none]
  rfl

theorem started_validating (named : isNone update = false) (same : state.pendingUpdate = update) :
    Represents update .validating (startedState state) := by
  unfold startedState
  rw [same, named]
  refine ⟨rfl, rfl, ?_⟩
  exact Nat.lt_min.mpr ⟨Nat.succ_pos _, by decide⟩

/-- A boot rolls back if the boot before it validated, and is noted otherwise. -/
theorem boot_represents (named : isNone update = false) (stands : Represents update trial state) :
    (shouldAutoRollback state = true ∧ trial = .validating) ∨ (shouldAutoRollback state = false ∧
        Represents update (trial.next (.boot false)) (startedState state)) := by
  cases trial with
  | waiting =>
    refine .inr ⟨not_attempts_of_status ?_, started_validating named stands.2⟩
    rw [stands.1]
    decide
  | validating => exact .inl ⟨attempts_of_validating named stands, rfl⟩
  | stuck =>
    refine .inr ⟨not_attempts_of_status ?_, started_validating named stands.2⟩
    rw [stands.1]
    decide
  | withdrawn => exact .inr ⟨not_attempts_of_none stands.1, stands⟩
  | closed => exact .inr ⟨not_attempts_of_none stands, stands⟩

theorem recovered_represents (stands : Represents update .validating state) :
    Represents update .withdrawn (recoveredState state) := ⟨rfl, stands.2.1⟩

theorem failed_represents (stands : Represents update .validating state) (err : UpdateError) :
    Represents update .stuck (failedState state err) := ⟨rfl, stands.2.1⟩

theorem healthy_represents (stands : Represents update trial state) (now : Nat) (reason : Text) :
    Represents update (trial.next .close) (healthyState state now reason) := by
  cases trial with
  | withdrawn => exact ⟨rfl, stands.2⟩
  | _ => rfl

theorem invalid_represents (trial : Trial) (state : BootState) (update reason : Text) :
    Represents update (trial.next .invalid) (invalidState state update reason) := by
  have here : Represents update .validating (invalidState state update reason) :=
    ⟨rfl, rfl, Nat.lt_of_lt_of_le Nat.zero_lt_one (Nat.le_max_right _ _)⟩
  cases trial <;> exact here

/-- What was written still represents the trial when it is read. -/
theorem represents_read (storable : state.Storable) (stands : Represents update trial state) :
    Represents update trial (stateOf (some (encode (stateText state)))) := by
  have read : stateOf (some (encode (stateText state))) = parseState (stateText state) := by
    rw [stateOf, Option.bind_some, fromUtf8_encode]
  rcases parseState_text storable with ⟨status, same, attempts, last⟩
  rw [read]
  cases trial with
  | waiting => exact ⟨status.trans stands.1, same.trans stands.2⟩
  | validating =>
    refine ⟨status.trans stands.1, same.trans stands.2.1, ?_⟩
    rw [attempts]
    exact stands.2.2
  | stuck => exact ⟨status.trans stands.1, same.trans stands.2⟩
  | withdrawn => exact ⟨same.trans stands.1, last.trans stands.2⟩
  | closed => exact same.trans stands

end

/-- Events that concern one update, with single lines for reasons. -/
def Event.Concerns (update : Text) (event : Event) : Prop :=
  Exists fun signal => Event.Signals update event signal

section

variable {trial : Trial} {event : Event} {after : Machine}

theorem prepared_represents (named : isNone update = false) (token : Token update)
    (read : (opened Empty machine).1 = .ok (recordOf machine))
    (stands : Represents update trial (recordOf machine)) (concerns : event.Concerns update)
    {state : BootState} (ready : prepared Empty event machine = (.ok state, after)) :
    state.Storable ∧ ∃ signal, Event.Signals update event signal ∧
      Represents update (trial.next signal) state := by
  have known : (recordOf machine).Read := stateOf_read _
  rcases concerns with ⟨signal, signals⟩
  have opening : ∀ {loaded between}, opened Empty machine = (.ok loaded, between) ->
      loaded = recordOf machine := by
    intro loaded between ran
    rw [ran] at read
    exact Except.ok.inj read
  cases signals with
  | boot failed =>
    rcases bind_ok ready with ⟨loaded, _, begins, rest⟩
    rcases bind_ok rest with ⟨begun, _, stepped, rest⟩
    cases rest
    rw [opening begins] at stepped
    rcases boot_represents named stands with ⟨attempts, rfl⟩ | ⟨none, started⟩
    · rcases bootStep_ok stepped with ⟨_, recovered | ⟨err, stuck⟩⟩ | ⟨none, _⟩
      · rw [recovered]
        exact ⟨recovered_storable known, _, .boot false, recovered_represents stands⟩
      · rw [stuck]
        exact ⟨failed_storable known err, _, .boot true, failed_represents stands err⟩
      · rw [attempts] at none
        cases none
    · rcases bootStep_ok stepped with ⟨attempts, _⟩ | ⟨_, same⟩
      · rw [none] at attempts
        cases attempts
      · rw [same]
        exact ⟨started_storable known, _, .boot false, started⟩
  | good single =>
    rcases bind_ok ready with ⟨loaded, _, begins, rest⟩
    rcases bind_ok rest with ⟨now, _, _, rest⟩
    cases rest
    rw [opening begins]
    exact ⟨healthy_storable known now single, _, .good single, healthy_represents stands now _⟩
  | manual single =>
    rcases bind_ok ready with ⟨loaded, _, begins, rest⟩
    rcases bind_ok rest with ⟨now, _, _, rest⟩
    cases rest
    rw [opening begins]
    exact ⟨healthy_storable known now single, _, .manual single, healthy_represents stands now _⟩
  | invalid same single =>
    rcases bind_ok ready with ⟨loaded, _, begins, rest⟩
    cases rest
    rw [opening begins, same]
    exact ⟨invalid_storable known token single, _, .invalid same single,
      invalid_represents trial _ update _⟩

/-- Every event moves the trial on. -/
theorem step_represents (named : isNone update = false) (token : Token update)
    (faithful : Faithful event machine) (stands : Represents update trial (recordOf machine))
    (concerns : event.Concerns update) :
    ∃ signal, Event.Signals update event signal ∧
      Represents update (trial.next signal) (recordOf (step event machine)) := by
  rcases sure_prepared event machine with ⟨state, between, ready⟩
  rcases prepared_represents named token faithful.read stands concerns (ready Empty) with
    ⟨storable, signal, signals, represents⟩
  have usable : ∀ updateId reason, event = .invalid updateId reason ->
      isNone (recordedName updateId) = false := by
    rintro updateId reason rfl
    cases signals with
    | invalid same _ => rw [same, named]
  rw [recordOf_step (ready Empty) (faithful.taken (ready Empty)) usable]
  exact ⟨signal, signals, represents_read storable represents⟩

end

/-- What happens to a machine: events that the volume records, and anything else, a crash
in the middle of one included, that leaves the record alone. -/
inductive Runs (start : Machine) : List Event -> Machine -> Prop where
  | start : Runs start [] start
  | event {events : List Event} {machine : Machine} {event : Event}
      (before : Runs start events machine) (faithful : Faithful event machine) :
      Runs start (events ++ [event]) (step event machine)
  | other {events : List Event} {machine after : Machine} (before : Runs start events machine)
      (same : recordOf after = recordOf machine) : Runs start events after

variable {events : List Event}

/-- The record represents the trial after every history. -/
theorem runs_represent {start : Machine} (named : isNone update = false) (token : Token update)
    (stands : Represents update trial (recordOf start)) (ran : Runs start events machine)
    (concerns : ∀ event ∈ events, event.Concerns update) :
    ∃ signals, List.Forall₂ (Event.Signals update) events signals ∧
      Represents update (signals.foldl Trial.next trial) (recordOf machine) := by
  induction ran with
  | start => exact ⟨[], .nil, stands⟩
  | @event events machine event before faithful ih =>
    rcases ih fun other listed => concerns other (mem_append_left _ listed) with
      ⟨signals, follow, here⟩
    rcases step_represents named token faithful here
        (concerns event (mem_append_right _ mem_cons_self)) with
      ⟨signal, signalled, represents⟩
    refine ⟨signals ++ [signal], rel_append follow (.cons signalled .nil), ?_⟩
    rw [foldl_append]
    exact represents
  | other before same ih =>
    rcases ih concerns with ⟨signals, follow, here⟩
    rw [same]
    exact ⟨signals, follow, here⟩

theorem closing_event (follow : List.Forall₂ (Event.Signals update) events signals)
    (close : Signal.close ∈ signals) :
    ∃ reason, .good reason ∈ events ∨ .manual reason ∈ events := by
  induction follow with
  | nil => cases close
  | @cons event signal events signals signalled _ ih =>
    rcases mem_cons.mp close with rfl | later
    · cases signalled with
      | @good reason _ => exact ⟨reason, .inl mem_cons_self⟩
      | @manual reason _ => exact ⟨reason, .inr mem_cons_self⟩
    · rcases ih later with ⟨reason, good | manual⟩
      · exact ⟨reason, .inl (mem_cons_of_mem _ good)⟩
      · exact ⟨reason, .inr (mem_cons_of_mem _ manual)⟩

theorem applied_represents {updateId : Text} (applied : Faithful (.applied updateId) machine) :
    Represents (recordedName updateId) .waiting (recordOf (step (.applied updateId) machine)) := by
  rcases sure_prepared (.applied updateId) machine with ⟨state, between, ready⟩
  rcases bind_ok (ready Empty) with ⟨loaded, _, begins, rest⟩
  have read := applied.read
  rw [begins] at read
  cases rest
  rw [recordOf_step (ready Empty) (applied.taken (ready Empty)) nofun, Except.ok.inj read]
  exact represents_read (pending_storable (stateOf_read _) updateId) ⟨rfl, rfl⟩

/-- A machine with nothing on its volume. -/
def bareMachine : Machine where
  kernel := holding [] []
  services := []
  flushes := false
  journal _ := []

def trialName : Text := "u1".toList

def bareApplied : Machine := step (.applied trialName) bareMachine

/-- An update of one file, on a machine where one call fails: the one with a given number. -/
def faultyMachine (time : Nat) : Machine :=
  let machine := stagedMachine paddedCrypto (stagedLine paddedCrypto tmpA payload [9]) [tmpDir]
    [(payload, [9]), (tmpA, [1])]
  { machine with
    kernel := { machine.kernel with faults := fun now => if now = time then some .io else none }
    flushes := false }

/-- Whether the second boot after an update attempts a rollback, and which update is
pending after it, and whether the third boot does. -/
def laterBoots (crypto : Crypto) (machine : Machine) : Option (Bool × Text × Bool) :=
  match apply crypto machine with
  | (.error _, _) => none
  | (.ok _, applied) =>
    let first := step .boot applied
    let second := step .boot first
    some (attemptsRollback first, (recordOf second).pendingUpdate, attemptsRollback second)

end CoolOs.BootHealth
