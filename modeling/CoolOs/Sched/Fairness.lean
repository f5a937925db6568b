import CoolOs.Sched.AddressSpaces

namespace CoolOs.Sched

open Option

/-!
# Soundness and fairness of the round-robin choice

After a tick exactly one task runs, it was ready once the ticks and signals had been
applied, and only the stack pointer of the task that gave way has changed.  A ready task
waits for at most one round of the table, because every choice that passes it by brings the
search closer to it.
-/

namespace Scheduler

/-- The table in which the next task is looked for. -/
def readied (sched : Scheduler) (currentRsp : Nat) (now : UInt64) : Scheduler :=
  (sched.saveCurrent currentRsp).settle now

section

variable (sched : Scheduler) (currentRsp : Nat) (now : UInt64) (taskId : Nat)

theorem readied_length : (sched.readied currentRsp now).tasks.length = sched.tasks.length := by
  simp [readied, settle, saveCurrent, modifyTask]

theorem readied_task : (sched.readied currentRsp now).tasks[taskId]? =
      ((sched.saveCurrent currentRsp).tasks[taskId]?).map
        (fun task => deliverPending taskId (wakeAt now task)) := List.getElem?_mapIdx

theorem saved_other (other : taskId ≠ sched.current) :
    (sched.saveCurrent currentRsp).tasks[taskId]? = sched.tasks[taskId]? :=
  modifyTask_other sched _ (Ne.symm other)

end

theorem wakeAt_fields (now : UInt64) (task : Task) : (wakeAt now task).stackPtr = task.stackPtr ∧
      ((wakeAt now task).status = .running -> task.status = .running) ∧
      (task.status = .ready -> wakeAt now task = task) := by
  unfold wakeAt
  split
  next blocked _ =>
    refine ⟨?_, ?_, fun ready => absurd (blocked.symm.trans ready) nofun⟩
    · split <;> rfl
    · split
      · nofun
      · exact id
  next => exact ⟨rfl, id, fun _ => rfl⟩

theorem deliverPending_fields (index : Nat) (task : Task) :
    (deliverPending index task).stackPtr = task.stackPtr ∧
      ((deliverPending index task).status = .running -> task.status = .running) := by
  unfold deliverPending
  cases task.pendingSignal with
  | none => exact ⟨rfl, id⟩
  | some signal =>
    cases signal with
    | term => exact ⟨rfl, id⟩
    | int => exact ⟨rfl, id⟩
    | _ => dsimp only; split <;> simp

/-- A task that its pending signal does not stop. -/
def Heeds (taskId : Nat) (task : Task) : Prop :=
  taskId = 0 ∨ task.pendingSignal ≠ some .stop

/-- A ready task stays ready when its pending signal is delivered, unless that stops it. -/
theorem deliverPending_ready {taskId : Nat} {task : Task} (ready : task.status = .ready)
    (heeds : Heeds taskId task) :
    (deliverPending taskId task).status = .ready ∧
      (deliverPending taskId task).pendingSignal = none := by
  unfold deliverPending
  cases pending : task.pendingSignal with
  | none => exact ⟨ready, pending⟩
  | some signal =>
    cases signal with
    | stop =>
      have idle : taskId = 0 := heeds.resolve_right (fun other => other pending)
      simp [idle, ready]
    | _ => simp [ready]

/-- What one tick does to a table. -/
structure Switched (sched : Scheduler) (currentRsp : Nat) (now : UInt64)
    (after : Scheduler) : Prop where
  running : forall taskId, after.statusOf taskId = some .running <-> taskId = after.current
  chosen : (sched.readied currentRsp now).statusOf after.current = some .ready ∨
    after.current = 0 ∧ forall taskId, (sched.readied currentRsp now).statusOf taskId ≠ some .ready
  saved : (after.tasks[sched.current]?).map Task.stackPtr = some currentRsp
  others : forall taskId, taskId ≠ sched.current ->
    (after.tasks[taskId]?).map Task.stackPtr = (sched.tasks[taskId]?).map Task.stackPtr

section

variable {sched : Scheduler} {currentRsp : Nat} {now : UInt64} {taskId : Nat}

/-- Once the current task is saved nothing runs. -/
theorem readied_not_running
    (alone : ∀ other, other ≠ sched.current -> sched.statusOf other ≠ some .running) :
    (sched.readied currentRsp now).statusOf taskId ≠ some .running := by
  unfold statusOf
  rw [readied_task, map_map]
  intro running
  rcases map_eq_some_iff.mp running with ⟨task, found, runs⟩
  have before := (wakeAt_fields now task).2.1 ((deliverPending_fields taskId _).2 runs)
  by_cases here : taskId = sched.current
  · subst here
    rw [saveCurrent, modifyTask_self] at found
    rcases map_eq_some_iff.mp found with ⟨former, _, rfl⟩
    by_cases ran : former.status = .running <;> simp [ran] at before
  · rw [saved_other _ _ _ here] at found
    exact alone taskId here (by rw [statusOf, found, map_some, before])

theorem readied_stackPtr : ((sched.readied currentRsp now).tasks[taskId]?).map Task.stackPtr =
      ((sched.saveCurrent currentRsp).tasks[taskId]?).map Task.stackPtr := by
  rw [readied_task, map_map]
  congr 1
  funext task
  exact (deliverPending_fields taskId _).1.trans (wakeAt_fields now task).1

theorem activate_stackPtr (table : Scheduler) (next : Nat) :
    ((table.activate next).tasks[taskId]?).map Task.stackPtr =
      (table.tasks[taskId]?).map Task.stackPtr := by
  by_cases here : next = taskId
  · subst here
    change ((table.modifyTask _ _).tasks[_]?).map _ = _
    rw [modifyTask_self, map_map]
    rfl
  · exact congrArg _ (modifyTask_other table _ here)

theorem schedule_switches (inside : sched.current < sched.tasks.length)
    (alone : ∀ other, other ≠ sched.current -> sched.statusOf other ≠ some .running) :
    Switched sched currentRsp now (sched.schedule currentRsp now).2.2 := by
  have filled : sched.tasks ≠ [] := List.ne_nil_of_length_pos (Nat.zero_lt_of_lt inside)
  rw [schedule_after filled]
  change Switched sched currentRsp now
    ((sched.readied currentRsp now).activate (sched.readied currentRsp now).chooseNext)
  have tasks : (sched.readied currentRsp now).tasks ≠ [] := by
    apply List.ne_nil_of_length_pos
    rw [readied_length]
    exact Nat.zero_lt_of_lt inside
  have bound := chooseNext_lt tasks
  have stack := fun taskId => @activate_stackPtr taskId (sched.readied currentRsp now)
    (sched.readied currentRsp now).chooseNext
  refine ⟨fun taskId => ?_, ?_, ?_, fun taskId other => ?_⟩
  · by_cases here : (sched.readied currentRsp now).chooseNext = taskId
    · subst here
      simp [statusOf, activate, modifyTask, List.getElem?_eq_getElem bound]
    · refine iff_of_false ?_ (fun same => here same.symm)
      have kept := modifyTask_other (sched.readied currentRsp now)
        (fun task => { task with status := .running }) here
      change ((modifyTask _ _ _).tasks[taskId]?).map _ ≠ _
      rw [kept]
      exact readied_not_running alone
  · rcases chooseNext_spec (sched.readied currentRsp now) tasks with ready | ⟨idle, none⟩
    · exact .inl ready
    · refine .inr ⟨idle, fun taskId ready => ?_⟩
      rcases map_eq_some_iff.mp ready with ⟨task, found, isReady⟩
      exact none task (List.mem_of_getElem? found) isReady
  · rw [stack, readied_stackPtr, saveCurrent, modifyTask_self, List.getElem?_eq_getElem inside]
    rfl
  · rw [stack, readied_stackPtr, saved_other _ _ _ other]

end

variable {offset taskId : Nat} {sched : Scheduler}

/-- A search that would reach a ready task stops there or before. -/
theorem searchReady_near {tasks : List Task} {fuel start : Nat} (inside : start < tasks.length)
    (near : offset < fuel)
    (ready : tasks[(start + offset) % tasks.length]?.map Task.status = some .ready) :
    ∃ early ≤ offset,
      searchReady tasks fuel start = some ((start + early) % tasks.length) := by
  induction fuel generalizing start offset with
  | zero => omega
  | succ fuel ih =>
    rw [searchReady]
    split
    next => exact ⟨0, Nat.zero_le _, by rw [Nat.add_zero, Nat.mod_eq_of_lt inside]⟩
    next notReady =>
      cases offset with
      | zero =>
        rw [Nat.add_zero, Nat.mod_eq_of_lt inside] at ready
        exact absurd ready notReady
      | succ offset =>
        have onward : ∀ more, ((start + 1) % tasks.length + more) % tasks.length =
            (start + (more + 1)) % tasks.length := by
          intro more
          rw [Nat.mod_add_mod, Nat.add_assoc, Nat.add_comm 1 more]
        rcases ih (Nat.mod_lt _ (Nat.zero_lt_of_lt inside)) (Nat.lt_of_succ_lt_succ near)
          (by rwa [onward]) with ⟨early, sooner, found⟩
        exact ⟨early + 1, Nat.succ_le_succ sooner, by rw [found, onward]⟩

/-- A task that is ready and that no pending signal stops. -/
def Runnable (taskId : Nat) (sched : Scheduler) : Prop :=
  Exists fun task => sched.tasks[taskId]? = some task ∧ task.status = .ready ∧ Heeds taskId task

/-- What may happen between two ticks: anything to the other tasks, and to this one what
leaves its status alone and does not ask it to stop. -/
structure Spares (taskId : Nat) (before after : Scheduler) : Prop where
  current : after.current = before.current
  length : after.tasks.length = before.tasks.length
  status : after.statusOf taskId = before.statusOf taskId
  heeds : forall task, after.tasks[taskId]? = some task -> Heeds taskId task

/-- A runnable task is ready when the next task is looked for. -/
theorem Runnable.readied (runnable : Runnable taskId sched) (currentRsp : Nat) (now : UInt64) :
    (sched.readied currentRsp now).statusOf taskId = some .ready := by
  rcases runnable with ⟨task, found, ready, heeds⟩
  have saved : ∃ kept, (sched.saveCurrent currentRsp).tasks[taskId]? = some kept ∧
      kept.status = .ready ∧ Heeds taskId kept := by
    by_cases here : taskId = sched.current
    · subst here
      refine ⟨{ task with stackPtr := currentRsp }, ?_, ready, heeds⟩
      simp [saveCurrent, found, ready]
    · exact ⟨task, (saved_other _ _ _ here).trans found, ready, heeds⟩
  rcases saved with ⟨kept, keptFound, keptReady, keptHeeds⟩
  rw [statusOf, readied_task, keptFound, map_some, map_some,
    (wakeAt_fields now kept).2.2 keptReady, (deliverPending_ready keptReady keptHeeds).1]

/-- The choice passes by only tasks before a ready one. -/
theorem chooseNext_near {table : Scheduler} (ready : table.statusOf taskId = some .ready)
    (near : offset < table.tasks.length)
    (there : (table.current + 1 + offset) % table.tasks.length = taskId) :
    ∃ early ≤ offset,
      table.chooseNext = (table.current + 1 + early) % table.tasks.length := by
  have inside : (table.current + 1) % table.tasks.length < table.tasks.length :=
    Nat.mod_lt _ (Nat.zero_lt_of_lt near)
  have reached : table.tasks[((table.current + 1) % table.tasks.length + offset) %
      table.tasks.length]?.map Task.status = some .ready := by
    rw [Nat.mod_add_mod, there]
    exact ready
  rcases searchReady_near inside near reached with ⟨early, sooner, found⟩
  refine ⟨early, sooner, ?_⟩
  rw [chooseNext, found, getD_some, Nat.mod_add_mod]

/-- A tick either chooses a runnable task or leaves it runnable and comes closer to it. -/
theorem schedule_approaches {next : Scheduler} {currentRsp : Nat} {now : UInt64}
    (runnable : Runnable taskId sched) (near : offset < sched.tasks.length)
    (there : (sched.current + 1 + offset) % sched.tasks.length = taskId)
    (spares : Spares taskId (sched.schedule currentRsp now).2.2 next) :
    (sched.schedule currentRsp now).2.2.current = taskId ∨
      Runnable taskId next ∧ next.tasks.length = sched.tasks.length ∧
        ∃ closer < offset,
          (next.current + 1 + closer) % next.tasks.length = taskId := by
  have filled : sched.tasks ≠ [] := List.ne_nil_of_length_pos (Nat.zero_lt_of_lt near)
  have ready := runnable.readied currentRsp now
  have table := readied_length sched currentRsp now
  have same : (sched.readied currentRsp now).current = sched.current := rfl
  rw [schedule_after filled] at spares ⊢
  change Spares taskId ((sched.readied currentRsp now).activate
    (sched.readied currentRsp now).chooseNext) next at spares
  change (sched.readied currentRsp now).chooseNext = taskId ∨ _
  generalize sched.readied currentRsp now = middle at *
  rw [<- table, <- same] at there
  rw [<- table] at near ⊢
  rcases chooseNext_near ready near there with ⟨early, sooner, chosen⟩
  by_cases here : middle.chooseNext = taskId
  · exact .inl here
  have length : next.tasks.length = middle.tasks.length :=
    spares.length.trans (length_modifyTask _ _ _)
  have status : next.statusOf taskId = some .ready := by
    rw [spares.status, statusOf]
    exact (congrArg _ (modifyTask_other middle _ here)).trans ready
  rcases map_eq_some_iff.mp status with ⟨task, found, isReady⟩
  refine .inr ⟨⟨task, found, isReady, spares.heeds task found⟩, length, offset - early - 1, ?_, ?_⟩
  · have apart : early ≠ offset := by
      rintro rfl
      exact here (chosen.trans there)
    omega
  · have before : early < offset := by
      refine Nat.lt_of_le_of_ne sooner ?_
      rintro rfl
      exact here (chosen.trans there)
    have now : next.current = middle.chooseNext := spares.current
    rw [length, now, chosen, Nat.add_assoc, Nat.mod_add_mod, <- there]
    congr 1
    omega

/-- By induction on the distance, which shrinks with every tick that passes the task by. -/
theorem runnable_reached {states : Nat -> Scheduler} {pointers : Nat -> Nat} {ticks : Nat -> UInt64}
    (spares : ∀ turn,
      Spares taskId ((states turn).schedule (pointers turn) (ticks turn)).2.2 (states (turn + 1)))
    (bound turn offset : Nat) (within : offset <= bound)
    (near : offset < (states turn).tasks.length) (runnable : Runnable taskId (states turn))
    (there : ((states turn).current + 1 + offset) % (states turn).tasks.length = taskId) :
    ∃ later ≤ turn + bound,
      ((states later).schedule (pointers later) (ticks later)).2.2.current = taskId := by
  induction bound generalizing turn offset with
  | zero =>
    rcases schedule_approaches runnable near there (spares turn) with
      chosen | ⟨_, _, closer, sooner, _⟩
    · exact ⟨turn, Nat.le_add_right _ _, chosen⟩
    · omega
  | succ bound ih =>
    rcases schedule_approaches runnable near there (spares turn) with
      chosen | ⟨still, length, closer, sooner, reached⟩
    · exact ⟨turn, Nat.le_add_right _ _, chosen⟩
    · rcases ih (turn + 1) closer (by omega) (by omega) still reached with
        ⟨later, soon, chosen⟩
      exact ⟨later, by omega, chosen⟩

/-- One tick switches soundly, from every table with an idle task in which at most the current
task runs; and a runnable task whose status only the ticks touch is chosen within as many
ticks as there are tasks. -/
theorem schedule_sound_and_fair : (forall (sched : Scheduler) (currentRsp : Nat) (now : UInt64),
      sched.current < sched.tasks.length ->
      (forall other, other ≠ sched.current -> sched.statusOf other ≠ some .running) ->
      Switched sched currentRsp now (sched.schedule currentRsp now).2.2) ∧
    (forall (states : Nat -> Scheduler) (pointers : Nat -> Nat) (ticks : Nat -> UInt64)
      (taskId : Nat), (states 0).current < (states 0).tasks.length ->
      Runnable taskId (states 0) ->
      (forall turn, Spares taskId ((states turn).schedule (pointers turn) (ticks turn)).2.2
        (states (turn + 1))) ->
      Exists fun turn => turn < (states 0).tasks.length ∧
        ((states turn).schedule (pointers turn) (ticks turn)).2.2.current = taskId) := by
  refine ⟨fun sched currentRsp now inside alone => schedule_switches inside alone, ?_⟩
  intro states pointers ticks taskId inside runnable spares
  rcases runnable with ⟨task, found, ready⟩
  have bound := (List.getElem?_eq_some_iff.mp found).1
  have round : ((states 0).current + 1 +
      (taskId + (states 0).tasks.length - ((states 0).current + 1)) % (states 0).tasks.length) %
        (states 0).tasks.length = taskId := by
    rw [Nat.add_mod_mod, Nat.add_sub_cancel' (by omega), Nat.add_mod_right, Nat.mod_eq_of_lt bound]
  have near := Nat.mod_lt (taskId + (states 0).tasks.length - ((states 0).current + 1))
    (Nat.zero_lt_of_lt bound)
  rcases runnable_reached spares ((states 0).tasks.length - 1) 0 _ (by omega) near
    ⟨task, found, ready⟩ round with ⟨later, soon, chosen⟩
  exact ⟨later, by omega, chosen⟩

/-- The idle task and a ready task, with a signal pending or none. -/
def withReady (signal : Option Signal) : Scheduler :=
  (idle ⟨0, 0, 0⟩).push
    { stackPtr := 0
      syscallStackTop := 0
      status := .ready
      exitCode := none
      parent := none
      processGroup := 0
      controllingTty := none
      pendingSignal := signal
      wakeTick := none
      credentials := ⟨1000, 1000, 0⟩
      threadGroup := 1
      userStackBottom := none
      tlsBase := 0
      pml4 := none }

/-- The ticks of a table on which nothing else happens. -/
def ticked (sched : Scheduler) : Nat -> Scheduler
  | 0 => sched
  | turn + 1 => (ticked sched turn).schedule 0 0 |>.2.2

/-- The ready task runs at one of two ticks, and each switch is sound. -/
theorem schedule_sound_and_fair_pair :
    Switched (withReady none) 0 0 ((withReady none).schedule 0 0).2.2 ∧
      Exists fun turn => turn < 2 ∧
        ((ticked (withReady none) turn).schedule 0 0).2.2.current = 1 := by
  rcases schedule_sound_and_fair with ⟨sound, fair⟩
  have others : ∀ other, other ≠ (withReady none).current ->
      (withReady none).statusOf other ≠ some .running := by
    intro other apart
    match other with
    | 0 => exact absurd rfl apart
    | 1 => decide
    | more + 2 => exact nofun
  refine ⟨sound (withReady none) 0 0 (by decide) others, ?_⟩
  -- the ticks go back and forth between two tables
  have turns : ∀ turn, ticked (withReady none) turn = withReady none ∨
      ticked (withReady none) turn = ticked (withReady none) 1 ∨
      ticked (withReady none) turn = ticked (withReady none) 2 := by
    intro turn
    induction turn with
    | zero => exact .inl rfl
    | succ turn ih =>
      rw [ticked]
      rcases ih with same | same | same
      · exact .inr (.inl (by rw [same]; rfl))
      · exact .inr (.inr (by rw [same]; rfl))
      · exact .inr (.inl (by rw [same]; rfl))
  refine fair (ticked (withReady none)) (fun _ => 0) (fun _ => 0) 1 (by decide)
    ⟨_, rfl, rfl, .inr nofun⟩ fun turn => ⟨rfl, rfl, rfl, fun task found => .inr ?_⟩
  rcases turns (turn + 1) with same | same | same
  all_goals
    rw [same] at found
    cases found
    exact nofun

/-- A ready task with a stop signal pending: the next tick stops it.  The table is one that
`schedule` provides for; `send_signal` itself stops a task at once and leaves no such signal
pending. -/
def aboutToStop : Scheduler := withReady (some .stop)

/-- The task is ready, and neither of two ticks in a row chooses it. -/
theorem stopped_task_never_chosen :
    aboutToStop.statusOf 1 = some .ready ∧ aboutToStop.tasks.length = 2 ∧
      (aboutToStop.schedule 0 0).2.2.current = 0 ∧
      ((aboutToStop.schedule 0 0).2.2.schedule 0 0).2.2.current = 0 := by
  decide

end Scheduler
end CoolOs.Sched
