import CoolOs.Futex.Table

namespace CoolOs.Futex

open Sched List

/-!
# Who is woken, and by whom

The table does not know address spaces, so a wake is private only where the waiters
of its address are the caller's peers.  A wait that returns 0 has been given one
wake, unless something else has ended its sleep.
-/

variable {futexes : Futexes}

variable {addr : UInt64} {task : Nat} {waiters : List FutexWaiter}

theorem wakeLoop_woken (addr : UInt64) (count : Nat) (waiters : List FutexWaiter) :
    (wakeLoop addr count waiters).1 =
      ((waiters.filter (fun waiter => waiter.addr == addr)).map FutexWaiter.task).take count := by
  induction waiters generalizing count with
  | nil => simp [wakeLoop]
  | cons waiter rest ih =>
    cases here : waiter.addr == addr with
    | false => cases count <;> simp [wakeLoop, here, ih]
    | true => cases count <;> simp [wakeLoop, here, ih]

theorem wake_woken (waiters : List FutexWaiter) (addr : UInt64) (count : Nat) :
    (wake waiters addr count).1 =
      ((waiters.filter (fun waiter => waiter.addr == addr)).map FutexWaiter.task).take count := by
  unfold wake
  split
  · next zero => simp [zero]
  · exact wakeLoop_woken addr count waiters

/-- What is woken and what is left make up the table. -/
theorem wakeLoop_perm (addr : UInt64) (count : Nat) (waiters : List FutexWaiter) :
    (((wakeLoop addr count waiters).1.map (FutexWaiter.mk addr)) ++
      (wakeLoop addr count waiters).2).Perm waiters := by
  induction waiters generalizing count with
  | nil => simp [wakeLoop]
  | cons waiter rest ih =>
    cases here : waiter.addr == addr with
    | false =>
      cases count <;> simp only [wakeLoop, here] <;>
        exact perm_middle.trans ((ih _).cons waiter)
    | true =>
      have same : FutexWaiter.mk addr waiter.task = waiter := by rw [<- beq_iff_eq.mp here]
      cases count with
      | zero =>
        exact perm_middle.trans ((ih 0).cons waiter)
      | succ count =>
        simp only [wakeLoop, here, map_cons, cons_append, same]
        exact (ih count).cons waiter

theorem wake_perm (waiters : List FutexWaiter) (addr : UInt64) (count : Nat) :
    (((wake waiters addr count).1.map (FutexWaiter.mk addr)) ++
      (wake waiters addr count).2).Perm waiters := by
  unfold wake
  split
  · simp
  · exact wakeLoop_perm addr count waiters

theorem mem_unregister {waiter : FutexWaiter} : waiter ∈ (unregisterWaiter waiters addr task).2 <->
      waiter ∈ waiters ∧ ¬ (waiter.addr = addr ∧ waiter.task = task) := by
  simp only [unregisterWaiter, mem_filter, Bool.not_eq_true', Bool.and_eq_false_iff,
    beq_eq_false_iff_ne, not_and_or, ne_eq]

/-- Whether a waiter was in the table. -/
theorem unregister_still :
    (unregisterWaiter waiters addr task).1 = true <-> FutexWaiter.mk addr task ∈ waiters := by
  simp only [unregisterWaiter, bne_iff_ne, ne_eq]
  constructor
  · intro shorter
    by_contra absent
    apply shorter
    rw [filter_eq_self.mpr]
    intro waiter listed
    simp only [Bool.not_eq_true', Bool.and_eq_false_iff, beq_eq_false_iff_ne]
    by_contra both
    simp only [not_or, Decidable.not_not] at both
    apply absent
    rw [<- both.1, <- both.2]
    exact listed
  · intro listed same
    have all := filter_eq_self.mp (filter_sublist.eq_of_length same.symm) _ listed
    simp at all

namespace Futexes

/-- The tasks that wait, each once, have at most one entry, which is the only one of
their task.  While it is there the task is blocked or its time has come and it has
been given no wake; once it is gone it has been given one. -/
structure Kept (futexes : Futexes) : Prop where
  once : (futexes.waiting.map Wait.task).Nodup
  entries : futexes.waiters.Nodup
  sleeps : ∀ waiter ∈ futexes.waiters,
    ∃ wait ∈ futexes.waiting, wait.addr = waiter.addr ∧ wait.task = waiter.task
  stays : ∀ wait ∈ futexes.waiting, FutexWaiter.mk wait.addr wait.task ∈ futexes.waiters ->
    (futexes.sched.statusOf wait.task = some .blocked ∨
      deadlineExpired futexes.ticks wait.deadline = true) ∧
    futexes.delivered.count wait.task = 0
  given : ∀ wait ∈ futexes.waiting,
    FutexWaiter.mk wait.addr wait.task ∉ futexes.waiters -> futexes.delivered.count wait.task = 1

theorem boot_kept (sched : Scheduler) : (boot sched).Kept := by
  constructor <;> simp [boot]

namespace Kept

/-- A wait is the only one of its task. -/
theorem unique (kept : futexes.Kept) {first second : Wait} (left : first ∈ futexes.waiting)
    (right : second ∈ futexes.waiting) (same : first.task = second.task) : first = second :=
  inj_on_of_nodup_map kept.once left right same

/-- An entry of a task that waits is the entry of its wait. -/
theorem entry (kept : futexes.Kept) {wait : Wait} (listed : wait ∈ futexes.waiting)
    (present : ⟨addr, wait.task⟩ ∈ futexes.waiters) : wait.addr = addr := by
  rcases kept.sleeps _ present with ⟨other, waits, there, same⟩
  cases kept.unique waits listed same
  exact there

/-- A task that does not wait has no entry. -/
theorem absent (kept : futexes.Kept) (awake : futexes.awake = true) {waiter : FutexWaiter}
    (listed : waiter ∈ futexes.waiters) : waiter.task ≠ futexes.sched.current := by
  rcases kept.sleeps waiter listed with ⟨wait, waits, _, same⟩
  have apart := all_eq_true.mp awake wait waits
  rw [<- same]
  exact bne_iff_ne.mp apart

end Kept

variable {taskId : Nat} {sched : Scheduler} {wait : Wait} {event : FutexEvent}

theorem registerWaiter_fresh {after : List FutexWaiter}
    (fresh : ∀ waiter ∈ waiters, waiter.task ≠ task)
    (registered : registerWaiter waiters addr task = (true, after)) :
    after = waiters ++ [⟨addr, task⟩] := by
  unfold registerWaiter at registered
  split at registered
  · next found =>
    rcases any_eq_true.mp found with ⟨waiter, listed, same⟩
    simp only [Bool.and_eq_true, beq_iff_eq] at same
    exact absurd same.2 (fresh waiter listed)
  split at registered
  · cases registered
  · cases registered
    rfl

theorem unregister_fresh (fresh : ∀ waiter ∈ waiters, waiter.task ≠ task) :
    (unregisterWaiter (waiters ++ [⟨addr, task⟩]) addr task).2 = waiters := by
  rw [unregisterWaiter, filter_append, filter_eq_self.mpr]
  · simp
  · intro waiter listed
    simp [fresh waiter listed]

/-- The current task goes to sleep. -/
theorem Kept.sleep (kept : futexes.Kept) (awake : futexes.awake = true) (addr : UInt64)
    (deadline : Option UInt64) (sleeps : sched.statusOf futexes.sched.current = some .blocked)
    (others : ∀ task, task ≠ futexes.sched.current ->
      sched.statusOf task = futexes.sched.statusOf task) :
    Kept { futexes with
      sched := sched
      waiters := futexes.waiters ++ [⟨addr, futexes.sched.current⟩]
      waiting := futexes.waiting ++ [⟨addr, futexes.sched.current, deadline⟩]
      delivered := futexes.delivered.filter (fun given => given != futexes.sched.current) } := by
  have apart (wait : Wait) (listed : wait ∈ futexes.waiting) :
      wait.task ≠ futexes.sched.current := bne_iff_ne.mp (all_eq_true.mp awake wait listed)
  have counts (task : Nat) (other : task ≠ futexes.sched.current) :
      (futexes.delivered.filter (fun given => given != futexes.sched.current)).count task =
        futexes.delivered.count task :=
    count_filter (by simpa using other)
  have mine (wait : Wait) (listed : wait ∈ futexes.waiting) : .mk wait.addr wait.task ∈
          futexes.waiters ++ [⟨addr, futexes.sched.current⟩] <->
        .mk wait.addr wait.task ∈ futexes.waiters := by
    simp [apart wait listed]
  constructor
  · rw [map_append, nodup_append]
    refine ⟨kept.once, by simp, ?_⟩
    intro task listed last final
    rcases mem_map.mp listed with ⟨wait, waits, rfl⟩
    simp only [map_cons, map_nil, mem_singleton] at final
    rw [final]
    exact apart wait waits
  · rw [nodup_append]
    refine ⟨kept.entries, by simp, ?_⟩
    intro waiter listed last final
    rw [mem_singleton.mp final]
    rintro rfl
    exact kept.absent awake listed rfl
  · intro waiter listed
    rcases mem_append.mp listed with old | fresh
    · rcases kept.sleeps waiter old with ⟨wait, waits, rest⟩
      exact ⟨wait, mem_append_left _ waits, rest⟩
    · rw [mem_singleton.mp fresh]
      exact ⟨_, mem_append_right _ (mem_singleton.mpr rfl), rfl, rfl⟩
  · intro wait listed present
    rcases mem_append.mp listed with old | fresh
    · rcases kept.stays wait old ((mine wait old).mp present) with ⟨asleep, none⟩
      exact ⟨(others wait.task (apart wait old)).symm ▸ asleep,
        (counts wait.task (apart wait old)).trans none⟩
    · rw [mem_singleton.mp fresh]
      exact ⟨.inl sleeps, by simp [count_eq_zero]⟩
  · intro wait listed gone
    rcases mem_append.mp listed with old | fresh
    · exact (counts wait.task (apart wait old)).trans
        (kept.given wait old fun present => gone ((mine wait old).mpr present))
    · rw [mem_singleton.mp fresh] at gone
      exact absurd (mem_append_right _ (mem_singleton.mpr rfl)) gone

theorem statusOf_modifyTask_other (sched : Scheduler) {other : Nat} (change : Task -> Task)
    (apart : other ≠ taskId) : (sched.modifyTask taskId change).statusOf other =
      sched.statusOf other := by
  rw [Scheduler.statusOf, Scheduler.modifyTask_other sched change (Ne.symm apart),
    Scheduler.statusOf]

theorem statusOf_modifyTask_self {change : Task -> Task} {status : TaskStatus}
    (exists_ : (sched.statusOf taskId).isSome = true)
    (becomes : ∀ task, (change task).status = status) :
    (sched.modifyTask taskId change).statusOf taskId = some status := by
  unfold Scheduler.statusOf at exists_ ⊢
  rw [Scheduler.modifyTask_self]
  cases found : sched.tasks[taskId]? with
  | none => simp [found] at exists_
  | some task => simp [becomes]

theorem waitEnter_kept (kept : futexes.Kept) (awake : futexes.awake = true)
    (runs : (futexes.sched.statusOf futexes.sched.current).isSome = true)
    (addr expected timeoutMs : UInt64) (first second : Option UInt64) :
    (futexes.waitEnter addr expected timeoutMs first second).2.Kept := by
  have fresh (waiter : FutexWaiter) (listed : waiter ∈ futexes.waiters) :=
    kept.absent awake listed
  unfold waitEnter
  dsimp only
  split
  · exact kept
  split
  · exact kept
  split
  · exact kept
  generalize registered : registerWaiter futexes.waiters addr futexes.sched.current = outcome
  rcases outcome with ⟨_ | _, waiters⟩
  · exact kept
  dsimp only
  cases registerWaiter_fresh fresh registered
  split
  · rw [unregister_fresh fresh]
    exact kept
  · refine kept.sleep awake addr _ ?_ ?_
    · split
      · exact statusOf_modifyTask_self runs fun _ => rfl
      · exact statusOf_modifyTask_self runs fun _ => rfl
    · intro task apart
      split
      · exact statusOf_modifyTask_other _ _ apart
      · exact statusOf_modifyTask_other _ _ apart

/-- The wait and the entry of a task are dropped together. -/
theorem Kept.drop (kept : futexes.Kept) {left : List FutexWaiter}
    (entries : left.Sublist futexes.waiters)
    (others : ∀ waiter, waiter.task ≠ task -> (waiter ∈ left <-> waiter ∈ futexes.waiters))
    (gone : ∀ waiter ∈ left, waiter.task ≠ task) :
    Kept { futexes with
      waiters := left
      waiting := futexes.waiting.filter (fun wait => wait.task != task) } := by
  have waits (wait : Wait) (listed : wait ∈ futexes.waiting.filter (fun wait => wait.task != task)) :
      wait ∈ futexes.waiting ∧ wait.task ≠ task := by simpa using listed
  constructor
  · exact kept.once.sublist (filter_sublist.map Wait.task)
  · exact kept.entries.sublist entries
  · intro waiter listed
    rcases kept.sleeps waiter (entries.subset listed) with ⟨wait, there, here, same⟩
    refine ⟨wait, mem_filter.mpr ⟨there, ?_⟩, here, same⟩
    simpa [same] using gone waiter listed
  · intro wait listed present
    exact kept.stays wait (waits wait listed).1 (entries.subset present)
  · intro wait listed absent
    refine kept.given wait (waits wait listed).1 fun present => absent ?_
    exact (others _ (waits wait listed).2).mpr present

theorem resumable_listed (found : futexes.resumable = some wait) :
    wait ∈ futexes.waiting ∧ wait.task = futexes.sched.current ∧
      (futexes.sched.statusOf futexes.sched.current = some .blocked -> futexes.pending = true) := by
  unfold resumable at found
  split at found
  · cases found
  next ends =>
  refine ⟨mem_of_find?_eq_some found, by simpa using find?_some found, ?_⟩
  intro blocked
  by_contra none
  exact ends ⟨blocked, by simpa using none⟩

theorem waitResume_kept (kept : futexes.Kept) (listed : wait ∈ futexes.waiting) :
    (futexes.waitResume wait).2.Kept := by
  have dropped : Kept { futexes with
      waiters := (unregisterWaiter futexes.waiters wait.addr wait.task).2
      waiting := futexes.waiting.filter (fun other => other.task != wait.task) } := by
    refine kept.drop filter_sublist ?_ ?_
    · intro waiter apart
      rw [mem_unregister]
      exact ⟨And.left, fun present => ⟨present, fun same => apart same.2⟩⟩
    · rintro ⟨addr, task⟩ present rfl
      rw [mem_unregister] at present
      exact present.2 ⟨(kept.entry listed present.1).symm, rfl⟩
  unfold waitResume
  dsimp only
  split
  · exact dropped
  split
  · exact dropped
  · exact dropped

/-- A wait that returns 0 has been given one wake. -/
theorem waitResume_zero (kept : futexes.Kept) (found : futexes.resumable = some wait)
    (returned : (futexes.waitResume wait).1 = 0) : futexes.delivered.count wait.task = 1 := by
  rcases resumable_listed found with ⟨listed, current, ends⟩
  unfold waitResume at returned
  dsimp only at returned
  split at returned
  · cases returned
  next quiet =>
  split at returned
  · cases returned
  next early =>
  refine kept.given wait listed fun present => ?_
  have still := unregister_still.mpr present
  rw [still, Bool.true_and] at early
  rcases (kept.stays wait listed present).1 with blocked | expired
  · exact quiet (ends (current ▸ blocked))
  · exact early expired

theorem wakeTasks_other {taskIds : List Nat} (sched : Scheduler) (apart : task ∉ taskIds) :
    (sched.wakeTasks taskIds).statusOf task = sched.statusOf task := by
  induction taskIds generalizing sched with
  | nil => rfl
  | cons taskId rest ih =>
    rw [mem_cons, not_or] at apart
    exact (ih (sched.unblock taskId) apart.2).trans (statusOf_modifyTask_other _ _ apart.1)

/-- A wake hands one wake to each task it takes out of the table. -/
theorem sysFutexWake_kept (kept : futexes.Kept) (addr : UInt64) (count : Nat)
    (flags : UInt64) (valid : Bool) : (futexes.sysFutexWake addr count flags valid).2.Kept := by
  unfold sysFutexWake
  split
  · exact kept
  have parts := wake_perm futexes.waiters addr count
  generalize wake futexes.waiters addr count = outcome at parts
  rcases outcome with ⟨woken, left⟩
  have apart := parts.nodup_iff.mpr kept.entries
  rw [nodup_append] at apart
  have distinct : woken.Nodup := apart.1.of_map _
  have taken (task : Nat) (among : task ∈ woken) : FutexWaiter.mk addr task ∈ futexes.waiters :=
    parts.subset (mem_append_left _ (mem_map_of_mem among))
  have kept_ (waiter : FutexWaiter) (listed : waiter ∈ left) : waiter ∈ futexes.waiters :=
    parts.subset (mem_append_right _ listed)
  -- a task that waits is woken exactly if its entry leaves the table
  have leaves (wait : Wait) (listed : wait ∈ futexes.waiting) (among : wait.task ∈ woken) :
      .mk wait.addr wait.task ∈ futexes.waiters ∧ .mk wait.addr wait.task ∉ left := by
    have present := taken wait.task among
    rw [kept.entry listed present]
    exact ⟨present, fun still => apart.2.2 _ (mem_map_of_mem among) _ still rfl⟩
  constructor
  · exact kept.once
  · exact apart.2.1
  · exact fun waiter listed => kept.sleeps waiter (kept_ waiter listed)
  · intro wait listed present
    have asleep : wait.task ∉ woken := fun among => (leaves wait listed among).2 present
    rcases kept.stays wait listed (kept_ _ present) with ⟨sleeps, none⟩
    refine ⟨?_, ?_⟩
    · rwa [wakeTasks_other futexes.sched asleep]
    · rw [count_append, none, count_eq_zero.mpr asleep]
  · intro wait listed gone
    rw [count_append]
    by_cases present : FutexWaiter.mk wait.addr wait.task ∈ futexes.waiters
    · rw [(kept.stays wait listed present).2, Nat.zero_add]
      rcases mem_append.mp (parts.symm.subset present) with among | still
      · rcases mem_map.mp among with ⟨task, member, same⟩
        cases same
        exact count_eq_one_of_mem distinct member
      · exact absurd still gone
    · rw [kept.given wait listed present, count_eq_zero.mpr]
      exact fun among => present (leaves wait listed among).1

theorem deadlineExpired_later {before after : UInt64} (later : before <= after)
    {deadline : Option UInt64} (expired : deadlineExpired before deadline = true) :
    deadlineExpired after deadline = true := by
  cases deadline with
  | none => cases expired
  | some deadline =>
    simp only [deadlineExpired, Option.any_some, decide_eq_true_eq] at expired ⊢
    exact UInt64.le_trans expired later

theorem Kept.tick (kept : futexes.Kept) {ticks : UInt64}
    (later : futexes.ticks <= ticks) : Kept { futexes with ticks := ticks } where
  once := kept.once
  entries := kept.entries
  sleeps := kept.sleeps
  stays wait listed present :=
    ⟨(kept.stays wait listed present).1.imp_right (deadlineExpired_later later),
      (kept.stays wait listed present).2⟩
  given := kept.given

/-- The waits and entries stay, and no sleep ends before its deadline. -/
theorem Kept.reschedule (kept : futexes.Kept)
    (sleeps : ∀ wait ∈ futexes.waiting, FutexWaiter.mk wait.addr wait.task ∈ futexes.waiters ->
      futexes.sched.statusOf wait.task = some .blocked ->
      sched.statusOf wait.task = some .blocked ∨
        deadlineExpired futexes.ticks wait.deadline = true) :
    Kept { futexes with sched := sched } where
  once := kept.once
  entries := kept.entries
  sleeps := kept.sleeps
  stays wait listed present := by
    rcases kept.stays wait listed present with ⟨blocked | expired, none⟩
    · exact ⟨sleeps wait listed present blocked, none⟩
    · exact ⟨.inr expired, none⟩
  given := kept.given

/-! ## Conditions -/

/-- The tasks that wait at an address, in the order of their registration. -/
def waitersOf (futexes : Futexes) (addr : UInt64) : List Nat :=
  (futexes.waiters.filter (fun waiter => waiter.addr == addr)).map FutexWaiter.task

/-- The task shares the address space of the current one. -/
def isPeer (futexes : Futexes) (task : Nat) : Bool :=
  futexes.sched.pml4Of task == futexes.sched.pml4Of futexes.sched.current

/-- No task that waits for a wake is taken out of its sleep before its deadline. -/
def undisturbed (futexes : Futexes) (call : SchedCall) : Bool :=
  futexes.waiting.all (fun wait =>
    !futexes.waiters.contains ⟨wait.addr, wait.task⟩ ||
      futexes.sched.statusOf wait.task != some .blocked ||
      (futexes.schedStep call).sched.statusOf wait.task == some .blocked ||
      (futexes.timed call).ends futexes.sched == some wait.task ||
      deadlineExpired futexes.ticks wait.deadline)

/-- A wake is accepted and the first tasks that wait at its address, as many as it asks
for, are peers; if it is refused, no peer waits there.  Nothing else ends a sleep. -/
def orderly (futexes : Futexes) : FutexEvent -> Bool
  | .wake addr count flags valid =>
    !futexes.awake || (if refusesWake addr count flags valid then
        (((futexes.waitersOf addr).filter futexes.isPeer).take count).isEmpty
      else ((futexes.waitersOf addr).take count).all futexes.isPeer)
  | .sched call => !(futexes.awake || isInterrupt call) || futexes.undisturbed call
  | _ => true

theorem schedStep_sched (futexes : Futexes) (call : SchedCall) :
    (futexes.schedStep call).sched = (futexes.timed call).perform futexes.sched := by
  unfold schedStep
  split <;> rfl

theorem schedStep_kept (kept : futexes.Kept) {call : SchedCall}
    (calm : futexes.undisturbed call = true) : (futexes.schedStep call).Kept := by
  have sleeps (wait : Wait) (listed : wait ∈ futexes.waiting)
      (present : FutexWaiter.mk wait.addr wait.task ∈ futexes.waiters)
      (blocked : futexes.sched.statusOf wait.task = some .blocked)
      (lives : (futexes.timed call).ends futexes.sched ≠ some wait.task) :
      ((futexes.timed call).perform futexes.sched).statusOf wait.task = some .blocked ∨
        deadlineExpired futexes.ticks wait.deadline = true := by
    have calm := all_eq_true.mp calm wait listed
    rw [schedStep_sched] at calm
    simpa [present, blocked, lives] using calm
  unfold schedStep
  cases ends : (futexes.timed call).ends futexes.sched with
  | none =>
    rw [ends] at sleeps
    exact kept.reschedule fun wait listed present blocked =>
      sleeps wait listed present blocked nofun
  | some task =>
    rw [ends] at sleeps
    have others (waiter : FutexWaiter) : waiter ∈ dropTaskWaiters futexes.waiters task <->
        waiter ∈ futexes.waiters ∧ waiter.task ≠ task := by simp [dropTaskWaiters]
    have dropped : Kept { futexes with
        waiters := dropTaskWaiters futexes.waiters task
        waiting := futexes.waiting.filter (fun wait => wait.task != task) } := by
      refine kept.drop filter_sublist ?_ ?_
      · intro waiter apart
        rw [others]
        exact ⟨And.left, fun present => ⟨present, apart⟩⟩
      · intro waiter listed
        exact ((others waiter).mp listed).2
    refine dropped.reschedule ?_
    intro wait listed present blocked
    rcases mem_filter.mp listed with ⟨waits, apart⟩
    refine sleeps wait waits ((others _).mp present).1 blocked ?_
    rw [ne_eq, Option.some.injEq]
    exact (bne_iff_ne.mp apart).symm

theorem step_kept (kept : futexes.Kept) (orderly : futexes.orderly event = true) :
    (futexes.step event).2.Kept := by
  cases event with
  | wait addr expected timeoutMs first second =>
    simp only [step]
    split
    · next runs =>
      rw [Bool.and_eq_true] at runs
      exact waitEnter_kept kept runs.1 runs.2 addr expected timeoutMs first second
    · exact kept
  | resume =>
    simp only [step]
    split
    · exact kept
    · next wait found => exact waitResume_kept kept (resumable_listed found).1
  | wake addr count flags valid =>
    simp only [step]
    split
    · exact sysFutexWake_kept kept addr count flags valid
    · exact kept
  | tick =>
    simp only [step]
    split
    · next later => exact kept.tick (UInt64.le_of_lt later)
    · exact kept
  | sched call =>
    simp only [step]
    split
    · next runs =>
      simp only [Futexes.orderly, runs, Bool.not_true, Bool.false_or] at orderly
      exact schedStep_kept kept orderly
    · exact kept

/-- A wake wakes the first peers that wait at its address, as many as it asks for, and
a wait that returns 0 has been given one wake. -/
structure Exact (futexes : Futexes) (event : FutexEvent) : Prop where
  wakes : forall addr count flags valid, event = .wake addr count flags valid ->
    futexes.awake = true ->
    (futexes.step event).1.woken = ((futexes.waitersOf addr).filter futexes.isPeer).take count
  consumes : (futexes.step event).1.returned = some 0 ->
    futexes.delivered.count futexes.sched.current = 1

theorem take_filter_iff (keep : Nat -> Bool) (count : Nat) (tasks : List Nat) :
    tasks.take count = (tasks.filter keep).take count <-> (tasks.take count).all keep = true := by
  constructor
  · intro same
    rw [same, all_eq_true]
    exact fun task listed => (mem_filter.mp (mem_of_mem_take listed)).2
  · intro all
    induction tasks generalizing count with
    | nil => rfl
    | cons task rest ih =>
      cases count with
      | zero => rfl
      | succ count =>
        rw [take_succ_cons, all_cons, Bool.and_eq_true] at all
        rw [filter_cons_of_pos all.1, take_succ_cons, take_succ_cons, ih count all.2]

/-- A wake is private exactly under the condition. -/
theorem wake_exact_iff (awake : futexes.awake = true) (addr : UInt64)
    (count : Nat) (flags : UInt64) (valid : Bool) :
    (futexes.step (.wake addr count flags valid)).1.woken =
        ((futexes.waitersOf addr).filter futexes.isPeer).take count <->
      futexes.orderly (.wake addr count flags valid) = true := by
  simp only [step, orderly, awake, if_pos, Bool.not_true, Bool.false_or, sysFutexWake]
  split
  · rw [List.isEmpty_iff]
    exact eq_comm
  · rw [wake_woken]
    exact take_filter_iff futexes.isPeer count (futexes.waitersOf addr)

theorem waitEnter_nonzero (futexes : Futexes) (addr expected timeoutMs : UInt64)
    (first second : Option UInt64) :
    (futexes.waitEnter addr expected timeoutMs first second).1 ≠ some 0 := by
  intro zero
  unfold waitEnter at zero
  dsimp only at zero
  iterate 5
    split at zero
    · cases zero
  cases zero

theorem step_exact (kept : futexes.Kept) (orderly : futexes.orderly event = true) :
    futexes.Exact event := by
  refine ⟨?_, ?_⟩
  · rintro addr count flags valid rfl awake
    exact (wake_exact_iff awake addr count flags valid).mpr orderly
  · intro returned
    cases event with
    | wait addr expected timeoutMs first second =>
      simp only [step] at returned
      split at returned
      · exact absurd returned (waitEnter_nonzero futexes addr expected timeoutMs first second)
      · cases returned
    | resume =>
      simp only [step] at returned
      split at returned
      · cases returned
      · next wait found =>
        rw [<- (resumable_listed found).2.1]
        exact waitResume_zero kept found (Option.some.inj returned)
    | wake addr count flags valid =>
      simp only [step] at returned
      split at returned <;> cases returned
    | tick => cases returned
    | sched call =>
      simp only [step] at returned
      split at returned <;> cases returned

def orderlyRun (futexes : Futexes) : List FutexEvent -> Bool
  | [] => true
  | event :: rest => futexes.orderly event && (futexes.step event).2.orderlyRun rest

theorem run_kept (kept : futexes.Kept) {events : List FutexEvent}
    (orderly : futexes.orderlyRun events = true) : (futexes.run events).Kept := by
  induction events generalizing futexes with
  | nil => exact kept
  | cons event rest ih =>
    rw [orderlyRun, Bool.and_eq_true] at orderly
    exact ih (step_kept kept orderly.1) orderly.2

theorem orderlyRun_append (futexes : Futexes) (earlier later : List FutexEvent) :
    futexes.orderlyRun (earlier ++ later) =
      (futexes.orderlyRun earlier && (futexes.run earlier).orderlyRun later) := by
  induction earlier generalizing futexes with
  | nil => rfl
  | cons event rest ih =>
    rw [cons_append, orderlyRun, ih, orderlyRun, Bool.and_assoc]
    rfl

/-- A process spawns a task, which runs and waits at an address; then the process runs. -/
def childWaits (spawns : SchedCall) : List FutexEvent :=
  [.sched (.spawnElfProcess (some 4096) someUser 5 true none false), .sched (.schedule 0 0),
    .sched spawns, .sched (.schedule 0 0),
    .wait 0x7fff00001000 7 timeoutForever (some 7) (some 7),
    .sched (.schedule 0 0), .sched (.schedule 0 0)]

def spawnsThread : SchedCall := .spawnUserThread (some 8192) someUser 0x7fff00200000 0 true

def spawnsProcess : SchedCall := .spawnElfProcess (some 8192) someUser 6 true none false

/-- In every orderly run a task waits once at most, and loses its entry with one wake. -/
theorem orderly_run_kept (sched : Scheduler) {events : List FutexEvent}
    (orderly : (boot sched).orderlyRun events = true) : ((boot sched).run events).Kept :=
  run_kept (boot_kept sched) orderly

theorem orderly_run_kept_thread : ((boot (.idle someUser)).run (childWaits spawnsThread)).Kept :=
  orderly_run_kept _ (by decide)

end Futexes

end CoolOs.Futex
