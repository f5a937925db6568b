import CoolOs.Vfs.Polling

namespace CoolOs.Vfs

open Queues Function List

/-!
# Sleeping in `sys_poll` and in `vfs_read_blocking`

What a pass leaves behind when the task goes to sleep: it is registered on the
side of every polled pipe end whose data it asked for, and no condition it asked
for holds.  The hangup is reported whatever was asked, so an end that is polled
without its data event needs another reason to be heard.
-/

variable {vfs : VfsState} {taskId : Nat} {side : FdAccess} {desc : PollDesc}

/-- Whether the events asked for on an end include its data event. -/
def wantsData (events : UInt64) : FdAccess -> Bool
  | .file => false
  | .pipeRead => events &&& eventRead != 0
  | .pipeWrite => events &&& eventWrite != 0

section

variable {id : Nat} {shared : SharedObject} {pipe : Pipe} {entry : LocalFd} {events event : UInt64}

theorem has_fd_of_slot {fd : Nat} (slot : vfs.currentEntry taskId fd = some entry) :
    vfs.vfsHasFd taskId fd = true := by
  rw [VfsState.vfsHasFd, slot]
  rfl

/-- A descriptor that is in the table is polled and waited for there. -/
theorem polled_slot (now : Moment) {fd : UInt64}
    (slot : vfs.currentEntry taskId fd.toNat = some entry) :
    now.pollFdRevents vfs taskId fd events = vfs.vfsPollFd taskId fd.toNat events ∧
      now.registerFdWaiter vfs taskId fd events =
        vfs.vfsRegisterPollWaiter taskId fd.toNat taskId events := by
  have has := has_fd_of_slot slot
  have input : ¬ (fd = 0 ∧ vfs.vfsHasFd taskId 0 = false) := by
    rintro ⟨rfl, missing⟩
    exact absurd (missing.symm.trans has) Bool.false_ne_true
  have output : ¬ ((fd = 1 ∨ fd = 2) ∧ vfs.vfsHasFd taskId fd.toNat = false) := by
    rintro ⟨_, missing⟩
    exact absurd (missing.symm.trans has) Bool.false_ne_true
  constructor
  · rw [Moment.pollFdRevents, if_neg input, if_neg output]
  · rw [Moment.registerFdWaiter, if_neg input, if_neg output]

/-- A hangup is never filtered out. -/
theorem normalize_hangup (events raw : UInt64) :
    normalizePollRevents events (eventHangup ||| raw) ≠ 0 := by
  rw [normalizePollRevents, Ne, UInt64.or_eq_zero_iff]
  rintro ⟨_, nothing⟩
  have bits := congrArg UInt64.toBitVec nothing
  rw [UInt64.toBitVec_and, UInt64.toBitVec_or, BitVec.and_or_distrib_right] at bits
  exact absurd (BitVec.or_eq_zero_iff.mp bits).1 (by decide)

/-- One event is reported exactly if it was asked for. -/
theorem normalize_event (plain : event &&& (eventHangup ||| eventError ||| eventChild) = 0) :
    normalizePollRevents events event = 0 <-> events &&& event = 0 := by
  rw [normalizePollRevents, plain, UInt64.or_zero, UInt64.and_comm]

theorem normalize_nothing (events : UInt64) : normalizePollRevents events 0 = 0 := by
  rw [normalizePollRevents, UInt64.zero_and, UInt64.zero_and]
  rfl

/-- An event that is there is reported exactly if it was asked for. -/
theorem normalize_ready {ready : Prop} [Decidable ready]
    (plain : event &&& (eventHangup ||| eventError ||| eventChild) = 0) :
    normalizePollRevents events (if events &&& event != 0 && decide ready then event else 0) = 0 <->
      ((events &&& event != 0) = true -> ¬ ready) := by
  split
  · rename_i asked
    rw [Bool.and_eq_true, decide_eq_true_eq] at asked
    rw [normalize_event plain]
    refine iff_of_false (bne_iff_ne.mp asked.1) fun idle => idle asked.1 asked.2
  · rename_i quiet
    rw [Bool.and_eq_true, decide_eq_true_eq, not_and] at quiet
    exact iff_of_true (normalize_nothing _) quiet

/-- Nothing is reported for a pipe end exactly if the other side is open and the
data that was asked for is not there. -/
theorem revents_pipe (now : Moment) (isEnd : side.isPipe = true) (source : desc.source = sourceFd)
    (slot : vfs.currentEntry taskId desc.handle.toNat = some ⟨id, side⟩)
    (found : vfs.pipeAt id = some pipe) :
    now.revents vfs taskId desc = 0 <->
      pipe.ends side.peer ≠ 0 ∧ (wantsData desc.events side = true -> pipe.idle side) := by
  rcases pipeAt_eq_some.mp found with ⟨shared, present, kind⟩
  have raw : now.revents vfs taskId desc = normalizePollRevents desc.events
      (vfs.vfsPollFd taskId desc.handle.toNat desc.events) := by
    rw [Moment.revents, Moment.pollDescRevents, if_pos source, (polled_slot now slot).1]
  rw [raw, VfsState.vfsPollFd, slot]
  dsimp only
  rw [present]
  dsimp only
  rw [kind]
  cases side with
  | file => cases isEnd
  | pipeRead =>
    dsimp only
    by_cases closed : pipe.writers = 0
    · rw [if_pos closed, UInt64.or_comm, UInt64.or_assoc]
      exact iff_of_false (normalize_hangup _ _) fun opposite => opposite.1 closed
    · rw [if_neg closed, UInt64.or_zero, normalize_ready (by decide)]
      exact ⟨fun idle => ⟨closed, fun wanted => Nat.eq_zero_of_not_pos (idle wanted)⟩,
        fun both wanted => Nat.not_lt_of_le (Nat.le_of_eq (both.2 wanted))⟩
  | pipeWrite =>
    dsimp only
    by_cases closed : pipe.readers = 0
    · rw [if_pos closed]
      have hangup := normalize_hangup desc.events 0
      rw [UInt64.or_zero] at hangup
      exact iff_of_false hangup fun opposite => opposite.1 closed
    · rw [if_neg closed, normalize_ready (by decide)]
      exact ⟨fun idle => ⟨closed, fun wanted => Nat.le_of_not_lt (idle wanted)⟩,
        fun both wanted => Nat.not_lt_of_le (both.2 wanted)⟩

end

/-- Registrations only add waiters. -/
structure Grown (vfs after : VfsState) : Prop where
  tables : after.taskFds = vfs.taskFds
  sound : forall lost, Sound ⟨vfs, lost⟩ -> Sound ⟨after, lost⟩
  waits : forall id pipe, vfs.pipeAt id = some pipe -> Exists fun more =>
    after.pipeAt id = some more ∧
      forall side taskId, taskId ∈ pipe.waiting side -> taskId ∈ more.waiting side

variable {woken : List Nat} {owner : Nat} {descs : List PollDesc} {lost : List LocalFd}
  {now : Moment} {asleep : VfsState}

theorem Grown.refl (vfs : VfsState) : Grown vfs vfs where
  tables := rfl
  sound := fun _ sound => sound
  waits := fun _ pipe found => ⟨pipe, found, fun _ _ waits => waits⟩

theorem Grown.trans {first second third : VfsState} (front : Grown first second)
    (back : Grown second third) : Grown first third where
  tables := back.tables.trans front.tables
  sound := fun lost sound => back.sound lost (front.sound lost sound)
  waits := by
    intro id pipe found
    rcases front.waits id pipe found with ⟨middle, present, more⟩
    rcases back.waits id middle present with ⟨last, there, most⟩
    exact ⟨last, there, fun side taskId waits => most side taskId (more side taskId waits)⟩

theorem Touch.grown {after : VfsState} (touch : Touch vfs (EnterChange taskId) after woken) :
    Grown vfs after where
  tables := touch.taskFds
  sound := by
    intro lost sound
    have general : Touch vfs (PipeChange taskId) after woken :=
      touch.mono (fun _ _ _ change => .wait (.enter change))
    exact ⟨general.tallied sound.tallied, general.suited sound.suited⟩
  waits := by
    intro id pipe found
    rcases touch.pipeChange id with same | ⟨former, changed, present, there, change⟩
    · exact ⟨pipe, same.trans found, fun _ _ waits => waits⟩
    · cases found.symm.trans present
      exact ⟨changed, there, fun _ _ waits => change.waiting waits⟩

theorem registerDesc_grown (now : Moment) (vfs : VfsState) (owner : Nat) (desc : PollDesc) :
    Grown vfs (now.registerDesc vfs owner desc).2 := by
  unfold Moment.registerDesc Moment.registerFdWaiter
  split
  · split
    · split
      · exact .refl vfs
      · exact .refl vfs
    · split
      · exact .refl vfs
      · exact (vfsRegisterPollWaiter_touch vfs owner _ owner _).grown
  · split
    · exact .refl vfs
    · split
      · exact .refl vfs
      · split
        · exact .refl vfs
        · split <;> exact .refl vfs

theorem registerPollWaiters_grown (now : Moment) (owner : Nat) (descs : List PollDesc)
    (vfs : VfsState) : Grown vfs (now.registerPollWaiters owner descs vfs).2 := by
  induction descs generalizing vfs with
  | nil => exact .refl vfs
  | cons desc rest ih => exact (registerDesc_grown now vfs owner desc).trans (ih _)

/-- The task is registered on the side of an end whose data it asked for. -/
theorem registerDesc_waits (now : Moment) {id : Nat} {pipe : Pipe} (source : desc.source = sourceFd)
    (slot : vfs.currentEntry owner desc.handle.toNat = some ⟨id, side⟩)
    (found : vfs.pipeAt id = some pipe) (wanted : wantsData desc.events side = true) :
    ∃ after, (now.registerDesc vfs owner desc).2.pipeAt id = some after ∧
      owner ∈ after.waiting side := by
  rcases pipeAt_eq_some.mp found with ⟨shared, present, kind⟩
  rw [Moment.registerDesc, if_pos source, (polled_slot now slot).2,
    VfsState.vfsRegisterPollWaiter, slot]
  dsimp only
  rw [present]
  dsimp only
  rw [kind]
  cases side with
  | file => cases wanted
  | pipeRead =>
    dsimp only
    have bit : (desc.events &&& eventRead != 0) = true := wanted
    rw [if_pos bit, pipeAt_setPipe present, update_self]
    exact ⟨_, rfl, self_mem_addWaiter _ _⟩
  | pipeWrite =>
    dsimp only
    have bit : (desc.events &&& eventWrite != 0) = true := wanted
    rw [if_pos bit, pipeAt_setPipe present, update_self]
    exact ⟨_, rfl, self_mem_addWaiter _ _⟩

theorem registerPollWaiters_waits (now : Moment) {id : Nat} (listed : desc ∈ descs)
    (isEnd : side.isPipe = true) (source : desc.source = sourceFd)
    (wanted : wantsData desc.events side = true) (sound : Sound ⟨vfs, lost⟩)
    (slot : vfs.currentEntry owner desc.handle.toNat = some ⟨id, side⟩) :
    ∃ after, (now.registerPollWaiters owner descs vfs).2.pipeAt id = some after ∧
      owner ∈ after.waiting side := by
  induction descs generalizing vfs with
  | nil => cases listed
  | cons first rest ih =>
    have grown := registerDesc_grown now vfs owner first
    rcases mem_cons.mp listed with rfl | later
    · rcases sound.pipe slot isEnd with ⟨shared, pipe, present, kind⟩
      have found : vfs.pipeAt id = some pipe := pipeAt_eq_some.mpr ⟨shared, present, kind⟩
      rcases registerDesc_waits now source slot found wanted with ⟨middle, there, waits⟩
      rcases (registerPollWaiters_grown now owner rest _).waits id middle there with
        ⟨last, foundLast, more⟩
      exact ⟨last, foundLast, more side owner waits⟩
    · exact ih later (grown.sound lost sound)
        ((VfsState.currentEntry_congr grown.tables owner _).trans slot)

/-- Whether a sleeping task will hear of everything that is reported for a polled
pipe end: it is registered on its side, or the other side cannot close because
the task itself holds an end of it or no table holds one that is counted. -/
def hears (vfs : VfsState) (taskId : Nat) (desc : PollDesc) : Bool :=
  match vfs.currentEntry taskId desc.handle.toNat with
  | none => false
  | some { object := id, access := side } =>
    match vfs.pipeAt id with
    | none => false
    | some pipe =>
      decide (taskId ∈ pipe.waiting side) || (range maxFds).any
          (fun fd => decide (vfs.currentEntry taskId fd = some ⟨id, side.peer⟩)) ||
        decide (holding vfs.entries id side.peer < pipe.ends side.peer)

/-- A scan that finds nothing reports nothing for any descriptor. -/
theorem scan_nothing (nothing : ¬ 0 < (now.scanPollDescriptors vfs owner descs).1.1)
    (listed : desc ∈ descs) : now.revents vfs owner desc = 0 := by
  unfold Moment.scanPollDescriptors at nothing
  by_contra something
  refine nothing (countP_pos_iff.mpr ⟨{ desc with revents := now.revents vfs owner desc },
    mem_map.mpr ⟨desc, listed, rfl⟩, bne_iff_ne.mpr something⟩)

/-- Scanning only fills in what it finds. -/
theorem mem_scanned (listed : desc ∈ (now.scanPollDescriptors vfs owner descs).2) :
    ∃ original ∈ descs,
      desc = { original with revents := now.revents vfs owner original } := by
  rcases mem_map.mp listed with ⟨original, member, same⟩
  exact ⟨original, member, same.symm⟩

/-- A task that goes to sleep in `sys_poll` waits on every polled pipe end it
will hear of. -/
theorem pollPass_awaits (sound : Sound ⟨vfs, lost⟩) {slept : List PollDesc} {timeoutMs : UInt64}
    {deadline wakeTick : Option UInt64} {first second : Moment}
    (pass : pollPass vfs taskId descs timeoutMs deadline first second = (.sleeps slept wakeTick, asleep))
    :
    Sound ⟨asleep, lost⟩ ∧ ∀ desc ∈ slept, desc.source = sourceFd ->
      ∀ id side, side.isPipe = true ->
        asleep.currentEntry taskId desc.handle.toNat = some ⟨id, side⟩ ->
        hears asleep taskId desc = true ->
        Awaits taskId desc.handle.toNat id side (wantsData desc.events side) ⟨asleep, lost⟩ := by
  unfold pollPass at pass
  dsimp only at pass
  split at pass
  · cases pass
  · split at pass
    · cases pass
    · next nothing =>
      rw [Prod.mk.injEq, PollPass.sleeps.injEq] at pass
      rcases pass with ⟨⟨sleptEq, _⟩, asleepEq⟩
      have grown := registerPollWaiters_grown second taskId
        (first.scanPollDescriptors vfs taskId descs).2 vfs
      rw [not_or] at nothing
      rw [asleepEq] at grown nothing sleptEq
      have soundAsleep := grown.sound lost sound
      refine ⟨soundAsleep, ?_⟩
      intro desc listed source id side isEnd slot heard
      rw [<- sleptEq] at listed
      rcases mem_scanned listed with ⟨original, member, rfl⟩
      have quiet : second.revents asleep taskId original = 0 := scan_nothing nothing.1 member
      rcases soundAsleep.pipe slot isEnd with ⟨shared, pipe, present, kind⟩
      have found : asleep.pipeAt id = some pipe := pipeAt_eq_some.mpr ⟨shared, present, kind⟩
      rcases (revents_pipe second isEnd source slot found).mp quiet with ⟨opposite, idle⟩
      refine ⟨slot, pipe, found, opposite, idle, ?_⟩
      cases wanted : wantsData original.events side with
      | true =>
        left
        have before : vfs.currentEntry taskId original.handle.toNat = some ⟨id, side⟩ :=
          (VfsState.currentEntry_congr grown.tables taskId _).symm.trans slot
        rcases registerPollWaiters_waits second member isEnd source wanted sound before with
          ⟨after, there, waits⟩
        rw [asleepEq] at there
        cases found.symm.trans there
        exact waits
      | false =>
        unfold hears at heard
        rw [slot] at heard
        dsimp only at heard
        rw [found] at heard
        rw [Bool.or_eq_true, Bool.or_eq_true, decide_eq_true_eq, decide_eq_true_eq,
          any_eq_true] at heard
        rcases heard with (waits | ⟨fd, _, held⟩) | leaked
        · exact .inl waits
        · exact .inr ⟨rfl, .inr ⟨fd, decide_eq_true_eq.mp held⟩⟩
        · refine .inr ⟨rfl, .inl ?_⟩
          have counted : pipe.ends side.peer = holding (lost ++ asleep.entries) id side.peer :=
            soundAsleep.tallied.ends found (FdAccess.peer_isPipe isEnd)
          rw [holding, count_append] at counted
          rw [counted, holding] at leaked
          have positive : 0 < lost.count ⟨id, side.peer⟩ := by omega
          exact count_pos_iff.mp positive

/-- A task that goes to sleep in `vfs_read_blocking` waits for data. -/
theorem vfsReadPass_awaits (sound : Sound ⟨vfs, lost⟩) {fd bufLen len : Nat}
    (pass : vfs.vfsReadPass taskId fd bufLen len = (.pipe .wouldBlock woken, asleep)) :
    Sound ⟨asleep, lost⟩ ∧ ∃ id,
      Awaits taskId fd id .pipeRead true ⟨asleep, lost⟩ := by
  have touch := vfsReadPass_touch vfs taskId fd bufLen len
  rw [pass] at touch
  refine ⟨⟨touch.tallied sound.tallied, touch.suited sound.suited⟩, ?_⟩
  by_cases reads : ∃ id, vfs.currentEntry taskId fd = some ⟨id, .pipeRead⟩
  · rcases reads with ⟨id, slot⟩
    rcases sound.pipe slot rfl with ⟨shared, pipe, present, kind⟩
    refine ⟨id, (VfsState.currentEntry_congr touch.taskFds taskId fd).trans slot, ?_⟩
    rw [vfsReadPass_pipe slot present kind] at pass
    split at pass
    · cases pass
    · next empty =>
      split at pass
      · cases pass
      · next opposite =>
        cases pass
        refine ⟨pipe.addReaderWaiter taskId, ?_, opposite, ?_, .inl ?_⟩
        · rw [pipeAt_setPipe present, update_self]
        · exact fun _ => Nat.eq_zero_of_not_pos empty
        · exact self_mem_addWaiter _ _
  · exfalso
    have plain := fun id present => reads ⟨id, present⟩
    unfold VfsState.vfsReadPass at pass
    split at pass
    · cases pass
    · next entry slot =>
      split at pass
      · cases pass
      · split at pass
        · cases pass
        · next access =>
          rcases entry with ⟨id, _⟩
          subst access
          exact plain id slot
        · cases pass

/-- From every reachable state: a task that goes to sleep in `sys_poll` without a
deadline is woken for everything that becomes reported for a polled pipe end it
hears of, and a task that goes to sleep in `vfs_read_blocking` is woken as soon
as its read would not block. -/
theorem runVfs_wakes (before : List VfsCall) (taskId : Nat) :
    (forall descs slept timeoutMs deadline first second asleep,
      pollPass (runVfs before) taskId descs timeoutMs deadline first second =
        (.sleeps slept none, asleep) ->
      ∀ desc ∈ slept, desc.source = sourceFd -> forall id side, side.isPipe = true ->
          asleep.currentEntry taskId desc.handle.toNat = some ⟨id, side⟩ ->
          hears asleep taskId desc = true ->
          WokenFor taskId asleep
            (fun vfs => Exists fun now : Moment => now.revents vfs taskId desc ≠ 0)) ∧
    (forall fd bufLen len woken asleep,
      (runVfs before).vfsReadPass taskId fd bufLen len = (.pipe .wouldBlock woken, asleep) ->
      WokenFor taskId asleep (fun vfs => forall woken,
        (vfs.vfsReadPass taskId fd bufLen len).1 ≠ .pipe .wouldBlock woken)) := by
  rcases runVfs_sound before with ⟨lost, sound⟩
  constructor
  · intro descs slept timeoutMs deadline first second asleep pass desc listed source id side isEnd
      slot heard
    rcases pollPass_awaits sound pass with ⟨soundAsleep, awaiting⟩
    refine Awaits.wokenFor isEnd ?_ soundAsleep (awaiting desc listed source id side isEnd slot heard)
    rintro config ⟨slotNow, pipe, found, opposite, idle, _⟩ ⟨now, reported⟩
    exact reported ((revents_pipe now isEnd source slotNow found).mpr ⟨opposite, idle⟩)
  · intro fd bufLen len woken asleep pass
    rcases vfsReadPass_awaits sound pass with ⟨soundAsleep, id, awaits⟩
    refine Awaits.wokenFor rfl ?_ soundAsleep awaits
    rintro config ⟨slotNow, pipe, found, opposite, idle, _⟩ returns
    rcases pipeAt_eq_some.mp found with ⟨shared, present, kind⟩
    have empty : ¬ 0 < pipe.ring.len := Nat.not_lt_of_le (Nat.le_of_eq (idle rfl))
    have writable : ¬ pipe.writers = 0 := opposite
    apply returns []
    rw [vfsReadPass_pipe slotNow present kind, if_neg empty, if_neg writable]

/-- A moment at which no other source has anything to report. -/
def quietMoment : Moment where
  ticks := 0
  currentTty := none
  ttyReadiness := fun _ => 0
  ttyRegisters := fun _ => true
  socketRevents := fun _ _ => 0
  socketRegisters := fun _ _ => true
  guiReadiness := fun _ => some 0
  guiRegisters := fun _ => true
  childRevents := fun _ => 0
  childRegisters := fun _ => true

/-- The timeout for which `poll_deadline` gives no deadline. -/
@[simp] abbrev timeoutForever : UInt64 := 0xffffffffffffffff

/-- Task 0 keeps the read end of a pipe and task 1 has the write end. -/
def handedOver : List VfsCall := [.vfsPipe 0 true, .inheritFds 0 1 [(4, 3)], .vfsClose 0 4]

theorem runVfs_wakes_reader : WokenFor 0
      (pollPass (runVfs handedOver) 0 [⟨sourceFd, 3, eventRead, 0⟩] timeoutForever none
        quietMoment quietMoment).2
      (fun vfs => Exists fun now : Moment =>
        now.revents vfs 0 ⟨sourceFd, 3, eventRead, 0⟩ ≠ 0) :=
  (runVfs_wakes handedOver 0).1 [⟨sourceFd, 3, eventRead, 0⟩] [⟨sourceFd, 3, eventRead, 0⟩] timeoutForever none
    quietMoment quietMoment _ rfl ⟨sourceFd, 3, eventRead, 0⟩ mem_cons_self rfl 0 .pipeRead
    rfl rfl (by decide)

/-- A read end that is polled only for its hangup: the task sleeps without a
deadline, the last writer closes, the hangup is reported, and nobody is
woken. -/
theorem poll_misses_hangup : Exists fun asleep : VfsState =>
    pollPass (runVfs handedOver) 0 [⟨sourceFd, 3, 0, 0⟩] timeoutForever none quietMoment quietMoment =
        (.sleeps [⟨sourceFd, 3, 0, 0⟩] none, asleep) ∧
      quietMoment.revents ((VfsCall.vfsClose 1 3).perform asleep) 0 ⟨sourceFd, 3, 0, 0⟩ =
        eventHangup ∧ (VfsCall.vfsClose 1 3).caller ≠ 0 ∧ 0 ∉ (VfsCall.vfsClose 1 3).wakes asleep :=
  ⟨(pollPass (runVfs handedOver) 0 [⟨sourceFd, 3, 0, 0⟩] timeoutForever none quietMoment
    quietMoment).2,
    rfl, by decide, by decide, by decide⟩

end CoolOs.Vfs
