import CoolOs.Net.Tcp

namespace CoolOs.Net

/-!
# Transmitting over virtio

`transmit` has one buffer and one descriptor.  It writes the frame into them, hands them to the
device and polls for a completion a fixed number of times.  After that the device may still be
reading, and its completion is left for a later call, which takes it for its own.

The device is described by how many entries it consumes before each poll and between the calls.
The calls of a run are safe for some timings only, and which these are depends on no more than
whether the last frame is still waiting and how many completions came late.
-/

def txTimeoutSpins : Nat := 2000000

/-- An entry that was handed to the device: for which write of the buffer and the descriptor,
and what these held. -/
structure Posted where
  stamp : Nat
  data : List UInt8

/-- The transmit side of the driver and the device behind it, which counts up `usedIdx`.  The
driver has no record of `writes`, how often the buffer and the descriptor were written, and of
the entries `waiting` to be consumed, the first of them first. -/
structure VirtioNet where
  txBuffer : List UInt8 := List.replicate txBufferBytes 0
  descLen : Nat := 0
  availIdx : UInt16 := 0
  lastUsedIdx : UInt16 := 0
  usedIdx : UInt16 := 0
  writes : Nat := 0
  waiting : List Posted := []

inductive TxError where
  | frameTooLarge
  | timeout
  deriving DecidableEq

namespace VirtioNet

/-- The device consumes some of the entries that wait. -/
def consume (count : Nat) (net : VirtioNet) : VirtioNet :=
  { net with
    usedIdx := net.usedIdx + UInt16.ofNat (min count net.waiting.length)
    waiting := net.waiting.drop count }

/-- What the device reads for an entry: all of them name the same descriptor. -/
def view (net : VirtioNet) : List UInt8 := net.txBuffer.take net.descLen

def pushAvail (net : VirtioNet) : VirtioNet :=
  { net with
    availIdx := net.availIdx + 1
    waiting := net.waiting ++ [⟨net.writes, net.view⟩] }

def popUsed (net : VirtioNet) : Option VirtioNet :=
  if net.usedIdx = net.lastUsedIdx then none
  else some { net with lastUsedIdx := net.lastUsedIdx + 1 }

/-- The polls, with what the device consumes before each. -/
def awaitUsed (timing : Nat -> Nat) : Nat -> VirtioNet -> Except TxError Unit × VirtioNet
  | 0, net => (.error .timeout, net)
  | spins + 1, net =>
    match (net.consume (timing 0)).popUsed with
    | some net => (.ok (), net)
    | none => awaitUsed (fun poll => timing (poll + 1)) spins (net.consume (timing 0))

def refuses (frame : List UInt8) : Bool :=
  frame.isEmpty || frame.length + virtioNetHdrLen > txBufferBytes

/-- What is put into the buffer and the descriptor. -/
def writeFrame (frame : List UInt8) (net : VirtioNet) : VirtioNet :=
  let len := frame.length + virtioNetHdrLen
  { net with
    txBuffer := List.replicate virtioNetHdrLen 0 ++ frame ++ net.txBuffer.drop len
    descLen := len
    writes := net.writes + 1 }

/-- `transmit` with some number of polls.  With fewer than it makes, this is how far the call
has come by then. -/
def transmitFor (spins : Nat) (frame : List UInt8) (timing : Nat -> Nat) (net : VirtioNet) :
    Except TxError Unit × VirtioNet :=
  if refuses frame then (.error .frameTooLarge, net)
  else awaitUsed timing spins (net.writeFrame frame).pushAvail

def transmit (frame : List UInt8) (timing : Nat -> Nat) (net : VirtioNet) :
    Except TxError Unit × VirtioNet :=
  transmitFor txTimeoutSpins frame timing net

/-- The buffer and the descriptor were not written since any entry that waits was handed over,
so that the device reads for it what was meant. -/
def Intact (net : VirtioNet) : Prop :=
  ∀ entry ∈ net.waiting, entry.stamp = net.writes ∧ entry.data = net.view

/-- A call: what the device consumes before it, the frame, and what it consumes before each of
the polls. -/
structure Turn where
  before : Nat
  frame : List UInt8
  timing : Nat -> Nat

/-- The call overwrites nothing that the device may still read, at any of its polls, and ends
well only if the entry it has handed over was consumed. -/
structure Safe (turn : Turn) (net : VirtioNet) : Prop where
  intact : ∀ spins ≤ txTimeoutSpins, (net.transmitFor spins turn.frame turn.timing).2.Intact
  consumed : (net.transmit turn.frame turn.timing).1 = .ok () ->
    ∀ entry ∈ (net.transmit turn.frame turn.timing).2.waiting, entry.stamp ≠ net.writes + 1

def Turn.perform (net : VirtioNet) (turn : Turn) : VirtioNet :=
  ((net.consume turn.before).transmit turn.frame turn.timing).2

/-- Every call of a run is safe in the state in which it is made. -/
def SafeRun : VirtioNet -> List Turn -> Prop
  | _, [] => True
  | net, turn :: rest => Safe turn (net.consume turn.before) ∧ SafeRun (turn.perform net) rest

/-- How far the device is behind: whether it has still to consume the last frame, and how many
completions came after their call had given up. -/
structure Standing where
  pending : Bool := false
  late : UInt16 := 0

/-- What the device does before the next call. -/
def Standing.pass (turn : Turn) (standing : Standing) : Standing :=
  if standing.pending && turn.before != 0 then { late := standing.late + 1 } else standing

/-- What the device does during a call that is made with nothing pending.  A call that has no
late completion to take waits for its own.  Otherwise the device has consumed the frame, and as
many completions as before are left; the last number of them wraps around. -/
def Standing.answer (turn : Turn) (standing : Standing) : Standing :=
  if standing.late = 0 then { pending := decide (∀ poll < txTimeoutSpins, turn.timing poll = 0) }
  else if standing.late + 1 = 0 then {} else standing

/-- The timings of the device for which the calls are safe.  It has consumed each frame before
the next one is passed, and, from the first completion that comes after its call has given up,
consumes each frame before the first poll for it. -/
def Timely : Standing -> List Turn -> Prop
  | _, [] => True
  | standing, turn :: rest =>
    if refuses turn.frame then Timely (standing.pass turn) rest
    else (standing.pass turn).pending = false ∧
      ((standing.pass turn).late ≠ 0 -> turn.timing 0 ≠ 0) ∧
      Timely ((standing.pass turn).answer turn) rest

/-- What a standing says about a state. -/
structure Describes (standing : Standing) (net : VirtioNet) : Prop where
  waiting : net.waiting.length = standing.pending.toNat
  intact : net.Intact
  used : net.usedIdx = net.lastUsedIdx + standing.late
  handed : net.availIdx = net.usedIdx + UInt16.ofNat net.waiting.length

section

variable {net : VirtioNet} {timing : Nat -> Nat} {spins : Nat} {turn : Turn} {standing : Standing}
  {entry : Posted}

theorem consume_none : net.consume 0 = net := by
  rw [consume, Nat.zero_min]
  simp

theorem consume_nothing (count : Nat) (empty : net.waiting = []) : net.consume count = net := by
  cases net
  cases empty
  rw [consume, List.length_nil, Nat.min_zero, List.drop_nil]
  simp

theorem consume_intact (count : Nat) (intact : net.Intact) : (net.consume count).Intact :=
  fun entry listed => intact entry (List.mem_of_mem_drop listed)

/-- Polling does not write to the buffer. -/
theorem awaitUsed_intact (intact : net.Intact) : (net.awaitUsed timing spins).2.Intact := by
  induction spins generalizing net timing with
  | zero => exact intact
  | succ spins ih =>
    rw [awaitUsed, popUsed]
    by_cases taken : (net.consume (timing 0)).usedIdx = (net.consume (timing 0)).lastUsedIdx
    · rw [if_pos taken]
      exact ih (consume_intact _ intact)
    · rw [if_neg taken]
      exact consume_intact _ intact

/-- With nothing that waits and nothing to take, the polls find nothing. -/
theorem awaitUsed_idle (empty : net.waiting = []) (taken : net.usedIdx = net.lastUsedIdx) :
    net.awaitUsed timing spins = (.error .timeout, net) := by
  induction spins generalizing timing with
  | zero => rfl
  | succ spins ih =>
    rw [awaitUsed, consume_nothing _ empty, popUsed, if_pos taken]
    exact ih

/-- The state in which the device has consumed the only entry. -/
def served (net : VirtioNet) : VirtioNet :=
  { net with usedIdx := net.usedIdx + 1, waiting := [] }

theorem consume_one {count : Nat} (one : net.waiting = [entry]) (some : count ≠ 0) :
    net.consume count = net.served := by
  rcases Nat.exists_eq_succ_of_ne_zero some with ⟨more, rfl⟩
  rw [consume, served, one]
  simp

/-- A call whose frame is the only one that waits, and that has no completion to take, ends well
exactly when the device has consumed the frame by the last poll. -/
theorem awaitUsed_own (one : net.waiting = [entry]) (taken : net.usedIdx = net.lastUsedIdx) :
    net.awaitUsed timing spins = if ∀ poll < spins, timing poll = 0 then (.error .timeout, net)
      else (.ok (), { net.served with lastUsedIdx := net.lastUsedIdx + 1 }) := by
  induction spins generalizing timing with
  | zero => rw [if_pos fun _ less => absurd less (Nat.not_lt_zero _), awaitUsed]
  | succ spins ih =>
    rw [awaitUsed]
    by_cases still : timing 0 = 0
    · rw [still, consume_none, popUsed, if_pos taken, ih]
      refine if_congr ⟨fun silent poll less => ?_, fun silent poll less =>
        silent (poll + 1) (Nat.succ_lt_succ less)⟩ rfl rfl
      cases poll with
      | zero => exact still
      | succ poll => exact silent poll (Nat.lt_of_succ_lt_succ less)
    · have new : ¬ net.served.usedIdx = net.served.lastUsedIdx := by
        rw [served, taken]
        simp
      rw [if_neg fun silent => still (silent 0 (Nat.succ_pos _)), consume_one one still, popUsed,
        if_neg new]
      rfl

/-- The first poll of a call takes a completion that came late. -/
theorem awaitUsed_stale (left : net.usedIdx ≠ net.lastUsedIdx) (silent : timing 0 = 0) :
    net.awaitUsed timing (spins + 1) =
      (.ok (), { net with lastUsedIdx := net.lastUsedIdx + 1 }) := by
  rw [awaitUsed, silent, consume_none, popUsed, if_neg left]

theorem awaitUsed_behind (one : net.waiting = [entry]) (served : timing 0 ≠ 0) :
    (net.awaitUsed timing (spins + 1)).2 = if net.usedIdx + 1 = net.lastUsedIdx then net.served
      else { net.served with lastUsedIdx := net.lastUsedIdx + 1 } := by
  rw [awaitUsed, consume_one one served, popUsed]
  by_cases wrapped : net.usedIdx + 1 = net.lastUsedIdx
  · have taken : net.served.usedIdx = net.served.lastUsedIdx := wrapped
    rw [if_pos taken, if_pos wrapped, awaitUsed_idle rfl taken]
  · have left : ¬ net.served.usedIdx = net.served.lastUsedIdx := wrapped
    rw [if_neg left, if_neg wrapped]
    rfl

theorem describes_start : Describes {} {} where
  waiting := rfl
  intact _ listed := nomatch listed
  used := rfl
  handed := rfl

theorem describes_pass (fits : Describes standing net) (turn : Turn) :
    Describes (standing.pass turn) (net.consume turn.before) := by
  rw [Standing.pass]
  cases pending : standing.pending with
  | false =>
    have empty : net.waiting = [] := List.length_eq_zero_iff.mp (by rw [fits.waiting, pending]; rfl)
    rw [consume_nothing _ empty, Bool.false_and, if_neg Bool.false_ne_true]
    exact fits
  | true =>
    rcases List.length_eq_one_iff.mp (fits.waiting.trans (by rw [pending]; rfl)) with ⟨entry, one⟩
    by_cases still : turn.before = 0
    · rw [still, consume_none]
      exact fits
    · rw [consume_one one still, Bool.true_and, if_pos (bne_iff_ne.mpr still)]
      refine ⟨rfl, fun entry => nofun, ?_, ?_⟩
      · rw [served, fits.used, UInt16.add_assoc]
      · rw [served, fits.handed, one]
        simp

theorem transmitFor_accepted (accepted : refuses turn.frame = false) (spins : Nat) :
    net.transmitFor spins turn.frame turn.timing =
      awaitUsed turn.timing spins (net.writeFrame turn.frame).pushAvail :=
  if_neg (Bool.eq_false_iff.mp accepted)

/-- A frame that is written while an earlier one waits overwrites it. -/
theorem not_safe_of_pending (fits : Describes standing net) (pending : standing.pending = true)
    (accepted : refuses turn.frame = false) : ¬ Safe turn net := by
  intro safe
  rcases List.length_eq_one_iff.mp (fits.waiting.trans (by rw [pending]; rfl)) with ⟨entry, one⟩
  have waits : entry ∈ net.waiting := one ▸ List.mem_singleton_self entry
  have intact := safe.intact 0 (Nat.zero_le _)
  rw [transmitFor_accepted accepted, awaitUsed] at intact
  have stamp := (intact entry (List.mem_append_left _ waits)).1
  rw [(fits.intact entry waits).1] at stamp
  exact absurd stamp (Nat.ne_of_lt (Nat.lt_succ_self _))

/-- The state right after an entry was handed over to a device with nothing else to do. -/
structure HandedOver (standing : Standing) (entry : Posted) (net : VirtioNet) : Prop where
  one : net.waiting = [entry]
  intact : net.Intact
  used : net.usedIdx = net.lastUsedIdx + standing.late
  handed : net.availIdx = net.usedIdx + 1

theorem handedOver (fits : Describes standing net) (empty : net.waiting = [])
    (frame : List UInt8) : HandedOver standing
      ⟨net.writes + 1, (net.writeFrame frame).pushAvail.view⟩ (net.writeFrame frame).pushAvail := by
  have one : (net.writeFrame frame).pushAvail.waiting =
      [⟨net.writes + 1, (net.writeFrame frame).pushAvail.view⟩] := by
    rw [pushAvail, writeFrame, empty]
    rfl
  refine ⟨one, fun entry listed => ?_, fits.used, ?_⟩
  · rw [one, List.mem_singleton] at listed
    rw [listed]
    exact ⟨rfl, rfl⟩
  · rw [pushAvail, writeFrame, fits.handed, empty]
    simp

theorem served_describes (start : HandedOver standing entry net) {next : Standing}
    {taken : UInt16} (free : next.pending = false) (used : net.usedIdx + 1 = taken + next.late) :
    Describes next { net.served with lastUsedIdx := taken } where
  waiting := by
    rw [free]
    rfl
  intact _ listed := nomatch listed
  used := used
  handed := by
    rw [served, start.handed]
    exact (UInt16.add_zero _).symm

/-- A call that has no late completion to take leaves its frame waiting or takes its own. -/
theorem describes_own (start : HandedOver standing entry net) (none : standing.late = 0) :
    Describes (standing.answer turn) (net.awaitUsed turn.timing txTimeoutSpins).2 := by
  have taken : net.usedIdx = net.lastUsedIdx := by rw [start.used, none, UInt16.add_zero]
  rw [awaitUsed_own start.one taken, Standing.answer, if_pos none]
  by_cases silent : ∀ poll < txTimeoutSpins, turn.timing poll = 0
  · rw [if_pos silent, decide_eq_true silent]
    refine ⟨congrArg List.length start.one, start.intact, ?_, ?_⟩
    · rw [taken, UInt16.add_zero]
    · rw [start.handed, start.one]
      rfl
  · rw [if_neg silent, decide_eq_false silent]
    refine served_describes start rfl ?_
    rw [taken, UInt16.add_zero]

/-- A call that takes a late completion leaves its own. -/
theorem describes_behind (start : HandedOver standing entry net) (free : standing.pending = false)
    (late : standing.late ≠ 0) (fast : turn.timing 0 ≠ 0) :
    Describes (standing.answer turn) (net.awaitUsed turn.timing txTimeoutSpins).2 := by
  have wraps : net.usedIdx + 1 = net.lastUsedIdx <-> standing.late + 1 = 0 := by
    rw [start.used, UInt16.add_assoc]
    simp
  rw [txTimeoutSpins, awaitUsed_behind start.one fast, Standing.answer, if_neg late]
  by_cases last : standing.late + 1 = 0
  · rw [if_pos (wraps.mpr last), if_pos last]
    refine served_describes start rfl ?_
    rw [wraps.mpr last]
    exact (UInt16.add_zero _).symm
  · rw [if_neg (mt wraps.mp last), if_neg last]
    refine served_describes start free ?_
    rw [start.used, UInt16.add_assoc, UInt16.add_comm standing.late 1, UInt16.add_assoc]

/-- A call that is made with nothing pending is safe exactly if the device is fast enough for a
late completion not to be mistaken for its own. -/
theorem safe_accepted (fits : Describes standing net) (empty : net.waiting = [])
    (accepted : refuses turn.frame = false) :
    Safe turn net <-> (standing.late ≠ 0 -> turn.timing 0 ≠ 0) := by
  have start := handedOver fits empty turn.frame
  have runs : ∀ spins, net.transmitFor spins turn.frame turn.timing = _ :=
    transmitFor_accepted accepted
  have safe_of (told : (net.transmit turn.frame turn.timing).1 = .ok () ->
      (net.transmit turn.frame turn.timing).2.waiting = []) : Safe turn net := by
    refine ⟨fun spins _ => ?_, fun ended entry listed => ?_⟩
    · rw [runs]
      exact awaitUsed_intact start.intact
    · rw [told ended] at listed
      cases listed
  rw [transmit, runs] at safe_of
  by_cases none : standing.late = 0
  · have taken := start.used
    rw [none, UInt16.add_zero] at taken
    refine iff_of_true (safe_of ?_) fun some => absurd none some
    rw [awaitUsed_own start.one taken]
    split
    · exact nofun
    · exact fun _ => rfl
  · by_cases silent : turn.timing 0 = 0
    · refine iff_of_false (fun safe => ?_) fun fast => fast none silent
      have left : (net.writeFrame turn.frame).pushAvail.usedIdx ≠
          (net.writeFrame turn.frame).pushAvail.lastUsedIdx := by
        rw [start.used]
        exact fun same => none (by simpa using same)
      have consumed := safe.consumed
      rw [transmit, runs, txTimeoutSpins, awaitUsed_stale left silent] at consumed
      exact consumed rfl _ (start.one ▸ List.mem_singleton_self _) rfl
    · refine iff_of_true (safe_of fun _ => ?_) fun _ => silent
      rw [txTimeoutSpins, awaitUsed_behind start.one silent]
      split <;> rfl

theorem describes_transmit (fits : Describes standing net) (free : standing.pending = false)
    (empty : net.waiting = []) (accepted : refuses turn.frame = false)
    (fast : standing.late ≠ 0 -> turn.timing 0 ≠ 0) :
    Describes (standing.answer turn) (net.transmit turn.frame turn.timing).2 := by
  have start := handedOver fits empty turn.frame
  rw [transmit, transmitFor_accepted accepted]
  by_cases none : standing.late = 0
  · exact describes_own start none
  · exact describes_behind start free none (fast none)

theorem refused_safe (fits : Describes standing net) (refused : refuses turn.frame = true) :
    Safe turn net ∧ (net.transmit turn.frame turn.timing).2 = net := by
  have runs (spins : Nat) : net.transmitFor spins turn.frame turn.timing =
      (.error .frameTooLarge, net) := if_pos refused
  refine ⟨⟨fun spins _ => ?_, fun ended => ?_⟩, ?_⟩
  · rw [runs]
    exact fits.intact
  · rw [transmit, runs] at ended
    cases ended
  · rw [transmit, runs]

theorem safeRun_iff (turns : List Turn) (fits : Describes standing net) :
    SafeRun net turns <-> Timely standing turns := by
  induction turns generalizing standing net with
  | nil => exact .rfl
  | cons turn rest ih =>
    have now := describes_pass fits turn
    rw [SafeRun, Timely, Turn.perform]
    cases refused : refuses turn.frame with
    | true =>
      rcases refused_safe now refused with ⟨safe, same⟩
      rw [if_pos rfl, same, and_iff_right safe]
      exact ih now
    | false =>
      rw [if_neg Bool.false_ne_true]
      cases pending : (standing.pass turn).pending with
      | true =>
        exact iff_of_false (fun both => not_safe_of_pending now pending refused both.1) nofun
      | false =>
        have empty := List.length_eq_zero_iff.mp (now.waiting.trans (by rw [pending]; rfl))
        rw [eq_self, true_and, safe_accepted now empty refused]
        exact and_congr_right fun fast => ih (describes_transmit now pending empty refused fast)

end

/-- From the start of the driver, the calls of a run are all safe exactly if the device keeps to
the timing. -/
theorem run_safe_iff (turns : List Turn) : SafeRun {} turns <-> Timely {} turns :=
  safeRun_iff turns describes_start

/-- The device does not answer the first call before the second. -/
theorem second_frame_unsafe :
    ¬ SafeRun {} [⟨0, [1], fun _ => 0⟩, ⟨0, [2], fun _ => 0⟩] := by
  rw [safeRun_iff _ describes_start, Timely, if_neg (by decide), Timely, if_neg (by decide)]
  rintro ⟨_, _, free, _⟩
  rw [Standing.pass, Standing.pass, Standing.answer] at free
  simp at free

end VirtioNet
end CoolOs.Net
