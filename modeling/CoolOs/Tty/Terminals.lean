import CoolOs.Queues.Ring

namespace CoolOs.Tty

open Queues

/-!
# Terminals

A terminal queues output for the window and input for its readers.  In canonical
mode input is edited in a line and handed over when the line ends; in raw mode it
is handed over at once.  A call that hands input over wakes the readers.
-/

@[simp] abbrev ttyBufferSize : Nat := 8192
@[simp] abbrev ttyInputSize : Nat := 4096
@[simp] abbrev ttyLineLimit : Nat := 1024
@[simp] abbrev ttyModeCanonical : UInt64 := 1
@[simp] abbrev ttyModeEcho : UInt64 := 2
@[simp] abbrev ttyModeDefault : UInt64 := 7
@[simp] abbrev eventRead : UInt64 := 1
@[simp] abbrev eventError : UInt64 := 8

structure Terminal where
  id : UInt64
  output : GapRing UInt8 ttyBufferSize
  input : GapRing UInt8 ttyInputSize
  line : List UInt8
  waitingReaders : List Nat
  eofPending : Bool
  mode : UInt64

/-- `char::is_control`. -/
def isControl (c : Char) : Bool := c.val < 0x20 || (0x7f <= c.val && c.val <= 0x9f)

variable (tty : Terminal)

namespace Terminal

def new (id : UInt64) : Terminal where
  id := id
  output := .empty 0
  input := .empty 0
  line := []
  waitingReaders := []
  eofPending := false
  mode := ttyModeDefault

def canonical : Bool := tty.mode &&& ttyModeCanonical != 0

def echoes : Bool := tty.mode &&& ttyModeEcho != 0

def pushByte (byte : UInt8) : Terminal :=
  { tty with output := tty.output.push byte }

def pushInputByte (byte : UInt8) : Terminal :=
  { tty with input := tty.input.push byte }

def addReader (task : Nat) : Terminal :=
  if tty.waitingReaders.any (fun waiter => waiter == task) then tty
  else { tty with waitingReaders := tty.waitingReaders ++ [task] }

def takeReaders : List Nat × Terminal :=
  (tty.waitingReaders, { tty with waitingReaders := [] })

/-- One turn of the loop of `push_raw_input`. -/
def pushRawByte (byte : UInt8) : Terminal :=
  let tty := tty.pushInputByte byte
  if tty.echoes then tty.pushByte byte else tty

def pushRawInput (bytes : List UInt8) : List Nat × Terminal :=
  (bytes.foldl pushRawByte tty).takeReaders

def flushLine (newline : Bool) : List Nat × Terminal :=
  let tty := { tty.line.foldl pushInputByte tty with line := [] }
  (if newline then tty.pushInputByte 10 else tty).takeReaders

/-- Take bytes off the end of a line, given backwards, up to one that starts a character. -/
def popChar : List UInt8 -> Bool × List UInt8
  | [] => (false, [])
  | byte :: rest => if byte &&& 0xc0 ≠ 0x80 then (true, rest) else popChar rest

def removeLastLineChar : Bool × Terminal :=
  let (removed, left) := popChar tty.line.reverse
  (removed, { tty with line := left.reverse })

/-- What a backspace does in canonical mode. -/
def erase : Terminal :=
  let (removed, tty) := tty.removeLastLineChar
  if removed then ((tty.pushByte 8).pushByte 32).pushByte 8 else tty

/-- The tasks that `submit_char` wakes, and the terminal after it. -/
def submitChar (c : Char) : List Nat × Terminal :=
  let bytes := String.utf8EncodeChar c
  if !tty.canonical then tty.pushRawInput bytes
  else if c = '\n' ∨ c = '\r' then (tty.pushByte 10).flushLine true
  else if c.val = 8 ∨ c.val = 0x7f then ([], tty.erase)
  else if c = '\t' ∨ isControl c = false then
    if tty.line.length + bytes.length <= ttyLineLimit then
      ([], bytes.foldl (fun tty byte =>
        { tty with line := tty.line ++ [byte] }.pushByte byte) tty)
    else ([], tty)
  else ([], tty)

/-- One turn of the loop of `submit_bytes`, with the tasks to wake so far. -/
def submitByte (state : List Nat × Terminal) (byte : UInt8) : List Nat × Terminal :=
  let (wakeTasks, tty) := state
  let c := Char.ofNat byte.toNat
  if c = '\n' ∨ c = '\r' then (tty.pushByte 10).flushLine true
  else if byte = 8 ∨ byte = 0x7f then (wakeTasks, tty.erase)
  else if c = '\t' ∨ isControl c = false then
    if tty.line.length + 1 <= ttyLineLimit then
      (wakeTasks, { tty with line := tty.line ++ [byte] }.pushByte byte)
    else (wakeTasks, tty)
  else (wakeTasks, tty)

def submitBytes (bytes : List UInt8) : List Nat × Terminal :=
  if bytes.isEmpty then ([], tty)
  else if !tty.canonical then tty.pushRawInput bytes
  else bytes.foldl submitByte ([], tty)

def submitEof : List Nat × Terminal :=
  if tty.line.isEmpty then { tty with eofPending := true }.takeReaders
  else tty.flushLine false

/-- Whether a read would not wait. -/
def readable : Bool := decide (0 < tty.input.pending) || tty.eofPending

/-- Take bytes from the input, in canonical mode up to the end of a line. -/
def popInput (tty : Terminal) : Nat -> List UInt8 × Terminal
  | 0 => ([], tty)
  | max + 1 =>
    match tty.input.pop with
    | none => ([], tty)
    | some (byte, input) =>
      let tty := { tty with input := input }
      if tty.canonical && byte == 10 then ([byte], tty)
      else
        let (bytes, tty) := tty.popInput max
        (byte :: bytes, tty)

/-- One turn of the loop of `read_input_blocking`: what is read, or the task waits. -/
def readInput (task max : Nat) : Option (List UInt8) × Terminal :=
  let (bytes, tty) := tty.popInput max
  if !bytes.isEmpty then (some bytes, tty)
  else if tty.eofPending then (some [], { tty with eofPending := false })
  else (none, tty.addReader task)

end Terminal

variable (ttys : List Terminal)

def findTty (id : UInt64) : Option Terminal :=
  ttys.find? (fun tty => tty.id == id)

/-- Change the first terminal with an id. -/
def updateTty (id : UInt64) (change : Terminal -> List Nat × Terminal) :
    List Terminal -> Option (List Nat × List Terminal)
  | [] => none
  | tty :: rest =>
    if tty.id = id then some ((change tty).1, (change tty).2 :: rest)
    else (updateTty id change rest).map (fun (woken, after) => (woken, tty :: after))

def inputReadiness (id : UInt64) : UInt64 :=
  match findTty ttys id with
  | none => eventError
  | some tty => if tty.readable then eventRead else 0

/-- The calls that submit input to a terminal. -/
inductive Submit where
  | char (c : Char)
  | bytes (input : List UInt8)
  | eof

def Submit.react : Submit -> List Nat × Terminal
  | .char c => tty.submitChar c
  | .bytes input => tty.submitBytes input
  | .eof => tty.submitEof

/-- What a call returns, the tasks it wakes and the terminals after it. -/
def Submit.perform (id : UInt64) (submit : Submit) :
    Bool × List Nat × List Terminal :=
  match submit with
  | .bytes [] => (true, [], ttys)
  | submit =>
    match updateTty id (fun tty => submit.react tty) ttys with
    | none => (false, [], ttys)
    | some (woken, after) => (true, woken, after)

open List Terminal

/-!
## Readers and input

A call that ends one line, or hands raw input over, wakes every reader.  Of several
lines that `submit_bytes` ends in one call only the last one's readers are woken, and
by then none is left.
-/

variable (tty : Terminal) (byte : UInt8)

namespace Terminal

/-- Nothing that a reader sees changes. -/
structure Quiet (before after : Terminal) : Prop where
  id : after.id = before.id
  waitingReaders : after.waitingReaders = before.waitingReaders
  readable : after.readable = before.readable

/-- There is input now, and the readers have been taken. -/
structure Handover (before : Terminal) (outcome : List Nat × Terminal) : Prop where
  id : outcome.2.id = before.id
  woken : outcome.1 = before.waitingReaders
  waitingReaders : outcome.2.waitingReaders = []
  readable : outcome.2.readable = true

theorem Quiet.refl : tty.Quiet tty := ⟨rfl, rfl, rfl⟩

theorem Quiet.trans {first second third : Terminal} (start : first.Quiet second)
    (rest : second.Quiet third) : first.Quiet third :=
  ⟨rest.id.trans start.id, rest.waitingReaders.trans start.waitingReaders,
    rest.readable.trans start.readable⟩

theorem Quiet.handover {before middle : Terminal} {outcome : List Nat × Terminal}
    (quiet : before.Quiet middle) (hands : middle.Handover outcome) : before.Handover outcome :=
  ⟨hands.id.trans quiet.id, hands.woken.trans quiet.waitingReaders, hands.waitingReaders,
    hands.readable⟩

theorem pushByte_quiet : tty.Quiet (tty.pushByte byte) := ⟨rfl, rfl, rfl⟩

theorem line_quiet (line : List UInt8) : tty.Quiet { tty with line := line } := ⟨rfl, rfl, rfl⟩

theorem erase_quiet : tty.Quiet tty.erase := by
  have shorter := line_quiet tty (popChar tty.line.reverse).2.reverse
  unfold erase removeLastLineChar
  dsimp only
  split
  · exact ((shorter.trans (pushByte_quiet _ 8)).trans (pushByte_quiet _ 32)).trans
      (pushByte_quiet _ 8)
  · exact shorter

/-- The bytes of a character are added to the line and shown. -/
theorem typed_quiet (bytes : List UInt8) (tty : Terminal) : tty.Quiet (bytes.foldl (fun tty byte =>
      { tty with line := tty.line ++ [byte] }.pushByte byte) tty) := by
  induction bytes generalizing tty with
  | nil => exact .refl tty
  | cons byte rest ih =>
    exact ((line_quiet tty _).trans (pushByte_quiet _ byte)).trans (ih _)

theorem pushInputByte_readable : (tty.pushInputByte byte).readable = true := by
  have queued := tty.input.pending_push byte (by decide)
  simp [readable, pushInputByte, queued]

theorem pushRawByte_spec : (tty.pushRawByte byte).id = tty.id ∧
      (tty.pushRawByte byte).waitingReaders = tty.waitingReaders ∧
      (tty.pushRawByte byte).readable = true := by
  have full := pushInputByte_readable tty byte
  unfold pushRawByte
  dsimp only
  split
  · exact ⟨rfl, rfl, full⟩
  · exact ⟨rfl, rfl, full⟩

/-- Pushing bytes one by one, with steps in between that a reader does not see. -/
theorem pushes_spec {push : Terminal -> UInt8 -> Terminal}
    (pushes : ∀ tty byte, (push tty byte).id = tty.id ∧
      (push tty byte).waitingReaders = tty.waitingReaders ∧ (push tty byte).readable = true)
    (bytes : List UInt8) (tty : Terminal) :
    (bytes.foldl push tty).id = tty.id ∧
      (bytes.foldl push tty).waitingReaders = tty.waitingReaders ∧
      (tty.readable = true ∨ bytes ≠ [] -> (bytes.foldl push tty).readable = true) := by
  induction bytes generalizing tty with
  | nil => exact ⟨rfl, rfl, fun already => already.resolve_right (fun empty => empty rfl)⟩
  | cons byte rest ih =>
    rcases ih (push tty byte) with ⟨id, readers, full⟩
    exact ⟨id.trans (pushes tty byte).1, readers.trans (pushes tty byte).2.1,
      fun _ => full (.inl (pushes tty byte).2.2)⟩

theorem takeReaders_handover {before tty : Terminal} (id : tty.id = before.id)
    (readers : tty.waitingReaders = before.waitingReaders) (full : tty.readable = true) :
    before.Handover tty.takeReaders := ⟨id, readers, rfl, full⟩

theorem pushRawInput_handover {bytes : List UInt8} (some : bytes ≠ []) :
    tty.Handover (tty.pushRawInput bytes) := by
  rcases pushes_spec pushRawByte_spec bytes tty with ⟨id, readers, full⟩
  exact takeReaders_handover id readers (full (.inr some))

theorem flushLine_handover {newline : Bool}
    (some : newline = true ∨ tty.line ≠ []) : tty.Handover (tty.flushLine newline) := by
  have pushes (tty : Terminal) (byte : UInt8) : (tty.pushInputByte byte).id = tty.id ∧
      (tty.pushInputByte byte).waitingReaders = tty.waitingReaders ∧
      (tty.pushInputByte byte).readable = true := ⟨rfl, rfl, pushInputByte_readable tty byte⟩
  rcases pushes_spec pushes tty.line tty with ⟨id, readers, full⟩
  unfold flushLine
  generalize tty.line.foldl pushInputByte tty = flushed at id readers full
  cases newline with
  | true => exact takeReaders_handover id readers (pushInputByte_readable _ 10)
  | false =>
    refine takeReaders_handover id readers ?_
    exact full (.inr (some.resolve_left Bool.false_ne_true))

/-- The byte ends a line. -/
def endsLine (byte : UInt8) : Bool := byte.toNat == 10 || byte.toNat == 13

theorem char_endsLine :
    Char.ofNat byte.toNat = '\n' ∨ Char.ofNat byte.toNat = '\r' <-> endsLine byte = true := by
  have all : ∀ value : Fin 256, (Char.ofNat value = '\n' ∨ Char.ofNat value = '\r' <->
      (value.val == 10 || value.val == 13) = true) := by decide +kernel
  exact all ⟨byte.toNat, byte.toNat_lt⟩

/-- Any other byte leaves what a reader sees as it is. -/
theorem submitByte_quiet (wakeTasks : List Nat) (tty : Terminal) {byte : UInt8}
    (inside : endsLine byte = false) :
    (submitByte (wakeTasks, tty) byte).1 = wakeTasks ∧
      tty.Quiet (submitByte (wakeTasks, tty) byte).2 := by
  unfold submitByte
  dsimp only
  rw [if_neg (by rw [char_endsLine, inside]; exact Bool.false_ne_true)]
  split
  · exact ⟨rfl, erase_quiet tty⟩
  split
  · split
    · exact ⟨rfl, (line_quiet tty _).trans (pushByte_quiet _ byte)⟩
    · exact ⟨rfl, .refl tty⟩
  · exact ⟨rfl, .refl tty⟩

theorem submitByte_handover (wakeTasks : List Nat) (tty : Terminal) {byte : UInt8}
    (ends : endsLine byte = true) : tty.Handover (submitByte (wakeTasks, tty) byte) := by
  unfold submitByte
  dsimp only
  rw [if_pos ((char_endsLine byte).mpr ends)]
  exact (pushByte_quiet tty 10).handover (flushLine_handover _ (.inl rfl))

/-- What the loop of `submit_bytes` wakes is what its last line end found. -/
theorem submitByte_loop (bytes : List UInt8) (wakeTasks : List Nat) (tty : Terminal) :
    (bytes.foldl submitByte (wakeTasks, tty)).2.id = tty.id ∧
      (bytes.foldl submitByte (wakeTasks, tty)).1 = (match bytes.countP endsLine with
          | 0 => wakeTasks
          | 1 => tty.waitingReaders
          | _ => []) ∧
      (bytes.foldl submitByte (wakeTasks, tty)).2.readable =
        (tty.readable || bytes.any endsLine) := by
  induction bytes generalizing wakeTasks tty with
  | nil => exact ⟨rfl, rfl, (Bool.or_false _).symm⟩
  | cons byte rest ih =>
    rw [foldl_cons]
    cases ends : endsLine byte with
    | false =>
      rcases submitByte_quiet wakeTasks tty ends with ⟨woken, quiet⟩
      generalize submitByte (wakeTasks, tty) byte = state at woken quiet
      rcases state with ⟨_, after⟩
      subst woken
      rcases ih _ after with ⟨id, woken, full⟩
      refine ⟨id.trans quiet.id, ?_, ?_⟩
      · rw [woken, countP_cons_of_neg (by simp [ends]), quiet.waitingReaders]
      · rw [full, quiet.readable, any_cons, ends, Bool.false_or]
    | true =>
      have hands := submitByte_handover wakeTasks tty ends
      generalize submitByte (wakeTasks, tty) byte = state at hands
      rcases state with ⟨readers, after⟩
      rcases ih readers after with ⟨id, woken, full⟩
      refine ⟨id.trans hands.id, ?_, ?_⟩
      · rw [woken, countP_cons_of_pos ends, hands.waitingReaders]
        -- the first line end takes the readers, the next ones find none
        rcases rest.countP endsLine with _ | _ | _
        · exact hands.woken
        · rfl
        · rfl
      · rw [full, hands.readable, any_cons, ends]
        simp

end Terminal

theorem findTty_updateTty {id : UInt64} {change : Terminal -> List Nat × Terminal}
    (keeps : ∀ tty, (change tty).2.id = tty.id) {ttys : List Terminal} {tty : Terminal}
    (found : findTty ttys id = some tty) :
    ∃ after, updateTty id change ttys = some ((change tty).1, after) ∧
      findTty after id = some (change tty).2 := by
  induction ttys with
  | nil => cases found
  | cons first rest ih =>
    by_cases here : first.id = id
    · rw [findTty, find?_cons_of_pos (by simpa using here)] at found
      cases found
      refine ⟨(change tty).2 :: rest, by rw [updateTty, if_pos here], ?_⟩
      rw [findTty, find?_cons_of_pos]
      simpa [keeps] using here
    · rw [findTty, find?_cons_of_neg (by simpa using here)] at found
      rcases ih found with ⟨after, updated, next⟩
      refine ⟨first :: after, by rw [updateTty, if_neg here, updated, Option.map_some], ?_⟩
      rw [findTty, find?_cons_of_neg (by simpa using here)]
      exact next

namespace Submit

/-- If there is something to read after the call, it wakes all who waited before it. -/
def WakesReaders (ttys : List Terminal) (id : UInt64) (submit : Submit) : Prop :=
  inputReadiness (submit.perform ttys id).2.2 id = eventRead ->
    forall tty, findTty ttys id = some tty ->
      ∀ task ∈ tty.waitingReaders, task ∈ (submit.perform ttys id).2.1

/-- Nobody waits, or the call ends exactly one line or hands raw input over, or it
hands nothing over and there was nothing to read before. -/
def reaches (tty : Terminal) (submit : Submit) : Bool :=
  tty.waitingReaders.isEmpty ||
    match submit with
    | .char c => !tty.canonical || c == '\n' || c == '\r' || !tty.readable
    | .bytes input =>
      if tty.canonical then
        input.countP endsLine == 1 || !input.any endsLine && !tty.readable
      else !input.isEmpty || !tty.readable
    | .eof => true

/-- The same for one terminal. -/
def Reaches (tty : Terminal) (outcome : List Nat × Terminal) : Prop :=
  outcome.2.readable = true -> ∀ task ∈ tty.waitingReaders, task ∈ outcome.1

theorem reaches_handover {tty : Terminal} {outcome : List Nat × Terminal}
    (hands : tty.Handover outcome) : Reaches tty outcome := fun _ _ waits => hands.woken ▸ waits

theorem reaches_nobody_iff {tty after : Terminal} :
    Reaches tty ([], after) <-> tty.waitingReaders = [] ∨ after.readable = false := by
  simp only [Reaches, not_mem_nil, imp_false, <- eq_nil_iff_forall_not_mem]
  cases after.readable <;> simp

theorem submitChar_iff (c : Char) : (tty.submitChar c).2.id = tty.id ∧
      (Reaches tty (tty.submitChar c) <-> reaches tty (.char c) = true) := by
  have nobody {after : Terminal} (quiet : tty.Quiet after) (canonical : tty.canonical = true)
      (inside : ¬ (c = '\n' ∨ c = '\r')) :
      Reaches tty ([], after) <-> reaches tty (.char c) = true := by
    rw [not_or] at inside
    rw [reaches_nobody_iff, quiet.readable]
    simp [reaches, canonical, inside.1, inside.2]
  have everybody {outcome : List Nat × Terminal} (hands : tty.Handover outcome)
      (ends : tty.canonical = false ∨ c = '\n' ∨ c = '\r') :
      outcome.2.id = tty.id ∧ (Reaches tty outcome <-> reaches tty (.char c) = true) := by
    refine ⟨hands.id, iff_of_true (reaches_handover hands) ?_⟩
    rcases ends with raw | newline | carriage
    · simp [reaches, raw]
    · simp [reaches, newline]
    · simp [reaches, carriage]
  unfold submitChar
  dsimp only
  split
  · next raw =>
    refine everybody (tty.pushRawInput_handover ?_) (.inl (by simpa using raw))
    exact String.utf8EncodeChar_ne_nil
  next canonical =>
  have canonical : tty.canonical = true := by simpa using canonical
  split
  · next ends =>
    exact everybody ((tty.pushByte_quiet 10).handover (flushLine_handover _ (.inl rfl)))
      (.inr ends)
  next inside =>
  split
  · exact ⟨tty.erase_quiet.id, nobody tty.erase_quiet canonical inside⟩
  split
  · split
    · exact ⟨(typed_quiet _ tty).id, nobody (typed_quiet _ tty) canonical inside⟩
    · exact ⟨rfl, nobody (.refl tty) canonical inside⟩
  · exact ⟨rfl, nobody (.refl tty) canonical inside⟩

theorem submitBytes_iff (input : List UInt8) :
    (tty.submitBytes input).2.id = tty.id ∧
      (Reaches tty (tty.submitBytes input) <-> reaches tty (.bytes input) = true) := by
  unfold submitBytes
  split
  · next empty =>
    rw [List.isEmpty_iff] at empty
    subst empty
    refine ⟨rfl, ?_⟩
    rw [reaches_nobody_iff]
    cases tty.canonical <;> simp [reaches]
  next some =>
  have some : input ≠ [] := by simpa using some
  split
  · next raw =>
    have hands := tty.pushRawInput_handover some
    refine ⟨hands.id, iff_of_true (reaches_handover hands) ?_⟩
    simp [reaches, some, show tty.canonical = false by simpa using raw]
  next canonical =>
  have canonical : tty.canonical = true := by simpa using canonical
  rcases submitByte_loop input [] tty with ⟨id, woken, full⟩
  refine ⟨id, ?_⟩
  rw [Reaches, woken, full]
  have ends : input.any endsLine = decide (0 < input.countP endsLine) := by
    rw [Bool.eq_iff_iff, any_eq_true, decide_eq_true_eq, countP_pos_iff]
  simp only [reaches, canonical, if_true, ends]
  -- no line ends, one does, or the readers of the first are lost
  rcases input.countP endsLine with _ | _ | _
  · simpa [Reaches] using @reaches_nobody_iff tty tty
  · simp
  · simp [<- eq_nil_iff_forall_not_mem]

theorem submitEof_iff : (tty.submitEof).2.id = tty.id ∧
      (Reaches tty tty.submitEof <-> reaches tty .eof = true) := by
  have hands : tty.Handover tty.submitEof := by
    unfold submitEof
    split
    · exact takeReaders_handover rfl rfl (by simp [readable])
    · next some => exact tty.flushLine_handover (.inr (by simpa using some))
  exact ⟨hands.id, iff_of_true (reaches_handover hands) (by simp [reaches])⟩

theorem react_iff (submit : Submit) : (submit.react tty).2.id = tty.id ∧
      (Reaches tty (submit.react tty) <-> reaches tty submit = true) := by
  cases submit with
  | char c => exact submitChar_iff tty c
  | bytes input => exact submitBytes_iff tty input
  | eof => exact submitEof_iff tty

/-- The call reaches the terminal, if there is one with the id. -/
theorem perform_spec (ttys : List Terminal) (id : UInt64) (submit : Submit) {tty : Terminal}
    (found : findTty ttys id = some tty) :
    (submit.perform ttys id).2.1 = (submit.react tty).1 ∧
      findTty (submit.perform ttys id).2.2 id = some (submit.react tty).2 := by
  unfold perform
  split
  · exact ⟨rfl, found⟩
  · rcases findTty_updateTty (fun tty => (react_iff tty submit).1) found with
      ⟨after, updated, next⟩
    rw [updated]
    exact ⟨rfl, next⟩

/-- For every table of terminals and every call: all who waited are woken if there is
something to read, exactly if the condition holds. -/
theorem wakesReaders_iff (ttys : List Terminal) (id : UInt64) (submit : Submit) :
    WakesReaders ttys id submit <->
      forall tty, findTty ttys id = some tty -> reaches tty submit = true := by
  cases found : findTty ttys id with
  | none =>
    refine iff_of_true ?_ nofun
    intro _ tty present
    cases found.symm.trans present
  | some tty =>
    rcases perform_spec ttys id submit found with ⟨woken, next⟩
    have readable : inputReadiness (submit.perform ttys id).2.2 id = eventRead <->
        (submit.react tty).2.readable = true := by
      rw [inputReadiness, next]
      cases full : (submit.react tty).2.readable <;> simp [full]
    simp only [WakesReaders, found, woken, readable, Option.some.injEq, forall_eq']
    exact (react_iff tty submit).2

/-- A new terminal from which a task has tried to read. -/
def awaited : Terminal := ((new 1).readInput 7 16).2

/-- Two lines in one call: there is something to read, and nobody is woken. -/
theorem submitBytes_strands_reader :
    let outcome := (Submit.bytes [97, 10, 98, 10]).perform [awaited] 1
    inputReadiness outcome.2.2 1 = eventRead ∧ awaited.waitingReaders = [7] ∧ outcome.2.1 = [] := by
  decide

end Submit

/-!
## Echo

Raw mode shows the input only if the echo bit is set.  Canonical mode does not look at
the bit.
-/

variable {tty : Terminal}

namespace Terminal

/-- There is no room in the output. -/
def full (tty : Terminal) : Prop := around tty.output.head 1 = tty.output.tail

/-- What is in the output is the same, and so is the mode. -/
structure Unheard (before after : Terminal) : Prop where
  mode : after.mode = before.mode
  cells : after.output.cells = before.output.cells
  head : after.output.head = before.output.head
  tail : after.output.tail = before.output.tail

theorem Unheard.trans {first second third : Terminal} (start : first.Unheard second)
    (rest : second.Unheard third) : first.Unheard third :=
  ⟨rest.mode.trans start.mode, rest.cells.trans start.cells, rest.head.trans start.head,
    rest.tail.trans start.tail⟩

theorem Unheard.full {before after : Terminal} (unheard : before.Unheard after)
    (full : before.full) : after.full := by
  rw [Terminal.full, unheard.head, unheard.tail]
  exact full

theorem Unheard.contents {before after : Terminal} (unheard : before.Unheard after) :
    after.output.contents = before.output.contents := by
  simp only [GapRing.contents, GapRing.pending, unheard.cells, unheard.head, unheard.tail]

/-- A loop none of whose turns is heard. -/
theorem Unheard.foldl {State : Type} {see : State -> Terminal} {turn : State -> UInt8 -> State}
    {holds : Terminal -> Prop}
    (keeps : ∀ {before after : Terminal}, before.Unheard after -> holds before -> holds after)
    (each : ∀ state byte, holds (see state) -> (see state).Unheard (see (turn state byte)))
    (bytes : List UInt8) {state : State} (start : holds (see state)) :
    (see state).Unheard (see (bytes.foldl turn state)) := by
  induction bytes generalizing state with
  | nil => exact ⟨rfl, rfl, rfl, rfl⟩
  | cons byte rest ih =>
    have first := each state byte start
    exact first.trans (ih (keeps first start))

theorem pushByte_unheard (full : tty.full) (byte : UInt8) : tty.Unheard (tty.pushByte byte) := by
  unfold Terminal.full at full
  rw [pushByte, GapRing.push, if_pos full]
  exact ⟨rfl, rfl, rfl, rfl⟩

theorem flushLine_unheard (tty : Terminal) (newline : Bool) :
    tty.Unheard (tty.flushLine newline).2 := by
  have pushed := @Unheard.foldl Terminal (fun tty => tty) pushInputByte (fun _ => True)
    (fun _ _ => trivial) (fun _ _ _ => ⟨rfl, rfl, rfl, rfl⟩) tty.line tty trivial
  cases newline with
  | false => exact ⟨pushed.mode, pushed.cells, pushed.head, pushed.tail⟩
  | true => exact ⟨pushed.mode, pushed.cells, pushed.head, pushed.tail⟩

theorem erase_unheard (full : tty.full) : tty.Unheard tty.erase := by
  have shorter : tty.Unheard tty.removeLastLineChar.2 := ⟨rfl, rfl, rfl, rfl⟩
  unfold erase
  dsimp only
  split
  · have first := shorter.trans (pushByte_unheard (shorter.full full) 8)
    have second := first.trans (pushByte_unheard (first.full full) 32)
    exact second.trans (pushByte_unheard (second.full full) 8)
  · exact shorter

theorem typed_unheard (full : tty.full) (byte : UInt8) :
    tty.Unheard ({ tty with line := tty.line ++ [byte] }.pushByte byte) := by
  have line : tty.Unheard { tty with line := tty.line ++ [byte] } := ⟨rfl, rfl, rfl, rfl⟩
  exact line.trans (pushByte_unheard (line.full full) byte)

theorem submitByte_unheard {state : List Nat × Terminal} (full : state.2.full) (byte : UInt8) :
    state.2.Unheard (submitByte state byte).2 := by
  unfold submitByte
  dsimp only
  split
  · exact (pushByte_unheard full 10).trans (flushLine_unheard _ true)
  split
  · exact erase_unheard full
  split
  · split
    · exact typed_unheard full byte
    · exact ⟨rfl, rfl, rfl, rfl⟩
  · exact ⟨rfl, rfl, rfl, rfl⟩

theorem pushRawInput_unheard (off : tty.echoes = false) (bytes : List UInt8) :
    tty.Unheard (tty.pushRawInput bytes).2 := by
  have pushed := @Unheard.foldl Terminal (fun tty => tty) pushRawByte
    (fun tty => tty.echoes = false)
    (fun unheard off => by rw [echoes, unheard.mode]; exact off)
    (fun tty byte off => by
      have silent : ¬ (tty.pushInputByte byte).echoes = true := Bool.eq_false_iff.mp off
      rw [pushRawByte, if_neg silent]
      exact ⟨rfl, rfl, rfl, rfl⟩) bytes tty off
  exact ⟨pushed.mode, pushed.cells, pushed.head, pushed.tail⟩

end Terminal

/-- Input is not heard in raw mode, and where there is no room for an echo. -/
theorem Submit.react_unheard (off : tty.echoes = false) (mute : tty.canonical = false ∨ tty.full)
    (submit : Submit) : tty.Unheard (submit.react tty).2 := by
  have same : tty.Unheard tty := ⟨rfl, rfl, rfl, rfl⟩
  cases submit with
  | char c =>
    change tty.Unheard (tty.submitChar c).2
    unfold submitChar
    dsimp only
    split
    · exact pushRawInput_unheard off _
    next canonical =>
    have full := mute.resolve_left (by simpa using canonical)
    split
    · exact (pushByte_unheard full 10).trans (flushLine_unheard _ true)
    split
    · exact erase_unheard full
    split
    · split
      · exact @Unheard.foldl Terminal (fun tty => tty) _ Terminal.full Unheard.full
          (fun _ byte full => typed_unheard full byte) _ tty full
      · exact same
    · exact same
  | bytes input =>
    change tty.Unheard (tty.submitBytes input).2
    unfold submitBytes
    split
    · exact same
    split
    · exact pushRawInput_unheard off _
    next canonical =>
    have full := mute.resolve_left (by simpa using canonical)
    exact @Unheard.foldl _ Prod.snd submitByte Terminal.full Unheard.full
      (fun _ byte full => submitByte_unheard full byte) input ([], tty) full
  | eof =>
    change tty.Unheard tty.submitEof.2
    unfold submitEof
    split
    · exact ⟨rfl, rfl, rfl, rfl⟩
    · exact flushLine_unheard tty false

/-- What `pop_output_byte` returns, call after call, once the input has been submitted. -/
def shownAfter (ttys : List Terminal) (id : UInt64) (submits : List Submit) : Option (List UInt8) :=
  (findTty (submits.foldl (fun ttys submit => (submit.perform ttys id).2.2) ttys) id).map
    (fun tty => tty.output.contents)

theorem shownAfter_unheard {id : UInt64} (submits : List Submit) {ttys : List Terminal}
    (found : findTty ttys id = some tty) (off : tty.echoes = false)
    (mute : tty.canonical = false ∨ tty.full) :
    shownAfter ttys id submits = some tty.output.contents := by
  induction submits generalizing ttys tty with
  | nil => exact congrArg (Option.map _) found
  | cons submit rest ih =>
    have unheard := submit.react_unheard off mute
    have mode := unheard.mode
    rw [<- unheard.contents]
    refine ih (submit.perform_spec ttys id found).2 ?_ ?_
    · rw [echoes, mode]
      exact off
    · refine mute.imp (fun raw => ?_) unheard.full
      rw [canonical, mode]
      exact raw

/-- Without the echo bit the output tells nothing of the input exactly in raw mode, and as
long as there is no room in it. -/
theorem shown_without_echo_iff {ttys : List Terminal} {id : UInt64} {tty : Terminal}
    (found : findTty ttys id = some tty) (off : tty.echoes = false) :
    (forall first second, shownAfter ttys id first = shownAfter ttys id second) <->
      tty.canonical = false ∨ tty.full := by
  constructor
  · intro same
    by_contra loud
    rw [not_or, Bool.not_eq_false] at loud
    have ended : findTty ((Submit.char '\n').perform ttys id).2.2 id =
        some ((tty.pushByte 10).flushLine true).2 := by
      rw [(Submit.perform_spec ttys id (.char '\n') found).2]
      simp [Submit.react, submitChar, loud.1]
    have contents := same [] [.char '\n']
    simp only [shownAfter, foldl_nil, foldl_cons, found, ended, Option.map_some,
      (flushLine_unheard _ true).contents] at contents
    have lengths := congrArg List.length (Option.some.inj contents)
    have longer := GapRing.pending_push_room loud.2 10
    simp only [GapRing.contents, length_map, length_range, pushByte] at lengths
    omega
  · intro mute first second
    rw [shownAfter_unheard first found off mute, shownAfter_unheard second found off mute]

/-- In raw mode without echo nothing is shown. -/
theorem raw_input_not_shown :
    findTty [{ new 1 with mode := 0 }] 1 = some { new 1 with mode := 0 } ∧
      ({ new 1 with mode := 0 } : Terminal).echoes = false ∧ forall first second,
        shownAfter [{ new 1 with mode := 0 }] 1 first =
          shownAfter [{ new 1 with mode := 0 }] 1 second :=
  ⟨rfl, rfl, (shown_without_echo_iff rfl rfl).mpr (.inl rfl)⟩

/-- In canonical mode without echo a password is shown. -/
theorem canonical_input_shown :
    ({ new 1 with mode := ttyModeCanonical } : Terminal).echoes = false ∧
      shownAfter [{ new 1 with mode := ttyModeCanonical }] 1 [.char 'p', .char 'w'] =
        some [112, 119] ∧
      shownAfter [{ new 1 with mode := ttyModeCanonical }] 1 [] = some [] := by
  decide

end CoolOs.Tty
