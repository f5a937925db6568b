import Mathlib.Algebra.GroupWithZero.Nat
import Mathlib.Data.List.Basic

namespace CoolOs.BlockStore

open Function List

/-!
# Programs over a store of numbered blocks

A storage stack is written once and run over several devices: a cache in front
of a disk that may fail, and the plain memory the cache is meant to present.
Here a program is a tree of the two requests such code can make, so that one
induction relates its runs on any two devices that answer alike.

Nothing in this module fixes what a block holds, how a request can fail, or
what a device keeps as its state.
-/

variable {Byte Error Block State View Failure Result Other : Type}

/-- A program that fetches blocks and changes them in place.  An answer may be
an error, and the continuation decides what the program does with it. -/
inductive Program (Error Block Result : Type) where
  | done (result : Result)
  | get (block : Nat) (next : Except Error Block -> Program Error Block Result)
  | update (block : Nat) (change : Block -> Block)
      (next : Except Error Unit -> Program Error Block Result)

namespace Program

def bind : Program Error Block Result -> (Result -> Program Error Block Other) ->
    Program Error Block Other
  | .done result, rest => rest result
  | .get block next, rest => .get block (fun answer => bind (next answer) rest)
  | .update block change next, rest =>
    .update block change (fun answer => bind (next answer) rest)

instance : Monad (Program Error Block) where
  pure := .done
  bind := bind

end Program

/-- What a device does with each request: the answer and its next state. -/
structure Device (Error Block State : Type) where
  get : Nat -> State -> Except Error Block × State
  update : Nat -> (Block -> Block) -> State -> Except Error Unit × State

namespace Program

/-- Run a program to its result, threading the device's state. -/
def run (device : Device Error Block State) : Program Error Block Result -> State -> Result × State
  | .done result, state => (result, state)
  | .get block next, state =>
    run device (next (device.get block state).1) (device.get block state).2
  | .update block change next, state =>
    run device (next (device.update block change state).1) (device.update block change state).2

@[simp] theorem run_pure (device : Device Error Block State) (result : Result) (state : State) :
    run device (pure result) state = (result, state) := rfl

@[simp] theorem run_bind (device : Device Error Block State) (program : Program Error Block Result)
    (rest : Result -> Program Error Block Other) (state : State) :
    run device (program >>= rest) state =
      run device (rest (run device program state).1) (run device program state).2 := by
  induction program generalizing state with
  | done result => rfl
  | get block next ih => exact ih _ _
  | update block change next ih => exact ih _ _

/-- What both requests keep, whatever they answer, every program keeps. -/
theorem run_keeps {device : Device Error Block State} {invariant : State -> Prop}
    (get : ∀ block state, invariant state -> invariant (device.get block state).2)
    (update : ∀ block change state, invariant state ->
      invariant (device.update block change state).2)
    (program : Program Error Block Result) {state : State} (start : invariant state) :
    invariant (run device program state).2 := by
  induction program generalizing state with
  | done result => exact start
  | get block next ih => exact ih _ (get block state start)
  | update block change next ih => exact ih _ (update block change state start)

end Program

/-- Two devices answer alike on related states, and stay related.  Both
requests are covered, so a relation with this property is carried through
every program. -/
structure Simulation {Error Block State Abstract : Type}
    (concrete : Device Error Block State) (abstract : Device Error Block Abstract)
    (related : State -> Abstract -> Prop) : Prop where
  get : forall block state shadow, related state shadow ->
    (concrete.get block state).1 = (abstract.get block shadow).1 ∧
      related (concrete.get block state).2 (abstract.get block shadow).2
  update : forall block change state shadow, related state shadow ->
    (concrete.update block change state).1 = (abstract.update block change shadow).1 ∧
      related (concrete.update block change state).2 (abstract.update block change shadow).2

/-- A simulation of the two requests is a simulation of every program: the
results are equal and the final states are related. -/
theorem Simulation.run {Abstract : Type} {concrete : Device Error Block State}
    {abstract : Device Error Block Abstract} {related : State -> Abstract -> Prop}
    (simulation : Simulation concrete abstract related) (program : Program Error Block Result)
    {state : State} {shadow : Abstract} (start : related state shadow) :
    (program.run concrete state).1 = (program.run abstract shadow).1 ∧
      related (program.run concrete state).2 (program.run abstract shadow).2 := by
  induction program generalizing state shadow with
  | done result => exact ⟨rfl, start⟩
  | get block next ih =>
    rcases simulation.get block state shadow start with ⟨same, still⟩
    simp only [Program.run]
    rw [same]
    exact ih _ still
  | update block change next ih =>
    rcases simulation.update block change state shadow start with ⟨same, still⟩
    simp only [Program.run]
    rw [same]
    exact ih _ still

/-! ## Programs that may fail

Code that returns a result or an error is a program under `ExceptT`; code that
returns an optional value is a program under `OptionT`.  The rules below run
such a program step by step, one rule for each way a step can end. -/

section

variable (device : Device Error Block State)

/-- The request for the contents of a block. -/
def fetch (block : Nat) : ExceptT Error (Program Error Block) Block :=
  ExceptT.mk (.get block .done)

/-- The request to change a block in place. -/
def modify (block : Nat) (change : Block -> Block) : ExceptT Error (Program Error Block) Unit :=
  ExceptT.mk (.update block change .done)

/-- An outcome computed without a request. -/
def settled (outcome : Except Failure Result) : ExceptT Failure (Program Error Block) Result :=
  ExceptT.mk (pure outcome)

/-- Run a fallible program; the state reached is kept on failure too. -/
def exec (program : ExceptT Failure (Program Error Block) Result) (state : State) :
    Except Failure Result × State :=
  program.run.run device state

/-- Run a program that returns an optional value. -/
def inquire (program : OptionT (Program Error Block) Result) (state : State) :
    Option Result × State :=
  program.run.run device state

/-- Keep the outcome of a fallible program as a value, as a `match` on a
returned `Result` does. -/
def attempt (program : ExceptT Failure (Program Error Block) Result) :
    ExceptT Failure (Program Error Block) (Except Failure Result) :=
  ExceptT.mk (program.run >>= fun outcome => pure (.ok outcome))

/-- Turn a missing value into an error. -/
def okOr (program : OptionT (Program Error Block) Result) (failure : Failure) :
    ExceptT Failure (Program Error Block) Result :=
  ExceptT.mk (program.run >>= fun outcome => pure (match outcome with
    | some result => .ok result
    | none => .error failure))

/-- Forget which error occurred. -/
def okOnly (program : ExceptT Failure (Program Error Block) Result) :
    OptionT (Program Error Block) Result :=
  OptionT.mk (program.run >>= fun outcome => pure (match outcome with
    | .ok result => some result
    | .error _ => none))

/-- Replace a missing value by a default. -/
def unwrapOr (program : OptionT (Program Error Block) Result) (default : Result) :
    OptionT (Program Error Block) Result :=
  OptionT.mk (program.run >>= fun outcome => pure (some (outcome.getD default)))

/-- Keep an optional answer as a value, as an `if let` does. -/
def asOption (program : OptionT (Program Error Block) Result) :
    OptionT (Program Error Block) (Option Result) :=
  OptionT.mk (program.run >>= fun outcome => pure (some outcome))

/-- A plain program inside code that may fail. -/
def total (program : Program Error Block Result) : ExceptT Failure (Program Error Block) Result :=
  ExceptT.mk (program >>= fun result => pure (.ok result))

variable {state after : State} {program : ExceptT Failure (Program Error Block) Result}
  {rest : Result -> ExceptT Failure (Program Error Block) Other} {result : Result}

@[simp] theorem exec_pure (result : Result) :
    exec device (pure result : ExceptT Failure (Program Error Block) Result) state =
      (.ok result, state) := rfl

@[simp] theorem exec_fetch (block : Nat) :
    exec device (fetch block) state = device.get block state := rfl

@[simp] theorem exec_modify (block : Nat) (change : Block -> Block) :
    exec device (modify block change) state = device.update block change state := rfl

theorem exec_bind (program : ExceptT Failure (Program Error Block) Result)
    (rest : Result -> ExceptT Failure (Program Error Block) Other) :
    exec device (program >>= rest) state =
      match exec device program state with
      | (.ok result, after) => exec device (rest result) after
      | (.error failure, after) => (.error failure, after) := by
  have unfolded : (program >>= rest).run =
      program.run >>= fun outcome => ExceptT.bindCont rest outcome := rfl
  simp only [exec, unfolded, Program.run_bind]
  rcases outcome : Program.run device program.run state with ⟨failed | result, reached⟩
  · rfl
  · rfl

theorem exec_bind_ok (step : exec device program state = (.ok result, after)) :
    exec device (program >>= rest) state = exec device (rest result) after := by
  rw [exec_bind, step]

theorem exec_bind_error {failure : Failure}
    (step : exec device program state = (.error failure, after)) :
    exec device (program >>= rest) state = (.error failure, after) := by
  rw [exec_bind, step]

@[simp] theorem exec_attempt (program : ExceptT Failure (Program Error Block) Result) :
    exec device (attempt program) state =
      (.ok (exec device program state).1, (exec device program state).2) := by
  simp [exec, attempt]

@[simp] theorem exec_okOr (program : OptionT (Program Error Block) Result) (failure : Failure) :
    exec device (okOr program failure) state = ((match (inquire device program state).1 with
        | some result => .ok result
        | none => .error failure), (inquire device program state).2) := by
  simp [exec, okOr, inquire]

@[simp] theorem exec_total (program : Program Error Block Result) :
    exec device (total program : ExceptT Failure (Program Error Block) Result) state =
      (.ok (program.run device state).1, (program.run device state).2) := by
  simp [exec, total]

@[simp] theorem inquire_pure (result : Result) :
    inquire device (pure result : OptionT (Program Error Block) Result) state =
      (some result, state) := rfl

theorem inquire_bind_some {program : OptionT (Program Error Block) Result}
    {rest : Result -> OptionT (Program Error Block) Other}
    (step : inquire device program state = (some result, after)) :
    inquire device (program >>= rest) state = inquire device (rest result) after := by
  have unfolded : (program >>= rest).run = program.run >>= fun outcome => match outcome with
        | some result => (rest result).run
        | none => pure none := rfl
  simp only [inquire] at step
  simp only [inquire, unfolded, Program.run_bind, step]

theorem inquire_bind_none {program : OptionT (Program Error Block) Result}
    {rest : Result -> OptionT (Program Error Block) Other}
    (step : inquire device program state = (none, after)) :
    inquire device (program >>= rest) state = (none, after) := by
  have unfolded : (program >>= rest).run = program.run >>= fun outcome => match outcome with
        | some result => (rest result).run
        | none => pure none := rfl
  simp only [inquire] at step
  simp only [inquire, unfolded, Program.run_bind, step, Program.run_pure]

@[simp] theorem inquire_okOnly (program : ExceptT Failure (Program Error Block) Result) :
    inquire device (okOnly program) state = ((match (exec device program state).1 with
        | .ok result => some result
        | .error _ => none), (exec device program state).2) := by
  simp [exec, okOnly, inquire]

@[simp] theorem inquire_unwrapOr (program : OptionT (Program Error Block) Result)
    (default : Result) :
    inquire device (unwrapOr program default) state =
      (some ((inquire device program state).1.getD default), (inquire device program state).2) := by
  simp [inquire, unwrapOr]

@[simp] theorem inquire_asOption (program : OptionT (Program Error Block) Result) :
    inquire device (asOption program) state =
      (some (inquire device program state).1, (inquire device program state).2) := by
  simp [inquire, asOption]

end

/-!
## Flat memory as a block device

The memory a reliable block store presents: one cell for each address, grouped
into blocks of equal size.  Reads copy a slice of it and writes splice a list
of cells into it, so a loop that goes from block to block is a statement about
one slice or one splice.
-/

section

/-- The cell at an address after `bytes` are written from `start` on. -/
def spliceAt (start : Nat) (bytes : List Byte) (address : Nat) (old : Byte) : Byte :=
  if start <= address then bytes[address - start]?.getD old else old

variable {memory : Nat -> Byte} {start address : Nat} {bytes : List Byte} {length : Nat}

theorem spliceAt_before (before : address < start) (bytes : List Byte)
    (old : Byte) : spliceAt start bytes address old = old := if_neg (Nat.not_le_of_lt before)

theorem spliceAt_after (after : start + bytes.length <= address) (old : Byte) :
    spliceAt start bytes address old = old := by
  have missing : bytes[address - start]? = none := getElem?_eq_none (by omega)
  rw [spliceAt, missing]
  exact ite_self _

theorem spliceAt_inside {start offset : Nat} {bytes : List Byte} (inside : offset < bytes.length)
    (old : Byte) : spliceAt start bytes (start + offset) old = bytes[offset] := by
  rw [spliceAt, if_pos (Nat.le_add_right _ _), Nat.add_sub_cancel_left, getElem?_eq_getElem inside]
  rfl

theorem spliceAt_shift (base start address : Nat) (bytes : List Byte) (old : Byte) :
    spliceAt (base + start) bytes (base + address) old = spliceAt start bytes address old := by
  simp only [spliceAt, Nat.add_le_add_iff_left, Nat.add_sub_add_left]

variable (memory)

/-- Write a list of cells into a memory. -/
def splice (start : Nat) (bytes : List Byte) : Nat -> Byte :=
  fun address => spliceAt start bytes address (memory address)

/-- Read a list of cells from a memory. -/
def slice (start length : Nat) : List Byte :=
  (range length).map (fun offset => memory (start + offset))

@[simp] theorem length_slice (start length : Nat) :
    (slice memory start length).length = length := by
  rw [slice, length_map, length_range]

@[simp] theorem splice_nil (start : Nat) : splice memory start [] = memory := by
  funext address
  exact ite_self _

/-- Two adjacent writes are one write. -/
theorem splice_append (start : Nat) (first second : List Byte) :
    splice (splice memory start first) (start + first.length) second =
      splice memory start (first ++ second) := by
  funext address
  unfold splice
  by_cases before : address < start
  · rw [spliceAt_before (by omega), spliceAt_before before, spliceAt_before before]
  · have order : start <= address := Nat.le_of_not_lt before
    by_cases early : address < start + first.length
    · rw [spliceAt_before early, spliceAt, if_pos order, spliceAt, if_pos order,
        getElem?_append_left (by omega)]
    · have shifted : address - (start + first.length) = address - start - first.length := by omega
      rw [spliceAt, if_pos (by omega), spliceAt_after (by omega), spliceAt, if_pos order,
        getElem?_append_right (by omega), shifted]

variable {memory}

theorem splice_before (bytes : List Byte)
    (before : address < start) : splice memory start bytes address = memory address :=
  spliceAt_before before bytes _

theorem splice_after (after : start + bytes.length <= address) :
    splice memory start bytes address = memory address := spliceAt_after after _

theorem slice_congr {other : Nat -> Byte}
    (agree : ∀ address, start <= address -> address < start + length ->
      memory address = other address)
    : slice memory start length = slice other start length := by
  apply map_congr_left
  intro offset listed
  exact agree _ (Nat.le_add_right _ _) (Nat.add_lt_add_left (mem_range.mp listed) _)

theorem slice_append (memory : Nat -> Byte) (start first second : Nat) :
    slice memory start (first + second) =
      slice memory start first ++ slice memory (start + first) second := by
  simp only [slice, range_add, map_append, map_map, comp_def, Nat.add_assoc]

theorem slice_splice (memory : Nat -> Byte) (start : Nat) (bytes : List Byte) :
    slice (splice memory start bytes) start bytes.length = bytes := by
  apply ext_getElem (by simp)
  intro offset _ inside
  simp only [slice, getElem_map, getElem_range]
  exact spliceAt_inside inside _

theorem slice_splice_disjoint {other : Nat}
    (disjoint : start + length <= other ∨ other + bytes.length <= start) :
    slice (splice memory other bytes) start length = slice memory start length := by
  apply slice_congr
  intro address low high
  rcases disjoint with before | after
  · exact splice_before bytes (by omega)
  · exact splice_after (by omega)

variable {size : Nat}

/-- The cells of one block. -/
def blockOf (size : Nat) (memory : Nat -> Byte) (block : Nat) : Fin size -> Byte :=
  fun offset => memory (block * size + offset.val)

/-- Write into a block, as a function of its cells. -/
def spliceBlock (start : Nat) (bytes : List Byte) (contents : Fin size -> Byte) :
    Fin size -> Byte :=
  fun offset => spliceAt start bytes offset.val (contents offset)

variable [NeZero size]

/-- Replace the cells of one block. -/
def setBlock (memory : Nat -> Byte) (block : Nat) (contents : Fin size -> Byte) : Nat -> Byte :=
  fun address =>
    if address / size = block then contents (Fin.ofNat size address) else memory address

/-- A write inside one block is a write to the memory. -/
theorem setBlock_spliceBlock (memory : Nat -> Byte) (block start : Nat)
    (fits : start + bytes.length <= size) :
    setBlock memory block (spliceBlock start bytes (blockOf size memory block)) =
      splice memory (block * size + start) bytes := by
  have positive : 0 < size := Nat.pos_of_neZero size
  funext address
  unfold setBlock splice
  by_cases here : address / size = block
  · have split : block * size + address % size = address := by
      rw [<- here]
      exact Nat.div_add_mod' address size
    rw [if_pos here]
    calc
      spliceAt start bytes (address % size) (memory (block * size + address % size))
          = spliceAt (block * size + start) bytes (block * size + address % size)
              (memory (block * size + address % size)) := (spliceAt_shift _ _ _ _ _).symm
      _ = spliceAt (block * size + start) bytes address (memory address) := by rw [split]
  · rw [if_neg here]
    by_cases low : address < block * size + start
    · exact (spliceAt_before low _ _).symm
    · refine (spliceAt_after ?_ _).symm
      have outside : ¬ address < block * size + size := by
        intro high
        apply here
        exact (Nat.div_eq_iff positive).mpr (by constructor <;> omega)
      omega

/-- The flat memory made of given blocks. -/
def gather (blocks : Nat -> Fin size -> Byte) : Nat -> Byte :=
  fun address => blocks (address / size) (Fin.ofNat size address)

theorem blockOf_gather (blocks : Nat -> Fin size -> Byte) (block : Nat) :
    blockOf size (gather blocks) block = blocks block := by
  have positive : 0 < size := Nat.pos_of_neZero size
  funext offset
  have quotient : (block * size + offset.val) / size = block := by
    rw [Nat.mul_comm, Nat.mul_add_div positive, Nat.div_eq_of_lt offset.isLt, Nat.add_zero]
  have remainder : Fin.ofNat size (block * size + offset.val) = offset := by
    apply Fin.ext
    change (block * size + offset.val) % size = offset.val
    rw [Nat.mul_add_mod_self_right, Nat.mod_eq_of_lt offset.isLt]
  rw [blockOf, gather, quotient, remainder]

theorem gather_update (blocks : Nat -> Fin size -> Byte) (block : Nat)
    (contents : Fin size -> Byte) :
    gather (Function.update blocks block contents) = setBlock (gather blocks) block contents := by
  funext address
  unfold gather setBlock
  by_cases here : address / size = block
  · rw [if_pos here, here, update_self]
  · rw [if_neg here, update_of_ne here]

/-- The device that keeps `count` blocks in a flat memory and refuses every
other block. -/
def flat (size count : Nat) [NeZero size] (refused : Error) :
    Device Error (Fin size -> Byte) (Nat -> Byte) where
  get := fun block memory =>
    if block < count then (.ok (blockOf size memory block), memory) else (.error refused, memory)
  update := fun block change memory =>
    if block < count then (.ok (), setBlock memory block (change (blockOf size memory block)))
    else (.error refused, memory)

end

/-!
## Outcomes of block programs, seen through an observation

A caller of a storage program rarely cares which bytes it touched, only what a
reader would decode from them afterwards.  An observation of the device's state
plays that part: a program yields an outcome from one observed value to
another when this is so in every state observed as the first.  The rules below
follow the shape of a program, one rule for each way a step can end.
-/

section

variable {device : Device Error Block State} {observe : State -> View}

/-- From every state observed as `before`, the program ends with `outcome` in a
state observed as `after`. -/
def Yields (device : Device Error Block State) (observe : State -> View)
    (program : ExceptT Failure (Program Error Block) Result)
    (before : View) (outcome : Except Failure Result) (after : View) : Prop :=
  forall state, observe state = before ->
    (exec device program state).1 = outcome ∧ observe (exec device program state).2 = after

/-- The same for a program that returns an optional value. -/
def Answers (device : Device Error Block State) (observe : State -> View)
    (program : OptionT (Program Error Block) Result)
    (before : View) (outcome : Option Result) (after : View) : Prop :=
  forall state, observe state = before ->
    (inquire device program state).1 = outcome ∧ observe (inquire device program state).2 = after

variable {before between after : View}

namespace Yields

variable {rest : Result -> ExceptT Failure (Program Error Block) Other} {result : Result}

theorem pure (result : Result) :
    Yields device observe (pure result : ExceptT Failure (Program Error Block) Result)
      before (.ok result) before :=
  fun _ same => ⟨rfl, same⟩

theorem throw (failure : Failure) :
    Yields device observe (throw failure : ExceptT Failure (Program Error Block) Result)
      before (.error failure) before :=
  fun _ same => ⟨rfl, same⟩

theorem settled (outcome : Except Failure Result) :
    Yields device observe (settled outcome : ExceptT Failure (Program Error Block) Result)
      before outcome before :=
  fun _ same => ⟨rfl, same⟩

variable {program : ExceptT Failure (Program Error Block) Result}

/-- A step that succeeds hands its result to the rest of the program. -/
theorem bind {outcome : Except Failure Other}
    (first : Yields device observe program before (.ok result) between)
    (second : Yields device observe (rest result) between outcome after) :
    Yields device observe (program >>= rest) before outcome after := by
  intro state same
  rcases first state same with ⟨returned, reached⟩
  rw [exec_bind_ok device (Prod.ext returned rfl : exec device program state = (.ok result, _))]
  exact second _ reached

/-- A step that fails ends the program. -/
theorem bind_error {failure : Failure}
    (first : Yields device observe program before (.error failure) after) :
    Yields device observe (program >>= rest) before (.error failure) after := by
  intro state same
  rcases first state same with ⟨returned, reached⟩
  rw [exec_bind_error device
    (Prod.ext returned rfl : exec device program state = (.error failure, _))]
  exact ⟨rfl, reached⟩

theorem attempt {outcome : Except Failure Result}
    (inner : Yields device observe program before outcome after) :
    Yields device observe (attempt program) before (.ok outcome) after := by
  intro state same
  rcases inner state same with ⟨returned, reached⟩
  rw [exec_attempt]
  exact ⟨congrArg Except.ok returned, reached⟩

theorem okOr_some {program : OptionT (Program Error Block) Result} {failure : Failure}
    (inner : Answers device observe program before (some result) after) :
    Yields device observe (okOr program failure) before (.ok result) after := by
  intro state same
  rcases inner state same with ⟨returned, reached⟩
  rw [exec_okOr, returned]
  exact ⟨rfl, reached⟩

theorem okOr_none {program : OptionT (Program Error Block) Result} {failure : Failure}
    (inner : Answers device observe program before none after) :
    Yields device observe (okOr program failure) before (.error failure) after := by
  intro state same
  rcases inner state same with ⟨returned, reached⟩
  rw [exec_okOr, returned]
  exact ⟨rfl, reached⟩

/-- An optional answer taken as a value. -/
theorem total_run {program : OptionT (Program Error Block) Result} {outcome : Option Result}
    (inner : Answers device observe program before outcome after) :
    Yields device observe
      (total program.run : ExceptT Failure (Program Error Block) (Option Result))
      before (.ok outcome) after := by
  intro state same
  rcases inner state same with ⟨returned, reached⟩
  rw [exec_total]
  exact ⟨congrArg Except.ok returned, reached⟩

end Yields

namespace Answers

variable {rest : Result -> OptionT (Program Error Block) Other} {result : Result}

theorem pure (result : Result) :
    Answers device observe (pure result : OptionT (Program Error Block) Result)
      before (some result) before :=
  fun _ same => ⟨rfl, same⟩

theorem failure :
    Answers device observe (failure : OptionT (Program Error Block) Result) before none before :=
  fun _ same => ⟨rfl, same⟩

variable {program : OptionT (Program Error Block) Result}

theorem bind {outcome : Option Other}
    (first : Answers device observe program before (some result) between)
    (second : Answers device observe (rest result) between outcome after) :
    Answers device observe (program >>= rest) before outcome after := by
  intro state same
  rcases first state same with ⟨returned, reached⟩
  rw [inquire_bind_some device
    (Prod.ext returned rfl : inquire device program state = (some result, _))]
  exact second _ reached

theorem bind_none (first : Answers device observe program before none after) :
    Answers device observe (program >>= rest) before none after := by
  intro state same
  rcases first state same with ⟨returned, reached⟩
  rw [inquire_bind_none device (Prod.ext returned rfl : inquire device program state = (none, _))]
  exact ⟨rfl, reached⟩

theorem okOnly {program : ExceptT Failure (Program Error Block) Result}
    (inner : Yields device observe program before (.ok result) after) :
    Answers device observe (okOnly program) before (some result) after := by
  intro state same
  rcases inner state same with ⟨returned, reached⟩
  rw [inquire_okOnly, returned]
  exact ⟨rfl, reached⟩

theorem okOnly_error {program : ExceptT Failure (Program Error Block) Result} {failure : Failure}
    (inner : Yields device observe program before (.error failure) after) :
    Answers device observe (BlockStore.okOnly program) before none after := by
  intro state same
  rcases inner state same with ⟨returned, reached⟩
  rw [inquire_okOnly, returned]
  exact ⟨rfl, reached⟩

theorem asOption {outcome : Option Result}
    (inner : Answers device observe program before outcome after) :
    Answers device observe (asOption program) before (some outcome) after := by
  intro state same
  rcases inner state same with ⟨returned, reached⟩
  rw [inquire_asOption]
  exact ⟨congrArg some returned, reached⟩

end Answers

end

/-!
## Code that may panic

Code that changes a state and can stop for good.  A specification speaks about
what is observed of the state: a program either reaches a result and an
observation, or panics; it cannot do both.
-/

/-- A panic ends the whole run, so no state is left. -/
abbrev Panicking (State : Type) := StateT State Option

variable {observe : State -> View}

/-- From every state observed as `before`, the program returns `result` in a
state observed as `after`. -/
def Reaches (observe : State -> View) (program : Panicking State Result) (before : View)
    (result : Result) (after : View) : Prop :=
  forall state, observe state = before -> Exists fun reached =>
    program state = some (result, reached) ∧ observe reached = after

/-- From every state observed as `before`, the program panics. -/
def Panics (observe : State -> View) (program : Panicking State Result) (before : View) : Prop :=
  forall state, observe state = before -> program state = none

variable {before between after : View} {program : Panicking State Result}
  {rest : Result -> Panicking State Other} {state : State}

theorem run_bind_some {reached : State} {result : Result}
    (step : program state = some (result, reached)) :
    (program >>= rest) state = rest result reached := by
  change (program state).bind (fun pair => rest pair.1 pair.2) = _
  rw [step]
  rfl

theorem run_bind_none (step : program state = none) : (program >>= rest) state = none := by
  change (program state).bind (fun pair => rest pair.1 pair.2) = none
  rw [step]
  rfl

namespace Reaches

theorem pure (result : Result) :
    Reaches observe (pure result : Panicking State Result) before result before :=
  fun state same => ⟨state, rfl, same⟩

theorem bind {result : Result} {final : Other}
    (first : Reaches observe program before result between)
    (second : Reaches observe (rest result) between final after) :
    Reaches observe (program >>= rest) before final after := by
  intro state same
  rcases first state same with ⟨middle, ran, seen⟩
  rcases second middle seen with ⟨reached, finished, final⟩
  exact ⟨reached, (run_bind_some ran).trans finished, final⟩

end Reaches

namespace Panics

variable {program : Panicking State Result} {rest : Result -> Panicking State Other}

theorem failure : Panics observe (failure : Panicking State Result) before := fun _ _ => rfl

theorem first (panics : Panics observe program before) : Panics observe (program >>= rest) before :=
  fun state same => run_bind_none (panics state same)

theorem later {result : Result} (reaches : Reaches observe program before result between)
    (panics : Panics observe (rest result) between) : Panics observe (program >>= rest) before := by
  intro state same
  rcases reaches state same with ⟨middle, ran, seen⟩
  exact (run_bind_some ran).trans (panics middle seen)

end Panics

end CoolOs.BlockStore
