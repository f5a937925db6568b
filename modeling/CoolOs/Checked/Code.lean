import Mathlib.Algebra.GroupWithZero.Nat
import Mathlib.Data.List.Basic

namespace CoolOs.Checked

/-!
# Checked execution

Code that stops with a fault where an index or a slice is out of range, where
arithmetic does not fit its type or where a loop outlasts its bound, and that counts
the turns of its loops.  `Ensures` says that it does not stop, how many turns it
takes at most and what it gives; each operation has a rule for it.
-/

inductive Fault where
  | outOfRange
  | overflow
  | unbounded
  deriving DecidableEq

/-- A fault, or a value and the turns that were taken. -/
def Code (Value : Type) : Type := Except Fault (Value × Nat)

namespace Code

variable {Value Result Item : Type}

def fault (reason : Fault) : Code Value := .error reason

instance : Monad Code where
  pure value := .ok (value, 0)
  bind code next :=
    match code with
    | .error reason => .error reason
    | .ok (value, early) =>
      match next value with
      | .error reason => .error reason
      | .ok (result, late) => .ok (result, early + late)

/-- One turn of a loop. -/
def turn : Code Unit := .ok ((), 1)

/-- The value, if there is no fault. -/
def value? (code : Code Value) : Option Value := code.toOption.map Prod.fst

def index (items : List Item) (position : Nat) : Code Item :=
  match items[position]? with
  | some item => pure item
  | none => fault .outOfRange

/-- Replace one item. -/
def store (items : List Item) (position : Nat) (item : Item) : Code (List Item) :=
  if position < items.length then pure (items.set position item) else fault .outOfRange

def slice (items : List Item) (start stop : Nat) : Code (List Item) :=
  if start <= stop ∧ stop <= items.length then pure ((items.take stop).drop start)
  else fault .outOfRange

/-- Addition of unsigned integers of a width. -/
def add (width left right : Nat) : Code Nat :=
  if left + right < 2 ^ width then pure (left + right) else fault .overflow

/-- Multiplication of unsigned integers of a width. -/
def mul (width left right : Nat) : Code Nat :=
  if left * right < 2 ^ width then pure (left * right) else fault .overflow

/-- Go on with a result, or give its refusal. -/
def attempt {Reason : Type} (code : Code (Except Reason Value))
    (next : Value -> Code (Except Reason Result)) : Code (Except Reason Result) := do
  match <- code with
  | .error reason => pure (.error reason)
  | .ok value => next value

/-- The code does not fault, takes at most so many turns and gives such a value. -/
def Ensures (code : Code Value) (turns : Nat) (holds : Value -> Prop) : Prop :=
  ∃ value count,
    code = .ok (value, count) ∧ count <= turns ∧ holds value

variable {turns early late : Nat}
  {wider : Value -> Prop} {position start stop : Nat} {Reason : Type}

theorem Ensures.pure {holds : Value -> Prop} {value : Value} (here : holds value) :
    Ensures (Pure.pure value) turns holds := ⟨value, 0, rfl, Nat.zero_le _, here⟩

variable {code : Code Value} {next : Value -> Code Result} {middle : Value -> Prop}
  {holds : Result -> Prop} {items : List Item} {width left right : Nat}

theorem Ensures.mono {holds : Value -> Prop} (ensures : Ensures code early holds)
    (longer : early <= late) (weaker : ∀ value, holds value -> wider value) :
    Ensures code late wider := by
  rcases ensures with ⟨value, count, same, few, here⟩
  exact ⟨value, count, same, Nat.le_trans few longer, weaker value here⟩

theorem Ensures.bind (first : Ensures code early middle)
    (rest : ∀ value, middle value -> Ensures (next value) late holds) :
    Ensures (code >>= next) (early + late) holds := by
  rcases first with ⟨value, before, same, few, here⟩
  rcases rest value here with ⟨result, after, again, little, there⟩
  refine ⟨result, before + after, ?_, Nat.add_le_add few little, there⟩
  rw [same]
  change (match next value with
    | .error reason => .error reason
    | .ok (result, late) => .ok (result, before + late) : Code Result) = _
  rw [again]

/-- Code without turns of its own. -/
theorem Ensures.andThen (first : Ensures code 0 middle)
    (rest : ∀ value, middle value -> Ensures (next value) late holds) :
    Ensures (code >>= next) late holds := by
  have both := first.bind rest
  rwa [Nat.zero_add] at both

/-- Code that is followed by none with turns. -/
theorem Ensures.atLast (first : Ensures code early middle)
    (rest : ∀ value, middle value -> Ensures (next value) 0 holds) :
    Ensures (code >>= next) early holds := first.bind rest

theorem ensures_turn : Ensures turn 1 (fun _ => True) := ⟨(), 1, rfl, Nat.le_refl 1, trivial⟩

theorem ensures_index (inside : position < items.length) :
    Ensures (index items position) turns (fun item => items[position]? = some item) := by
  rw [index, List.getElem?_eq_getElem inside]
  exact .pure rfl

theorem ensures_store {item : Item} (inside : position < items.length) :
    Ensures (store items position item) turns (fun after => after.length = items.length) := by
  rw [store, if_pos inside]
  exact .pure List.length_set

theorem ensures_slice (order : start <= stop) (inside : stop <= items.length) :
    Ensures (slice items start stop) turns (fun part =>
      part = (items.take stop).drop start ∧ part.length = stop - start) := by
  rw [slice, if_pos ⟨order, inside⟩]
  refine .pure ⟨rfl, ?_⟩
  rw [List.length_drop, List.length_take, Nat.min_eq_left inside]

theorem ensures_add (fits : left + right < 2 ^ width) :
    Ensures (add width left right) turns (fun sum => sum = left + right) := by
  rw [add, if_pos fits]
  exact .pure rfl

theorem ensures_mul (fits : left * right < 2 ^ width) :
    Ensures (mul width left right) turns (fun product => product = left * right) := by
  rw [mul, if_pos fits]
  exact .pure rfl

/-- The code does not fault and gives such a value. -/
def Returns (code : Code Value) (holds : Value -> Prop) : Prop :=
  Exists fun turns => Ensures code turns holds

theorem Ensures.returns {holds : Value -> Prop}
    (ensures : Ensures code turns holds) : Returns code holds := ⟨turns, ensures⟩

theorem Returns.pure {holds : Value -> Prop} {value : Value} (here : holds value) :
    Returns (Pure.pure value) holds := ⟨0, .pure here⟩

theorem Returns.bind (first : Returns code middle)
    (rest : ∀ value, middle value -> Returns (next value) holds) :
    Returns (code >>= next) holds := by
  rcases first with ⟨early, value, before, same, few, here⟩
  rcases rest value here with ⟨late, following⟩
  have only : Ensures code early (fun found => found = value) := ⟨value, before, same, few, rfl⟩
  exact ⟨early + late, only.bind fun found again => again ▸ following⟩

/-- Code without turns of its own. -/
theorem Ensures.thenReturns (first : Ensures code 0 middle)
    (rest : ∀ value, middle value -> Returns (next value) holds) :
    Returns (code >>= next) holds := first.returns.bind rest

theorem Returns.mono {holds : Value -> Prop} (returns : Returns code holds)
    (weaker : ∀ value, holds value -> wider value) : Returns code wider := by
  rcases returns with ⟨turns, ensures⟩
  exact ⟨turns, ensures.mono (Nat.le_refl turns) weaker⟩

theorem Returns.attempt {code : Code (Except Reason Value)}
    {next : Value -> Code (Except Reason Result)} {holds : Except Reason Result -> Prop}
    (first : Returns code (fun result => ∀ value, result = .ok value -> middle value))
    (refused : ∀ reason, holds (.error reason))
    (rest : ∀ value, middle value -> Returns (next value) holds) :
    Returns (Code.attempt code next) holds := by
  refine first.bind fun result here => ?_
  cases result with
  | error reason => exact .pure (refused reason)
  | ok value => exact rest value (here value rfl)

theorem returns_iff {holds : Value -> Prop} :
    Returns code holds <-> ∃ value, code.value? = some value ∧ holds value := by
  constructor
  · rintro ⟨_, value, count, same, _, here⟩
    exact ⟨value, by rw [same]; rfl, here⟩
  · rintro ⟨value, same, here⟩
    cases code with
    | error reason => cases same
    | ok result =>
      cases same
      exact ⟨result.2, result.1, result.2, rfl, Nat.le_refl _, here⟩

theorem value?_bind (code : Code Value) (next : Value -> Code Result) :
    (code >>= next).value? = code.value?.bind (fun value => (next value).value?) := by
  cases code with
  | error reason => rfl
  | ok result =>
    change (match next result.1 with
      | .error reason => .error reason
      | .ok (found, late) => .ok (found, result.2 + late) : Code Result).value? =
      (next result.1).value?
    generalize next result.1 = after
    cases after with
    | error reason => rfl
    | ok _ => rfl

/-- After code that gives a value, only what follows can fault. -/
theorem returns_bind_iff {value : Value} (gives : code.value? = some value) :
    Returns (code >>= next) holds <-> Returns (next value) holds := by
  rw [returns_iff, returns_iff, value?_bind, gives]
  rfl

theorem returns_pure_iff {value : Value} {holds : Value -> Prop} :
    Returns (Pure.pure value) holds <-> holds value := by
  rw [returns_iff]
  refine ⟨?_, fun here => ⟨value, rfl, here⟩⟩
  rintro ⟨found, same, here⟩
  cases same
  exact here

/-- Code that does not fault has no part that does. -/
theorem returns_of_bind (returns : Returns (code >>= next) holds) :
    ∃ value, code.value? = some value ∧ Returns (next value) holds := by
  rcases returns_iff.mp returns with ⟨result, same, here⟩
  rw [value?_bind] at same
  rcases Option.bind_eq_some_iff.mp same with ⟨value, gives, after⟩
  exact ⟨value, gives, returns_iff.mpr ⟨result, after, here⟩⟩

theorem returns_attempt_iff {code : Code (Except Reason Value)}
    {next : Value -> Code (Except Reason Result)} {result : Except Reason Value}
    {holds : Except Reason Result -> Prop} (gives : code.value? = some result) :
    Returns (attempt code next) holds <-> Returns (match result with
      | .error reason => Pure.pure (.error reason)
      | .ok value => next value) holds := returns_bind_iff gives

theorem value?_slice (order : start <= stop) (inside : stop <= items.length) :
    (slice items start stop).value? = some ((items.take stop).drop start) := by
  rw [slice, if_pos ⟨order, inside⟩]
  rfl

theorem not_returns_fault {reason : Fault} {holds : Value -> Prop} :
    ¬ Returns (fault reason) holds := by
  rw [returns_iff]
  rintro ⟨value, same, _⟩
  cases same

theorem returns_add_iff {next : Nat -> Code Result} :
    Returns (add width left right >>= next) holds <->
      left + right < 2 ^ width ∧ Returns (next (left + right)) holds := by
  by_cases fits : left + right < 2 ^ width
  · rw [add, if_pos fits]
    exact (returns_bind_iff rfl).trans (and_iff_right fits).symm
  · rw [add, if_neg fits]
    refine ⟨fun returns => absurd returns ?_, fun both => absurd both.1 fits⟩
    exact not_returns_fault

/-- A loop over a list whose steps keep a property. -/
theorem returns_foldlM {State : Type} {step : State -> Item -> Code State} {holds : State -> Prop}
    (keeps : ∀ state item, holds state -> Returns (step state item) holds) (items : List Item)
    {state : State} (here : holds state) : Returns (items.foldlM step state) holds := by
  induction items generalizing state with
  | nil => exact .pure here
  | cons item rest ih =>
    rw [List.foldlM_cons]
    exact (keeps state item here).bind fun _ there => ih there

end Code

end CoolOs.Checked
