import Mathlib.Logic.Basic

namespace CoolOs.Actions

open List

/-!
# Actions on a state

Code that reads and changes a state and may stop with a failure.  What it has changed
by then stays changed.  Two kinds of statement about it are used: how a run that ended
well or badly went, step by step, and how every run's last state is related to its first.
-/

variable {State Inner Failure Other Value Result Item : Type}

def Action (State Failure Value : Type) : Type := State -> Except Failure Value × State

namespace Action

instance : Monad (Action State Failure) where
  pure value state := (.ok value, state)
  bind action next state :=
    match action state with
    | (.ok value, after) => next value after
    | (.error failure, after) => (.error failure, after)

def fail (failure : Failure) : Action State Failure Value := fun state => (.error failure, state)

/-- A part of the state. -/
def observe (part : State -> Value) : Action State Failure Value := fun state =>
  (.ok (part state), state)

def modify (change : State -> State) : Action State Failure Unit := fun state =>
  (.ok (), change state)

/-- The outcome as a value, as a `match` on a returned `Result` has it. -/
def attempt (action : Action State Failure Value) : Action State Other (Except Failure Value) :=
  fun state => (.ok (action state).1, (action state).2)

def mapError (rename : Failure -> Other) (action : Action State Failure Value) :
    Action State Other Value := fun state =>
  match action state with
  | (.ok value, after) => (.ok value, after)
  | (.error failure, after) => (.error (rename failure), after)

/-- An outcome that is already known. -/
def settle (outcome : Except Failure Value) : Action State Failure Value := fun state =>
  (outcome, state)

def okOr (value : Option Value) (failure : Failure) : Action State Failure Value :=
  settle (match value with
    | some value => .ok value
    | none => .error failure)

/-- A loop over a list that stops at the first failure. -/
def each (body : Item -> Action State Failure Unit) : List Item -> Action State Failure Unit
  | [] => pure ()
  | item :: rest => do
    body item
    each body rest

/-- A loop that keeps what each turn gives. -/
def collect (body : Item -> Action State Failure Value) :
    List Item -> Action State Failure (List Value)
  | [] => pure []
  | item :: rest => do
    let value <- body item
    let values <- collect body rest
    return value :: values

/-- A loop that stops at the first turn that ends well, and gives what that gives. -/
def firstOf (body : Item -> Action State Failure Value) :
    List Item -> Action State Other (Option Value)
  | [] => pure none
  | item :: rest => do
    match <- attempt (body item) with
    | .ok value => return some value
    | .error _ => firstOf body rest

/-- An action on a part of the state. -/
def within (part : State -> Inner) (put : Inner -> State -> State)
    (action : Action Inner Failure Value) : Action State Failure Value := fun state =>
  ((action (part state)).1, put (action (part state)).2 state)

section

variable {state after : State} {value : Value} {failure : Failure}

@[simp] theorem run_pure (value : Value) :
    (pure value : Action State Failure Value) state = (.ok value, state) := rfl

@[simp] theorem run_attempt (action : Action State Failure Value) :
    (attempt action : Action State Other _) state = (.ok (action state).1, (action state).2) := rfl

@[simp] theorem run_observe (part : State -> Value) :
    (observe part : Action State Failure Value) state = (.ok (part state), state) := rfl

theorem run_bind (action : Action State Failure Value)
    (next : Value -> Action State Failure Result) :
    (action >>= next) state =
      match action state with
      | (.ok value, between) => next value between
      | (.error failure, between) => (.error failure, between) := rfl

variable {action : Action State Failure Value}

theorem run_bind_ok (first : action state = (.ok value, after))
    (next : Value -> Action State Failure Result) : (action >>= next) state = next value after := by
  rw [run_bind, first]

theorem run_bind_error (first : action state = (.error failure, after))
    (next : Value -> Action State Failure Result) :
    (action >>= next) state = (.error failure, after) := by
  rw [run_bind, first]

/-- A run that ended well went through a first part that did. -/
theorem bind_ok {next : Value -> Action State Failure Result}
    {result : Result} (ran : (action >>= next) state = (.ok result, after)) :
    ∃ value between,
      action state = (.ok value, between) ∧ next value between = (.ok result, after) := by
  rw [run_bind] at ran
  split at ran
  · next value between first => exact ⟨value, between, first, ran⟩
  · cases ran

theorem settle_ok {outcome : Except Failure Value}
    (ran : (settle outcome : Action State Failure Value) state = (.ok value, after)) :
    outcome = .ok value ∧ after = state := by
  cases ran
  exact ⟨rfl, rfl⟩

theorem okOr_ok {known : Option Value}
    (ran : (okOr known failure : Action State Failure Value) state = (.ok value, after)) :
    known = some value ∧ after = state := by
  rcases settle_ok ran with ⟨outcome, same⟩
  cases known with
  | none => cases outcome
  | some value' =>
    cases outcome
    exact ⟨rfl, same⟩

theorem okOr_some_bind (value : Value) (failure : Failure)
    (next : Value -> Action State Failure Result) :
    (okOr (some value) failure >>= next) state = next value state := rfl

theorem okOr_none_bind (failure : Failure) (next : Value -> Action State Failure Result) :
    (okOr none failure >>= next) state = (.error failure, state) := rfl

theorem mapError_ok {rename : Failure -> Other}
    (ran : mapError rename action state = (.ok value, after)) :
    action state = (.ok value, after) := by
  unfold mapError at ran
  split at ran
  · next first =>
      cases ran
      exact first
  · cases ran

end

/-- A relation between states by which steps can be chained. -/
class Chain (related : State -> State -> Prop) : Prop where
  refl : forall state, related state state
  trans : forall {first second third : State}, related first second -> related second third ->
    related first third

/-- Every run leads from a state to a related one. -/
def Keeps (related : State -> State -> Prop) (action : Action State Failure Value) : Prop :=
  forall state, related state (action state).2

section

variable {related : State -> State -> Prop} {action : Action State Failure Value}
  {body : Item -> Action State Failure Value} {items : List Item}
  {next : Value -> Action State Failure Result}

variable {state : State}

theorem Keeps.ran {outcome : Except Failure Value} {after : State} (keeps : Keeps related action)
    (ran : action state = (outcome, after)) : related state after := by
  have here := keeps state
  rwa [ran] at here

theorem Keeps.mono {wider : State -> State -> Prop} (keeps : Keeps related action)
    (weaker : ∀ {state after}, related state after -> wider state after) :
    Keeps wider action := fun state => weaker (keeps state)

theorem Keeps.attempt (keeps : Keeps related action) :
    Keeps related (Action.attempt action : Action State Other _) := keeps

theorem Keeps.mapError (keeps : Keeps related action)
    (rename : Failure -> Other) : Keeps related (Action.mapError rename action) := by
  intro state
  have here := keeps state
  unfold Action.mapError
  split
  · next first => rwa [first] at here
  · next first => rwa [first] at here

theorem keeps_modify {change : State -> State} (same : ∀ state, related state (change state)) :
    Keeps related (modify change : Action State Failure Unit) := same

variable [chain : Chain related]

theorem keeps_pure (value : Value) : Keeps related (pure value : Action State Failure Value) :=
  chain.refl

theorem keeps_fail (failure : Failure) :
    Keeps related (fail failure : Action State Failure Value) := chain.refl

theorem keeps_settle (outcome : Except Failure Value) :
    Keeps related (settle outcome : Action State Failure Value) := chain.refl

theorem keeps_okOr (value : Option Value) (failure : Failure) :
    Keeps related (okOr value failure : Action State Failure Value) := chain.refl

theorem keeps_observe (part : State -> Value) :
    Keeps related (observe part : Action State Failure Value) := chain.refl

/-- One run leads to a related state if its first part does, and the rest of it does from
where that ended. -/
theorem bind_related (first : related state (action state).2)
    (rest : ∀ value between, action state = (.ok value, between) ->
      related between (next value between).2)
    : related state ((action >>= next) state).2 := by
  rw [run_bind]
  split
  · next value between ran =>
      rw [ran] at first
      exact chain.trans first (rest value between ran)
  · next ran => rwa [ran] at first

theorem Keeps.bind (first : Keeps related action) (rest : ∀ value, Keeps related (next value))
    : Keeps related (action >>= next) :=
  fun state => bind_related (first state) fun value between _ => rest value between

theorem keeps_each {body : Item -> Action State Failure Unit}
    (each : ∀ item ∈ items, Keeps related (body item)) :
    Keeps related (Action.each body items) := by
  induction items with
  | nil => exact keeps_pure ()
  | cons item rest ih =>
    exact (each item mem_cons_self).bind fun _ =>
      ih fun other listed => each other (mem_cons_of_mem _ listed)

theorem keeps_collect (each : ∀ item ∈ items, Keeps related (body item)) :
    Keeps related (Action.collect body items) := by
  induction items with
  | nil => exact keeps_pure []
  | cons item rest ih =>
    refine (each item mem_cons_self).bind fun value => ?_
    exact (ih fun other listed => each other (mem_cons_of_mem _ listed)).bind
      fun values => keeps_pure _

end

/-- A call that ends well, and in the same way whatever failures stand beside it. -/
def Sure (action : (Failure : Type) -> Action State Failure Value) : Prop :=
  forall state, ∃ value after,
    forall Failure, action Failure state = (.ok value, after)

variable {action : (Failure : Type) -> Action State Failure Value}

theorem Sure.elsewhere (sure : Sure action) {state after : State} {value : Value}
    (ran : action Failure state = (.ok value, after)) (Other : Type) :
    action Other state = (.ok value, after) := by
  rcases sure state with ⟨known, reached, all⟩
  have same := (all Failure).symm.trans ran
  cases same
  exact all Other

theorem sure_pure (value : Value) : Sure fun Failure => (pure value : Action State Failure Value) :=
  fun state => ⟨value, state, fun _ => rfl⟩

theorem sure_observe (part : State -> Value) :
    Sure fun Failure => (observe part : Action State Failure Value) :=
  fun state => ⟨part state, state, fun _ => rfl⟩

theorem sure_attempt (action : Action State Other Value) :
    Sure fun Failure => (attempt action : Action State Failure _) :=
  fun state => ⟨(action state).1, (action state).2, fun _ => rfl⟩

theorem Sure.bind {next : (Failure : Type) -> Value -> Action State Failure Result}
    (first : Sure action) (rest : ∀ value, Sure fun Failure => next Failure value) :
    Sure fun Failure => action Failure >>= next Failure := by
  intro state
  rcases first state with ⟨value, between, ran⟩
  rcases rest value between with ⟨result, after, finished⟩
  exact ⟨result, after, fun Failure => (run_bind_ok (ran Failure) _).trans (finished Failure)⟩

theorem sure_firstOf (body : Item -> Action State Other Value) (items : List Item) :
    Sure fun Failure => (firstOf body items : Action State Failure _) := by
  induction items with
  | nil => exact sure_pure none
  | cons item rest ih =>
    refine Sure.bind (sure_attempt (body item)) fun outcome => ?_
    cases outcome with
    | ok value => exact sure_pure _
    | error => exact ih

theorem Sure.within {action : (Failure : Type) -> Action Inner Failure Value}
    (sure : Sure action) (part : State -> Inner) (update : Inner -> State -> State) :
    Sure fun Failure => Action.within part update (action Failure) := by
  intro state
  rcases sure (part state) with ⟨value, after, ran⟩
  refine ⟨value, update after state, fun Failure => ?_⟩
  change ((action Failure (part state)).1, update (action Failure (part state)).2 state) = _
  rw [ran]

end Action

/-- `ok_or`. -/
def okOr (value : Option Value) (failure : Failure) : Except Failure Value :=
  match value with
  | some value => .ok value
  | none => .error failure

theorem okOr_ok {known : Option Value} {failure : Failure} {value : Value}
    (ok : okOr known failure = .ok value) : known = some value := by
  cases known with
  | none => cases ok
  | some other => exact congrArg some (Except.ok.inj ok)

theorem except_bind_ok {first : Except Failure Value}
    {next : Value -> Except Failure Result} {result : Result} (ok : (first >>= next) = .ok result) :
    ∃ value, first = .ok value ∧ next value = .ok result := by
  cases first with
  | error failure => cases ok
  | ok value => exact ⟨value, rfl, ok⟩

/-- What every step of a loop keeps, a loop that ended well has kept. -/
theorem foldlM_keeps {step : State -> Item -> Except Failure State} {invariant : State -> Prop}
    {items : List Item} {state after : State}
    (kept : ∀ item ∈ items, ∀ state after, invariant state ->
      step state item = .ok after -> invariant after)
    (start : invariant state) (ran : items.foldlM step state = .ok after) : invariant after := by
  induction items generalizing state with
  | nil =>
    cases ran
    exact start
  | cons item rest ih =>
    rw [foldlM_cons] at ran
    rcases except_bind_ok ran with ⟨between, first, later⟩
    exact ih (fun other listed => kept other (mem_cons_of_mem _ listed))
      (kept item mem_cons_self state between start first) later

end CoolOs.Actions
