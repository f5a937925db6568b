import CoolOs.Services.Supervisor

namespace CoolOs.BootHealth

open Actions Files Text CoolFs Services List

/-!
# The boot record

Whether the last boots went well is kept in a text file that is read at each boot.  A
file that is not there, or is no text, reads as the record of a system that is healthy.
-/

def bootDir : Text := "/BOOT".toList
def statePath : Text := "/BOOT/STATE.TXT".toList
def historyFile : Text := "/BOOT/HISTORY.TXT".toList
def lastGoodPath : Text := "/BOOT/LAST-GOOD.TXT".toList

/-- Attempts count to `u32::MAX`. -/
structure BootState where
  status : Text
  pendingUpdate : Text
  attempts : Nat
  lastGoodTick : Nat
  lastReason : Text
  lastAutoRollback : Text
  deriving DecidableEq

def noUpdate : Text := "none".toList
def healthy : Text := "healthy".toList
def pending : Text := "pending".toList
def booting : Text := "booting".toList
def validating : Text := "validating".toList
def recovering : Text := "recovering".toList
def recoveryFailed : Text := "recovery-failed".toList

def cleanToken (value fallback : Text) : Text :=
  let trimmed := trim value
  if trimmed.isEmpty then fallback
  else trimmed.map (fun char => if isWhitespace char || char == '=' then '_' else char)

def isNone (value : Text) : Bool := value.isEmpty || value == noUpdate

def defaultState : BootState where
  status := healthy
  pendingUpdate := noUpdate
  attempts := 0
  lastGoodTick := 0
  lastReason := "first boot".toList
  lastAutoRollback := noUpdate

def assign (state : BootState) (key value : Text) : BootState :=
  if key = "status".toList then { state with status := value }
  else if key = "pending_update".toList then
    { state with pendingUpdate := cleanToken value noUpdate }
  else if key = "attempts".toList then { state with attempts := (parseUnsigned 32 value).getD 0 }
  else if key = "last_good_tick".toList then
    { state with lastGoodTick := (parseUnsigned 64 value).getD 0 }
  else if key = "last_reason".toList then { state with lastReason := value }
  else if key = "last_auto_rollback".toList then
    { state with lastAutoRollback := cleanToken value noUpdate }
  else state

/-- The body of the loop of `load_state`. -/
def parseStateLine (state : BootState) (raw : Text) : BootState :=
  match splitOnce ['='] (trim raw) with
  | none => state
  | some (key, value) => assign state key value

def parseState (text : Text) : BootState := (lines text).foldl parseStateLine defaultState

def stateOf (file : Option (List UInt8)) : BootState :=
  match file.bind fromUtf8 with
  | none => defaultState
  | some text => parseState text

def stateText (state : BootState) : Text :=
  "coolOS boot health\n".toList ++ "status=".toList ++ state.status ++ ['\n'] ++
    "pending_update=".toList ++ state.pendingUpdate ++ ['\n'] ++
    "attempts=".toList ++ decimal state.attempts ++ ['\n'] ++
    "last_good_tick=".toList ++ decimal state.lastGoodTick ++ ['\n'] ++
    "last_reason=".toList ++ state.lastReason ++ ['\n'] ++
    "last_auto_rollback=".toList ++ state.lastAutoRollback ++ ['\n']

section

variable {Failure : Type}

def loadState : Action Kernel Failure BootState := do
  let file <- vfsKernelReadFile statePath
  return stateOf file

def writeFile (path : Text) (data : List UInt8) : Action Kernel FsError Unit := do
  match <- Action.attempt (vfsKernelCreateFile path) with
  | .ok _ => vfsKernelSafeWriteFile path data
  | .error .alreadyExists => vfsKernelSafeWriteFile path data
  | .error err => Action.fail err

def writeState (state : BootState) : Action Kernel FsError Unit :=
  writeFile statePath (encode (stateText state))

def writeLastGood (state : BootState) (acceptedUpdate : Text) : Action Kernel FsError Unit :=
  writeFile lastGoodPath (encode ("coolOS last known good\n".toList ++
    "tick=".toList ++ decimal state.lastGoodTick ++ ['\n'] ++
    "reason=".toList ++ state.lastReason ++ ['\n'] ++
    "accepted_update=".toList ++ acceptedUpdate ++ ['\n'] ++
    "state=".toList ++ statePath ++ ['\n']))

def ensureLayout : Action Kernel Failure Unit := do
  ensureDir bootDir
  ensureDir logDir

/-- A journal that is started again when it has grown too long or is no text. -/
def journalBase (title : Text) (file : Option (List UInt8)) : Text :=
  let journal := (file.bind fromUtf8).getD (title ++ ['\n'])
  if len journal > 8192 then title ++ "\ntrimmed=true\n".toList else journal

def journalEntry (now : Nat) (action : Text) (details : List Text) : Text :=
  "tick=".toList ++ decimal now ++ " action=".toList ++ action ++ ['\n'] ++
    details.flatMap (fun detail => detail ++ ['\n'])

def appendHistory (action : Text) (details : List Text) : Action Kernel Failure Unit := do
  ensureLayout
  let file <- vfsKernelReadFile historyFile
  let now <- currentTicks
  let history := journalBase "coolOS boot health history".toList file ++
    journalEntry now action details
  let _ <- Action.attempt (writeFile historyFile (encode history))
  return ()

def pendingState (state : BootState) (updateId : Text) : BootState :=
  { state with
    status := pending
    pendingUpdate := cleanToken updateId "manual".toList
    attempts := 0
    lastReason := "update pending validation".toList }

def markUpdatePending (updateId : Text) : Action Kernel Failure Unit := do
  ensureLayout
  let state <- loadState
  let state := pendingState state updateId
  let _ <- Action.attempt (writeState state)
  appendHistory "pending-update".toList ["update=".toList ++ state.pendingUpdate]

end

/-!
## Reading the boot record back

The values that decide about rollbacks are read back as they were written: names of
updates are cleaned, states are words, and no other value spans more than a line.
-/

/-- A name as it stands in the record. -/
structure Token (text : Text) : Prop where
  solid : Solid text
  unequal : '=' ∉ text
  nonempty : text ≠ []

instance (text : Text) : Decidable (Token text) :=
  decidable_of_iff (Solid text ∧ '=' ∉ text ∧ text ≠ [])
    ⟨fun known => ⟨known.1, known.2.1, known.2.2⟩,
      fun known => ⟨known.solid, known.unequal, known.nonempty⟩⟩

variable {text : Text} {result : Nat} {state : BootState}

theorem token_noUpdate : Token noUpdate := by decide

theorem cleanToken_token (value : Text) {fallback : Text} (spare : Token fallback) :
    Token (cleanToken value fallback) := by
  unfold cleanToken
  dsimp only
  split
  · exact spare
  next some =>
    have chars : ∀ char : Char,
        isWhitespace (if isWhitespace char || char == '=' then '_' else char) = false ∧
          (if isWhitespace char || char == '=' then '_' else char) ≠ '=' := by
      intro char
      split
      · exact ⟨rfl, by decide⟩
      · next kept =>
          rw [Bool.or_eq_true, not_or, beq_iff_eq] at kept
          exact ⟨Bool.eq_false_iff.mpr kept.1, kept.2⟩
    refine ⟨?_, ?_, ?_⟩
    · intro char within
      rcases mem_map.mp within with ⟨other, _, rfl⟩
      exact (chars other).1
    · intro within
      rcases mem_map.mp within with ⟨other, _, same⟩
      exact (chars other).2 same
    · intro empty
      rw [map_eq_nil_iff] at empty
      rw [empty] at some
      exact some rfl

theorem cleanToken_of_token (token : Token text) (fallback : Text) :
    cleanToken text fallback = text := by
  have trimmed : trim text = text := strip_of_none token.solid
  have same : text.map (fun char => if isWhitespace char || char == '=' then '_' else char) =
      text := by
    refine (map_congr_left fun char within => ?_).trans (map_id text)
    have plain : ¬ (isWhitespace char || char == '=') = true := by
      rw [Bool.or_eq_true, not_or, beq_iff_eq]
      exact ⟨Bool.eq_false_iff.mp (token.solid char within),
        fun same => token.unequal (same ▸ within)⟩
    rw [if_neg plain]
    rfl
  unfold cleanToken
  rw [trimmed]
  rw [if_neg (by simpa using token.nonempty), same]

/-- The values of a record that was read. -/
structure BootState.Read (state : BootState) : Prop where
  pendingUpdate : Token state.pendingUpdate
  attempts : state.attempts < 2 ^ 32
  lastAutoRollback : Token state.lastAutoRollback

theorem parseDigits_lt {bound value : Nat} (small : value < bound)
    (parsed : parseDigits bound value text = some result) : result < bound := by
  induction text generalizing value with
  | nil =>
    cases parsed
    exact small
  | cons char rest ih =>
    rw [parseDigits] at parsed
    split at parsed
    · dsimp only at parsed
      split at parsed
      · next below => exact ih below parsed
      · cases parsed
    · cases parsed

theorem parseUnsigned_lt {width : Nat} (parsed : parseUnsigned width text = some result) :
    result < 2 ^ width := by
  unfold parseUnsigned at parsed
  split at parsed
  · cases parsed
  · split at parsed
    · cases parsed
    · exact parseDigits_lt (Nat.two_pow_pos width) parsed
  · exact parseDigits_lt (Nat.two_pow_pos width) parsed

theorem assign_read (known : state.Read) (key value : Text) : (assign state key value).Read := by
  unfold assign
  split
  · exact ⟨known.pendingUpdate, known.attempts, known.lastAutoRollback⟩
  split
  · exact ⟨cleanToken_token _ token_noUpdate, known.attempts, known.lastAutoRollback⟩
  split
  · refine ⟨known.pendingUpdate, ?_, known.lastAutoRollback⟩
    cases parsed : parseUnsigned 32 value with
    | none => exact Nat.two_pow_pos 32
    | some attempts => exact parseUnsigned_lt parsed
  iterate 2
    split
    · exact ⟨known.pendingUpdate, known.attempts, known.lastAutoRollback⟩
  split
  · exact ⟨known.pendingUpdate, known.attempts, cleanToken_token _ token_noUpdate⟩
  · exact known

theorem parseStateLine_read (known : state.Read) (raw : Text) :
    (parseStateLine state raw).Read := by
  unfold parseStateLine
  split
  · exact known
  · exact assign_read known _ _

theorem stateOf_read (file : Option (List UInt8)) : (stateOf file).Read := by
  unfold stateOf
  split
  · exact ⟨token_noUpdate, Nat.two_pow_pos 32, token_noUpdate⟩
  · next text _ =>
      refine foldlRecOn (lines text) parseStateLine
        ⟨token_noUpdate, Nat.two_pow_pos 32, token_noUpdate⟩ ?_
      exact fun state known raw _ => parseStateLine_read known raw

/-- What is needed of a record to be read back. -/
structure BootState.Storable (state : BootState) : Prop extends state.Read where
  status : Solid state.status
  reason : '\n' ∉ state.lastReason

def fieldLine (key value : Text) : Text := key ++ '=' :: value

theorem parseStateLine_field {key : Text} (token : Token key) (state : BootState) (value : Text) :
    parseStateLine state (chomp (fieldLine key value)) =
      assign state key ((chomp value).rdropWhile isWhitespace) := by
  have start : Solid (key ++ ['=']) := token.solid.append (by decide)
  have line : fieldLine key value = (key ++ ['=']) ++ value := by
    rw [fieldLine, append_assoc, singleton_append]
  have cut : splitOnce ['='] (trim (chomp (fieldLine key value))) =
      some (key, (chomp value).rdropWhile isWhitespace) := by
    rw [line, chomp_append start, trim_append start (by simp), append_assoc,
      singleton_append, splitOnce_append token.unequal]
  rw [parseStateLine, cut]

theorem end_of_solid {value : Text} (solid : Solid value) :
    (chomp value).rdropWhile isWhitespace = value := by
  have whole := chomp_append solid []
  rw [append_nil] at whole
  rw [whole]
  change (value ++ []).rdropWhile isWhitespace = value
  rw [append_nil]
  exact rdropWhile_eq_self_iff.mpr fun _ =>
    Bool.eq_false_iff.mp (solid _ (getLast_mem _))

theorem stateText_eq (state : BootState) : stateText state = "coolOS boot health".toList ++ '\n' ::
      (fieldLine "status".toList state.status ++ '\n' ::
      (fieldLine "pending_update".toList state.pendingUpdate ++ '\n' ::
      (fieldLine "attempts".toList (Services.decimal state.attempts) ++ '\n' ::
      (fieldLine "last_good_tick".toList (Services.decimal state.lastGoodTick) ++ '\n' ::
      (fieldLine "last_reason".toList state.lastReason ++ '\n' ::
      (fieldLine "last_auto_rollback".toList state.lastAutoRollback ++ '\n' :: [])))))) := by
  have title : "coolOS boot health\n".toList = "coolOS boot health".toList ++ ['\n'] := by decide
  have first : "status=".toList = "status".toList ++ ['='] := by decide
  have second : "pending_update=".toList = "pending_update".toList ++ ['='] := by decide
  have third : "attempts=".toList = "attempts".toList ++ ['='] := by decide
  have fourth : "last_good_tick=".toList = "last_good_tick".toList ++ ['='] := by decide
  have fifth : "last_reason=".toList = "last_reason".toList ++ ['='] := by decide
  have sixth : "last_auto_rollback=".toList = "last_auto_rollback".toList ++ ['='] := by decide
  unfold stateText fieldLine
  simp only [title, first, second, third, fourth, fifth, sixth, append_assoc,
    cons_append, nil_append]

section

variable (state : BootState) (value : Text)

theorem assign_status : assign state "status".toList value = { state with status := value } := by
  rw [assign, if_pos rfl]

theorem assign_pendingUpdate : assign state "pending_update".toList value =
    { state with pendingUpdate := cleanToken value noUpdate } := by
  rw [assign, if_neg (by decide), if_pos rfl]

theorem assign_attempts : assign state "attempts".toList value =
    { state with attempts := (parseUnsigned 32 value).getD 0 } := by
  rw [assign, if_neg (by decide), if_neg (by decide), if_pos rfl]

theorem assign_lastGoodTick : assign state "last_good_tick".toList value =
    { state with lastGoodTick := (parseUnsigned 64 value).getD 0 } := by
  rw [assign, if_neg (by decide), if_neg (by decide), if_neg (by decide), if_pos rfl]

theorem assign_lastReason : assign state "last_reason".toList value =
    { state with lastReason := value } := by
  rw [assign, if_neg (by decide), if_neg (by decide), if_neg (by decide),
    if_neg (by decide), if_pos rfl]

theorem assign_lastAutoRollback : assign state "last_auto_rollback".toList value =
    { state with lastAutoRollback := cleanToken value noUpdate } := by
  rw [assign, if_neg (by decide), if_neg (by decide), if_neg (by decide),
    if_neg (by decide), if_neg (by decide), if_pos rfl]

end

theorem not_mem_fieldLine {key value : Text} (token : Token key) (single : '\n' ∉ value) :
    '\n' ∉ fieldLine key value := by
  rw [fieldLine, mem_append, mem_cons, not_or, not_or]
  exact ⟨token.solid.not_mem rfl, by decide, single⟩

theorem not_blank_of_digit {char : Char} (digit : char.isDigit = true) :
    isWhitespace char = false := by
  have range : 48 <= char.toNat ∧ char.toNat <= 57 := by
    rw [Char.isDigit, Bool.and_eq_true, decide_eq_true_eq, decide_eq_true_eq] at digit
    exact ⟨UInt32.le_iff_toNat_le.mp digit.1, UInt32.le_iff_toNat_le.mp digit.2⟩
  simp only [isWhitespace, Bool.or_eq_false_iff, Bool.and_eq_false_iff, decide_eq_false_iff_not,
    beq_eq_false_iff_ne]
  omega

theorem solid_decimal (value : Nat) : Solid (Services.decimal value) := fun _ within =>
  not_blank_of_digit (Nat.isDigit_of_mem_toDigits (by decide) (by decide) within)

/-- The record is read back as far as rollbacks depend on it. -/
theorem parseState_text (storable : state.Storable) :
    (parseState (stateText state)).status = state.status ∧
      (parseState (stateText state)).pendingUpdate = state.pendingUpdate ∧
      (parseState (stateText state)).attempts = state.attempts ∧
      (parseState (stateText state)).lastAutoRollback = state.lastAutoRollback := by
  have title : '\n' ∉ "coolOS boot health".toList := by decide
  have opening : parseStateLine defaultState (chomp "coolOS boot health".toList) =
      defaultState := by decide
  have token₁ : Token "status".toList := by decide
  have token₂ : Token "pending_update".toList := by decide
  have token₃ : Token "attempts".toList := by decide
  have token₄ : Token "last_good_tick".toList := by decide
  have token₅ : Token "last_reason".toList := by decide
  have token₆ : Token "last_auto_rollback".toList := by decide
  have number : parseUnsigned 32 (Services.decimal state.attempts) = some state.attempts :=
    parseUnsigned_toDigits storable.attempts
  rw [parseState, stateText_eq, lines_cons title,
    lines_cons (not_mem_fieldLine token₁ (storable.status.not_mem rfl)),
    lines_cons (not_mem_fieldLine token₂ (storable.pendingUpdate.solid.not_mem rfl)),
    lines_cons (not_mem_fieldLine token₃ ((solid_decimal _).not_mem rfl)),
    lines_cons (not_mem_fieldLine token₄ ((solid_decimal _).not_mem rfl)),
    lines_cons (not_mem_fieldLine token₅ storable.reason),
    lines_cons (not_mem_fieldLine token₆ (storable.lastAutoRollback.solid.not_mem rfl))]
  simp only [foldl_cons, opening, parseStateLine_field token₁, parseStateLine_field token₂,
    parseStateLine_field token₃, parseStateLine_field token₄, parseStateLine_field token₅,
    parseStateLine_field token₆, assign_status, assign_pendingUpdate, assign_attempts,
    assign_lastGoodTick, assign_lastReason, assign_lastAutoRollback,
    end_of_solid storable.status, end_of_solid storable.pendingUpdate.solid,
    end_of_solid (solid_decimal _), end_of_solid storable.lastAutoRollback.solid, number,
    cleanToken_of_token storable.pendingUpdate, cleanToken_of_token storable.lastAutoRollback]
  exact ⟨rfl, rfl, rfl, rfl⟩

end CoolOs.BootHealth
