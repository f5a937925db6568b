import CoolOs.Checked.Code
import CoolOs.Text.Strings

namespace CoolOs.Web

open Checked Checked.Code

/-!
# The walkers over chunked bodies

A chunked body is read twice, by code that was written twice.  While a response
comes in over TLS, `chunked_body_complete` looks whether all of it is there; when it
has come in, `decode_chunked_body_bytes` takes it apart.  Indices, slices and sums
are checked as the code does them.
-/

@[simp] abbrev httpMaxBytes : Nat := 512 * 1024
@[simp] abbrev carriageReturn : UInt8 := 13
@[simp] abbrev lineFeed : UInt8 := 10

def hexDigit (byte : UInt8) : Option Nat :=
  if 48 <= byte ∧ byte <= 57 then some (byte.toNat - 48)
  else if 97 <= byte ∧ byte <= 102 then some (byte.toNat - 97 + 10)
  else if 65 <= byte ∧ byte <= 70 then some (byte.toNat - 65 + 10)
  else none

def parseHexLoop : Nat -> Bool -> List UInt8 -> Option Nat
  | value, sawDigit, [] => if sawDigit then some value else none
  | value, _, byte :: rest =>
    match hexDigit byte with
    | none => none
    | some digit =>
      if value * 16 + digit < 2 ^ 64 then parseHexLoop (value * 16 + digit) true rest else none

def parseHexUsize (input : Text) : Option Nat := parseHexLoop 0 false (Text.encode input)

/-- The size in a line, which an extension can follow. -/
def lineSize (line : Text) : Option Nat :=
  parseHexUsize (Text.trim ((line.splitOn ';').headD []))

def findCrlfFrom (bytes : List UInt8) (start : Nat) : Nat -> Nat -> Code (Option Nat)
  | 0, _ => fault .unbounded
  | fuel + 1, i =>
    if i < bytes.length then do
      let byte <- index bytes i
      if byte = lineFeed then
        if start < i then do
          let before <- index bytes (i - 1)
          pure (some (if before = carriageReturn then i - 1 else i))
        else pure (some i)
      else do
        let next <- add 64 i 1
        findCrlfFrom bytes start fuel next
    else pure none

/-- The end of the line that starts at a position. -/
def findCrlf (bytes : List UInt8) (start : Nat) : Code (Option Nat) :=
  findCrlfFrom bytes start (bytes.length + 1) start

def crlfLen (bytes : List UInt8) (lineEnd : Nat) : Code Nat :=
  if bytes[lineEnd]? = some carriageReturn then do
    let next <- add 64 lineEnd 1
    pure (if bytes[next]? = some lineFeed then 2 else 1)
  else pure 1

variable (body : List UInt8)

/-- The size of the chunk at a position and where its data starts. -/
def chunkHeader (pos : Nat) : Code (Except String (Nat × Nat)) := do
  match <- findCrlf body pos with
  | none => pure (.error "bad chunk header")
  | some lineEnd =>
    let line <- slice body pos lineEnd
    match Text.fromUtf8 line with
    | none => pure (.error "bad chunk header")
    | some header =>
      match lineSize header with
      | none => pure (.error "bad chunk size")
      | some size =>
        let width <- crlfLen body lineEnd
        let data <- add 64 lineEnd width
        pure (.ok (size, data))

/-- The end of the line that follows the data of a chunk. -/
def chunkTerminator (pos : Nat) : Code (Except String Nat) :=
  if pos < body.length then do
    let second <- add 64 pos 1
    if body[pos]? = some carriageReturn ∧ body[second]? = some lineFeed then do
      let next <- add 64 pos 2
      pure (.ok next)
    else if body[pos]? = some lineFeed then do
      let next <- add 64 pos 1
      pure (.ok next)
    else pure (.error "bad chunk terminator")
  else pure (.ok pos)

def decodeLoop (body : List UInt8) : Nat -> List UInt8 -> Nat -> Code (Except String (List UInt8))
  | 0, _, _ => fault .unbounded
  | fuel + 1, out, pos =>
    if body.length <= pos then
      pure (if out.isEmpty then .error "bad chunk header" else .ok out)
    else
      attempt (chunkHeader body pos) fun (size, pos) =>
        if size = 0 then pure (.ok out)
        else do
          let stop <- add 64 pos size
          if body.length < stop then pure (.error "truncated chunk body")
          else do
            let data <- slice body pos stop
            attempt (chunkTerminator body stop) fun next =>
              if httpMaxBytes < (out ++ data).length then
                pure (.error "decoded response too large")
              else decodeLoop body fuel (out ++ data) next

def decodeChunkedBodyBytes : Code (Except String (List UInt8)) :=
  decodeLoop body (body.length + 1) [] 0

/-- The chunks the decoder comes to, each with the start of its data and its size. -/
def decodedChunks (body : List UInt8) : Nat -> Nat -> Nat -> List (Nat × Nat)
  | 0, _, _ => []
  | fuel + 1, total, pos =>
    if body.length <= pos then []
    else
      match (chunkHeader body pos).value? with
      | some (.ok (size, data)) =>
        if size = 0 then []
        else (data, size) ::
          if body.length < data + size then []
          else
            match (chunkTerminator body (data + size)).value? with
            | some (.ok next) =>
              if httpMaxBytes < total + size then []
              else decodedChunks body fuel (total + size) next
            | _ => []
      | _ => []

namespace Tls

def findCrlfFrom (body : List UInt8) : Nat -> Nat -> Code (Option Nat)
  | 0, _ => fault .unbounded
  | fuel + 1, pos => do
    let second <- add 64 pos 1
    if second < body.length then do
      let first <- index body pos
      let byte <- index body second
      if first = carriageReturn ∧ byte = lineFeed then pure (some pos)
      else findCrlfFrom body fuel second
    else pure none

def findCrlf (start : Nat) : Code (Option Nat) :=
  findCrlfFrom body (body.length + 1) start

/-- The size of the chunk at a position and where its data starts. -/
def chunkHeader (pos : Nat) : Code (Option (Nat × Nat)) := do
  match <- findCrlf body pos with
  | none => pure none
  | some lineEnd =>
    let bytes <- slice body pos lineEnd
    match (Text.fromUtf8 bytes).bind lineSize with
    | none => pure none
    | some size =>
      let data <- add 64 lineEnd 2
      pure (some (size, data))

def completeLoop (body : List UInt8) : Nat -> Nat -> Code Bool
  | 0, _ => fault .unbounded
  | fuel + 1, pos => do
    match <- chunkHeader body pos with
    | none => pure false
    | some (size, data) =>
      -- `checked_add` refuses this sum, the next one is not checked
      if data + size < 2 ^ 64 then do
        let next <- add 64 (data + size) 2
        if body.length < next then pure false
        else do
          let ending <- slice body (data + size) next
          if ending ≠ [carriageReturn, lineFeed] then pure false
          else if size = 0 then pure true
          else completeLoop body fuel next
      else pure false

def chunkedBodyComplete : Code Bool :=
  completeLoop body (body.length + 1) 0

/-- The chunks that are looked for, each with the start of its data and its size. -/
def awaitedChunks (body : List UInt8) : Nat -> Nat -> List (Nat × Nat)
  | 0, _ => []
  | fuel + 1, pos =>
    match (chunkHeader body pos).value? with
    | some (some (size, data)) => (data, size) ::
        let next := data + size + 2
        if body.length < next ∨ (body.take next).drop (data + size) ≠ [carriageReturn, lineFeed] ∨
          size = 0 then []
        else awaitedChunks body fuel next
    | _ => []

end Tls

/-!
## Where the walkers fault

Every line, every slice and every sum but one stays inside the body.  The sum that
does not is the end of a chunk's data in the decoder, and the end of the line after
it in the test for completeness.
-/

theorem findCrlfFrom_returns {bytes : List UInt8} (small : bytes.length < 2 ^ 63) {start : Nat}
    (fuel i : Nat) (after : start <= i) (inside : i <= bytes.length)
    (enough : bytes.length < fuel + i) :
    Returns (findCrlfFrom bytes start fuel i) (fun found =>
      ∀ lineEnd, found = some lineEnd -> start <= lineEnd ∧ lineEnd < bytes.length) := by
  induction fuel generalizing i with
  | zero => omega
  | succ fuel ih =>
    rw [findCrlfFrom]
    split
    next here =>
      refine (ensures_index here).thenReturns fun byte _ => ?_
      split
      · split
        · refine (ensures_index (by omega)).thenReturns fun before _ => .pure ?_
          rintro lineEnd found
          cases found
          split <;> omega
        · exact .pure (by rintro lineEnd found; cases found; omega)
      · refine (ensures_add (by omega)).thenReturns fun next sum => ?_
        rw [sum]
        exact ih (i + 1) (by omega) (by omega) (by omega)
    next => exact .pure nofun

theorem crlfLen_returns {bytes : List UInt8} (small : bytes.length < 2 ^ 63) {lineEnd : Nat}
    (inside : lineEnd < bytes.length) :
    Returns (crlfLen bytes lineEnd) (fun width =>
      0 < width ∧ lineEnd + width <= bytes.length) := by
  rw [crlfLen]
  split
  · refine (ensures_add (by omega)).thenReturns fun next sum => .pure ?_
    split
    next here =>
      have second := (List.getElem?_eq_some_iff.mp here).1
      omega
    next => omega
  · exact .pure (by omega)

variable {body : List UInt8}

section

variable (small : body.length < 2 ^ 63)
include small

theorem chunkHeader_returns {pos : Nat} (inside : pos <= body.length) :
    Returns (chunkHeader body pos) (fun result =>
      ∀ header, result = .ok header -> pos < header.2 ∧ header.2 <= body.length) := by
  rw [chunkHeader]
  refine (findCrlfFrom_returns small _ pos (Nat.le_refl pos) inside (by omega)).bind
    fun found bounds => ?_
  cases found with
  | none => exact .pure nofun
  | some lineEnd =>
    have ends := bounds lineEnd rfl
    refine (ensures_slice ends.1 (by omega)).thenReturns fun line _ => ?_
    split
    · exact .pure nofun
    · split
      · exact .pure nofun
      · refine (crlfLen_returns small ends.2).bind fun width fits => ?_
        refine (ensures_add (by omega)).thenReturns fun data sum => .pure ?_
        rintro header same
        cases same
        omega

theorem chunkTerminator_returns {pos : Nat} (inside : pos <= body.length) :
    Returns (chunkTerminator body pos) (fun result =>
      ∀ next, result = .ok next -> pos <= next ∧ next <= body.length) := by
  rw [chunkTerminator]
  split
  · refine (ensures_add (by omega)).thenReturns fun second sum => ?_
    split
    next ending =>
      have present := (List.getElem?_eq_some_iff.mp ending.2).1
      refine (ensures_add (by omega)).thenReturns fun next sum => .pure ?_
      rintro _ same
      cases same
      omega
    next =>
      split
      · refine (ensures_add (by omega)).thenReturns fun next sum => .pure ?_
        rintro _ same
        cases same
        omega
      · exact .pure nofun
  · refine .pure ?_
    rintro _ same
    cases same
    omega

/-- The data of a chunk ends at a position the machine has. -/
def Fits (chunk : Nat × Nat) : Prop := chunk.1 + chunk.2 < 2 ^ 64

/-- The decoder goes through all chunks it comes to unless one of them does not fit. -/
theorem decodeLoop_returns_iff
    {holds : Except String (List UInt8) -> Prop} (refused : ∀ reason, holds (.error reason))
    (decodes : ∀ decoded : List UInt8, decoded.length <= httpMaxBytes -> holds (.ok decoded))
    (fuel : Nat) (out : List UInt8) (pos : Nat) (short : out.length <= httpMaxBytes)
    (inside : pos <= body.length) (enough : body.length < fuel + pos) :
    Returns (decodeLoop body fuel out pos) holds <->
      ∀ chunk ∈ decodedChunks body fuel out.length pos, Fits chunk := by
  induction fuel generalizing out pos with
  | zero => omega
  | succ fuel ih =>
    rw [decodeLoop, decodedChunks]
    by_cases done : body.length <= pos
    · rw [if_pos done, if_pos done, returns_pure_iff]
      refine iff_of_true ?_ nofun
      split
      · exact refused _
      · exact decodes out short
    rw [if_neg done, if_neg done]
    rcases returns_iff.mp (chunkHeader_returns small inside) with ⟨result, gives, bounds⟩
    rw [returns_attempt_iff gives, gives]
    rcases result with reason | ⟨size, data⟩
    · exact iff_of_true (.pure (refused reason)) nofun
    have ends := bounds (size, data) rfl
    dsimp only at ends ⊢
    by_cases last : size = 0
    · rw [if_pos last, if_pos last]
      exact iff_of_true (.pure (decodes out short)) nofun
    rw [if_neg last, if_neg last, returns_add_iff, List.forall_mem_cons]
    refine and_congr_right fun _ => ?_
    by_cases truncated : body.length < data + size
    · rw [if_pos truncated, if_pos truncated]
      exact iff_of_true (.pure (refused _)) nofun
    rw [if_neg truncated, if_neg truncated, returns_bind_iff (value?_slice (by omega) (by omega))]
    rcases returns_iff.mp (chunkTerminator_returns small (by omega : data + size <= body.length))
      with ⟨result, gives, bounds⟩
    rw [returns_attempt_iff gives, gives]
    rcases result with reason | next
    · exact iff_of_true (.pure (refused reason)) nofun
    have later := bounds next rfl
    dsimp only
    have grown : (out ++ (body.take (data + size)).drop data).length = out.length + size := by
      rw [List.length_append, List.length_drop, List.length_take]
      omega
    rw [grown]
    by_cases large : httpMaxBytes < out.length + size
    · rw [if_pos large, if_pos large]
      exact iff_of_true (.pure (refused _)) nofun
    rw [if_neg large, if_neg large, <- grown]
    exact ih _ next (by omega) later.2 (by omega)

end

namespace Tls

variable (small : body.length < 2 ^ 63)
include small

theorem findCrlfFrom_returns
    (fuel pos : Nat) (inside : pos <= body.length) (enough : body.length < fuel + pos) :
    Returns (findCrlfFrom body fuel pos) (fun found =>
      ∀ lineEnd, found = some lineEnd -> pos <= lineEnd ∧ lineEnd + 2 <= body.length) := by
  induction fuel generalizing pos with
  | zero => omega
  | succ fuel ih =>
    rw [findCrlfFrom]
    refine (ensures_add (by omega)).thenReturns fun second sum => ?_
    rw [sum]
    split
    next here =>
      refine (ensures_index (by omega)).thenReturns fun first _ => ?_
      refine (ensures_index here).thenReturns fun byte _ => ?_
      split
      · refine .pure ?_
        rintro lineEnd found
        cases found
        omega
      · refine (ih (pos + 1) (by omega) (by omega)).mono fun found bounds lineEnd same => ?_
        have ends := bounds lineEnd same
        omega
    next => exact .pure nofun

theorem chunkHeader_returns {pos : Nat} (inside : pos <= body.length) :
    Returns (chunkHeader body pos) (fun result =>
      ∀ header, result = some header -> pos < header.2 ∧ header.2 <= body.length) := by
  rw [chunkHeader]
  refine (findCrlfFrom_returns small _ pos inside (by omega)).bind fun found bounds => ?_
  cases found with
  | none => exact .pure nofun
  | some lineEnd =>
    have ends := bounds lineEnd rfl
    refine (ensures_slice ends.1 (by omega)).thenReturns fun line _ => ?_
    split
    · exact .pure nofun
    · refine (ensures_add (by omega)).thenReturns fun data sum => .pure ?_
      rintro header same
      cases same
      omega

/-- The end of the chunk's data is a position the machine has and the end of the line
after it is none. -/
def Wraps (chunk : Nat × Nat) : Prop :=
  chunk.1 + chunk.2 < 2 ^ 64 ∧ 2 ^ 64 <= chunk.1 + chunk.2 + 2

theorem completeLoop_returns_iff
    (fuel pos : Nat) (inside : pos <= body.length) (enough : body.length < fuel + pos) :
    Returns (completeLoop body fuel pos) (fun _ => True) <->
      ∀ chunk ∈ awaitedChunks body fuel pos, ¬ Wraps chunk := by
  induction fuel generalizing pos with
  | zero => omega
  | succ fuel ih =>
    rw [completeLoop, awaitedChunks]
    rcases returns_iff.mp (chunkHeader_returns small inside) with ⟨result, gives, bounds⟩
    rw [returns_bind_iff gives, gives]
    rcases result with _ | ⟨size, data⟩
    · exact iff_of_true (.pure trivial) nofun
    have ends := bounds (size, data) rfl
    dsimp only at ends ⊢
    rw [List.forall_mem_cons]
    by_cases refused : data + size < 2 ^ 64
    · rw [if_pos refused, returns_add_iff]
      refine and_congr ⟨fun next wraps => ?_, fun stays => ?_⟩ ?_
      · exact absurd wraps.2 (Nat.not_le.mpr next)
      · exact Nat.not_le.mp fun next => stays ⟨refused, next⟩
      by_cases missing : body.length < data + size + 2
      · rw [if_pos missing, if_pos (.inl missing)]
        exact iff_of_true (.pure trivial) nofun
      rw [if_neg missing, returns_bind_iff (value?_slice (by omega) (by omega))]
      by_cases other : (body.take (data + size + 2)).drop (data + size) ≠ [carriageReturn, lineFeed]
      · rw [if_pos other, if_pos (.inr (.inl other))]
        exact iff_of_true (.pure trivial) nofun
      rw [if_neg other]
      by_cases last : size = 0
      · rw [if_pos last, if_pos (.inr (.inr last))]
        exact iff_of_true (.pure trivial) nofun
      rw [if_neg last, if_neg (not_or.mpr ⟨missing, not_or.mpr ⟨other, last⟩⟩)]
      exact ih (data + size + 2) (by omega) (by omega)
    · rw [if_neg refused]
      refine iff_of_true (.pure trivial) ⟨fun wraps => refused wraps.1, ?_⟩
      rw [if_pos (.inl (by omega))]
      nofun

end Tls

end CoolOs.Web
