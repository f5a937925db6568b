import CoolOs.Net.Tcp
import CoolOs.Web.Chunks

namespace CoolOs.Web

open Checked Checked.Code List Text

/-!
# Responses

`normalize_http_response_bytes` on all bytes of a response, and
`http_response_complete` on those that have come in so far.
-/

/-!
## Decimal numbers

`push_decimal` writes the digits of a number into an array of twenty bytes, the last
digit first, and appends them to a text from the end of the array.
-/

def decimalLoop : Nat -> List UInt8 -> Nat -> Nat -> Code (List UInt8 × Nat)
  | 0, _, _, _ => fault .unbounded
  | fuel + 1, digits, len, value => do
    let digits <- store digits len (48 + UInt8.ofNat (value % 10))
    let len <- add 64 len 1
    if value / 10 = 0 then pure (digits, len) else decimalLoop fuel digits len (value / 10)

def pushDigits (digits : List UInt8) : Nat -> Text -> Code Text
  | 0, out => pure out
  | len + 1, out => do
    let digit <- index digits len
    pushDigits digits len (out ++ [Char.ofNat digit.toNat])

def pushDecimal (out : Text) (value : Nat) : Code Text := do
  let (digits, len) <- decimalLoop 20 (replicate 20 0) 0 value
  pushDigits digits len out

/-- The digits in an array, as `push_decimal` writes them. -/
def digitChars (digits : List UInt8) : Text :=
  digits.reverse.map (fun digit => Char.ofNat digit.toNat)

theorem digitChars_concat (digits : List UInt8) {value : Nat} :
    digitChars (digits ++ [48 + UInt8.ofNat (value % 10)]) =
      (value % 10).digitChar :: digitChars digits := by
  have digit : ∀ rest < 10,
      Char.ofNat (48 + UInt8.ofNat rest).toNat = rest.digitChar := by
    decide
  rw [digitChars, reverse_append, map_append]
  exact congrArg (fun char => char :: _) (digit _ (Nat.mod_lt value (by decide)))

theorem decimalLoop_returns (fuel : Nat) (digits : List UInt8) (len value : Nat)
    (room : digits.length = 20) (left : len + fuel = 20) (some : 0 < fuel)
    (small : value < 10 ^ fuel) :
    Returns (decimalLoop fuel digits len value) (fun (after, stop) =>
      stop <= after.length ∧
        digitChars (after.take stop) = Nat.toDigits 10 value ++ digitChars (digits.take len)) := by
  induction fuel generalizing digits len value with
  | zero => omega
  | succ fuel ih =>
    have written : (digits.set len (48 + UInt8.ofNat (value % 10))).take (len + 1) =
        digits.take len ++ [48 + UInt8.ofNat (value % 10)] := by
      rw [take_add_one, take_set_of_le (Nat.le_refl len), getElem?_set_self]
      · rfl
      · omega
    rw [decimalLoop, store, if_pos (by omega : len < digits.length),
      returns_bind_iff rfl, returns_add_iff]
    refine ⟨by omega, ?_⟩
    split
    next last =>
      refine .pure ⟨?_, ?_⟩
      · rw [length_set]
        omega
      · rw [written, digitChars_concat, Nat.toDigits_eq_if (by decide), if_pos (by omega),
          Nat.mod_eq_of_lt (by omega)]
        rfl
    next more =>
      have rest := Nat.div_lt_of_lt_mul (by rw [Nat.mul_comm, <- Nat.pow_succ]; exact small :
        value < 10 * 10 ^ fuel)
      have next : 0 < fuel := by
        refine Nat.pos_of_ne_zero fun none => ?_
        rw [none, Nat.pow_zero] at rest
        omega
      refine (ih (digits.set len (48 + UInt8.ofNat (value % 10))) (len + 1) (value / 10)
        (by rw [length_set]; exact room) (by omega) next rest).mono ?_
      rintro ⟨after, stop⟩ ⟨inside, spells⟩
      refine ⟨inside, ?_⟩
      rw [spells, written, digitChars_concat, Nat.toDigits_eq_if (n := value) (by decide),
        if_neg (by omega), append_assoc]
      rfl

theorem pushDigits_returns {digits : List UInt8} (len : Nat) (out : Text)
    (inside : len <= digits.length) :
    Returns (pushDigits digits len out) (fun after =>
      after = out ++ digitChars (digits.take len)) := by
  induction len generalizing out with
  | zero => exact .pure (append_nil out).symm
  | succ len ih =>
    rw [pushDigits]
    refine (ensures_index (by omega)).thenReturns fun digit found => ?_
    refine (ih (out ++ [Char.ofNat digit.toNat]) (by omega)).mono fun after spells => ?_
    rw [spells, take_add_one, found, append_assoc, digitChars, digitChars,
      Option.toList_some, reverse_append, map_append]
    rfl

theorem pushDecimal_returns (out : Text) {value : Nat} (small : value < 2 ^ 64) :
    Returns (pushDecimal out value) (fun after => after = out ++ Nat.toDigits 10 value) := by
  rw [pushDecimal]
  refine (decimalLoop_returns 20 (replicate 20 0) 0 value rfl rfl (by decide) (by omega)).bind ?_
  rintro ⟨digits, len⟩ ⟨inside, spells⟩
  refine (pushDigits_returns len out inside).mono fun after same => ?_
  rw [same, spells]
  exact congrArg (fun rest => out ++ rest) (append_nil _)

def findBytes (haystack needle : List UInt8) : Option Nat :=
  if needle.isEmpty ∨ haystack.length < needle.length then none else find needle haystack

variable (response : List UInt8)

def splitHttpResponseBytes :
    Code (Option (List UInt8 × List UInt8 × Text)) :=
  match findBytes response (ascii "\r\n\r\n") with
  | some pos => do
    let headers <- slice response 0 pos
    let start <- add 64 pos 4
    let body <- slice response start response.length
    pure (some (headers, body, "\r\n\r\n".toList))
  | none =>
    match findBytes response (ascii "\n\n") with
    | some pos => do
      let headers <- slice response 0 pos
      let start <- add 64 pos 2
      let body <- slice response start response.length
      pure (some (headers, body, "\n\n".toList))
    | none => pure none

/-- The lines of the header block that have a colon, cut there. -/
def headerFields (block : Text) : List (Text × Text) :=
  ((lines block).drop 1).filterMap (splitOnce [':'])

def headerBlock (response : Text) : Text :=
  match splitOnce "\r\n\r\n".toList response with
  | some (headers, _) => headers
  | none =>
    match splitOnce "\n\n".toList response with
    | some (headers, _) => headers
    | none => response

def httpHeaderValue (response : Text) (name : String) : Option Text :=
  ((headerFields (headerBlock response)).find? (fun (key, _) =>
    eqIgnoreAsciiCase (trim key) name.toList)).map (fun (_, value) => trim value)

def headerContainsToken (value : Text) (token : String) : Bool :=
  (value.splitOn ',').any (fun part => eqIgnoreAsciiCase (trim part) token.toList)

/-- A line of the header that tells how the body is framed. -/
def framesBody (line : Text) : Bool :=
  match splitOnce [':'] line with
  | none => false
  | some (name, _) =>
    let name := trim name
    eqIgnoreAsciiCase name "transfer-encoding".toList ||
      eqIgnoreAsciiCase name "content-length".toList ||
      eqIgnoreAsciiCase name "content-encoding".toList

def headersWithoutBodyFraming (headers : Text) : Text :=
  (lines headers).foldl (fun out line =>
    if framesBody line then out
    else (if out.isEmpty then out else out ++ "\r\n".toList) ++ trimEndMatches '\r' line) []

/-- `decompress_to_vec_with_limit` of the decompressor. -/
abbrev Inflate : Type := List UInt8 -> Nat -> Option Net.Frame

def skipCstringLoop (body : List UInt8) : Nat -> Nat -> Code (Except String Nat)
  | 0, _ => fault .unbounded
  | fuel + 1, pos =>
    if pos < body.length then do
      let byte <- index body pos
      let next <- add 64 pos 1
      if byte = 0 then pure (.ok next) else skipCstringLoop body fuel next
    else pure (.error "bad gzip header")

def skipGzipCstring (body : List UInt8) (pos : Nat) : Code (Except String Nat) :=
  skipCstringLoop body (body.length + 1) pos

def skipGzipExtra (body : List UInt8) (pos : Nat) : Code (Except String Nat) := do
  let data <- add 64 pos 2
  if body.length < data then pure (.error "bad gzip extra")
  else do
    let low <- index body pos
    let second <- add 64 pos 1
    let high <- index body second
    let extraLen <- add 64 2 (low.toNat + 256 * high.toNat)
    let next <- add 64 pos extraLen
    pure (.ok next)

/-- A part of the header that is there if a flag is set. -/
def whenFlag (flags mask : UInt8) (pos : Nat) (skip : Nat -> Code (Except String Nat)) :
    Code (Except String Nat) :=
  if flags &&& mask ≠ 0 then skip pos else pure (.ok pos)

def decodeGzipBody (inflate : Inflate) (body : List UInt8) : Code (Except String (List UInt8)) :=
  if body.length < 18 then pure (.error "bad gzip response")
  else do
    let first <- index body 0
    let second <- index body 1
    let third <- index body 2
    if first ≠ 0x1f ∨ second ≠ 0x8b ∨ third ≠ 8 then pure (.error "bad gzip response")
    else do
      let flags <- index body 3
      attempt (whenFlag flags 0x04 10 (skipGzipExtra body)) fun pos =>
      attempt (whenFlag flags 0x08 pos (skipGzipCstring body)) fun pos =>
      attempt (whenFlag flags 0x10 pos (skipGzipCstring body)) fun pos =>
      attempt (whenFlag flags 0x02 pos (fun pos =>
        pure (if pos + 2 < 2 ^ 64 then .ok (pos + 2) else .error "bad gzip header"))) fun pos =>
      if body.length - 8 <= pos then pure (.error "bad gzip payload")
      else do
        let compressed <- slice body pos (body.length - 8)
        pure (match inflate compressed httpMaxBytes with
          | some data => .ok data.val
          | none => .error "gzip decode failed")

structure NormalizedHttpResponse where
  text : Text
  bodyBytes : List UInt8
  deriving DecidableEq

def transferChunked (headers : Text) : Bool :=
  (httpHeaderValue headers "transfer-encoding").any (fun value =>
    headerContainsToken value "chunked")

/-- Cut the body at the length the header gives, if there are as many bytes. -/
def truncateBody (headers : Text) (body : List UInt8) : List UInt8 :=
  match (httpHeaderValue headers "content-length").bind (fun value =>
      parseUnsigned 64 (trim value)) with
  | some length => if length <= body.length then body.take length else body
  | none => body

/-- What follows the decoding of the chunks: the body is cut and decompressed, and the
response is written anew around it. -/
def assembleResponse (inflate : Inflate) (headersText sep : Text) (decoded : List UInt8) :
    Code (Except String NormalizedHttpResponse) :=
  let decoded := truncateBody headersText decoded
  let decodedGzip := (httpHeaderValue headersText "content-encoding").any (fun value =>
    headerContainsToken value "gzip")
  attempt (if decodedGzip then decodeGzipBody inflate decoded
    else pure (.ok decoded)) fun bodyBytes => do
  let kept := headersWithoutBodyFraming headersText
  let kept := if decodedGzip then
      kept ++ ("\r\nContent-Encoding: identity" ++ "\r\nX-coolOS-Decoded-Encoding: gzip").toList
    else kept
  let out <- pushDecimal (kept ++ "\r\nContent-Length: ".toList) bodyBytes.length
  pure (.ok ⟨out ++ sep ++ fromUtf8Lossy bodyBytes, bodyBytes⟩)

def normalizeHttpResponseBytes (inflate : Inflate) (response : List UInt8) :
    Code (Except String NormalizedHttpResponse) := do
  match <- splitHttpResponseBytes response with
  | none => pure (.ok ⟨fromUtf8Lossy response, response⟩)
  | some (headers, body, sep) =>
    let headersText := fromUtf8Lossy headers
    attempt (if transferChunked headersText then decodeChunkedBodyBytes body
      else pure (.ok body)) (assembleResponse inflate headersText sep)

variable (headers : List UInt8)

namespace Tls

def httpHeaderEnd : Option (Nat × Nat) :=
  match findBytes response (ascii "\r\n\r\n") with
  | some pos => some (pos, 4)
  | none => (findBytes response (ascii "\n\n")).map (fun pos => (pos, 2))

def httpStatusHasNoBody : Bool :=
  match (fromUtf8 headers).bind (fun headers =>
      (lines headers).head?.bind (fun line =>
        (splitWhitespace line)[1]?.bind (parseUnsigned 16))) with
  | none => false
  | some status => (100 <= status && status < 200) || status == 204 || status == 304

def httpHeaderValue (name : String) : Option Text :=
  (fromUtf8 headers).bind (fun headers =>
    ((headerFields headers).find? (fun (key, _) =>
      eqIgnoreAsciiCase (trim key) name.toList)).map Prod.snd)

def httpContentLength : Option Nat :=
  (httpHeaderValue headers "content-length").bind (fun value =>
    parseUnsigned 64 (trim value))

def httpTransferChunked : Bool :=
  (httpHeaderValue headers "transfer-encoding").any (fun value =>
    headerContainsToken value "chunked")

def httpResponseComplete : Code Bool :=
  match httpHeaderEnd response with
  | none => pure false
  | some (headersLen, sepLen) => do
    let headers <- slice response 0 headersLen
    let start <- add 64 headersLen sepLen
    let body <- slice response start response.length
    if httpStatusHasNoBody headers then pure true
    else
      match httpContentLength headers with
      | some length => pure (decide (length <= body.length))
      | none => if httpTransferChunked headers then chunkedBodyComplete body else pure false

end Tls

/-!
## Decoding responses

The header of a compressed body is skipped inside the body whatever its flags say, so
a response makes the decoder fault by the sizes of its chunks alone.
-/

variable (inflate : Inflate)

variable {body response : List UInt8} {pos : Nat}

theorem skipCstringLoop_returns (small : body.length < 2 ^ 63) (fuel pos : Nat)
    (enough : body.length < fuel + pos) (some : 0 < fuel) :
    Returns (skipCstringLoop body fuel pos) (fun result =>
      ∀ next, result = .ok next -> next <= body.length) := by
  induction fuel generalizing pos with
  | zero => omega
  | succ fuel ih =>
    rw [skipCstringLoop]
    split
    · refine (ensures_index (by omega)).thenReturns fun byte _ => ?_
      refine (ensures_add (by omega)).thenReturns fun next sum => ?_
      rw [sum]
      split
      · refine .pure ?_
        rintro _ same
        cases same
        omega
      · exact ih (pos + 1) (by omega) (by omega)
    · exact .pure nofun

theorem skipGzipExtra_returns (small : body.length < 2 ^ 63) (inside : pos <= body.length) :
    Returns (skipGzipExtra body pos) (fun _ => True) := by
  rw [skipGzipExtra]
  refine (ensures_add (by omega)).thenReturns fun data sum => ?_
  split
  · exact .pure trivial
  · refine (ensures_index (by omega)).thenReturns fun low _ => ?_
    refine (ensures_add (by omega)).thenReturns fun second after => ?_
    refine (ensures_index (by omega)).thenReturns fun high _ => ?_
    have lowSmall := low.toNat_lt
    have highSmall := high.toNat_lt
    refine (ensures_add (by omega)).thenReturns fun extra total => ?_
    exact (ensures_add (by omega)).thenReturns fun next _ => .pure trivial

theorem whenFlag_returns {flags mask : UInt8} {skip : Nat -> Code (Except String Nat)}
    (skips : Returns (skip pos) (fun _ => True)) :
    Returns (whenFlag flags mask pos skip) (fun result =>
      ∀ next, result = .ok next -> True) := by
  rw [whenFlag]
  split
  · exact skips.mono fun _ _ _ _ => trivial
  · exact .pure fun _ _ => trivial

theorem decodeGzipBody_returns (small : body.length < 2 ^ 63) :
    Returns (decodeGzipBody inflate body) (fun result =>
      ∀ data, result = .ok data -> data.length < 2 ^ 64) := by
  have skips (pos : Nat) : Returns (skipGzipCstring body pos) (fun _ => True) :=
    (skipCstringLoop_returns small _ pos (by omega) (by omega)).mono fun _ _ => trivial
  rw [decodeGzipBody]
  split
  · exact .pure nofun
  · refine (ensures_index (by omega)).thenReturns fun first _ => ?_
    refine (ensures_index (by omega)).thenReturns fun second _ => ?_
    refine (ensures_index (by omega)).thenReturns fun third _ => ?_
    split
    · exact .pure nofun
    · refine (ensures_index (by omega)).thenReturns fun flags _ => ?_
      refine (whenFlag_returns (skipGzipExtra_returns small (by omega))).attempt nofun
        fun extra _ => ?_
      refine (whenFlag_returns (skips extra)).attempt nofun fun name _ => ?_
      refine (whenFlag_returns (skips name)).attempt nofun fun comment _ => ?_
      refine (whenFlag_returns (.pure trivial)).attempt nofun fun pos _ => ?_
      split
      · exact .pure nofun
      · refine (ensures_slice (by omega) (by omega)).thenReturns fun compressed _ => .pure ?_
        split
        next data _ =>
          rintro _ same
          cases same
          have bounded := data.property
          omega
        next => nofun

theorem findBytes_fits {haystack needle : List UInt8} (found : findBytes haystack needle = some pos)
    : pos + needle.length <= haystack.length := by
  rw [findBytes] at found
  split at found
  · cases found
  · exact Text.find_fits found

/-- The body that follows a gap is part of the response. -/
theorem cut_returns {gap : Nat} (small : response.length < 2 ^ 63)
    (fits : pos + gap <= response.length) (sep : Text) :
    Returns (do
      let headers <- slice response 0 pos
      let start <- add 64 pos gap
      let body <- slice response start response.length
      pure (some (headers, body, sep))) (fun result =>
        ∀ parts, result = some parts -> parts.2.1.length <= response.length) := by
  refine (ensures_slice (Nat.zero_le _) (by omega)).thenReturns fun headers _ => ?_
  refine (ensures_add (by omega)).thenReturns fun start sum => ?_
  refine (ensures_slice (by omega) (Nat.le_refl _)).thenReturns fun body cut => .pure ?_
  rintro _ same
  cases same
  dsimp only
  omega

theorem splitHttpResponseBytes_returns (small : response.length < 2 ^ 63) :
    Returns (splitHttpResponseBytes response) (fun result =>
      ∀ parts, result = some parts -> parts.2.1.length <= response.length) := by
  rw [splitHttpResponseBytes]
  split
  next pos found => exact cut_returns small (findBytes_fits found) _
  next =>
    split
    next pos found => exact cut_returns small (findBytes_fits found) _
    next => exact .pure nofun

theorem truncateBody_length (headers : Text) (body : List UInt8) :
    (truncateBody headers body).length <= body.length := by
  rw [truncateBody]
  split
  · split
    · exact List.length_take_le' _ body
    · exact Nat.le_refl _
  · exact Nat.le_refl _

theorem assembleResponse_returns (headersText sep : Text)
    {decoded : List UInt8} (small : decoded.length < 2 ^ 63) :
    Returns (assembleResponse inflate headersText sep decoded) (fun _ => True) := by
  have shorter := truncateBody_length headersText decoded
  have unzips : Returns (if (httpHeaderValue headersText "content-encoding").any (fun value =>
        headerContainsToken value "gzip") = true
      then decodeGzipBody inflate (truncateBody headersText decoded)
      else pure (.ok (truncateBody headersText decoded)))
      (fun result => ∀ data, result = .ok data -> data.length < 2 ^ 64) := by
    split
    · exact decodeGzipBody_returns inflate (by omega)
    · refine .pure ?_
      rintro _ same
      cases same
      omega
  refine unzips.attempt (fun _ => trivial) fun bodyBytes fits => ?_
  exact (pushDecimal_returns _ fits).bind fun out _ => .pure trivial

/-- The chunks that the decoder comes to in a response. -/
def responseChunks (response : List UInt8) : List (Nat × Nat) :=
  match (splitHttpResponseBytes response).value? with
  | some (some (headers, body, _)) =>
    if transferChunked (Text.fromUtf8Lossy headers) then
      decodedChunks body (body.length + 1) 0 0
    else []
  | _ => []

theorem normalizeHttpResponseBytes_returns_iff (small : response.length < 2 ^ 63) :
    Returns (normalizeHttpResponseBytes inflate response) (fun _ => True) <->
      ∀ chunk ∈ responseChunks response, Fits chunk := by
  rcases returns_iff.mp (splitHttpResponseBytes_returns small) with ⟨result, gives, bounds⟩
  rw [normalizeHttpResponseBytes, returns_bind_iff gives, responseChunks, gives]
  rcases result with _ | ⟨headers, body, sep⟩
  · exact iff_of_true (.pure trivial) nofun
  have shorter : body.length <= response.length := bounds _ rfl
  have assembles (decoded : List UInt8) (fits : decoded.length < 2 ^ 63) :=
    assembleResponse_returns inflate (Text.fromUtf8Lossy headers) sep fits
  dsimp only
  by_cases chunked : transferChunked (Text.fromUtf8Lossy headers) = true
  · rw [if_pos chunked, if_pos chunked]
    have decodes {holds : Except String (List UInt8) -> Prop} := @decodeLoop_returns_iff body
      (by omega) holds
    constructor
    · intro returns
      rcases returns_of_bind returns with ⟨result, gives, _⟩
      exact (@decodes (fun _ => True) (fun _ => trivial) (fun _ _ => trivial) _ [] 0
        (Nat.zero_le _) (Nat.zero_le _) (by omega)).mp (returns_iff.mpr ⟨result, gives, trivial⟩)
    · intro fits
      have decoded := (@decodes (fun result =>
          ∀ decoded, result = .ok decoded -> decoded.length < 2 ^ 63)
        nofun (fun decoded short _ same => by
          cases same
          exact Nat.lt_of_le_of_lt short (by decide)) _ [] 0 (Nat.zero_le _)
        (Nat.zero_le _) (by omega)).mpr fits
      exact decoded.attempt (fun _ => trivial) assembles
  · rw [if_neg chunked, if_neg chunked, returns_attempt_iff rfl]
    exact iff_of_true (assembles body (by omega)) nofun

namespace Tls

/-- The chunks that are looked for in a response. -/
def responseChunks (response : List UInt8) : List (Nat × Nat) :=
  match httpHeaderEnd response with
  | none => []
  | some (headersLen, sepLen) =>
    let headers := response.take headersLen
    let body := response.drop (headersLen + sepLen)
    if httpStatusHasNoBody headers = false ∧ httpContentLength headers = none ∧
        httpTransferChunked headers = true then
      awaitedChunks body (body.length + 1) 0
    else []

theorem httpHeaderEnd_fits {headersLen sepLen : Nat}
    (found : httpHeaderEnd response = some (headersLen, sepLen)) :
    headersLen + sepLen <= response.length := by
  rw [httpHeaderEnd] at found
  split at found
  next pos here =>
    cases found
    exact findBytes_fits here
  next =>
    rcases Option.map_eq_some_iff.mp found with ⟨pos, here, same⟩
    cases same
    exact findBytes_fits here

theorem httpResponseComplete_returns_iff (small : response.length < 2 ^ 63) :
    Returns (httpResponseComplete response) (fun _ => True) <->
      ∀ chunk ∈ responseChunks response, ¬ Wraps chunk := by
  rw [httpResponseComplete, responseChunks]
  cases found : httpHeaderEnd response with
  | none => exact iff_of_true (.pure trivial) nofun
  | some ends =>
    rcases ends with ⟨headersLen, sepLen⟩
    have fits := httpHeaderEnd_fits found
    dsimp only
    rw [returns_bind_iff (value?_slice (Nat.zero_le _) (by omega)), returns_add_iff,
      and_iff_right (by omega), returns_bind_iff (value?_slice (by omega) (Nat.le_refl _)),
      List.drop_zero, List.take_length]
    generalize response.take headersLen = headers
    cases httpStatusHasNoBody headers with
    | true => exact iff_of_true (.pure trivial) (by simp)
    | false =>
      cases httpContentLength headers with
      | some length => exact iff_of_true (.pure trivial) (by simp)
      | none =>
        cases httpTransferChunked headers with
        | false => exact iff_of_true (.pure trivial) (by simp)
        | true =>
          rw [if_neg Bool.false_ne_true, if_pos rfl, if_pos ⟨rfl, rfl, rfl⟩]
          have rest : (response.drop (headersLen + sepLen)).length < 2 ^ 63 := by
            rw [List.length_drop]
            omega
          exact completeLoop_returns_iff rest _ 0 (Nat.zero_le _) (Nat.lt_succ_self _)

end Tls

/-- Decoding a response, and testing whether it is complete, does not fault unless a
chunk's size takes the walker past the last position the machine has. -/
theorem decoding_returns_iff (inflate : Inflate) (response : Net.Frame) :
    (Returns (normalizeHttpResponseBytes inflate response.val) (fun _ => True) ∧
      Returns (Tls.httpResponseComplete response.val) (fun _ => True)) <->
    (∀ chunk ∈ responseChunks response.val, Fits chunk) ∧
      (∀ chunk ∈ Tls.responseChunks response.val, ¬ Tls.Wraps chunk) :=
  and_congr (normalizeHttpResponseBytes_returns_iff inflate response.property)
    (Tls.httpResponseComplete_returns_iff response.property)

/-- A chunked response with one size line. -/
def oneChunk (size : String) : List UInt8 :=
  ascii ("HTTP/1.1 200 OK\r\nTransfer-Encoding: chunked\r\n\r\n" ++ size ++ "\r\n")

/-- The data of the first chunk ends behind the last position, that of the second at it. -/
theorem large_chunks_fault :
    ¬ Returns (normalizeHttpResponseBytes (fun _ _ => none) (oneChunk "ffffffffffffffff"))
      (fun _ => True) ∧
    ¬ Returns (Tls.httpResponseComplete (oneChunk "ffffffffffffffed")) (fun _ => True) := by
  have faults {Value : Type} {code : Code Value} (none : code.value? = none) :
      ¬ Returns code (fun _ => True) := by
    rw [returns_iff]
    rintro ⟨value, same, _⟩
    cases none.symm.trans same
  exact ⟨faults (by decide), faults (by decide)⟩

end CoolOs.Web
