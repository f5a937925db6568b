import CoolOs.Http1.Requests
import CoolOs.Web.Response

namespace CoolOs.Web

open Checked Checked.Code Text List
open Http1 (Field valuesOf parseRequest isFieldValue isTarget)

/-!
# Requests

`build_http_request`, the URLs and locations that hosts and paths come from, and the
request that `http_request_response_follow` sends first and after each redirect.
-/

@[simp] abbrev httpMaxRequestBody : Nat := 64 * 1024
inductive HttpRequestMethod where
  | get
  | post
  deriving DecidableEq

def HttpRequestMethod.asStr : HttpRequestMethod -> String
  | get => "GET"
  | post => "POST"

def refusesCookie (cookie : Text) : Bool :=
  decide (4096 < len cookie) ||
    (encode cookie).any (fun byte => byte == carriageReturn || byte == lineFeed)

def defaultContentType : Text := "application/x-www-form-urlencoded".toList

/-- The request line and the fields that every request has. -/
def requestOpening (method : HttpRequestMethod) (host path : Text) : Text :=
  method.asStr.toList ++ ' ' :: path ++ " HTTP/1.1\r\nHost: ".toList ++ host ++
    ("\r\nUser-Agent: coolOS/19\r\nAccept: text/html,text/plain,image/*,*/*" ++
      "\r\nAccept-Encoding: gzip, identity\r\nConnection: close").toList

/-- The fields of a request that has a body. -/
def pushBodyFields (request : Text) (body : List UInt8) (contentType : Option Text) :
    HttpRequestMethod -> Code Text
  | .get => pure request
  | .post => pushDecimal (request ++ "\r\nContent-Type: ".toList ++
      contentType.getD defaultContentType ++ "\r\nContent-Length: ".toList) body.length

def pushCookie (request : Text) : Option Text -> Text
  | none => request
  | some cookie =>
    if (trim cookie).isEmpty then request
    else request ++ "\r\nCookie: ".toList ++ trim cookie

def buildHttpRequest (method : HttpRequestMethod) (host path : Text) (body : List UInt8)
    (contentType cookieHeader : Option Text) : Code (Except String Text) :=
  if method = .get ∧ body ≠ [] then pure (.error "GET request body unsupported")
  else if httpMaxRequestBody < body.length then pure (.error "HTTP request body too large")
  else if cookieHeader.any refusesCookie then pure (.error "invalid Cookie header")
  else do
    let request <- pushBodyFields (requestOpening method host path) body contentType method
    let request := pushCookie request cookieHeader ++ "\r\n\r\n".toList
    pure (.ok (if body.isEmpty then request else request ++ fromUtf8Lossy body))

def splitWebHostPath (scheme rest : Text) : Except String (Text × Text) :=
  let host := trim (rest.takeWhile (fun char => char != '/'))
  let after := rest.dropWhile (fun char => char != '/')
  let path := if after.isEmpty then ['/'] else after
  if host.isEmpty || decide (253 < len host) || host.contains ' ' then
    .error "invalid redirect host"
  else
    match rsplitOnce ':' host with
    | some (name, port) =>
      let expectedPort := if scheme = "https".toList then "443" else "80"
      if port ≠ expectedPort.toList then .error "web redirect port unsupported"
      else if name.isEmpty then .error "invalid redirect host"
      else .ok (name, path)
    | none => .ok (host, path)

/-- A host and a path under a scheme. -/
def withScheme (scheme rest : Text) : Except String (Text × Text × Text) :=
  (splitWebHostPath scheme rest).map (fun (host, path) => (scheme, host, path))

def parseWebUrl (url : Text) : Except String (Text × Text × Text) :=
  match stripPrefix "http://".toList (trim url) with
  | some rest => withScheme "http".toList rest
  | none =>
    match stripPrefix "https://".toList (trim url) with
    | some rest => withScheme "https".toList rest
    | none => .error "URL must start with http:// or https://"

/-!
## The text of a request

The builder's text is one request written field by field, and the reader of HTTP/1.1
gives these fields back if their values have no control bytes.
-/

variable {method : HttpRequestMethod} {host path : Text} {body : List UInt8}
  {contentType cookieHeader : Option Text}

/-- The fields that are the same in every request. -/
def fixedFields : List Field :=
  [⟨ascii "User-Agent", ascii "coolOS/19"⟩,
    ⟨ascii "Accept", ascii "text/html,text/plain,image/*,*/*"⟩,
    ⟨ascii "Accept-Encoding", ascii "gzip, identity"⟩, ⟨ascii "Connection", ascii "close"⟩]

def standingFields (host : Text) : List Field := ⟨ascii "Host", encode host⟩ :: fixedFields

/-- The fields of a request with a body. -/
def bodyFields (body : List UInt8) (contentType : Option Text) : HttpRequestMethod -> List Field
  | .get => []
  | .post => [⟨ascii "Content-Type", encode (contentType.getD defaultContentType)⟩,
      ⟨ascii "Content-Length", encode (Nat.toDigits 10 body.length)⟩]

def cookieFields : Option Text -> List Field
  | none => []
  | some cookie =>
    if (trim cookie).isEmpty then [] else [⟨ascii "Cookie", encode (trim cookie)⟩]

def writtenFields (method : HttpRequestMethod) (host : Text) (body : List UInt8)
    (contentType cookieHeader : Option Text) : List Field :=
  standingFields host ++ (bodyFields body contentType method ++ cookieFields cookieHeader)

theorem buildHttpRequest_text {text : Text}
    (built : (buildHttpRequest method host path body contentType cookieHeader).value? =
      some (.ok text)) :
    (method = .get -> body = []) ∧ ∃ request,
      (pushBodyFields (requestOpening method host path) body contentType method).value? =
        some request ∧ body.length < 2 ^ 64 ∧
      text = pushCookie request cookieHeader ++ "\r\n\r\n".toList ++ fromUtf8Lossy body := by
  rw [buildHttpRequest] at built
  split at built
  · cases built
  next bodiless =>
    split at built
    · cases built
    next small =>
      split at built
      · cases built
      · rw [value?_bind] at built
        rcases Option.bind_eq_some_iff.mp built with ⟨request, gives, same⟩
        cases same
        refine ⟨fun get => Decidable.not_not.mp fun some => bodiless ⟨get, some⟩,
          request, gives, ?_, ?_⟩
        · simp only [httpMaxRequestBody] at small
          omega
        · cases body with
          | nil => exact (append_nil _).symm
          | cons byte rest => rfl

/-- Fields with the end of a line before each, as the builder writes them. -/
def fieldLines (fields : List Field) : List UInt8 :=
  fields.flatMap (fun field => 13 :: 10 :: field.line)

theorem encode_requestOpening : encode (requestOpening method host path) =
      Http1.requestLine (ascii method.asStr) (encode path) ++ fieldLines (standingFields host) := by
  have first : encode " HTTP/1.1\r\nHost: ".toList =
      32 :: ascii "HTTP/1.1" ++ 13 :: 10 :: ascii "Host" ++ [58, 32] := by decide
  have rest : encode ("\r\nUser-Agent: coolOS/19\r\nAccept: text/html,text/plain,image/*,*/*" ++
      "\r\nAccept-Encoding: gzip, identity\r\nConnection: close").toList =
      fieldLines fixedFields := by decide +kernel
  have spaced : encode (' ' :: path) = 32 :: encode path := rfl
  rw [requestOpening, encode_append, encode_append, encode_append,
    encode_append, first, rest, spaced]
  simp only [Http1.requestLine, fieldLines, standingFields, Field.line, ascii, flatMap_cons,
    append_assoc, cons_append, nil_append]

theorem encode_pushBodyFields {opening request : Text} (small : body.length < 2 ^ 64)
    (gives : (pushBodyFields opening body contentType method).value? = some request) :
    encode request = encode opening ++ fieldLines (bodyFields body contentType method) := by
  cases method with
  | get =>
    cases gives
    exact (append_nil _).symm
  | post =>
    have typed : encode "\r\nContent-Type: ".toList =
        13 :: 10 :: ascii "Content-Type" ++ [58, 32] := by decide
    have counted : encode "\r\nContent-Length: ".toList =
        13 :: 10 :: ascii "Content-Length" ++ [58, 32] := by decide
    rcases returns_iff.mp (pushDecimal_returns (opening ++ "\r\nContent-Type: ".toList ++
      contentType.getD defaultContentType ++ "\r\nContent-Length: ".toList) small)
      with ⟨after, same, spells⟩
    rw [pushBodyFields, same] at gives
    cases gives
    rw [spells, encode_append, encode_append, encode_append, encode_append, typed, counted]
    simp only [fieldLines, bodyFields, Field.line, flatMap_cons, flatMap_nil,
      append_assoc, cons_append, nil_append, append_nil]

theorem encode_pushCookie (request : Text) : encode (pushCookie request cookieHeader) =
      encode request ++ fieldLines (cookieFields cookieHeader) := by
  cases cookieHeader with
  | none => exact (append_nil _).symm
  | some cookie =>
    have named : encode "\r\nCookie: ".toList = 13 :: 10 :: ascii "Cookie" ++ [58, 32] := by decide
    rw [pushCookie, cookieFields]
    split
    · exact (append_nil _).symm
    · rw [encode_append, encode_append, named]
      simp only [fieldLines, Field.line, flatMap_cons, flatMap_nil,
        append_assoc, cons_append, nil_append, append_nil]

/-- The builder writes one request with these fields. -/
theorem buildHttpRequest_wire {text : Text}
    (built : (buildHttpRequest method host path body contentType cookieHeader).value? =
      some (.ok text)) : encode text = Http1.wire (ascii method.asStr) (encode path)
      (writtenFields method host body contentType cookieHeader) (encode (fromUtf8Lossy body)) := by
  rcases buildHttpRequest_text built with ⟨_, request, gives, small, rfl⟩
  have ending : encode "\r\n\r\n".toList = [13, 10, 13, 10] := by decide
  rw [encode_append, encode_append, ending, encode_pushCookie,
    encode_pushBodyFields small gives, encode_requestOpening, Http1.wire_eq, writtenFields,
    flatMap_append, flatMap_append]
  simp only [fieldLines, append_assoc]

/-- The types that were supplied: a request without a body has none. -/
def suppliedTypes (contentType : Option Text) : HttpRequestMethod -> List (List UInt8)
  | .get => []
  | .post => [encode (contentType.getD defaultContentType)]

def suppliedLengths (body : List UInt8) : HttpRequestMethod -> List (List UInt8)
  | .get => []
  | .post => [encode (Nat.toDigits 10 body.length)]

variable {name : List UInt8} {text : Text}

theorem valuesOf_fixedFields (listed : name ∈ ["host", "content-type", "content-length", "cookie",
      "transfer-encoding"].map ascii) : valuesOf name fixedFields = [] := by
  revert name
  decide

theorem valuesOf_bodyFields (other : name ∈ ["host", "cookie", "transfer-encoding"].map ascii) :
    valuesOf name (bodyFields body contentType method) = [] := by
  have names : ∀ name ∈ ["host", "cookie", "transfer-encoding"].map ascii,
      ((ascii "Content-Type").map Http1.lower == name) = false ∧
        ((ascii "Content-Length").map Http1.lower == name) = false := by decide
  cases method with
  | get => rfl
  | post =>
    rw [bodyFields, Http1.valuesOf_cons_other (names name other).1,
      Http1.valuesOf_cons_other (names name other).2]
    rfl

theorem valuesOf_cookieFields
    (other : name ∈ ["host", "content-type", "content-length", "transfer-encoding"].map ascii) :
    valuesOf name (cookieFields cookieHeader) = [] := by
  have named : ∀ name, name ∈ ["host", "content-type", "content-length",
      "transfer-encoding"].map ascii -> ((ascii "Cookie").map Http1.lower == name) = false := by
    decide
  cases cookieHeader with
  | none => rfl
  | some cookie =>
    rw [cookieFields]
    split
    · rfl
    · rw [Http1.valuesOf_cons_other (named name other)]
      rfl

theorem valuesOf_standingFields (other : name ∈ ["content-type", "content-length", "cookie",
      "transfer-encoding"].map ascii) : valuesOf name (standingFields host) = [] := by
  have named : ∀ name, name ∈ ["content-type", "content-length", "cookie",
      "transfer-encoding"].map ascii -> ((ascii "Host").map Http1.lower == name) = false := by
    decide
  rw [standingFields, Http1.valuesOf_cons_other (named name other),
    valuesOf_fixedFields (mem_cons_of_mem _ other)]

/-- The values that the builder writes. -/
theorem valuesOf_writtenFields (method : HttpRequestMethod) (host : Text) (body : List UInt8)
    (contentType cookieHeader : Option Text) :
    let fields := writtenFields method host body contentType cookieHeader
    valuesOf (ascii "host") fields = [encode host] ∧
      valuesOf (ascii "content-type") fields = suppliedTypes contentType method ∧
      valuesOf (ascii "content-length") fields = suppliedLengths body method ∧
      valuesOf (ascii "cookie") fields = (cookieFields cookieHeader).map Field.value ∧
      valuesOf (ascii "transfer-encoding") fields = [] := by
  simp only [writtenFields, Http1.valuesOf_append]
  refine ⟨?_, ?_, ?_, ?_, ?_⟩
  · rw [standingFields, Http1.valuesOf_cons_same (by decide), valuesOf_fixedFields,
      valuesOf_bodyFields, valuesOf_cookieFields]
    · rfl
    all_goals exact mem_cons_self
  · rw [valuesOf_standingFields, valuesOf_cookieFields, append_nil]
    · cases method with
      | get => rfl
      | post =>
        rw [bodyFields, Http1.valuesOf_cons_same (by decide), Http1.valuesOf_cons_other (by decide)]
        rfl
    all_goals decide
  · rw [valuesOf_standingFields, valuesOf_cookieFields, append_nil]
    · cases method with
      | get => rfl
      | post =>
        rw [bodyFields, Http1.valuesOf_cons_other (by decide), Http1.valuesOf_cons_same (by decide)]
        rfl
    all_goals decide
  · rw [valuesOf_standingFields, valuesOf_bodyFields]
    · cases cookieHeader with
      | none => rfl
      | some cookie =>
        rw [cookieFields]
        split
        · rfl
        · rw [Http1.valuesOf_cons_same (by decide)]
          rfl
    all_goals decide
  · rw [valuesOf_standingFields, valuesOf_bodyFields, valuesOf_cookieFields]
    · rfl
    all_goals decide

/-- The values of the fields that are not fixed have no control bytes. -/
structure Unbroken (method : HttpRequestMethod) (host : Text)
    (contentType cookieHeader : Option Text) : Prop where
  host : (encode host).all Http1.isFieldByte = true
  contentType : method = .post ->
    (encode (contentType.getD defaultContentType)).all Http1.isFieldByte = true
  cookie : forall cookie, cookieHeader = some cookie -> (trim cookie).isEmpty = false ->
    (encode (trim cookie)).all Http1.isFieldByte = true

theorem Unbroken.isClean (unbroken : Unbroken method host contentType cookieHeader) :
    ∀ field ∈ writtenFields method host body contentType cookieHeader, field.isClean = true := by
  have fixed : ∀ field ∈ fixedFields, field.isClean = true := by decide
  have named : ∀ name ∈ ["Host", "Content-Type", "Content-Length", "Cookie"],
      Http1.isToken (ascii name) = true := by decide
  have token (name : String) (bytes : List UInt8)
      (listed : name ∈ ["Host", "Content-Type", "Content-Length", "Cookie"])
      (valid : bytes.all Http1.isFieldByte = true) :
      Field.isClean ⟨ascii name, bytes⟩ = true :=
    Bool.and_eq_true_iff.mpr ⟨named name listed, valid⟩
  intro field listed
  rcases mem_append.mp listed with standing | rest
  · rcases mem_cons.mp standing with rfl | listed
    · exact token "Host" _ (by decide) unbroken.host
    · exact fixed field listed
  · rcases mem_append.mp rest with framing | cookies
    · cases method with
      | get => cases framing
      | post =>
        rcases mem_cons.mp framing with rfl | framing
        · exact token "Content-Type" _ (by decide) (unbroken.contentType rfl)
        · cases mem_singleton.mp framing
          refine token "Content-Length" _ (by decide) ?_
          exact (Bool.and_eq_true_iff.mp (Http1.isFieldValue_of_visible
            (Http1.encode_digits Http1.isDigit_toDigits).2)).1
    · cases cookieHeader with
      | none => cases cookies
      | some cookie =>
        rw [cookieFields] at cookies
        split at cookies
        · cases cookies
        next some =>
          cases mem_singleton.mp cookies
          exact token "Cookie" _ (by decide)
            (unbroken.cookie cookie rfl (Bool.eq_false_iff.mpr some))

theorem bodyLength_writtenFields (bodiless : method = .get -> body = []) :
    Http1.bodyLength ((writtenFields method host body contentType cookieHeader).map
      Field.stripped) = some body.length := by
  rcases valuesOf_writtenFields method host body contentType cookieHeader with
    ⟨_, _, lengths, _, codings⟩
  rw [Http1.bodyLength, Http1.valuesOf_stripped, codings, map_nil, if_pos rfl,
    Http1.valuesOf_stripped, lengths]
  cases method with
  | get =>
    rw [bodiless rfl]
    rfl
  | post =>
    have kept := beq_iff_eq.mp (Bool.and_eq_true_iff.mp (Http1.isFieldValue_of_visible
      (Http1.encode_digits (@Http1.isDigit_toDigits body.length)).2)).2
    rw [suppliedLengths, map_singleton, kept]
    exact Http1.parseDecimal_toDigits body.length

/-- What the reader gives for the text of a request whose fields are unbroken. -/
theorem parseRequest_built
    (built : (buildHttpRequest method host path body contentType cookieHeader).value? = some (.ok text))
    (target : isTarget (encode path) = true)
    (unbroken : Unbroken method host contentType cookieHeader) :
    parseRequest (encode text) =
      let written := encode (fromUtf8Lossy body)
      if written.length < body.length then none
      else some (⟨ascii method.asStr, encode path,
        (writtenFields method host body contentType cookieHeader).map .stripped,
        written.take body.length⟩, written.drop body.length) := by
  have token : Http1.isToken (ascii method.asStr) = true := by cases method <;> decide
  rw [buildHttpRequest_wire built, Http1.parseRequest_wire token target unbroken.isClean,
    Http1.parseBody, bodyLength_writtenFields (buildHttpRequest_text built).1]

/-!
## Requests that say what was supplied

A request carries what was supplied if a reader of its text finds exactly one request
and in it the method, the path and the values.  This comes down to what bytes the
supplied strings have: the builder looks for line ends in the cookie only.
-/

/-- The cookies that were supplied: a blank one counts as none. -/
def suppliedCookies : Option Text -> List (List UInt8)
  | none => []
  | some cookie => if (trim cookie).isEmpty then [] else [encode cookie]

/-- The request has the method, the target and the values that were supplied. -/
structure Carries (method : HttpRequestMethod) (host path : Text) (body : List UInt8)
    (contentType cookieHeader : Option Text) (request : Http1.Request) : Prop where
  methodSame : request.method = ascii method.asStr
  targetSame : request.target = encode path
  hosts : valuesOf (ascii "host") request.fields = [encode host]
  types : valuesOf (ascii "content-type") request.fields = suppliedTypes contentType method
  lengths : valuesOf (ascii "content-length") request.fields = suppliedLengths body method
  cookies : valuesOf (ascii "cookie") request.fields = suppliedCookies cookieHeader

/-- No control bytes, and no blanks where they would be taken for the end of a part; and
a body that is written with as many bytes as it has. -/
structure Clean (method : HttpRequestMethod) (host path : Text) (body : List UInt8)
    (contentType cookieHeader : Option Text) : Prop where
  path : isTarget (encode path) = true
  host : isFieldValue (encode host) = true
  contentType : method = .post -> isFieldValue (encode (contentType.getD defaultContentType)) = true
  cookie : forall cookie, cookieHeader = some cookie -> (trim cookie).isEmpty = false ->
    trim cookie = cookie ∧ isFieldValue (encode cookie) = true
  body : (encode (fromUtf8Lossy body)).length = body.length

theorem strip_of_isFieldValue {bytes : List UInt8} (valid : isFieldValue bytes = true) :
    strip Http1.isBlank bytes = bytes := beq_iff_eq.mp (Bool.and_eq_true_iff.mp valid).2

theorem all_of_isFieldValue {bytes : List UInt8} (valid : isFieldValue bytes = true) :
    bytes.all Http1.isFieldByte = true := (Bool.and_eq_true_iff.mp valid).1

theorem Clean.unbroken (clean : Clean method host path body contentType cookieHeader) :
    Unbroken method host contentType cookieHeader where
  host := all_of_isFieldValue clean.host
  contentType := fun post => all_of_isFieldValue (clean.contentType post)
  cookie := by
    intro cookie same some
    rcases clean.cookie cookie same some with ⟨trimmed, valid⟩
    rw [trimmed]
    exact all_of_isFieldValue valid

theorem Clean.carries (clean : Clean method host path body contentType cookieHeader)
    (rest : List UInt8) :
    Carries method host path body contentType cookieHeader ⟨ascii method.asStr, encode path,
        (writtenFields method host body contentType cookieHeader).map Field.stripped, rest⟩ := by
  rcases valuesOf_writtenFields method host body contentType cookieHeader with
    ⟨hosts, types, lengths, cookies, _⟩
  refine ⟨rfl, rfl, ?_, ?_, ?_, ?_⟩
  · rw [Http1.valuesOf_stripped, hosts, map_singleton, strip_of_isFieldValue clean.host]
  · rw [Http1.valuesOf_stripped, types]
    cases method with
    | get => rfl
    | post => rw [suppliedTypes, map_singleton, strip_of_isFieldValue (clean.contentType rfl)]
  · rw [Http1.valuesOf_stripped, lengths]
    cases method with
    | get => rfl
    | post =>
      rw [suppliedLengths, map_singleton, strip_of_isFieldValue
        (Http1.isFieldValue_of_visible (Http1.encode_digits Http1.isDigit_toDigits).2)]
  · rw [Http1.valuesOf_stripped, cookies]
    cases cookieHeader with
    | none => rfl
    | some cookie =>
      rw [cookieFields, suppliedCookies]
      split
      · rfl
      next some =>
        rcases clean.cookie cookie rfl (Bool.eq_false_iff.mpr some) with ⟨trimmed, valid⟩
        rw [trimmed, map_singleton, map_singleton, strip_of_isFieldValue valid]

/-- A request that is read with the supplied values was supplied with clean ones. -/
theorem Carries.clean {request : Http1.Request}
    (carries : Carries method host path body contentType cookieHeader request)
    (built : (buildHttpRequest method host path body contentType cookieHeader).value? = some (.ok text))
    (parsed : parseRequest (encode text) = some (request, [])) :
    Clean method host path body contentType cookieHeader := by
  rcases Http1.parseRequest_sound parsed with ⟨target, valid⟩
  rw [carries.targetSame] at target
  have hostValid : isFieldValue (encode host) = true := by
    refine Http1.isFieldValue_of_mem_valuesOf (ascii "host") valid ?_
    rw [carries.hosts]
    exact mem_singleton_self _
  have typeValid (post : method = .post) :
      isFieldValue (encode (contentType.getD defaultContentType)) = true := by
    refine Http1.isFieldValue_of_mem_valuesOf (ascii "content-type") valid ?_
    rw [carries.types, post]
    exact mem_singleton_self _
  have cookieValid (cookie : Text) (same : cookieHeader = some cookie)
      (some : (trim cookie).isEmpty = false) : isFieldValue (encode cookie) = true := by
    refine Http1.isFieldValue_of_mem_valuesOf (ascii "cookie") valid ?_
    rw [carries.cookies, same, suppliedCookies, if_neg (Bool.eq_false_iff.mp some)]
    exact mem_singleton_self _
  have within (cookie : Text) : (encode (trim cookie)).Sublist (encode cookie) :=
    encode_sublist (strip_sublist _ cookie)
  have unbroken : Unbroken method host contentType cookieHeader :=
    ⟨all_of_isFieldValue hostValid, fun post => all_of_isFieldValue (typeValid post),
      fun cookie same some => all_eq_true.mpr fun byte listed =>
        all_eq_true.mp (all_of_isFieldValue (cookieValid cookie same some)) byte
          ((within cookie).subset listed)⟩
  rw [parseRequest_built built target unbroken] at parsed
  dsimp only at parsed
  split at parsed
  · cases parsed
  next long =>
    rw [Option.some.injEq, Prod.mk.injEq] at parsed
    rcases parsed with ⟨rfl, none⟩
    refine ⟨target, hostValid, typeValid, fun cookie same some => ⟨?_, ?_⟩, ?_⟩
    · -- the stripped cookie is a part of the trimmed one, which is a part of the supplied one
      have read := carries.cookies
      rw [Http1.valuesOf_stripped, (valuesOf_writtenFields method host body contentType
        cookieHeader).2.2.2.1, same, cookieFields, if_neg (Bool.eq_false_iff.mp some),
        suppliedCookies, if_neg (Bool.eq_false_iff.mp some), map_singleton,
        map_singleton, cons.injEq] at read
      have inner := (strip_sublist Http1.isBlank (encode (trim cookie))).length_le
      have outer := (within cookie).length_le
      rw [read.1] at inner
      exact eq_of_len_eq (strip_sublist _ cookie) (Nat.le_antisymm outer inner)
    · exact cookieValid cookie same some
    · exact Nat.le_antisymm (drop_eq_nil_iff.mp none) (Nat.not_lt.mp long)

/-- The text of a request is read as exactly one request with the supplied method, path
and values if and only if what was supplied is clean. -/
theorem built_request_read_iff {method : HttpRequestMethod} {host path text : Text}
    {body : List UInt8} {contentType cookieHeader : Option Text}
    (built : (buildHttpRequest method host path body contentType cookieHeader).value? =
      some (.ok text)) :
    (Exists fun request => parseRequest (encode text) = some (request, []) ∧
      Carries method host path body contentType cookieHeader request) <->
    Clean method host path body contentType cookieHeader := by
  constructor
  · rintro ⟨request, parsed, carries⟩
    exact carries.clean built parsed
  · intro clean
    have whole := clean.body
    refine ⟨_, ?_, clean.carries ((encode (fromUtf8Lossy body)).take body.length)⟩
    rw [parseRequest_built built clean.path clean.unbroken]
    rw [if_neg (by omega), drop_eq_nil_of_le (by omega)]

/-- The text of a request for a page with a cookie. -/
def sampleText : Text :=
  pushCookie (requestOpening .get "example.com".toList "/index.html".toList)
    (some "sid=1; theme=dark".toList) ++ "\r\n\r\n".toList

theorem sample_request_read :
    Exists fun request => parseRequest (encode sampleText) = some (request, []) ∧
      Carries .get "example.com".toList "/index.html".toList [] none
        (some "sid=1; theme=dark".toList) request := by
  have built : (buildHttpRequest .get "example.com".toList "/index.html".toList [] none
      (some "sid=1; theme=dark".toList)).value? = some (.ok sampleText) := by
    have accepted : ¬ (some "sid=1; theme=dark".toList).any refusesCookie = true := by
      decide
    rw [buildHttpRequest, if_neg (fun both => both.2 rfl), if_neg (by decide), if_neg accepted]
    rfl
  refine (built_request_read_iff built).mpr ⟨by decide, by decide, nofun, ?_, by decide⟩
  rintro cookie same _
  cases same
  decide

/-- The URL of a link. -/
def smugglingUrl : Text :=
  "http://example.com/x HTTP/1.1\r\nHost: example.com\r\n\r\nGET /y".toList

def smuggledPath : Text := "/x HTTP/1.1\r\nHost: example.com\r\n\r\nGET /y".toList

/-- A request for `/x` and after it one for `/y`. -/
def smuggledText : Text :=
  requestOpening .get "example.com".toList smuggledPath ++ "\r\n\r\n".toList

/-- The path of the URL goes into the text as it is. -/
theorem smuggled_request :
    parseWebUrl smugglingUrl = .ok ("http".toList, "example.com".toList, smuggledPath) ∧
    (buildHttpRequest .get "example.com".toList smuggledPath [] none none).value? =
      some (.ok smuggledText) ∧
    ¬ Exists fun request => parseRequest (encode smuggledText) = some (request, []) ∧
      Carries .get "example.com".toList smuggledPath [] none none request := by
  have built : (buildHttpRequest .get "example.com".toList smuggledPath [] none none).value? =
      some (.ok smuggledText) := rfl
  refine ⟨by decide, built, ?_⟩
  rintro ⟨request, parsed, carries⟩
  have spaced : isTarget (encode smuggledPath) = false := by decide
  rw [(carries.clean built parsed).path] at spaced
  cases spaced

end CoolOs.Web
