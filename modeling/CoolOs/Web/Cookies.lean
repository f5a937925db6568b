import CoolOs.Text.Strings

namespace CoolOs.Web

open Text List Option

/-!
# The cookie jar

Cookies come from `Set-Cookie` headers, from assignments to `document.cookie` and from
the file of an earlier session.  They go out in the headers of requests and to scripts.
-/

@[simp] abbrev maxCookies : Nat := 64
@[simp] abbrev maxCookieName : Nat := 48
@[simp] abbrev maxCookieValue : Nat := 192
@[simp] abbrev maxCookieDomain : Nat := 128
@[simp] abbrev maxCookiePath : Nat := 160
@[simp] abbrev maxCookieHeader : Nat := 4096

structure Cookie where
  name : Text
  value : Text
  domain : Text
  path : Text
  secure : Bool
  httpOnly : Bool
  hostOnly : Bool
  deriving DecidableEq

structure CookieJar where
  loaded : Bool
  cookies : List Cookie
  deriving DecidableEq

def isHttps (scheme : Text) : Bool := scheme == "https".toList

def isHostByte (byte : UInt8) : Bool :=
  (48 <= byte && byte <= 57) || (65 <= byte && byte <= 90) || (97 <= byte && byte <= 122) ||
    byte == 46 || byte == 45

/-- A host without its port and the dots after it, in lower case; empty if it is none. -/
def canonicalHost (host : Text) : Text :=
  let out := toAsciiLowercase (trimEndMatches '.' (trim host))
  let out := out.takeWhile (fun char => char != ':')
  if out.isEmpty || decide (maxCookieDomain < len out) || out.head? == some '.' ||
      (find "..".toList out).isSome || !(encode out).all isHostByte then []
  else out

def domainMatch (host domain : Text) : Bool :=
  host == domain || (decide (domain.length < host.length) && domain.isSuffixOf host &&
      host[host.length - domain.length - 1]? == some '.')

def cookieDomainMatches (cookie : Cookie) (host : Text) : Bool :=
  if cookie.hostOnly then host == cookie.domain else domainMatch host cookie.domain

/-- The path of a request, without its query. -/
def requestPath (path : Text) : Text :=
  let path := if path.isEmpty then ['/'] else path
  let path := if path.head? = some '/' then path else '/' :: path
  path.takeWhile (fun char => char != '?')

def cookiePathMatches (cookiePath requestPath : Text) : Bool :=
  cookiePath == ['/'] || requestPath == cookiePath || (cookiePath.isPrefixOf requestPath &&
      (cookiePath.getLast? == some '/' || requestPath[cookiePath.length]? == some '/'))

def defaultCookiePath (path : Text) : Text :=
  let path := requestPath path
  if path.head? ≠ some '/' then ['/']
  else
    match rsplitOnce '/' path with
    | none => ['/']
    | some (before, _) => if before.isEmpty then ['/'] else before

def validCookieName (name : Text) : Bool :=
  !name.isEmpty && decide (len name <= maxCookieName) &&
    (encode name).all (fun byte => 0x20 < byte && byte < 0x7f &&
      !(ascii "=;,|\\").contains byte)

def validCookieField (value : Text) (max : Nat) : Bool :=
  decide (len value <= max) &&
    (encode value).all (fun byte => 0x20 <= byte && byte < 0x7f &&
      !(ascii "\r\n\t;|").contains byte)

structure ParsedCookie where
  cookie : Cookie
  delete : Bool
  deriving DecidableEq

/-- An attribute with a value.  A domain that the host is not in refuses the cookie. -/
def applyValue (host : Text) (parsed : ParsedCookie) (key value : Text) : Option ParsedCookie :=
  if eqIgnoreAsciiCase key "domain".toList then
    let domain := canonicalHost (trimStartMatches '.' value)
    if domain.isEmpty || decide (maxCookieDomain < len domain) || !domainMatch host domain
    then none
    else some { parsed with cookie := { parsed.cookie with domain := domain, hostOnly := false } }
  else if eqIgnoreAsciiCase key "path".toList then
    if value.head? = some '/' ∧ validCookieField value maxCookiePath = true then
      some { parsed with cookie := { parsed.cookie with path := value } }
    else some parsed
  else if eqIgnoreAsciiCase key "max-age".toList then
    if (trimStart value).head? = some '-' ∨ trim value = ['0'] then
      some { parsed with delete := true }
    else some parsed
  else some parsed

def applyAttribute (host : Text) (parsed : ParsedCookie) (attr : Text) : Option ParsedCookie :=
  let attr := trim attr
  if eqIgnoreAsciiCase attr "secure".toList then
    some { parsed with cookie := { parsed.cookie with secure := true } }
  else if eqIgnoreAsciiCase attr "httponly".toList then
    some { parsed with cookie := { parsed.cookie with httpOnly := true } }
  else if "samesite".toList.isPrefixOf (toAsciiLowercase attr) then some parsed
  else
    match splitOnce ['='] attr with
    | none => some parsed
    | some (key, value) => applyValue host parsed (trim key) (trim value)

/-- The attributes of a header. -/
def attributes (header : Text) : List Text := (header.splitOn ';').tail

/-- The cookie of a header before its attributes are looked at. -/
def parsePair (host path header : Text) : Option ParsedCookie :=
  match splitOnce ['='] (trim ((header.splitOn ';').headD [])) with
  | none => none
  | some (name, value) =>
    let name := trim name
    let value := trim value
    if !validCookieName name || !validCookieField value maxCookieValue then none
    else some {
      cookie := {
        name := name
        value := value
        domain := host
        path := defaultCookiePath path
        secure := false
        httpOnly := false
        hostOnly := true }
      delete := false }

def parseSetCookie (scheme host path header : Text) : Option ParsedCookie :=
  match parsePair host path header with
  | none => none
  | some parsed =>
    match (attributes header).foldlM (applyAttribute host) parsed with
    | none => none
    | some parsed => if parsed.cookie.secure && !isHttps scheme then none else some parsed

/-- Cookies of one name, domain and path. -/
def Cookie.sameKey (cookie existing : Cookie) : Bool :=
  existing.name == cookie.name && existing.domain == cookie.domain && existing.path == cookie.path

variable (cookies : List Cookie)

def upsertCookie (cookie : Cookie) : List Cookie :=
  match cookies.findIdx? cookie.sameKey with
  | some pos => cookies.set pos cookie
  | none => (if maxCookies <= cookies.length then cookies.tail else cookies) ++ [cookie]

def removeCookie (cookie : Cookie) : Bool × List Cookie :=
  match cookies.findIdx? cookie.sameKey with
  | none => (false, cookies)
  | some pos => (true, cookies.eraseIdx pos)

def storeParsed (parsed : ParsedCookie) : Bool × List Cookie :=
  if parsed.delete then removeCookie cookies parsed.cookie
  else (true, upsertCookie cookies parsed.cookie)

def storeSetCookie (scheme host path header : Text) : Bool × List Cookie :=
  let host := canonicalHost host
  if host.isEmpty then (false, cookies)
  else
    match parseSetCookie scheme host path header with
    | none => (false, cookies)
    | some parsed => storeParsed cookies parsed

def parseCookieLine (line : Text) : Option Cookie :=
  match line.splitOn '|' with
  | tag :: name :: value :: domain :: path :: security :: next :: rest =>
    let secure := if security = "secure".toList then some true
      else if security = "plain".toList then some false else none
    let scope := if next = "httponly".toList then rest.head?.map (fun scope => (true, scope, rest.tail))
      else if next = "script".toList then rest.head?.map (fun scope => (false, scope, rest.tail))
      else some (false, next, rest)
    match secure, scope with
    | some secure, some (httpOnly, hostScope, more) =>
      let hostOnly := if hostScope = "host".toList then some true
        else if hostScope = "domain".toList then some false else none
      let domain := canonicalHost domain
      match hostOnly with
      | none => none
      | some hostOnly =>
        if tag ≠ "cookie".toList || !more.isEmpty || !validCookieName name ||
            !validCookieField value maxCookieValue || domain.isEmpty ||
            !validCookieField path maxCookiePath || path.head? ≠ some '/' then none
        else some ⟨name, value, domain, path, secure, httpOnly, hostOnly⟩
    | _, _ => none
  | _ => none

def loadLines : List Cookie -> List Text -> List Cookie
  | cookies, [] => cookies
  | cookies, line :: rest =>
    let cookies := match parseCookieLine line with
      | some cookie => upsertCookie cookies cookie
      | none => cookies
    if maxCookies <= cookies.length then cookies else loadLines cookies rest

/-- Read the file of an earlier session, the first time the jar is used. -/
def CookieJar.ensureLoaded (jar : CookieJar) (file : Option (List UInt8)) : CookieJar :=
  if jar.loaded then jar
  else { loaded := true, cookies := match file.bind fromUtf8 with
    | none => []
    | some text => loadLines [] (lines text) }

/-- Whether a cookie goes to a request or to a script. -/
def Cookie.isSent (scheme host path : Text) (scriptVisibleOnly : Bool) (cookie : Cookie) : Bool :=
  !(scriptVisibleOnly && cookie.httpOnly) && !(cookie.secure && !isHttps scheme) &&
    (cookieDomainMatches cookie host && cookiePathMatches cookie.path path)

/-- The cookie still has room in a header. -/
def Cookie.hasRoom (cookie : Cookie) (header : Text) : Bool :=
  decide (len header + (if header.isEmpty then 0 else 2) +
    (len cookie.name + len cookie.value + 1) <= maxCookieHeader)

def Cookie.push (header : Text) (cookie : Cookie) : Text :=
  header ++ (if header.isEmpty then [] else "; ".toList) ++ cookie.name ++ '=' :: cookie.value

def headerLoop (sent : Cookie -> Bool) : Text -> List Cookie -> Text
  | header, [] => header
  | header, cookie :: rest =>
    if sent cookie = false then headerLoop sent header rest
    else if cookie.hasRoom header = false then header
    else headerLoop sent (cookie.push header) rest

def cookieHeaderForWithFilter (scheme host path : Text)
    (scriptVisibleOnly : Bool) : Option Text :=
  let host := canonicalHost host
  if host.isEmpty then none
  else
    let header :=
      headerLoop (Cookie.isSent scheme host (requestPath path) scriptVisibleOnly) [] cookies
    if header.isEmpty then none else some header

def cookieHeaderFor (scheme host path : Text) : Option Text :=
  cookieHeaderForWithFilter cookies scheme host path false

def documentCookieFor (scheme host path : Text) : Option Text :=
  cookieHeaderForWithFilter cookies scheme host path true

/-- `store_set_cookie_headers`, with the number of headers that changed the jar. -/
def storeHeaders (scheme host path : Text) : List Cookie -> List Text -> Nat × List Cookie
  | cookies, [] => (0, cookies)
  | cookies, header :: rest =>
    let (changed, cookies) := storeSetCookie cookies scheme host path header
    let (count, cookies) := storeHeaders scheme host path cookies rest
    ((if changed then 1 else 0) + count, cookies)

def storeSetCookieHeaders (jar : CookieJar) (file : Option (List UInt8))
    (scheme host path : Text) (headers : List Text) : Nat × CookieJar :=
  if headers.isEmpty then (0, jar)
  else
    let jar := jar.ensureLoaded file
    let (changed, cookies) := storeHeaders scheme host path jar.cookies headers
    (changed, { jar with cookies := cookies })

/-- An assignment that asks for an `HttpOnly` cookie. -/
def asksHttpOnly (cookie : Text) : Bool :=
  (attributes cookie).any (fun part => eqIgnoreAsciiCase (trim part) "httponly".toList)

def setDocumentCookieForContext (jar : CookieJar) (file : Option (List UInt8))
    (scheme host path cookie : Text) : Bool × CookieJar :=
  if asksHttpOnly cookie then (false, jar)
  else
    let jar := jar.ensureLoaded file
    let (stored, cookies) := storeSetCookie jar.cookies scheme host path cookie
    (stored, { jar with cookies := cookies })

/-!
## What the attributes of a cookie do

The attributes of a header are applied one after the other.  The flags are set by any
of them, and of the `Domain` attributes the last one counts.
-/

/-- The value of a `Domain` attribute, without the dots before it. -/
def domainValue (attr : Text) : Option Text :=
  match splitOnce ['='] (trim attr) with
  | none => none
  | some (key, value) =>
    if eqIgnoreAsciiCase (trim key) "domain".toList then
      some (trimStartMatches '.' (trim value))
    else none

/-- The last `Domain` attribute of a header. -/
def domainAttribute (header : Text) : Option Text :=
  ((attributes header).filterMap domainValue).getLast?

def asksSecure (header : Text) : Bool :=
  (attributes header).any (fun attr =>
    eqIgnoreAsciiCase (trim attr) "secure".toList)

/-- The cookie of a header, if the jar takes it. -/
def acceptedCookie (scheme host path header : Text) : Option ParsedCookie :=
  if (canonicalHost host).isEmpty then none
  else parseSetCookie scheme (canonicalHost host) path header

/-- What attributes made of a cookie: whether they ask for the flags, and their domain. -/
structure Attributed (host : Text) (hidden secured : Bool) (domain : Option Text)
    (before after : Cookie) : Prop where
  httpOnly : after.httpOnly = true -> (before.httpOnly || hidden) = true
  secure : after.secure = (before.secure || secured)
  domain : match domain with
    | some value => after.hostOnly = false ∧ after.domain = canonicalHost value ∧
        after.domain.isEmpty = false ∧ domainMatch host after.domain = true
    | none => after.hostOnly = before.hostOnly ∧ after.domain = before.domain

variable {host attr key value : Text} {after before : ParsedCookie}

theorem Attributed.refl (host : Text) (cookie : Cookie) :
    Attributed host false false none cookie cookie :=
  ⟨fun flagged => by rw [flagged]; rfl, (Bool.or_false _).symm, rfl, rfl⟩

theorem Attributed.trans {hidden hidden' secured secured' : Bool} {early late : Option Text}
    {first second third : Cookie} (one : Attributed host hidden secured early first second)
    (more : Attributed host hidden' secured' late second third) :
    Attributed host (hidden || hidden') (secured || secured') (late.or early) first third where
  httpOnly flagged := by
    rcases (Bool.or_eq_true _ _).mp (more.httpOnly flagged) with here | asked
    · rw [<- Bool.or_assoc, one.httpOnly here, Bool.true_or]
    · rw [asked, Bool.or_true, Bool.or_true]
  secure := by rw [more.secure, one.secure, Bool.or_assoc]
  domain := by
    have later := more.domain
    cases late with
    | some value => exact later
    | none =>
      rw [none_or, later.1, later.2]
      exact one.domain

/-- A text with an equals sign is none of the attributes without a value. -/
theorem not_eqIgnoreAsciiCase_of_split (name : String)
    (split : splitOnce ['='] attr = some (key, value)) (bare : '=' ∉ name.toList.map Char.toLower) :
    eqIgnoreAsciiCase attr name.toList = false := by
  rw [splitOnce_sound split]
  refine Bool.eq_false_iff.mpr fun same => bare ?_
  rw [<- show toAsciiLowercase _ = name.toList.map Char.toLower from beq_iff_eq.mp same,
    toAsciiLowercase, map_append, map_cons]
  exact mem_append_right _ mem_cons_self

/-- A `Domain` attribute does not start like a `SameSite` one. -/
theorem not_samesite_of_domain (split : splitOnce ['='] (trim attr) = some (key, value))
    (named : eqIgnoreAsciiCase (trim key) "domain".toList = true) :
    "samesite".toList.isPrefixOf (toAsciiLowercase (trim attr)) = false := by
  have cut := splitOnce_sound split
  have spelled : toAsciiLowercase (trim key) = "domain".toList := beq_iff_eq.mp named
  cases key with
  | nil => exact absurd spelled (by decide)
  | cons first rest =>
    -- the attribute is trimmed, so its first character is also that of the trimmed key
    have solid : isWhitespace first = false := by
      have kept := dropWhile_strip isWhitespace attr
      rw [show strip isWhitespace attr = _ from cut, cons_append] at kept
      have head := dropWhile_eq_self_iff.mp kept (Nat.zero_lt_succ _)
      exact Bool.eq_false_iff.mpr head
    have trimmed : (trim (first :: rest)).head? = some first := by
      have within := rdropWhile_prefix isWhitespace (first :: rest)
      have unchanged : trim (first :: rest) =
          (first :: rest).rdropWhile isWhitespace := by
        rw [trim, strip, dropWhile_cons_of_neg (Bool.eq_false_iff.mp solid)]
      rw [unchanged] at spelled ⊢
      cases left : (first :: rest).rdropWhile isWhitespace with
      | nil =>
        rw [left] at spelled
        exact absurd spelled (by decide)
      | cons other more =>
        rw [left] at within
        rw [(cons_prefix_cons.mp within).1]
        rfl
    have lowered : first.toLower = 'd' := by
      have head := congrArg head? spelled
      rw [toAsciiLowercase, head?_map, trimmed] at head
      exact some.inj (head.trans (by decide))
    rw [cut, toAsciiLowercase, cons_append, map_cons, lowered]
    have spelling : "samesite".toList = 's' :: "amesite".toList := by decide
    rw [spelling]
    rfl

theorem applyValue_attributed (applied : applyValue host before key value = some after) :
    Attributed host false false (if eqIgnoreAsciiCase key "domain".toList then
      some (trimStartMatches '.' value) else none) before.cookie after.cookie := by
  have same := Attributed.refl host before.cookie
  rw [applyValue] at applied
  split at applied
  next named =>
    dsimp only at applied
    split at applied
    · cases applied
    next accepted =>
      cases applied
      rw [if_pos named]
      rw [Bool.or_eq_true, Bool.or_eq_true, not_or, not_or] at accepted
      refine ⟨same.httpOnly, same.secure, rfl, rfl, ?_, ?_⟩
      · exact Bool.eq_false_iff.mpr accepted.1.1
      · simpa using accepted.2
  next other =>
    rw [if_neg other]
    repeat' split at applied
    all_goals
      cases applied
      exact ⟨same.httpOnly, same.secure, rfl, rfl⟩

/-- What one attribute does. -/
theorem applyAttribute_attributed (applied : applyAttribute host before attr = some after) :
    Attributed host (eqIgnoreAsciiCase (trim attr) "httponly".toList)
      (eqIgnoreAsciiCase (trim attr) "secure".toList) (domainValue attr)
      before.cookie after.cookie := by
  have same := Attributed.refl host before.cookie
  rw [applyAttribute] at applied
  rw [domainValue]
  cases split : splitOnce ['='] (trim attr) with
  | none =>
    rw [split] at applied
    split at applied
    next named =>
      cases applied
      refine ⟨fun flagged => ?_, by rw [named, Bool.or_true], rfl, rfl⟩
      rw [show before.cookie.httpOnly = true from flagged, Bool.true_or]
    next other =>
      rw [Bool.eq_false_iff.mpr other]
      split at applied
      next named =>
        cases applied
        exact ⟨fun _ => by rw [named, Bool.or_true], same.secure, rfl, rfl⟩
      next named =>
        rw [Bool.eq_false_iff.mpr named]
        split at applied
        all_goals
          cases applied
          exact same
  | some parts =>
    rcases parts with ⟨key, value⟩
    have unsecure := not_eqIgnoreAsciiCase_of_split "secure" split (by decide)
    have unhidden := not_eqIgnoreAsciiCase_of_split "httponly" split (by decide)
    rw [unsecure, if_neg Bool.false_ne_true, unhidden, if_neg Bool.false_ne_true, split] at applied
    rw [unsecure, unhidden]
    dsimp only at applied ⊢
    by_cases named : eqIgnoreAsciiCase (trim key) "domain".toList = true
    · rw [not_samesite_of_domain split named, if_neg Bool.false_ne_true] at applied
      exact applyValue_attributed applied
    · split at applied
      · cases applied
        rw [if_neg named]
        exact same
      · exact applyValue_attributed applied

/-- What all attributes do: the last `Domain` counts. -/
theorem attributes_attributed {attrs : List Text}
    (applied : attrs.foldlM (applyAttribute host) before = some after) :
    Attributed host (attrs.any (fun attr => eqIgnoreAsciiCase (trim attr) "httponly".toList))
      (attrs.any (fun attr => eqIgnoreAsciiCase (trim attr) "secure".toList))
      (attrs.filterMap domainValue).getLast? before.cookie after.cookie := by
  induction attrs generalizing before with
  | nil =>
    cases applied
    exact .refl host _
  | cons attr rest ih =>
    rw [foldlM_cons] at applied
    rcases bind_eq_some_iff.mp applied with ⟨middle, one, others⟩
    have last : ((attr :: rest).filterMap domainValue).getLast? =
        (rest.filterMap domainValue).getLast?.or (domainValue attr) := by
      rw [filterMap_cons]
      cases domainValue attr with
      | none => rw [or_none]
      | some value =>
        rw [getLast?_cons]
        cases (rest.filterMap domainValue).getLast? <;> rfl
    rw [any_cons, any_cons, last]
    exact (applyAttribute_attributed one).trans (ih others)

/-- A cookie that the jar takes starts without flags, with the host as its domain. -/
theorem acceptedCookie_attributed {scheme path header : Text} {parsed : ParsedCookie}
    (accepted : acceptedCookie scheme host path header = some parsed) :
    (canonicalHost host).isEmpty = false ∧
      (parsed.cookie.secure = true -> isHttps scheme = true) ∧ ∃ start : Cookie,
        start.httpOnly = false ∧ start.secure = false ∧ start.hostOnly = true ∧
        start.domain = canonicalHost host ∧ Attributed (canonicalHost host) (asksHttpOnly header)
          (asksSecure header) (domainAttribute header) start parsed.cookie := by
  rw [acceptedCookie] at accepted
  split at accepted
  · cases accepted
  next valid =>
    refine ⟨Bool.eq_false_iff.mpr valid, ?_⟩
    rw [parseSetCookie] at accepted
    split at accepted
    · cases accepted
    next start pair =>
      split at accepted
      · cases accepted
      next result applied =>
        split at accepted
        · cases accepted
        next permitted =>
          cases accepted
          refine ⟨fun secured => ?_, start.cookie, ?_⟩
          · rw [secured, Bool.true_and, Bool.not_eq_true', Bool.not_eq_false] at permitted
            exact permitted
          · rw [parsePair] at pair
            split at pair
            · cases pair
            · dsimp only at pair
              split at pair
              · cases pair
              · cases pair
                exact ⟨rfl, rfl, rfl, rfl, attributes_attributed applied⟩

end CoolOs.Web
