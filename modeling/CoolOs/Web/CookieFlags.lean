import CoolOs.Web.Cookies

namespace CoolOs.Web

open List

/-!
# Cookie flags over time

A script must not see or change `HttpOnly` cookies, and a response or a page without
TLS must not see or change `Secure` ones.  Seeing is ruled out by the filters on the
headers.  Changing is not: a store looks at the name, the domain and the path of the
cookies in the jar and not at their flags.
-/

variable {forbidden : Cookie -> Bool} {host path : Text}

/-- A response with `Set-Cookie` headers, a request that carries cookies, and a read of
and an assignment to `document.cookie`. -/
inductive CookieEvent where
  | response (scheme host path : Text) (headers : List Text)
  | request (scheme host path : Text)
  | read (scheme host path : Text)
  | assign (scheme host path cookie : Text)

variable (file : Option (List UInt8)) (jar : CookieJar) (event : CookieEvent)

namespace CookieEvent

def scheme : CookieEvent -> Text
  | response scheme _ _ _ => scheme
  | request scheme _ _ => scheme
  | read scheme _ _ => scheme
  | assign scheme _ _ _ => scheme

def isScript : CookieEvent -> Bool
  | read _ _ _ => true
  | assign _ _ _ _ => true
  | _ => false

/-- The cookies that an event must not see and not change. -/
def forbids (cookie : Cookie) : Bool :=
  (event.isScript && cookie.httpOnly) || (!isHttps event.scheme && cookie.secure)

/-- What an event shows to the server or to the script. -/
def shows (cookies : List Cookie) : CookieEvent -> Option Text
  | request scheme host path => cookieHeaderFor cookies scheme host path
  | read scheme host path => some ((documentCookieFor cookies scheme host path).getD [])
  | _ => none

def perform : CookieEvent -> CookieJar
  | response scheme host path headers =>
    (storeSetCookieHeaders jar file scheme host path headers).2
  | request _ _ _ => jar.ensureLoaded file
  | read _ _ _ => jar.ensureLoaded file
  | assign scheme host path cookie =>
    (setDocumentCookieForContext jar file scheme host path cookie).2

/-- The event shows what it would show without the cookies it must not see, and leaves
every cookie that it must not change. -/
def Respects : Prop :=
  let before := (jar.ensureLoaded file).cookies
  let after := ((event.perform file jar).ensureLoaded file).cookies
  event.shows before = event.shows (before.filter (fun cookie => !event.forbids cookie)) ∧
    (before.filter event.forbids).Sublist after

end CookieEvent

/-- The cookie in the jar with the key of a parsed one; if there is none and one has to
be added to a full jar, the oldest. -/
def takenCookie (cookies : List Cookie) (parsed : ParsedCookie) : Option Cookie :=
  match cookies.findIdx? parsed.cookie.sameKey with
  | some pos => cookies[pos]?
  | none => if parsed.delete ∨ cookies.length < maxCookies then none else cookies.head?

/-- All cookies of a kind are kept, or one of them is lost. -/
def Keeps (forbidden : Cookie -> Bool) (before after : List Cookie) : Bool -> Prop
  | true => after.filter forbidden = before.filter forbidden
  | false => (after.filter forbidden).length < (before.filter forbidden).length

namespace Keeps

variable {first second third : List Cookie} {early late : Bool}

theorem trans (begin : Keeps forbidden first second early)
    (rest : Keeps forbidden second third late) : Keeps forbidden first third (early && late) := by
  cases early with
  | true =>
    cases late with
    | true => exact Eq.trans rest begin
    | false => exact Nat.lt_of_lt_of_eq rest (congrArg List.length begin)
  | false =>
    cases late with
    | true => exact Nat.lt_of_le_of_lt (Nat.le_of_eq (congrArg List.length rest)) begin
    | false => exact Nat.lt_trans rest begin

/-- What is lost does not come back under the same name. -/
theorem sublist_iff (keeps : Keeps forbidden first second early) :
    (first.filter forbidden).Sublist second <-> early = true := by
  cases early with
  | true =>
    refine iff_of_true ?_ rfl
    rw [<- show second.filter forbidden = first.filter forbidden from keeps]
    exact filter_sublist
  | false =>
    refine iff_of_false (fun within => ?_) Bool.false_ne_true
    have again := (within.filter forbidden).length_le
    rw [filter_filter] at again
    simp only [Bool.and_self] at again
    exact absurd again (Nat.not_le.mpr keeps)

end Keeps

section

variable {parsed : ParsedCookie} {cookies : List Cookie}

/-- The cookies of a kind that the stored one is not of are those that were there
without the one that is taken out. -/
theorem storeParsed_filter (other : forbidden parsed.cookie = false) (cookies : List Cookie) :
    (takenCookie cookies parsed = none ∧
      (storeParsed cookies parsed).2.filter forbidden = cookies.filter forbidden) ∨
    ∃ taken front back,
      takenCookie cookies parsed = some taken ∧ cookies = front ++ taken :: back ∧
        (storeParsed cookies parsed).2.filter forbidden = (front ++ back).filter forbidden := by
  have added (kept : List Cookie) :
      (kept ++ [parsed.cookie]).filter forbidden = kept.filter forbidden := by
    rw [filter_append, filter_cons_of_neg (by rw [other]; nofun), filter_nil, append_nil]
  rw [takenCookie, storeParsed, removeCookie, upsertCookie]
  cases found : cookies.findIdx? parsed.cookie.sameKey with
  | some pos =>
    have inside : pos < cookies.length := (findIdx?_eq_some_iff_getElem.mp found).1
    refine .inr ⟨cookies[pos], cookies.take pos, cookies.drop (pos + 1),
      getElem?_eq_getElem inside, ?_, ?_⟩
    · rw [getElem_cons_drop, take_append_drop]
    · dsimp only
      split
      · rw [eraseIdx_eq_take_drop_succ]
      · rw [set_eq_take_append_cons_drop, if_pos inside, filter_append,
          filter_cons_of_neg (by rw [other]; nofun), filter_append]
  | none =>
    by_cases deletes : parsed.delete = true
    · rw [if_pos (.inl deletes), if_pos deletes]
      exact .inl ⟨rfl, rfl⟩
    rw [if_neg deletes]
    by_cases room : cookies.length < maxCookies
    · rw [if_pos (.inr room), if_neg (Nat.not_le.mpr room)]
      exact .inl ⟨rfl, added cookies⟩
    rw [if_neg (not_or.mpr ⟨deletes, room⟩), if_pos (Nat.not_lt.mp room)]
    cases cookies with
    | nil => exact absurd (by decide) room
    | cons first rest => exact .inr ⟨first, [], rest, rfl, rfl, added rest⟩

/-- A store keeps the cookies of such a kind unless it takes one of them out. -/
theorem storeParsed_keeps (other : forbidden parsed.cookie = false) (cookies : List Cookie) :
    Keeps forbidden cookies (storeParsed cookies parsed).2
      (!(takenCookie cookies parsed).any forbidden) := by
  rcases storeParsed_filter other cookies with ⟨none, same⟩ | ⟨taken, front, back, some, cut, left⟩
  · rw [none]
    exact same
  · rw [some, Option.any_some]
    cases kind : forbidden taken with
    | false =>
      refine left.trans ?_
      rw [cut, filter_append, filter_append, filter_cons_of_neg (by rw [kind]; nofun)]
    | true =>
      change List.length _ < List.length _
      rw [left, cut, filter_append, filter_append, filter_cons_of_pos kind,
        length_append, length_append, length_cons]
      omega

end

theorem storeSetCookie_eq (cookies : List Cookie) (scheme host path header : Text) :
    storeSetCookie cookies scheme host path header =
      match acceptedCookie scheme host path header with
      | none => (false, cookies)
      | some parsed => storeParsed cookies parsed := by
  rw [storeSetCookie, acceptedCookie]
  split
  · rfl
  · rfl

/-- A header takes none of the forbidden cookies out of the jar. -/
def spares (forbidden : Cookie -> Bool) (cookies : List Cookie)
    (scheme host path header : Text) : Bool :=
  match acceptedCookie scheme host path header with
  | none => true
  | some parsed => !(takenCookie cookies parsed).any forbidden

/-- Each header in turn takes none of the forbidden cookies out of the jar. -/
def sparesAll (forbidden : Cookie -> Bool) (scheme host path : Text) :
    List Cookie -> List Text -> Bool
  | _, [] => true
  | cookies, header :: rest =>
    spares forbidden cookies scheme host path header && sparesAll forbidden scheme host path
        (storeSetCookie cookies scheme host path header).2 rest

section

variable {scheme : Text}

theorem storeSetCookie_keeps {header : Text}
    (other : ∀ parsed, acceptedCookie scheme host path header = some parsed ->
      forbidden parsed.cookie = false) (cookies : List Cookie) :
    Keeps forbidden cookies (storeSetCookie cookies scheme host path header).2
      (spares forbidden cookies scheme host path header) := by
  rw [spares, storeSetCookie_eq]
  cases accepted : acceptedCookie scheme host path header with
  | none => rfl
  | some parsed => exact storeParsed_keeps (other parsed accepted) cookies

theorem storeHeaders_keeps (headers : List Text)
    (other : ∀ header parsed, acceptedCookie scheme host path header = some parsed ->
      forbidden parsed.cookie = false) (cookies : List Cookie) :
    Keeps forbidden cookies (storeHeaders scheme host path cookies headers).2
      (sparesAll forbidden scheme host path cookies headers) := by
  induction headers generalizing cookies with
  | nil => rfl
  | cons header rest ih => exact (storeSetCookie_keeps (other header) cookies).trans (ih _)

end

variable {kept : Cookie -> Bool}

/-- A cookie gets a flag only from a header that asks for it, and `Secure` only with TLS. -/
theorem acceptedCookie_flags {scheme header : Text} {parsed : ParsedCookie}
    (accepted : acceptedCookie scheme host path header = some parsed) :
    (parsed.cookie.httpOnly = true -> asksHttpOnly header = true) ∧
      (parsed.cookie.secure = true -> isHttps scheme = true) := by
  rcases acceptedCookie_attributed accepted with ⟨_, secured, start, plain, _, _, _, attributed⟩
  refine ⟨fun flagged => ?_, secured⟩
  have asked := attributed.httpOnly flagged
  rwa [plain, Bool.false_or] at asked

/-- Cookies that are not sent make no difference to a header. -/
theorem headerLoop_filter {sent : Cookie -> Bool}
    (within : ∀ cookie, sent cookie = true -> kept cookie = true) (header : Text)
    (cookies : List Cookie) :
    headerLoop sent header (cookies.filter kept) = headerLoop sent header cookies := by
  induction cookies generalizing header with
  | nil => rfl
  | cons cookie rest ih =>
    cases kind : kept cookie with
    | true =>
      rw [filter_cons_of_pos kind, headerLoop, headerLoop, ih, ih]
    | false =>
      have unsent : sent cookie = false := by
        cases sends : sent cookie with
        | false => rfl
        | true => rw [within cookie sends] at kind; cases kind
      rw [filter_cons_of_neg (by rw [kind]; nofun), headerLoop, if_pos unsent, ih]

theorem cookieHeaderForWithFilter_filter {scheme : Text} {scriptVisibleOnly : Bool}
    (host path : Text) (cookies : List Cookie)
    (within : ∀ cookie, kept cookie = false ->
      (scriptVisibleOnly && cookie.httpOnly) = true ∨ (cookie.secure && !isHttps scheme) = true) :
    cookieHeaderForWithFilter (cookies.filter kept) scheme host path scriptVisibleOnly =
      cookieHeaderForWithFilter cookies scheme host path scriptVisibleOnly := by
  rw [cookieHeaderForWithFilter, cookieHeaderForWithFilter]
  rw [headerLoop_filter]
  intro cookie sends
  cases kind : kept cookie with
  | true => rfl
  | false =>
    rw [Cookie.isSent] at sends
    rcases within cookie kind with hidden | hidden
    · rw [hidden] at sends
      cases sends
    · rw [hidden, Bool.and_assoc, Bool.not_true, Bool.false_and, Bool.and_false] at sends
      cases sends

namespace CookieEvent

theorem shows_filter (cookies : List Cookie) :
    event.shows (cookies.filter (fun cookie => !event.forbids cookie)) = event.shows cookies := by
  have hidden (cookie : Cookie) (kind : (!event.forbids cookie) = false) :
      (event.isScript && cookie.httpOnly) = true ∨
        (cookie.secure && !isHttps event.scheme) = true := by
    rw [Bool.not_eq_false', forbids, Bool.or_eq_true] at kind
    rw [Bool.and_comm cookie.secure]
    exact kind
  cases event with
  | response scheme host path headers => rfl
  | request scheme host path => exact cookieHeaderForWithFilter_filter host path cookies hidden
  | read scheme host path =>
    exact congrArg (fun shown : Option Text => some (shown.getD []))
      (cookieHeaderForWithFilter_filter host path cookies hidden)
  | assign scheme host path cookie => rfl

/-- The event takes no cookie out of the jar that it must not change: neither does it
name one by its key, nor push one out of a full jar. -/
def Spares : Prop :=
  let before := (jar.ensureLoaded file).cookies
  match event with
  | response scheme host path headers =>
    sparesAll event.forbids scheme host path before headers = true
  | assign scheme host path cookie =>
    asksHttpOnly cookie = false -> spares event.forbids before scheme host path cookie = true
  | _ => True

theorem ensureLoaded_of_loaded {jar : CookieJar} (loaded : jar.loaded = true)
    (file : Option (List UInt8)) : jar.ensureLoaded file = jar := by
  rw [CookieJar.ensureLoaded, if_pos loaded]

theorem ensureLoaded_mk {loaded : Bool} (done : loaded = true) (cookies : List Cookie)
    (file : Option (List UInt8)) :
    (CookieJar.mk loaded cookies).ensureLoaded file = ⟨loaded, cookies⟩ :=
  ensureLoaded_of_loaded done file

theorem ensureLoaded_loaded (file : Option (List UInt8)) :
    (jar.ensureLoaded file).loaded = true := by
  rw [CookieJar.ensureLoaded]
  split
  next loaded => exact loaded
  next => rfl

theorem forbids_of_accepted {scheme header : Text} {parsed : ParsedCookie} {event : CookieEvent}
    (same : event.scheme = scheme) (accepted : acceptedCookie scheme host path header = some parsed)
    (unasked : event.isScript = true -> asksHttpOnly header = false) :
    event.forbids parsed.cookie = false := by
  rcases acceptedCookie_flags accepted with ⟨asked, secured⟩
  rw [forbids, Bool.or_eq_false_iff, same]
  constructor
  · cases script : event.isScript with
    | false => rfl
    | true =>
      cases flagged : parsed.cookie.httpOnly with
      | false => rfl
      | true =>
        rw [asked flagged] at unasked
        cases unasked script
  · cases flagged : parsed.cookie.secure with
    | false => rw [Bool.and_false]
    | true => rw [secured flagged, Bool.not_true, Bool.false_and]

/-- An event respects the flags if and only if it spares what it must not change. -/
theorem respects_iff : Respects file jar event <-> Spares file jar event := by
  have shown := (event.shows_filter (jar.ensureLoaded file).cookies).symm
  have loaded := ensureLoaded_loaded jar file
  refine (and_iff_right shown).trans ?_
  cases event with
  | request scheme host path =>
    refine iff_of_true ?_ trivial
    rw [perform, ensureLoaded_of_loaded loaded]
    exact filter_sublist
  | read scheme host path =>
    refine iff_of_true ?_ trivial
    rw [perform, ensureLoaded_of_loaded loaded]
    exact filter_sublist
  | response scheme host path headers =>
    rw [perform, storeSetCookieHeaders]
    cases headers with
    | nil => exact iff_of_true filter_sublist rfl
    | cons header rest =>
      rw [isEmpty_cons, if_neg Bool.false_ne_true]
      rw [ensureLoaded_mk loaded]
      have others (next : Text) (parsed : ParsedCookie)
          (accepted : acceptedCookie scheme host path next = some parsed) :
          (response scheme host path (header :: rest)).forbids parsed.cookie = false :=
        forbids_of_accepted rfl accepted nofun
      exact (storeHeaders_keeps (header :: rest) others _).sublist_iff
  | assign scheme host path cookie =>
    rw [perform, setDocumentCookieForContext, Spares]
    cases asked : asksHttpOnly cookie with
    | true => exact iff_of_true filter_sublist nofun
    | false =>
      rw [if_neg Bool.false_ne_true]
      dsimp only
      rw [ensureLoaded_mk loaded]
      refine (storeSetCookie_keeps (fun parsed accepted =>
        forbids_of_accepted rfl accepted fun _ => asked) _).sublist_iff.trans ?_
      exact ⟨fun spared _ => spared, fun spared => spared rfl⟩

/-- Every event of a run is such, in the jar it comes to. -/
def Along (file : Option (List UInt8))
    (holds : Option (List UInt8) -> CookieJar -> CookieEvent -> Prop) :
    CookieJar -> List CookieEvent -> Prop
  | _, [] => True
  | jar, event :: rest => holds file jar event ∧ Along file holds (event.perform file jar) rest

/-- Over any run from any jar, the flags are respected if and only if no event takes a
cookie out of the jar that it must not change. -/
theorem run_respects_iff (file : Option (List UInt8)) (jar : CookieJar)
    (events : List CookieEvent) :
    Along file Respects jar events <-> Along file Spares jar events := by
  induction events generalizing jar with
  | nil => exact Iff.rfl
  | cons event rest ih => exact and_congr (respects_iff file jar event) (ih _)

instance (file : Option (List UInt8)) (jar : CookieJar) (event : CookieEvent) :
    Decidable (Respects file jar event) :=
  inferInstanceAs (Decidable (_ ∧ _))

/-- A login over TLS that sets a session cookie. -/
def login : CookieEvent :=
  .response "https".toList "example.com".toList "/login".toList
    ["sid=abc; Path=/; Secure; HttpOnly".toList]

/-- An assignment of a script replaces the session cookie, and a response without TLS
removes it. -/
theorem session_cookie_is_lost : ¬ Along none Respects ⟨true, []⟩ [login,
      .assign "https".toList "example.com".toList "/".toList "sid=x; Path=/".toList] ∧
    ¬ Along none Respects ⟨true, []⟩ [login, .response "http".toList "example.com".toList "/".toList
        ["sid=; Path=/; Max-Age=0".toList]] := by
  constructor
  · intro along
    exact absurd along.2.1 (by decide)
  · intro along
    exact absurd along.2.1 (by decide)

end CookieEvent

open Option Text

/-!
## Cookie scope

Which hosts, paths and schemes a stored cookie goes to.  The abstract side says what
the name of a host is, what a domain name is and when a name or a path lies in another;
the jar works with `canonicalHost`, which cuts a host at its first colon, and with
`domainMatch`, which does not look at what kind of host it has.
-/

/-- The name of a host: without white space and dots around it, without a port, in lower
case. -/
def hostName (host : Text) : Text :=
  let name := toAsciiLowercase (trimEndMatches '.' (trim host))
  match splitOnce [':'] name with
  | some (front, port) => if port.all Char.isDigit then front else name
  | none => name

/-- The host has no colon but that of its port. -/
def IsPlain (host : Text) : Prop := ':' ∉ hostName host

instance (host : Text) : Decidable (IsPlain host) := inferInstanceAs (Decidable (_ ∉ _))

def parseOctet (part : Text) : Option UInt32 :=
  if part.isEmpty || decide (3 < len part) || !part.all Char.isDigit then none
  else
    let octet := Nat.ofDigitChars 10 part 0
    if 255 < octet then none else some (UInt32.ofNat octet)

/-- An IPv4 address in dotted decimal. -/
def parseIpv4Literal (text : Text) : Option UInt32 :=
  let parts := text.splitOn '.'
  match parts.foldlM (fun (value : UInt32) part => (parseOctet part).map (fun octet =>
      value <<< 8 ||| octet)) 0 with
  | none => none
  | some value => if parts.length = 4 then some value else none

/-- A name that is not the literal of an address. -/
def IsDomainName (host : Text) : Prop :=
  IsPlain host ∧ parseIpv4Literal (hostName host) = none

/-- A name is a domain or ends in a dot and the domain. -/
def LiesIn (name domain : Text) : Prop :=
  name = domain ∨ Exists fun front => name = front ++ '.' :: domain

/-- A path is that of a cookie or goes on from it at a slash. -/
def PathMatches (cookiePath path : Text) : Prop :=
  path = cookiePath ∨ Exists fun rest => path = cookiePath ++ rest ∧
    (cookiePath.getLast? = some '/' ∨ rest.head? = some '/')

/-- The cookie that a header of one host set may go to a request to another. -/
structure InScope (setter header : Text) (cookie : Cookie) (scheme receiver path : Text) :
    Prop where
  host : match domainAttribute header with
    | none => hostName receiver = hostName setter
    | some domain => IsDomainName setter ∧ IsDomainName receiver ∧
        LiesIn (hostName setter) (hostName domain) ∧ LiesIn (hostName receiver) (hostName domain)
  path : PathMatches cookie.path (requestPath path)
  secure : asksSecure header = true -> isHttps scheme = true

/-- What the header of a request is made of. -/
def attachedLoop (sent : Cookie -> Bool) : Text -> List Cookie -> List Cookie
  | _, [] => []
  | header, cookie :: rest =>
    if sent cookie = false then attachedLoop sent header rest
    else if cookie.hasRoom header = false then []
    else cookie :: attachedLoop sent (cookie.push header) rest

/-- The cookies that go to a request or to a script. -/
def attachedCookies (cookies : List Cookie) (scheme host path : Text)
    (scriptVisibleOnly : Bool) : List Cookie :=
  let host := canonicalHost host
  if host.isEmpty then []
  else attachedLoop (Cookie.isSent scheme host (requestPath path) scriptVisibleOnly) [] cookies

variable {header domain : Text}

/-- The text of the header is made of these cookies, one after the other. -/
theorem headerLoop_eq (sent : Cookie -> Bool) (header : Text) (cookies : List Cookie) :
    headerLoop sent header cookies = (attachedLoop sent header cookies).foldl Cookie.push header := by
  induction cookies generalizing header with
  | nil => rfl
  | cons cookie rest ih =>
    rw [headerLoop, attachedLoop]
    split
    · exact ih header
    · split
      · rfl
      · exact ih (cookie.push header)

theorem cookieHeader_of_attached (cookies : List Cookie) (scheme host path : Text)
    (visible : Bool) :
    (cookieHeaderForWithFilter cookies scheme host path visible).getD [] =
      (attachedCookies cookies scheme host path visible).foldl Cookie.push [] := by
  rw [cookieHeaderForWithFilter, attachedCookies]
  split
  · rfl
  · rw [headerLoop_eq]
    dsimp only
    split
    · next empty => exact (isEmpty_iff.mp empty).symm
    · rfl

theorem isSent_of_mem_attachedLoop {sent : Cookie -> Bool} {cookie : Cookie} {cookies : List Cookie}
    (attached : cookie ∈ attachedLoop sent header cookies) : sent cookie = true := by
  induction cookies generalizing header with
  | nil => cases attached
  | cons first rest ih =>
    rw [attachedLoop] at attached
    split at attached
    · exact ih attached
    next sends =>
      split at attached
      · cases attached
      · rcases mem_cons.mp attached with rfl | later
        · exact Bool.not_eq_false _ |>.mp sends
        · exact ih later

theorem requestPath_cons (path : Text) : ∃ rest, requestPath path = '/' :: rest := by
  have begins (rest : Text) :
      ∃ more, ('/' :: rest).takeWhile (fun char => char != '?') = '/' :: more :=
    ⟨rest.takeWhile (fun char => char != '?'), rfl⟩
  cases path with
  | nil => exact begins []
  | cons first rest =>
    rw [requestPath]
    rw [isEmpty_cons, if_neg Bool.false_ne_true]
    split
    next slash =>
      cases slash
      exact begins rest
    next => exact begins (first :: rest)

theorem pathMatches_of_cookiePathMatches {cookiePath : Text}
    (matching : cookiePathMatches cookiePath (requestPath path) = true) :
    PathMatches cookiePath (requestPath path) := by
  rw [cookiePathMatches, Bool.or_eq_true, Bool.or_eq_true] at matching
  rcases matching with (root | same) | goes
  · rcases requestPath_cons path with ⟨rest, begins⟩
    rw [beq_iff_eq.mp root, begins]
    exact .inr ⟨rest, rfl, .inl rfl⟩
  · exact .inl (beq_iff_eq.mp same)
  · rw [Bool.and_eq_true] at goes
    rcases isPrefixOf_iff_prefix.mp goes.1 with ⟨rest, cut⟩
    refine .inr ⟨rest, cut.symm, ?_⟩
    rcases (Bool.or_eq_true _ _).mp goes.2 with ends | next
    · exact .inl (beq_iff_eq.mp ends)
    · refine .inr ?_
      have char := beq_iff_eq.mp next
      rw [<- cut, getElem?_append_right (Nat.le_refl _), Nat.sub_self] at char
      rw [head?_eq_getElem?]
      exact char

theorem liesIn_of_domainMatch (matching : domainMatch host domain = true) : LiesIn host domain := by
  rw [domainMatch, Bool.or_eq_true] at matching
  rcases matching with same | ends
  · exact .inl (beq_iff_eq.mp same)
  · rw [Bool.and_eq_true, Bool.and_eq_true] at ends
    rcases isSuffixOf_iff_suffix.mp ends.1.2 with ⟨front, cut⟩
    have longer := of_decide_eq_true ends.1.1
    have dot := beq_iff_eq.mp ends.2
    rw [<- cut, length_append] at longer dot
    have last : front.getLast? = some '.' := by
      rw [getLast?_eq_getElem?]
      rw [getElem?_append_left (by omega)] at dot
      rw [<- dot]
      congr 1
      omega
    rcases getLast?_eq_some_iff.mp last with ⟨start, rfl⟩
    refine .inr ⟨start, ?_⟩
    rw [<- cut, append_assoc]
    rfl

theorem canonicalHost_of_plain (plain : IsPlain host) (valid : (canonicalHost host).isEmpty = false)
    : canonicalHost host = hostName host := by
  rw [canonicalHost] at valid ⊢
  rw [IsPlain, hostName] at plain
  rw [hostName]
  generalize toAsciiLowercase (trimEndMatches '.' (trim host)) = name
    at plain valid ⊢
  split at valid
  · cases valid
  next accepted =>
    rw [if_neg accepted]
    have whole {text : Text} (uncut : ':' ∉ text) (rest : Text) :
        (text ++ ':' :: rest).takeWhile (fun char => char != ':') = text := by
      rw [takeWhile_append_of_pos]
      · rw [takeWhile_cons_of_neg (by decide), append_nil]
      · intro char listed
        refine bne_iff_ne.mpr ?_
        rintro rfl
        exact uncut listed
    cases split : splitOnce [':'] name with
    | none =>
      refine takeWhile_eq_self_iff.mpr fun char listed => bne_iff_ne.mpr ?_
      rintro rfl
      exact not_mem_of_splitOnce split listed
    | some parts =>
      rcases parts with ⟨front, port⟩
      rw [split] at plain
      dsimp only at plain ⊢
      have cut := splitOnce_sound split
      split
      next digits =>
        rw [if_pos digits] at plain
        rw [cut]
        exact whole plain port
      next other =>
        rw [if_neg other, cut] at plain
        exact absurd (mem_append_right front mem_cons_self) plain

/-- The hosts that the jar tells apart as the names do: where a `Domain` is set, domain
names; otherwise hosts without a colon but that of a port, or one host. -/
def ScopedByName (setter header receiver : Text) : Prop :=
  match domainAttribute header with
  | none => (IsPlain setter ∧ IsPlain receiver) ∨ hostName receiver = hostName setter
  | some domain => IsDomainName setter ∧ IsDomainName receiver ∧ IsPlain domain

theorem not_mem_of_liesIn {name : Text} {char : Char} (lies : LiesIn name domain)
    (absent : char ∉ name) : char ∉ domain := by
  rcases lies with same | ⟨front, cut⟩
  · rw [<- same]
    exact absent
  · intro listed
    rw [cut] at absent
    exact absent (mem_append_right front (mem_cons_of_mem _ listed))

/-- A stored cookie that goes to a request is in scope if and only if the hosts are such
that the jar tells them apart. -/
theorem attached_in_scope_iff {scheme setter path header : Text} {parsed : ParsedCookie}
    {cookies : List Cookie} {requestScheme receiver requested : Text} {scriptVisibleOnly : Bool}
    (accepted : acceptedCookie scheme setter path header = some parsed)
    (attached : parsed.cookie ∈
      attachedCookies cookies requestScheme receiver requested scriptVisibleOnly) :
    InScope setter header parsed.cookie requestScheme receiver requested <->
      ScopedByName setter header receiver := by
  rcases acceptedCookie_attributed accepted with
    ⟨setterValid, _, start, _, insecure, hostOnly, own, attributed⟩
  have domains := attributed.domain
  have secure := attributed.secure
  rw [insecure, Bool.false_or] at secure
  rw [attachedCookies] at attached
  split at attached
  · cases attached
  next receiverValid =>
    have receiverValid := Bool.eq_false_iff.mpr receiverValid
    have sent := isSent_of_mem_attachedLoop attached
    rw [Cookie.isSent, Bool.and_eq_true, Bool.and_eq_true, Bool.and_eq_true] at sent
    rcases sent with ⟨⟨_, tls⟩, hosts, paths⟩
    constructor
    · intro inScope
      have host := inScope.host
      rw [ScopedByName]
      cases attr : domainAttribute header with
      | none =>
        rw [attr] at host
        exact .inr host
      | some domain =>
        rw [attr] at host
        exact ⟨host.1, host.2.1, not_mem_of_liesIn host.2.2.1 host.1.1⟩
    · intro apart
      refine ⟨?_, pathMatches_of_cookiePathMatches paths, fun asked => ?_⟩
      · rw [ScopedByName] at apart
        rw [cookieDomainMatches] at hosts
        cases attr : domainAttribute header with
        | none =>
          rw [attr] at apart domains
          rcases apart with ⟨plainSetter, plainReceiver⟩ | same
          · rw [domains.1, domains.2, hostOnly, own, if_pos rfl,
              canonicalHost_of_plain plainSetter setterValid,
              canonicalHost_of_plain plainReceiver receiverValid] at hosts
            exact beq_iff_eq.mp hosts
          · exact same
        | some domain =>
          rw [attr] at apart domains
          rcases apart with ⟨setterNamed, receiverNamed, plain⟩
          rcases domains with ⟨shared, named, domainValid, within⟩
          rw [named] at domainValid within hosts
          rw [shared, if_neg Bool.false_ne_true] at hosts
          rw [canonicalHost_of_plain plain domainValid] at within hosts
          rw [canonicalHost_of_plain setterNamed.1 setterValid] at within
          rw [canonicalHost_of_plain receiverNamed.1 receiverValid] at hosts
          exact ⟨setterNamed, receiverNamed, liesIn_of_domainMatch within,
            liesIn_of_domainMatch hosts⟩
      · rw [secure, asked, Bool.true_and, Bool.not_eq_true', Bool.not_eq_false'] at tls
        exact tls

/-- A jar with the cookie that a header of a host set. -/
def jarOf (setter header : String) : List Cookie :=
  (storeSetCookie [] "http".toList setter.toList ['/'] header.toList).2

/-- The cookie of one address goes to another that ends in the same two numbers, and the
cookie of one IPv6 address to another that starts with the same group. -/
theorem cookie_leaves_scope : (Exists fun parsed =>
      acceptedCookie "http".toList "1.2.3.4".toList ['/'] "a=b; Domain=3.4".toList = some parsed ∧
      parsed.cookie ∈ attachedCookies (jarOf "1.2.3.4" "a=b; Domain=3.4") "http".toList
        "5.6.3.4".toList ['/'] false ∧
      ¬ InScope "1.2.3.4".toList "a=b; Domain=3.4".toList parsed.cookie "http".toList
        "5.6.3.4".toList ['/']) ∧
    (Exists fun parsed =>
      acceptedCookie "http".toList "fe80::1".toList ['/'] "a=b".toList = some parsed ∧
      parsed.cookie ∈ attachedCookies (jarOf "fe80::1" "a=b") "http".toList
        "fe80::2".toList ['/'] false ∧
      ¬ InScope "fe80::1".toList "a=b".toList parsed.cookie "http".toList
        "fe80::2".toList ['/']) := by
  constructor
  · refine ⟨⟨⟨['a'], ['b'], "3.4".toList, ['/'], false, false, false⟩, false⟩, by decide,
      by decide, fun inScope => ?_⟩
    have host := inScope.host
    rw [show domainAttribute "a=b; Domain=3.4".toList = some "3.4".toList by decide] at host
    have literal : (parseIpv4Literal (hostName "1.2.3.4".toList)).isSome = true := by
      decide
    rw [host.1.2] at literal
    cases literal
  · refine ⟨⟨⟨['a'], ['b'], "fe80".toList, ['/'], false, false, true⟩, false⟩, by decide,
      by decide, fun inScope => ?_⟩
    have host := inScope.host
    rw [show domainAttribute "a=b".toList = none by decide] at host
    exact absurd host (by decide)

/-- A domain cookie of one host at another. -/
theorem domain_cookie_in_scope :
    InScope "www.example.com".toList "a=b; Domain=example.com; Path=/x".toList
      ⟨['a'], ['b'], "example.com".toList, "/x".toList, false, false, false⟩ "http".toList
      "Shop.Example.com:80".toList "/x/y?z".toList := by
  have accepted : acceptedCookie "http".toList "www.example.com".toList ['/']
      "a=b; Domain=example.com; Path=/x".toList = some ⟨⟨['a'], ['b'], "example.com".toList,
        "/x".toList, false, false, false⟩, false⟩ := by decide
  have attached : ⟨['a'], ['b'], "example.com".toList, "/x".toList, false, false, false⟩ ∈
      attachedCookies (jarOf "www.example.com" "a=b; Domain=example.com; Path=/x") "http".toList
        "Shop.Example.com:80".toList "/x/y?z".toList false := by decide
  refine (attached_in_scope_iff accepted attached).mpr ?_
  rw [ScopedByName, show domainAttribute "a=b; Domain=example.com; Path=/x".toList =
    some "example.com".toList by decide]
  exact ⟨⟨by decide, by decide⟩, ⟨by decide, by decide⟩, by decide⟩

end CoolOs.Web
