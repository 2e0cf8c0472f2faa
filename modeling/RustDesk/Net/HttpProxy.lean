import RustDesk.Common.Base64
import RustDesk.Common.BufReader
import RustDesk.Common.Utf8Boundaries
import RustDesk.Net.HostPortLaws

/-!
# The tunnel through an HTTP proxy

References: `libs/hbb_common/src/proxy.rs` (`Auth`, `http_connect`, `make_request`, `get_domain_and_port`,
`get_response`, `recv_and_check_response`).

The parser of the response is that of httparse, a parameter: `Httparse.Correct` is what it does with a head that is
whole and with one that is not. Names are DNS names.
-/

namespace RustDesk.Net

/-- `MAXIMUM_RESPONSE_HEADER_LENGTH` -/
def maximumResponseHeaderLength : ℕ := 4096

/-- `MAXIMUM_RESPONSE_HEADERS` -/
def maximumResponseHeaders : ℕ := 16

inductive ProxyError
  | ioError
  | endOfFile
  | maximumResponseHeaderLengthExceeded (len : ℕ)
  | httpParseError
  | noHttpCode
  | httpCode200 (code : ℕ)
deriving DecidableEq

/-! ## The request -/

structure Auth where
  userName : String
  password : String
deriving DecidableEq

namespace Auth

variable (auth : Auth)

def getBasicAuthorization : List Char :=
  (Base64.encode (Utf8.bytes (auth.userName ++ ":" ++ auth.password))).map fun b => Char.ofNat b.toNat

def getProxyAuthorization : List Char :=
  "Proxy-Authorization: Basic ".toList ++ (auth.getBasicAuthorization ++ ['\r', '\n'])

end Auth

inductive TargetAddr
  | ip (addr : SocketAddr)
  | domain (name : DnsName) (port : UInt16)

def getDomainAndPort : TargetAddr → List Char × UInt16
  | .ip addr => (addr.ip.toString.toList, addr.port)
  | .domain name port => (name.text, port)

/-- `{host}:{port}` -/
def hostPort (host : List Char) (port : UInt16) : List Char := host ++ ':' :: Nat.toDigits 10 port.toNat

def makeRequest (auth : Option Auth) (host : List Char) (port : UInt16) : List Char :=
  "CONNECT ".toList ++ (hostPort host port ++ (" HTTP/1.1\r\nHost: ".toList ++ (hostPort host port ++
    (['\r', '\n'] ++ ((auth.map Auth.getProxyAuthorization).getD [] ++ ['\r', '\n'])))))

/-! ## The response -/

/-- How far the parser got: through the head, which has so many bytes, or not. -/
inductive ParseStatus
  | complete (len : ℕ)
  | incomplete
deriving DecidableEq

/-- What is read here of `httparse::Response`. -/
structure ParsedResponse where
  status : ParseStatus
  code : Option ℕ
deriving DecidableEq

/-- `httparse::Response::parse` with room for so many fields, `none` being an error. -/
abbrev Httparse := ℕ → List UInt8 → Option ParsedResponse

def crlfcrlf : List UInt8 := [13, 10, 13, 10]

/-- What has been taken from the stream, what has not, and how it went. -/
structure Reading where
  taken : List UInt8
  stream : BufReader UInt8
  result : Except ProxyError Unit

/-- `get_response`, of which `response` has been read. -/
def getResponse (response : List UInt8) (stream : BufReader UInt8) : Reading :=
  if _h : (BufReader.readUntil 10 stream.buffer stream.reads).1 = [] then ⟨response, stream, .error .endOfFile⟩
  else
    let line := (BufReader.readUntil 10 stream.buffer stream.reads).1
    let stream := (BufReader.readUntil 10 stream.buffer stream.reads).2
    if line.toByteArray.validateUTF8 then
      if maximumResponseHeaderLength < (response ++ line).length then
        ⟨response ++ line, stream, .error (.maximumResponseHeaderLengthExceeded (response ++ line).length)⟩
      else if crlfcrlf <:+ response ++ line then ⟨response ++ line, stream, .ok ()⟩
      else getResponse (response ++ line) stream
    else ⟨response ++ line, stream, .error .ioError⟩
termination_by stream.rest.length
decreasing_by exact BufReader.rest_lt _h

def checkCode : Option ParsedResponse → Except ProxyError Unit
  | none => .error .httpParseError
  | some ⟨_, none⟩ => .error .noHttpCode
  | some ⟨_, some code⟩ => if code = 200 then .ok () else .error (.httpCode200 code)

section HttpConnect

variable (parse : Httparse)

def recvAndCheckResponse (stream : BufReader UInt8) : Reading :=
  let reading := getResponse [] stream
  match reading.result with
  | .ok () => { reading with result := checkCode (parse maximumResponseHeaders reading.taken) }
  | .error _ => reading

/-- `http_connect`: the request, and what comes of the response. -/
def httpConnect (auth : Option Auth) (target : TargetAddr) (reads : Reads UInt8) : List Char × Reading :=
  let (domain, port) := getDomainAndPort target
  (makeRequest auth domain port, recvAndCheckResponse parse ⟨[], reads⟩)

end HttpConnect

/-! ## What is meant by a tunnel -/

/-- An authority: a host with colons stands in brackets. -/
def authority (host : List Char) (port : UInt16) : List Char :=
  (if ':' ∈ host then '[' :: (host ++ [']']) else host) ++ ':' :: Nat.toDigits 10 port.toNat

def Visible (text : List Char) : Prop := ∀ c ∈ text, 33 ≤ c.toNat ∧ c.toNat ≤ 126

structure Field where
  name : List Char
  value : List (List Char)

namespace Field

variable (f : Field)

/-- The words of the value have one space between one and the next. -/
def text : List Char := f.name ++ ([':', ' '] ++ (List.intercalate [' '] f.value ++ ['\r', '\n']))

structure WellFormed : Prop where
  name_ne : f.name ≠ []
  name : ∀ c ∈ f.name, c.isAlphanum = true ∨ c = '-'
  value : ∀ word ∈ f.value, word ≠ [] ∧ Visible word

end Field

/-- A CONNECT request for an authority: the line, the fields with that authority for the one host, an empty line. -/
structure IsConnectRequest (authority text : List Char) : Prop where
  visible : Visible authority
  fields : ∃ fields : List Field, (∀ f ∈ fields, f.WellFormed) ∧
    (fields.filter fun f => f.name = "Host".toList).map Field.value = [[authority]] ∧
    text = "CONNECT ".toList ++ (authority ++ (" HTTP/1.1\r\n".toList ++
      (fields.flatMap Field.text ++ ['\r', '\n'])))

/-- What httparse does. -/
structure Httparse.Correct (parse : Httparse) : Prop where
  /-- A whole head ends with a line feed. -/
  complete : ∀ fields bytes len code, parse fields bytes = some ⟨.complete len, code⟩ →
    len ≤ bytes.length ∧ [10] <:+ bytes.take len
  /-- What is behind a whole head is not looked at. -/
  behind : ∀ fields bytes bytes' len code, parse fields bytes = some ⟨.complete len, code⟩ →
    bytes.take len <+: bytes' → parse fields bytes' = some ⟨.complete len, code⟩
  /-- A head with a status is whole when there is an empty line. -/
  emptyLine : ∀ fields bytes code, crlfcrlf <:+ bytes → parse fields bytes ≠ some ⟨.incomplete, some code⟩

/-- A head that opens the tunnel. -/
structure OpeningHead (parse : Httparse) (head : List UInt8) : Prop where
  text : Utf8.IsText head
  length_le : head.length ≤ maximumResponseHeaderLength
  parsed : parse maximumResponseHeaders head = some ⟨.complete head.length, some 200⟩

/-- The tunnel is transparent. -/
structure TransparentTunnel (parse : Httparse) (auth : Option Auth) (target : TargetAddr) (reads : Reads UInt8) :
    Prop where
  request : IsConnectRequest (authority (getDomainAndPort target).1 (getDomainAndPort target).2)
    (httpConnect parse auth target reads).1
  succeeds : (httpConnect parse auth target reads).2.result = .ok () ↔
    ∃ head, OpeningHead parse head ∧ head <+: reads.flatten
  delivers : (httpConnect parse auth target reads).2.result = .ok () →
    ∀ head, OpeningHead parse head → head <+: reads.flatten →
      head ++ (httpConnect parse auth target reads).2.stream.rest = reads.flatten
  bounded : (httpConnect parse auth target reads).2.taken.length ≤ maximumResponseHeaderLength

/-- No address that has colons. -/
def TargetAddr.IsIpv6 : TargetAddr → Prop
  | .ip ⟨.v6 _, _⟩ => True
  | _ => False

/-- The empty line at the end of a head is the first one of the stream, with carriage returns. -/
def EndsAtEmptyLine (head : List UInt8) : Prop :=
  crlfcrlf <:+ head ∧ ∀ t, t <+: head → crlfcrlf <:+ t → t = head

/-- There is nothing beyond what may be read, or something before that stops the reading: an empty line, or a line
that is no text. -/
def StopsInTime (stream : List UInt8) : Prop :=
  stream.length ≤ maximumResponseHeaderLength ∨
    ∃ t, t <+: stream ∧ t.length ≤ maximumResponseHeaderLength ∧ (crlfcrlf <:+ t ∨ [10] <:+ t ∧ ¬Utf8.IsText t)

/-! ## The request is for an authority -/

variable {c : Char}

theorem toNat_of_isAlphanum (h : c.isAlphanum = true) : 33 ≤ c.toNat ∧ c.toNat ≤ 126 := by
  have hbetween : ∀ {low high : ℕ}, 33 ≤ low → high ≤ 126 → low ≤ c.toNat ∧ c.toNat ≤ high →
      33 ≤ c.toNat ∧ c.toNat ≤ 126 := by
    intro low high hlow hhigh hc
    omega
  rcases Bool.or_eq_true_iff.mp h with halpha | hdigit
  · rcases Bool.or_eq_true_iff.mp halpha with hupper | hlower
    · exact @hbetween 65 90 (by decide) (by decide) (of_decide_eq_true hupper)
    · obtain ⟨hlow, hhigh⟩ := Bool.and_eq_true_iff.mp hlower
      exact @hbetween 97 122 (by decide) (by decide) ⟨of_decide_eq_true hlow, of_decide_eq_true hhigh⟩
  · exact @hbetween 48 57 (by decide) (by decide) (Char.isDigit_iff_toNat.mp hdigit)

theorem visible_toDigits (n : ℕ) : Visible (Nat.toDigits 10 n) := by
  intro c hc
  have hdigit := Nat.isDigit_of_mem_toDigits (by decide) (by decide) hc
  refine toNat_of_isAlphanum ?_
  rw [Char.isAlphanum, hdigit, Bool.or_true]

/-- What is joined is the pieces and what stands between them. -/
theorem mem_intercalate {sep : List Char} {texts : List (List Char)}
    (h : c ∈ List.intercalate sep texts) : c ∈ sep ∨ ∃ text ∈ texts, c ∈ text := by
  induction texts using List.twoStepInduction with
  | nil => cases h
  | singleton text =>
    rw [List.intercalate_singleton] at h
    exact .inr ⟨text, List.mem_singleton_self _, h⟩
  | cons_cons text text' texts _ ih =>
    rw [List.intercalate_cons_cons, List.mem_append, List.mem_append] at h
    rcases h with (h | h) | h
    · exact .inr ⟨text, List.mem_cons_self, h⟩
    · exact .inl h
    · rcases ih text' h with hsep | ⟨t, ht, hc⟩
      · exact .inl hsep
      · exact .inr ⟨t, List.mem_cons_of_mem _ ht, hc⟩

theorem mem_displayV4 {octets : List UInt8} (h : c ∈ IpAddr.displayV4 octets) : c = '.' ∨ c.isDigit = true := by
  rcases mem_intercalate h with hdot | ⟨text, htext, hc⟩
  · exact .inl (List.mem_singleton.mp hdot)
  · obtain ⟨octet, -, rfl⟩ := List.mem_map.mp htext
    exact .inr (Nat.isDigit_of_mem_toDigits (by decide) (by decide) hc)

theorem visible_displayV4 (octets : List UInt8) : Visible (IpAddr.displayV4 octets) := by
  intro c hc
  rcases mem_displayV4 hc with rfl | hdigit
  · decide
  · refine toNat_of_isAlphanum ?_
    rw [Char.isAlphanum, hdigit, Bool.or_true]

theorem DnsName.visible_text (name : DnsName) : Visible name.text := by
  intro c hc
  by_cases halphanum : c.isAlphanum = true
  · exact toNat_of_isAlphanum halphanum
  · by_cases hdash : c = '-'
    · subst hdash
      decide
    · by_cases hdot : c = '.'
      · subst hdot
        decide
      · exact absurd hc (name.notMem_text (Bool.eq_false_of_not_eq_true halphanum) hdash hdot)

theorem bracket_notMem_toDigits (n : ℕ) : '[' ∉ Nat.toDigits 16 n := by
  have hdigit : ∀ i : Fin 16, Nat.digitChar i.val ≠ '[' := by decide
  induction n using Nat.strongRecOn with
  | _ n ih =>
    rcases Nat.lt_or_ge n 16 with hlt | hge
    · rw [Nat.toDigits_of_lt_base hlt, List.mem_singleton]
      exact (hdigit ⟨n, hlt⟩).symm
    · rw [Nat.toDigits_of_base_le (by decide) hge, List.mem_append, List.mem_singleton, not_or]
      exact ⟨ih _ (by omega), (hdigit ⟨n % 16, Nat.mod_lt _ (by decide)⟩).symm⟩

theorem bracket_notMem_fmtSubslice (chunk : List ℕ) : '[' ∉ IpAddr.fmtSubslice chunk := by
  intro h
  rcases mem_intercalate h with hcolon | ⟨text, htext, hc⟩
  · exact absurd hcolon (by decide)
  · obtain ⟨n, -, rfl⟩ := List.mem_map.mp htext
    exact bracket_notMem_toDigits n hc

/-- An IPv6 address comes without brackets. -/
theorem bracket_notMem_displayV6 (octets : List UInt8) : '[' ∉ IpAddr.displayV6 octets := by
  unfold IpAddr.displayV6
  split
  · rw [List.mem_append, not_or]
    refine ⟨by decide, fun h => ?_⟩
    rcases mem_displayV4 h with hdot | hdigit
    · exact absurd hdot (by decide)
    · exact absurd hdigit (by decide)
  · dsimp only
    split
    · rw [List.mem_append, List.mem_append, not_or, not_or]
      exact ⟨⟨bracket_notMem_fmtSubslice _, by decide⟩, bracket_notMem_fmtSubslice _⟩
    · exact bracket_notMem_fmtSubslice _

theorem visible_hostPort {host : List Char} (h : Visible host) (port : UInt16) : Visible (hostPort host port) := by
  intro c hc
  rw [hostPort, List.mem_append, List.mem_cons] at hc
  rcases hc with hc | rfl | hc
  · exact h c hc
  · decide
  · exact visible_toDigits _ c hc

theorem Auth.visible_getBasicAuthorization (auth : Auth) : Visible auth.getBasicAuthorization := by
  have hall : ∀ i : Fin 64, 33 ≤ (Base64.digit i).toNat ∧ (Base64.digit i).toNat ≤ 126 := by decide
  intro c hc
  obtain ⟨b, hb, rfl⟩ := List.mem_map.mp hc
  have hbyte := Base64.encode_all (P := fun b => 33 ≤ b.toNat ∧ b.toNat ≤ 126) (fun n hn => hall ⟨n, hn⟩) (by decide)
    _ b hb
  have htoNat : ∀ i : Fin 128, (Char.ofNat i).toNat = i := by decide
  have hlt : b.toNat < 128 := by omega
  rw [htoNat ⟨b.toNat, hlt⟩]
  exact hbyte

theorem Auth.getBasicAuthorization_ne (auth : Auth) : auth.getBasicAuthorization ≠ [] := by
  intro h
  have hlen := congrArg List.length h
  have hbytes : 0 < (Utf8.bytes (auth.userName ++ ":" ++ auth.password)).length := by
    rw [Utf8.bytes_append, Utf8.bytes_append, List.length_append, List.length_append]
    have hone : (Utf8.bytes ":").length = 1 := rfl
    omega
  rw [getBasicAuthorization, List.length_map, Base64.encode_length, List.length_nil] at hlen
  omega

/-- The field of the host. -/
def hostField (value : List Char) : Field := ⟨"Host".toList, [value]⟩

theorem wellFormed_hostField {value : List Char} (hne : value ≠ []) (h : Visible value) :
    (hostField value).WellFormed where
  name_ne := show "Host".toList ≠ [] by decide
  name := by
    have hname : ("Host".toList.all fun c => c.isAlphanum || c = '-') = true := rfl
    intro c hc
    rcases Bool.or_eq_true_iff.mp (List.all_eq_true.mp hname c hc) with hc | hc
    · exact .inl hc
    · exact .inr (of_decide_eq_true hc)
  value := List.forall_mem_singleton.mpr ⟨hne, h⟩

def authorizationField (auth : Auth) : Field :=
  ⟨"Proxy-Authorization".toList, ["Basic".toList, auth.getBasicAuthorization]⟩

theorem wellFormed_authorizationField (auth : Auth) : (authorizationField auth).WellFormed where
  name_ne := show "Proxy-Authorization".toList ≠ [] by decide
  name := by
    have hname : ("Proxy-Authorization".toList.all fun c => c.isAlphanum || c = '-') = true := rfl
    intro c hc
    rcases Bool.or_eq_true_iff.mp (List.all_eq_true.mp hname c hc) with hc | hc
    · exact .inl hc
    · exact .inr (of_decide_eq_true hc)
  value := by
    have hbasic : ("Basic".toList.all fun c => decide (33 ≤ c.toNat ∧ c.toNat ≤ 126)) = true := rfl
    refine List.forall_mem_cons.mpr ⟨⟨by decide, ?_⟩, List.forall_mem_singleton.mpr
      ⟨auth.getBasicAuthorization_ne, auth.visible_getBasicAuthorization⟩⟩
    intro c hc
    exact of_decide_eq_true (List.all_eq_true.mp hbasic c hc)

theorem text_authorizationField (auth : Auth) : (authorizationField auth).text = auth.getProxyAuthorization := by
  have hsplit : "Proxy-Authorization".toList ++ ([':', ' '] ++ ("Basic".toList ++ [' '])) =
      "Proxy-Authorization: Basic ".toList := rfl
  have hvalue : List.intercalate [' '] (authorizationField auth).value =
      "Basic".toList ++ ([' '] ++ auth.getBasicAuthorization) := by
    show List.intercalate [' '] ["Basic".toList, auth.getBasicAuthorization] = _
    rw [List.intercalate_cons_cons, List.intercalate_singleton, List.append_assoc]
  rw [Field.text, hvalue]
  refine Eq.trans ?_ (congrArg (· ++ (auth.getBasicAuthorization ++ ['\r', '\n'])) hsplit)
  simp only [List.append_assoc]
  rfl

/-- A request is its line, the fields and an empty line. -/
theorem makeRequest_eq (auth : Option Auth) (host : List Char) (port : UInt16) :
    makeRequest auth host port = "CONNECT ".toList ++ (hostPort host port ++ (" HTTP/1.1\r\n".toList ++
      ((hostField (hostPort host port) :: (auth.map authorizationField).toList).flatMap Field.text ++
        ['\r', '\n']))) := by
  have hsplit : " HTTP/1.1\r\nHost: ".toList = " HTTP/1.1\r\n".toList ++ ("Host".toList ++ [':', ' ']) := rfl
  have hauth : (auth.map Auth.getProxyAuthorization).getD [] =
      (auth.map authorizationField).toList.flatMap Field.text := by
    cases auth with
    | none => rfl
    | some auth => exact (text_authorizationField auth).symm.trans (List.append_nil _).symm
  have hhost : (hostField (hostPort host port)).text =
      "Host".toList ++ ([':', ' '] ++ (hostPort host port ++ ['\r', '\n'])) := by
    show "Host".toList ++ ([':', ' '] ++ (List.intercalate [' '] [hostPort host port] ++ ['\r', '\n'])) = _
    rw [List.intercalate_singleton]
  rw [List.flatMap_cons, hhost, ← hauth]
  refine (congrArg (fun line => "CONNECT ".toList ++ (hostPort host port ++ (line ++ (hostPort host port ++
    (['\r', '\n'] ++ ((auth.map Auth.getProxyAuthorization).getD [] ++ ['\r', '\n'])))))) hsplit).trans ?_
  simp only [List.append_assoc]

/-- **The request is for the authority of a host without colons**, and for no other. -/
theorem isConnectRequest_iff {host : List Char} {port : UInt16} (hvisible : ':' ∉ host → Visible host)
    (hbracket : '[' ∉ host) (auth : Option Auth) :
    IsConnectRequest (authority host port) (makeRequest auth host port) ↔ ':' ∉ host := by
  constructor
  · rintro ⟨-, fields, -, -, htext⟩ hcolon
    have hrest := List.append_cancel_left htext
    rw [authority, if_pos hcolon, hostPort] at hrest
    cases host with
    | nil => cases hcolon
    | cons c host =>
      obtain ⟨rfl, -⟩ := List.cons.inj hrest
      exact hbracket List.mem_cons_self
  · intro hcolon
    have hauthority : authority host port = hostPort host port := by rw [authority, if_neg hcolon, hostPort]
    have hport := visible_hostPort (hvisible hcolon) port
    have hhost := wellFormed_hostField (List.append_ne_nil_of_right_ne_nil _ (List.cons_ne_nil _ _)) hport
    have hname : "Proxy-Authorization".toList ≠ "Host".toList := by decide
    rw [hauthority]
    refine ⟨hport, _, List.forall_mem_cons.mpr ⟨hhost, ?_⟩, ?_, makeRequest_eq auth host port⟩
    · intro f hf
      rw [Option.mem_toList, Option.map_eq_some_iff] at hf
      obtain ⟨auth, -, rfl⟩ := hf
      exact wellFormed_authorizationField auth
    · rw [List.filter_cons_of_pos (by exact decide_eq_true rfl)]
      cases auth with
      | none => rfl
      | some auth =>
        rw [Option.map_some, Option.toList_some, List.filter_cons_of_neg, List.filter_nil]
        · rfl
        · exact fun h => hname (of_decide_eq_true h)

theorem isConnectRequest_target (auth : Option Auth) (target : TargetAddr) :
    IsConnectRequest (authority (getDomainAndPort target).1 (getDomainAndPort target).2)
      (makeRequest auth (getDomainAndPort target).1 (getDomainAndPort target).2) ↔ ¬target.IsIpv6 := by
  cases target with
  | domain name port =>
    have hcolon : ':' ∉ name.text := name.notMem_text (by decide) (by decide) (by decide)
    have hbracket : '[' ∉ name.text := name.notMem_text (by decide) (by decide) (by decide)
    exact iff_of_true ((isConnectRequest_iff (fun _ => name.visible_text) hbracket auth).mpr hcolon) id
  | ip addr =>
    obtain ⟨octets | octets, port⟩ := addr
    · have htext : (getDomainAndPort (.ip ⟨.v4 octets, port⟩)).1 = IpAddr.displayV4 octets.toList :=
        String.toList_ofList
      rw [htext]
      have hbracket := bracket_notMem_displayV4 octets
      exact iff_of_true ((isConnectRequest_iff (fun _ => visible_displayV4 _) hbracket auth).mpr
        (IpAddr.colon_notMem_displayV4 octets)) id
    · have htext : (getDomainAndPort (.ip ⟨.v6 octets, port⟩)).1 = IpAddr.displayV6 octets.toList :=
        String.toList_ofList
      have hcolon := IpAddr.colon_mem_displayV6 octets
      rw [htext]
      refine iff_of_false (fun h => ?_) (fun h => h trivial)
      exact (isConnectRequest_iff (fun hno => absurd hcolon hno) (bracket_notMem_displayV6 _) auth).mp h hcolon

/-! ## Reading the response -/

/-- What has been read of a head that is not over. -/
structure Unfinished (response : List UInt8) : Prop where
  text : Utf8.IsText response
  length_le : response.length ≤ maximumResponseHeaderLength
  open_ : ∀ t, t <+: response → ¬crlfcrlf <:+ t

/-- What is read of a stream. -/
structure ReadsHead (stream : List UInt8) (r : Reading) : Prop where
  append : r.taken ++ r.stream.rest = stream
  ok : r.result = .ok () →
    EndsAtEmptyLine r.taken ∧ r.taken.length ≤ maximumResponseHeaderLength ∧ Utf8.IsText r.taken
  failed : r.result ≠ .ok () → ∀ t, t <+: stream → crlfcrlf <:+ t → t.length ≤ maximumResponseHeaderLength →
    ¬Utf8.IsText t
  bounded : r.taken.length ≤ maximumResponseHeaderLength ↔ StopsInTime stream

theorem lineFeed_of_crlfcrlf {t : List UInt8} (h : crlfcrlf <:+ t) : [10] <:+ t :=
  List.IsSuffix.trans ⟨[13, 10, 13], rfl⟩ h

/-- A text may be cut behind a line feed. -/
theorem isText_of_lineFeed {t more : List UInt8} (h : Utf8.IsText (t ++ more)) (ht : [10] <:+ t) : Utf8.IsText t := by
  obtain ⟨front, rfl⟩ := ht
  rw [List.append_assoc, List.singleton_append] at h
  have hfront := (h.cut (show ¬Utf8.Continues 10 by unfold Utf8.Continues; decide)).1
  exact hfront.append ⟨['\n'], rfl⟩

section Line

variable {response line rest : List UInt8} (hresponse : Unfinished response)
  (hline : IsLine 10 line rest (line ++ rest)) {t : List UInt8}
include hresponse

theorem Unfinished.goes_on (ht : crlfcrlf <:+ t) : ¬t <+: response := fun h => hresponse.open_ t h ht

theorem Unfinished.isText_of_begin (ht : t <+: response) (hend : [10] <:+ t) : Utf8.IsText t := by
  obtain ⟨more, rfl⟩ := ht
  exact isText_of_lineFeed hresponse.text hend

include hline

/-- A head that ends later has the whole line in it. -/
theorem Unfinished.line_le (hbegin : t <+: response ++ (line ++ rest)) (ht : crlfcrlf <:+ t) :
    response ++ line <+: t :=
  hline.of_delimited hbegin (lineFeed_of_crlfcrlf ht) (hresponse.goes_on ht)

/-- What stops the reading does not come before the end of the line. -/
theorem Unfinished.stop_le (hbegin : t <+: response ++ (line ++ rest))
    (ht : crlfcrlf <:+ t ∨ [10] <:+ t ∧ ¬Utf8.IsText t) : response ++ line <+: t := by
  rcases ht with ht | ⟨hend, hnot⟩
  · exact hresponse.line_le hline hbegin ht
  · exact hline.of_delimited hbegin hend fun h => hnot (hresponse.isText_of_begin h hend)

/-- Where the reading stops in time it has not gone too far. -/
theorem Unfinished.length_le_of_stopsInTime (h : StopsInTime (response ++ (line ++ rest))) :
    (response ++ line).length ≤ maximumResponseHeaderLength := by
  rcases h with hlen | ⟨t, hbegin, hlen, ht⟩
  · rw [← List.append_assoc, List.length_append] at hlen
    omega
  · exact (hresponse.stop_le hline hbegin ht).length_le.trans hlen

/-- At the end of an empty line the head is over. -/
theorem Unfinished.endsAtEmptyLine (hend : crlfcrlf <:+ response ++ line) : EndsAtEmptyLine (response ++ line) := by
  refine ⟨hend, fun t ht hcrlf => ?_⟩
  have hle := hresponse.line_le hline (ht.trans (by rw [← List.append_assoc]; exact List.prefix_append ..)) hcrlf
  exact ht.eq_of_length_le hle.length_le

theorem Unfinished.next (htext : Utf8.IsText line) (hfits : (response ++ line).length ≤ maximumResponseHeaderLength)
    (hend : ¬crlfcrlf <:+ response ++ line) : Unfinished (response ++ line) := by
  refine ⟨hresponse.text.append htext, hfits, fun t ht hcrlf => hend ?_⟩
  have hle := hresponse.line_le hline (ht.trans (by rw [← List.append_assoc]; exact List.prefix_append ..)) hcrlf
  rw [hle.eq_of_length_le ht.length_le]
  exact hcrlf

/-- After a line that is no text there is none. -/
theorem Unfinished.not_isText (hbegin : t <+: response ++ (line ++ rest))
    (hle : response ++ line <+: t) (htext : Utf8.IsText t) : Utf8.IsText line := by
  rcases hline.shape with ⟨front, -, rfl⟩ | ⟨-, rfl⟩
  · obtain ⟨more, rfl⟩ := hle
    have hwhole := isText_of_lineFeed htext ⟨response ++ front, by rw [List.append_assoc]⟩
    exact hresponse.text.of_append hwhole
  · rw [List.append_nil] at hbegin
    rw [← hle.eq_of_length_le hbegin.length_le] at htext
    exact hresponse.text.of_append htext

/-- It stops the reading in time, or it has been too long. -/
theorem Unfinished.stopsInTime_iff (hnot : ¬Utf8.IsText line) :
    (response ++ line).length ≤ maximumResponseHeaderLength ↔ StopsInTime (response ++ (line ++ rest)) := by
  refine ⟨fun hlen => ?_, hresponse.length_le_of_stopsInTime hline⟩
  rcases hline.shape with ⟨front, -, hlf⟩ | ⟨-, rfl⟩
  · refine .inr ⟨response ++ line, ?_, hlen, .inr ⟨⟨response ++ front, ?_⟩, fun h => hnot ?_⟩⟩
    · rw [← List.append_assoc]
      exact List.prefix_append ..
    · rw [hlf, List.append_assoc]
    · exact hresponse.text.of_append h
  · rw [List.append_nil]
    exact .inl hlen

end Line

/-- One line of the loop. -/
theorem getResponse_of_ne {response : List UInt8} {stream : BufReader UInt8}
    (hne : ¬(BufReader.readUntil 10 stream.buffer stream.reads).1 = []) :
    getResponse response stream =
      let line := (BufReader.readUntil 10 stream.buffer stream.reads).1
      let rest := (BufReader.readUntil 10 stream.buffer stream.reads).2
      if line.toByteArray.validateUTF8 then
        if maximumResponseHeaderLength < (response ++ line).length then
          ⟨response ++ line, rest, .error (.maximumResponseHeaderLengthExceeded (response ++ line).length)⟩
        else if crlfcrlf <:+ response ++ line then ⟨response ++ line, rest, .ok ()⟩
        else getResponse (response ++ line) rest
      else ⟨response ++ line, rest, .error .ioError⟩ := by
  rw [getResponse, dif_neg hne]

/-- **Reading a head**, whatever the cutting. -/
theorem getResponse_spec (response : List UInt8) (stream : BufReader UInt8) (h : Unfinished response) :
    ReadsHead (response ++ stream.rest) (getResponse response stream) := by
  induction response, stream using getResponse.induct with
  | case1 response stream hnil =>
    have hline := BufReader.readUntil_isLine 10 stream
    have hrest := BufReader.rest_eq_append 10 stream
    rw [hnil] at hline hrest
    rw [hline.rest_eq_nil, List.append_nil] at hrest
    rw [getResponse, dif_pos hnil]
    refine ⟨rfl, nofun, fun _ t ht hend _ => ?_, iff_of_true h.length_le ?_⟩
    · rw [hrest, List.append_nil] at ht
      exact absurd ht (h.goes_on hend)
    · rw [hrest, List.append_nil]
      exact .inl h.length_le
  | case2 response stream hne line hvalid hlong =>
    have hline : IsLine 10 line _ _ := BufReader.readUntil_isLine 10 stream
    rw [getResponse_of_ne hne, BufReader.rest_eq_append 10 stream]
    rw [if_pos hvalid, if_pos hlong]
    refine ⟨List.append_assoc .., nofun, fun _ t ht hend hlen _ => ?_, iff_of_false (Nat.not_le.mpr hlong) fun hs => ?_⟩
    · have hle := (h.line_le hline ht hend).length_le
      omega
    · have hle := h.length_le_of_stopsInTime hline hs
      omega
  | case3 response stream hne line hvalid hfits hend =>
    have hline := BufReader.readUntil_isLine 10 stream
    rw [getResponse_of_ne hne, BufReader.rest_eq_append 10 stream]
    have hlen := Nat.not_lt.mp hfits
    rw [if_pos hvalid, if_neg hfits, if_pos hend]
    refine ⟨List.append_assoc .., fun _ => ⟨h.endsAtEmptyLine hline hend, hlen, ?_⟩, fun hne => absurd rfl hne,
      iff_of_true hlen (.inr ⟨response ++ line, ?_, hlen, .inl hend⟩)⟩
    · exact h.text.append ((Utf8.validateUTF8_iff _).mp hvalid)
    · rw [← List.append_assoc]
      exact List.prefix_append ..
  | case4 response stream hne line rest hvalid hfits hend ih =>
    have hline := BufReader.readUntil_isLine 10 stream
    rw [getResponse_of_ne hne, BufReader.rest_eq_append 10 stream]
    rw [if_pos hvalid, if_neg hfits, if_neg hend, ← List.append_assoc]
    exact ih (h.next hline ((Utf8.validateUTF8_iff _).mp hvalid) (Nat.not_lt.mp hfits) hend)
  | case5 response stream hne line hvalid =>
    have hline := BufReader.readUntil_isLine 10 stream
    rw [getResponse_of_ne hne, BufReader.rest_eq_append 10 stream]
    have hnot : ¬Utf8.IsText line := fun htext => hvalid ((Utf8.validateUTF8_iff _).mpr htext)
    rw [if_neg hvalid]
    refine ⟨List.append_assoc .., nofun, fun _ t ht hend hlen htext => hnot ?_, h.stopsInTime_iff hline hnot⟩
    exact h.not_isText hline ht (h.line_le hline ht hend) htext

theorem readsHead (reads : Reads UInt8) : ReadsHead reads.flatten (getResponse [] ⟨[], reads⟩) := by
  have hstart : Unfinished [] := by
    refine ⟨.nil, Nat.zero_le _, fun t ht hend => ?_⟩
    rw [List.prefix_nil] at ht
    exact absurd (ht ▸ hend) (by decide)
  exact getResponse_spec [] ⟨[], reads⟩ hstart

/-! ## The tunnel -/

section Tunnel

variable {parse : Httparse}

theorem checkCode_eq_ok {response : Option ParsedResponse} (h : checkCode response = .ok ()) :
    ∃ status, response = some ⟨status, some 200⟩ := by
  rcases response with _ | ⟨status, _ | code⟩
  · cases h
  · cases h
  · rw [checkCode] at h
    split at h
    · next hcode => exact ⟨status, by rw [hcode]⟩
    · cases h

/-- The check takes nothing from the stream. -/
theorem recvAndCheckResponse_taken (stream : BufReader UInt8) :
    (recvAndCheckResponse parse stream).taken = (getResponse [] stream).taken ∧
      (recvAndCheckResponse parse stream).stream = (getResponse [] stream).stream := by
  unfold recvAndCheckResponse
  dsimp only
  split <;> exact ⟨rfl, rfl⟩

theorem recvAndCheckResponse_ok_iff (stream : BufReader UInt8) :
    (recvAndCheckResponse parse stream).result = .ok () ↔ (getResponse [] stream).result = .ok () ∧
        checkCode (parse maximumResponseHeaders (getResponse [] stream).taken) = .ok () := by
  unfold recvAndCheckResponse
  dsimp only
  split
  · next hok => exact ⟨fun h => ⟨hok, h⟩, fun h => h.2⟩
  · next e herror =>
    constructor
    · intro h
      rw [herror] at h
      cases h
    · exact fun h => h.1

/-- **A response that is taken has a head that opens the tunnel**, if not as the whole of it. -/
theorem openingHead_of_ok (hparse : parse.Correct) {reads : Reads UInt8}
    (h : (recvAndCheckResponse parse ⟨[], reads⟩).result = .ok ()) :
    ∃ head, OpeningHead parse head ∧ head <+: (getResponse [] ⟨[], reads⟩).taken := by
  obtain ⟨hok, hcheck⟩ := (recvAndCheckResponse_ok_iff _).mp h
  obtain ⟨⟨hend, -⟩, hlen, htext⟩ := (readsHead reads).ok hok
  obtain ⟨status, hparsed⟩ := checkCode_eq_ok hcheck
  cases status with
  | incomplete => exact absurd hparsed (hparse.emptyLine _ _ _ hend)
  | complete len =>
    obtain ⟨hle, hlf⟩ := hparse.complete _ _ _ _ hparsed
    have htake : (List.take len (getResponse [] ⟨[], reads⟩).taken).length = len := by
      rw [List.length_take]
      omega
    refine ⟨_, ⟨?_, ?_, ?_⟩, List.take_prefix len _⟩
    · refine @isText_of_lineFeed _ (List.drop len (getResponse [] ⟨[], reads⟩).taken) ?_ hlf
      rw [List.take_append_drop]
      exact htext
    · omega
    · rw [htake]
      exact hparse.behind _ _ _ _ _ hparsed (List.prefix_refl _)

/-- What ends at the first empty line of a stream is unique. -/
theorem EndsAtEmptyLine.unique {head head' stream : List UInt8} (h : EndsAtEmptyLine head)
    (h' : EndsAtEmptyLine head') (hbegin : head <+: stream) (hbegin' : head' <+: stream) : head = head' := by
  rcases List.prefix_or_prefix_of_prefix hbegin hbegin' with hle | hle
  · exact h'.2 head hle h.1
  · exact (h.2 head' hle h'.1).symm

/-- **The tunnel is transparent** for hosts without colons, for heads that end at the first empty line, and for
streams that stop the reading in time. -/
theorem transparentTunnel_iff (hparse : parse.Correct) (auth : Option Auth) (target : TargetAddr)
    (reads : Reads UInt8) :
    TransparentTunnel parse auth target reads ↔ ¬target.IsIpv6 ∧
      (∀ head, OpeningHead parse head → head <+: reads.flatten → EndsAtEmptyLine head) ∧
      StopsInTime reads.flatten := by
  have hreads := readsHead reads
  obtain ⟨htaken, hstream⟩ := @recvAndCheckResponse_taken parse ⟨[], reads⟩
  constructor
  · rintro ⟨hrequest, hsucceeds, hdelivers, hbounded⟩
    refine ⟨(isConnectRequest_target auth target).mp hrequest, fun head hhead hbegin => ?_, ?_⟩
    · have hok := hsucceeds.mpr ⟨head, hhead, hbegin⟩
      have hrest := hdelivers hok head hhead hbegin
      have hends := (hreads.ok ((recvAndCheckResponse_ok_iff _).mp hok).1).1
      -- both leave the same behind them
      rw [← hreads.append, ← hstream] at hrest
      rw [List.append_cancel_right hrest]
      exact hends
    · refine hreads.bounded.mp ?_
      rw [← htaken]
      exact hbounded
  · rintro ⟨htarget, hends, hstops⟩
    -- a head that opens the tunnel is all that is taken
    have hall : ∀ head, OpeningHead parse head → head <+: reads.flatten →
        (getResponse [] ⟨[], reads⟩).result = .ok () ∧ (getResponse [] ⟨[], reads⟩).taken = head := by
      intro head hhead hbegin
      have hend := hends head hhead hbegin
      have hok : (getResponse [] ⟨[], reads⟩).result = .ok () := by
        by_contra hfailed
        exact hreads.failed hfailed head hbegin hend.1 hhead.length_le hhead.text
      refine ⟨hok, (hreads.ok hok).1.unique hend ?_ hbegin⟩
      rw [← hreads.append]
      exact List.prefix_append ..
    refine ⟨(isConnectRequest_target auth target).mpr htarget, ⟨fun hok => ?_, ?_⟩, fun hok head hhead hbegin => ?_, ?_⟩
    · obtain ⟨head, hhead, hbegin⟩ := openingHead_of_ok hparse hok
      refine ⟨head, hhead, hbegin.trans ?_⟩
      rw [← hreads.append]
      exact List.prefix_append ..
    · rintro ⟨head, hhead, hbegin⟩
      obtain ⟨hok, heq⟩ := hall head hhead hbegin
      refine (recvAndCheckResponse_ok_iff _).mpr ⟨hok, ?_⟩
      rw [heq, hhead.parsed]
      rfl
    · obtain ⟨-, heq⟩ := hall head hhead hbegin
      rw [← heq, ← hreads.append, ← hstream]
      rfl
    · refine Eq.trans_le (congrArg List.length htaken) ?_
      exact hreads.bounded.mpr hstops

/-- `HTTP/1.1 200 OK` and an empty line. -/
def okHead : List UInt8 := [72, 84, 84, 80, 47, 49, 46, 49, 32, 50, 48, 48, 32, 79, 75, 13, 10, 13, 10]

/-- A parser that knows this head only. -/
def parseOk : Httparse := fun _ bytes => if okHead <+: bytes then some ⟨.complete 19, some 200⟩ else none

theorem parseOk_eq_some {fields : ℕ} {bytes : List UInt8} {response : ParsedResponse}
    (h : parseOk fields bytes = some response) : okHead <+: bytes ∧ response = ⟨.complete 19, some 200⟩ := by
  obtain ⟨hbegin, heq⟩ := Option.ite_none_right_eq_some.mp h
  exact ⟨hbegin, (Option.some.inj heq).symm⟩

theorem correct_parseOk : parseOk.Correct where
  complete fields bytes len code h := by
    obtain ⟨⟨more, rfl⟩, heq⟩ := parseOk_eq_some h
    cases heq
    exact ⟨by rw [List.length_append]; exact Nat.le_add_right .., [72, 84, 84, 80, 47, 49, 46, 49, 32, 50, 48, 48, 32,
      79, 75, 13, 10, 13], rfl⟩
  behind fields bytes bytes' len code h htake := by
    obtain ⟨⟨more, rfl⟩, heq⟩ := parseOk_eq_some h
    cases heq
    exact if_pos htake
  emptyLine fields bytes code _ h := by
    obtain ⟨-, heq⟩ := parseOk_eq_some h
    cases heq

theorem endsAtEmptyLine_okHead : EndsAtEmptyLine okHead := by
  have hall : ∀ t ∈ okHead.inits, crlfcrlf <:+ t → t = okHead := by decide
  exact ⟨by decide, fun t ht => hall t ((List.mem_inits t okHead).mpr ht)⟩

def exampleName : DnsName := ⟨[['r', 's'], ['e', 'x', 'a', 'm', 'p', 'l', 'e']], by decide, by decide, false⟩

/-- The answer comes in two pieces, and the tunnel gives what is behind the head. -/
theorem transparentTunnel_twoReads :
    TransparentTunnel parseOk (some ⟨"user", "secret"⟩) (.domain exampleName 443)
      [⟨[72, 84, 84], by decide⟩, ⟨[80, 47, 49, 46, 49, 32, 50, 48, 48, 32, 79, 75, 13, 10, 13, 10, 1, 2, 3],
        by decide⟩] := by
  refine (transparentTunnel_iff correct_parseOk _ _ _).mpr ⟨id, fun head hhead hbegin => ?_, .inl (by decide)⟩
  obtain ⟨hle, heq⟩ := parseOk_eq_some hhead.parsed
  have hlen : head.length = 19 := ParseStatus.complete.inj (ParsedResponse.mk.inj heq).1
  rw [← hle.eq_of_length_le (by rw [hlen]; decide)]
  exact endsAtEmptyLine_okHead

/-- The request for `::1` has no brackets. -/
theorem not_transparentTunnel_ipv6 :
    ¬TransparentTunnel parseOk none (.ip ⟨.v6 #v[0, 0, 0, 0, 0, 0, 0, 0, 0, 0, 0, 0, 0, 0, 0, 1], 443⟩)
      [⟨okHead, by decide⟩] :=
  fun h => (isConnectRequest_target none _).mp h.request trivial

end Tunnel

end RustDesk.Net
