/-
# `PkiExecutor.PhoneHome.Connect` — the upgrade request

The agent connects to the URL of its configuration, under the scheme of a WebSocket
and at a path of its own, and shows who it is in two headers (`connect_url`,
`connect_request` in `phonehome.rs`).

The code asks whether the scheme is `https` and takes all others for plain text.
`request_faithful_iff` says for which URLs the request then goes where the
configuration says, over a channel no weaker: not for `wss`, and for `ftp` only where
the URL names a port.
-/
import PkiExecutor.Authz
import PkiExecutor.Lib.Url

namespace PkiExecutor

/-- Who the agent is to the backend. -/
structure IdentityConfig where
  vmId : String
  agentToken : String
  role : Role
  deriving DecidableEq, Repr

/-- Where the backend is. -/
structure BackendConfig where
  url : Option String
  deriving DecidableEq, Repr

/-- The sections of the configuration that a connection needs. -/
structure ExecutorConfig where
  identity : IdentityConfig
  backend : BackendConfig
  deriving DecidableEq, Repr

/-- An upgrade request: its URI, and its headers under their names in lower case. -/
structure UpgradeRequest where
  uri : Url
  headers : List (String × String)
  deriving DecidableEq, Repr

/-- `HeaderMap::insert` -/
def UpgradeRequest.insertHeader (r : UpgradeRequest) (name value : String) : UpgradeRequest :=
  { r with headers := (name, value) :: r.headers.filter (·.1 != name) }

/-- What the code takes from elsewhere. -/
structure Crates where
  /-- `Url::parse` -/
  parse : String → Option Url
  /-- `as_str`, then `into_client_request`, under a `Sec-WebSocket-Key` -/
  clientRequest : String → Url → Option UpgradeRequest
  /-- `HeaderValue::from_str` -/
  headerValue : String → Option String

/-- What is documented of it: the scheme of a parsed URL is that of the text, and the
URI of a request is the URL it is made from, less the fragment. -/
structure Crates.Documented (crates : Crates) : Prop where
  parse_scheme : ∀ s u, crates.parse s = some u → Url.schemeOf s = some u.scheme
  request_uri : ∀ key u r, crates.clientRequest key u = some r → r.uri = { u with fragment := none }

/-- A value, or an error with this context. -/
def context {α : Type} (o : Option α) (text : String) : Except String α :=
  match o with
  | some a => .ok a
  | none => .error text

theorem context_ok {α : Type} {o : Option α} {text : String} {a : α}
    (h : context o text = .ok a) : o = some a := by
  cases o with
  | none => cases h
  | some b => exact congrArg some (Except.ok.inj h)

theorem bind_ok {α β : Type} {x : Except String α} {f : α → Except String β} {b : β}
    (h : (x >>= f) = .ok b) : ∃ a, x = .ok a ∧ f a = .ok b := by
  cases x with
  | error e => cases h
  | ok a => exact ⟨a, rfl, h⟩

section

variable (crates : Crates)

/-- The scheme of a web socket, by that of the backend. -/
def wsScheme (url : Url) : String := if url.scheme = "https" then "wss" else "ws"

def connectPath : String := "/api/executor/connect"

/-- The backend's URL under the other scheme and path. -/
def connectUrl (config : ExecutorConfig) : Except String Url := do
  let base ← context config.backend.url "backend.url is required to connect"
  let url ← context (crates.parse base) "parsing backend.url"
  let url ← context (url.setScheme (wsScheme url)) "backend.url has an unsupported scheme"
  return url.setPath connectPath

/-- The upgrade request, with who the agent is in its headers. -/
def connectRequest (key : String) (config : ExecutorConfig) : Except String UpgradeRequest := do
  let url ← connectUrl crates config
  let request ← context (crates.clientRequest key url) "building ws upgrade request"
  let vmId ← context (crates.headerValue config.identity.vmId) "vm_id is not a valid header value"
  let request := request.insertHeader "x-executor-vm-id" vmId
  let token ← context (crates.headerValue config.identity.agentToken)
    "agent_token is not a valid header value"
  return request.insertHeader "x-executor-token" token

end

/-! ## Where the request goes -/

/-- The request goes to the configured host and port, over a channel no weaker than the
configured scheme's. -/
structure Faithful (scheme : String) (url uri : Url) : Prop where
  tls : scheme = "https" ∨ scheme = "wss" → uri.scheme = "wss"
  plain : scheme = "http" ∨ scheme = "ws" → uri.scheme = "ws"
  host_eq : uri.host = url.host
  port_eq : uri.effectivePort = url.effectivePort
  path_eq : uri.path = connectPath

/-- Another identity changes nothing but the two headers. -/
structure IdentityInHeaders (crates : Crates) (key : String) (config : ExecutorConfig)
    (request : UpgradeRequest) : Prop where
  uri_eq : ∀ key' config' request', config'.backend = config.backend →
    connectRequest crates key' config' = .ok request' → request'.uri = request.uri
  headers_eq : ∀ config' request', config'.backend = config.backend →
    connectRequest crates key config' = .ok request' →
    ∀ name, name ≠ "x-executor-vm-id" → name ≠ "x-executor-token" →
      request'.headers.lookup name = request.headers.lookup name

/-- The URLs whose channel the rewriting keeps. -/
def Kept (url : Url) : Prop :=
  url.scheme = "http" ∨ url.scheme = "https" ∨ url.scheme = "ws" ∨
    url.scheme = "ftp" ∧ url.port.isSome = true

theorem connectUrl_ok {crates : Crates} {config : ExecutorConfig} {v : Url}
    (h : connectUrl crates config = .ok v) :
    ∃ base url w, config.backend.url = some base ∧ crates.parse base = some url ∧
      url.setScheme (wsScheme url) = some w ∧ v = w.setPath connectPath := by
  obtain ⟨base, hbase, h⟩ := bind_ok h
  obtain ⟨url, hurl, h⟩ := bind_ok h
  obtain ⟨w, hw, h⟩ := bind_ok h
  exact ⟨base, url, w, context_ok hbase, context_ok hurl, context_ok hw,
    (Except.ok.inj h).symm⟩

theorem connectRequest_ok {crates : Crates} {key : String} {config : ExecutorConfig}
    {request : UpgradeRequest} (h : connectRequest crates key config = .ok request) :
    ∃ v r vmId token, connectUrl crates config = .ok v ∧ crates.clientRequest key v = some r ∧
      request = (r.insertHeader "x-executor-vm-id" vmId).insertHeader "x-executor-token" token := by
  obtain ⟨v, hv, h⟩ := bind_ok h
  obtain ⟨r, hr, h⟩ := bind_ok h
  obtain ⟨vmId, -, h⟩ := bind_ok h
  obtain ⟨token, -, h⟩ := bind_ok h
  exact ⟨v, r, vmId, token, hv, context_ok hr, (Except.ok.inj h).symm⟩

theorem lookup_insertHeader (r : UpgradeRequest) {name other : String} (value : String)
    (h : other ≠ name) :
    (r.insertHeader name value).headers.lookup other = r.headers.lookup other := by
  have hfilter : ∀ hs : List (String × String),
      (hs.filter (·.1 != name)).lookup other = hs.lookup other := by
    intro hs
    induction hs with
    | nil => rfl
    | cons x hs ih =>
        by_cases hx : x.1 = name
        · rw [List.filter_cons_of_neg (by simp [hx]), ih, List.lookup_cons,
            show (other == x.1) = false by simp [hx, h]]
        · rw [List.filter_cons_of_pos (by simp [hx]), List.lookup_cons, List.lookup_cons, ih]
  rw [UpgradeRequest.insertHeader, List.lookup_cons, beq_false_of_ne h]
  exact hfilter r.headers

section Requests

variable {crates : Crates} {key : String} {config : ExecutorConfig} {request : UpgradeRequest}

theorem uri_of_ok (hdoc : crates.Documented) {base : String} {url : Url}
    (hbase : config.backend.url = some base) (hparse : crates.parse base = some url)
    (h : connectRequest crates key config = .ok request) :
    ∃ w, url.setScheme (wsScheme url) = some w ∧
      request.uri = { w.setPath connectPath with fragment := none } := by
  obtain ⟨v, r, vmId, token, hv, hr, rfl⟩ := connectRequest_ok h
  obtain ⟨base', url', w, hbase', hparse', hw, rfl⟩ := connectUrl_ok hv
  obtain rfl : base' = base := Option.some.inj (hbase'.symm.trans hbase)
  obtain rfl : url' = url := Option.some.inj (hparse'.symm.trans hparse)
  exact ⟨w, hw, hdoc.request_uri key _ r hr⟩

theorem connectUrl_congr {config' : ExecutorConfig} (h : config'.backend = config.backend) :
    connectUrl crates config' = connectUrl crates config := by
  rw [connectUrl, connectUrl, h]

theorem identity_in_headers (hdoc : crates.Documented)
    (h : connectRequest crates key config = .ok request) :
    IdentityInHeaders crates key config request := by
  obtain ⟨v, r, vmId, token, hv, hr, rfl⟩ := connectRequest_ok h
  constructor
  · intro key' config' request' hb h'
    obtain ⟨v', r', _, _, hv', hr', rfl⟩ := connectRequest_ok h'
    rw [connectUrl_congr hb, hv] at hv'
    cases hv'
    exact (hdoc.request_uri key' v r' hr').trans (hdoc.request_uri key v r hr).symm
  · intro config' request' hb h' name hvm htok
    obtain ⟨v', r', _, _, hv', hr', rfl⟩ := connectRequest_ok h'
    rw [connectUrl_congr hb, hv] at hv'
    cases hv'
    rw [hr] at hr'
    cases hr'
    rw [lookup_insertHeader _ _ htok, lookup_insertHeader _ _ hvm, lookup_insertHeader _ _ htok,
      lookup_insertHeader _ _ hvm]

theorem setScheme_wsScheme {url w : Url} (h : url.setScheme (wsScheme url) = some w) :
    Url.special url.scheme = true ∧ w.scheme = wsScheme url := by
  obtain ⟨hspecial, hscheme, -, -⟩ := Url.setScheme_ok h
  have hws : Str.toAsciiLowercase (wsScheme url) = wsScheme url ∧
      Url.special (wsScheme url) = true := by
    unfold wsScheme
    split
    · decide
    · decide
  rw [hscheme, hws.1] at hspecial
  exact ⟨hspecial.trans hws.2, hscheme.trans hws.1⟩

/-- Where the request succeeds, it goes where the configured URL says exactly if that
URL is one the rewriting keeps. -/
theorem faithful_iff {url w : Url} (h : url.setScheme (wsScheme url) = some w) :
    Faithful url.scheme url { w.setPath connectPath with fragment := none } ↔ Kept url := by
  obtain ⟨hspecial, hscheme⟩ := setScheme_wsScheme h
  have hport := Url.effectivePort_setScheme_iff h
  rw [hscheme] at hport
  constructor
  · intro hf
    rcases Url.special_iff.mp hspecial with (hs | hs) | (hs | hs) | hs
    · exact .inl hs
    · exact .inr (.inr (.inl hs))
    · exact .inr (.inl hs)
    · have htls : w.scheme = "wss" := hf.tls (.inr hs)
      rw [hscheme, wsScheme, hs] at htls
      exact absurd htls (by decide)
    · rcases hport.mp hf.port_eq with hp | hd
      · exact .inr (.inr (.inr ⟨hs, hp⟩))
      · rw [wsScheme, hs] at hd
        exact absurd hd (by decide)
  · intro hkept
    have hhost := (Url.setScheme_ok h).2.2.2
    rw [wsScheme] at hscheme hport
    rcases hkept with hs | hs | hs | ⟨hs, hp⟩
    · rw [hs] at hscheme hport ⊢
      exact ⟨fun htls => absurd htls (by decide), fun _ => hscheme, hhost,
        hport.mpr (.inr (by decide)), rfl⟩
    · rw [hs] at hscheme hport ⊢
      exact ⟨fun _ => hscheme, fun hplain => absurd hplain (by decide), hhost,
        hport.mpr (.inr (by decide)), rfl⟩
    · rw [hs] at hscheme hport ⊢
      exact ⟨fun htls => absurd htls (by decide), fun _ => hscheme, hhost,
        hport.mpr (.inr (by decide)), rfl⟩
    · rw [hs]
      exact ⟨fun htls => absurd htls (by decide), fun hplain => absurd hplain (by decide), hhost,
        hport.mpr (.inl hp), rfl⟩

/-- An upgrade request goes where the configuration says, over a channel no weaker, and
names its sender in the two headers only, exactly if the URL is one that the rewriting
keeps. -/
theorem request_faithful_iff (crates : Crates) (hdoc : crates.Documented)
    (config : ExecutorConfig) (base : String) (url : Url) (hbase : config.backend.url = some base)
    (hparse : crates.parse base = some url) (key : String) (request : UpgradeRequest)
    (hok : connectRequest crates key config = .ok request) :
    (∃ scheme, Url.schemeOf base = some scheme ∧ Faithful scheme url request.uri ∧
      IdentityInHeaders crates key config request) ↔ Kept url := by
  obtain ⟨w, hw, huri⟩ := uri_of_ok hdoc hbase hparse hok
  have hscheme := hdoc.parse_scheme base url hparse
  rw [huri, ← faithful_iff hw]
  constructor
  · rintro ⟨scheme, hs, hf, -⟩
    obtain rfl : url.scheme = scheme := Option.some.inj (hscheme.symm.trans hs)
    exact hf
  · intro hf
    exact ⟨url.scheme, hscheme, hf, identity_in_headers hdoc hok⟩

end Requests

/-- The crates where they know one text. -/
def knowing (base : String) (url : Url) : Crates where
  parse s := if s = base then some url else none
  clientRequest key u := some ⟨{ u with fragment := none },
    [("host", u.host.getD ""), ("connection", "Upgrade"), ("upgrade", "websocket"),
      ("sec-websocket-version", "13"), ("sec-websocket-key", key)]⟩
  headerValue s := if Str.all s fun c => decide (32 ≤ c.toNat ∧ c.toNat < 127) then some s else none

theorem knowing_documented {base : String} {url : Url} (h : Url.schemeOf base = some url.scheme) :
    (knowing base url).Documented := by
  constructor
  · intro s u hs
    obtain ⟨rfl, hu⟩ := Option.ite_none_right_eq_some.mp hs
    obtain rfl := Option.some.inj hu
    exact h
  · intro key u r hr
    obtain rfl := Option.some.inj hr
    rfl

def sampleUrl (scheme : String) (port : Option Nat) : Url :=
  ⟨scheme, "", none, some "pki.example.com", port, "/", none, none⟩

def sampleConfig (url : String) : ExecutorConfig := ⟨⟨"vm-42", "secret", .operator⟩, ⟨some url⟩⟩

theorem request_faithful_https :
    ∃ scheme, Url.schemeOf "HTTPS://pki.example.com:8443" = some scheme ∧
      Faithful scheme (sampleUrl "https" (some 8443))
        ⟨"wss", "", none, some "pki.example.com", some 8443, connectPath, none, none⟩ := by
  obtain ⟨scheme, hs, hf, -⟩ := (request_faithful_iff
    (knowing "HTTPS://pki.example.com:8443" (sampleUrl "https" (some 8443)))
    (knowing_documented (by decide)) (sampleConfig "HTTPS://pki.example.com:8443") _ _ rfl rfl
    "key" _ rfl).mpr (.inr (.inl rfl))
  exact ⟨scheme, hs, hf⟩

/-- A URL of a TLS scheme is connected to in clear text. -/
theorem wss_downgraded :
    ¬ ∀ crates : Crates, crates.Documented →
      ∀ (config : ExecutorConfig) (base : String) (url : Url),
        config.backend.url = some base → crates.parse base = some url → ∀ (key : String)
        (request : UpgradeRequest), connectRequest crates key config = .ok request →
        ∃ scheme, Url.schemeOf base = some scheme ∧ Faithful scheme url request.uri ∧
          IdentityInHeaders crates key config request := by
  intro h
  obtain ⟨scheme, hs, hf, -⟩ := h (knowing "wss://pki.example.com" (sampleUrl "wss" none))
    (knowing_documented (by decide)) (sampleConfig "wss://pki.example.com") _ _ rfl rfl "key" _ rfl
  have hscheme : scheme = "wss" := Option.some.inj (hs.symm.trans (by decide))
  have htls := hf.tls (.inr hscheme)
  exact absurd htls (by decide)

end PkiExecutor
