import Sbctl.Credential
import Sbctl.Traffic
import Sbctl.Store
import Sbctl.Lib.Assoc

/-!
# Answering a subscription request

The budget of the address is charged first, then method, query, route and
credential are checked in this order, and only then is anything of the
deployment looked at. Whatever fails before that gives one of three answers.

* `refusals_uniform`: without an accepted credential an answer depends on the
  throttle and the method alone, and the throttle on neither.
* `probes_indistinguishable`: nor do any number of such requests tell two
  deployments apart.
-/

namespace Sbctl

open Text

/-! ## Requests per address -/

inductive IpAddr where
  | v4 (address : BitVec 32)
  | v6 (address : BitVec 128)
  deriving DecidableEq

/-- The tokens of an address, and the instant they were last topped up. -/
structure Bucket where
  tokens : Nat
  at' : Nat

structure IpBudget where
  buckets : List (IpAddr × Bucket)

def requestBurst : Nat := 60

/-- In nanoseconds, as instants and durations are. -/
def requestRefill : Nat := 1000000000

def maxTrackedPeers : Nat := 4096

namespace IpBudget

/-- The tokens that came back, in 32 bits. -/
def refilled (bucket : Bucket) (now : Nat) : Nat :=
  (now - bucket.at') / requestRefill % 2 ^ 32

/-- Forgets the addresses without debt, and all of them when they are too many. -/
def admitAt (now : Nat) (budget : IpBudget) : IpBudget :=
  let owing := budget.buckets.filter fun entry =>
    min (entry.2.tokens + refilled entry.2 now) (2 ^ 32 - 1) < requestBurst
  ⟨if maxTrackedPeers < owing.length then [] else owing⟩

def topUp (now : Nat) (bucket : Bucket) : Bucket :=
  let refilled := refilled bucket now
  if 0 < refilled then
    ⟨min (min (bucket.tokens + refilled) (2 ^ 32 - 1)) requestBurst,
      bucket.at' + requestRefill * refilled⟩
  else bucket

/-- Spends one token, or reports how long to wait for the next. -/
def tryAcquire (peer : IpAddr) (now : Nat) (budget : IpBudget) : Except Nat Unit × IpBudget :=
  match budget.buckets.lookup peer with
  | none => (.ok (), ⟨Assoc.put peer ⟨requestBurst - 1, now⟩ (budget.admitAt now).buckets⟩)
  | some bucket =>
    let bucket := topUp now bucket
    if bucket.tokens = 0 then
      (.error (max (requestRefill - (now - bucket.at')) 1000000000),
        ⟨Assoc.put peer bucket budget.buckets⟩)
    else (.ok (), ⟨Assoc.put peer { bucket with tokens := bucket.tokens - 1 } budget.buckets⟩)

end IpBudget

/-- A peer without an address is not throttled. -/
def throttled (peer : Option IpAddr) (now : Nat) (budget : IpBudget) : Option Nat × IpBudget :=
  match peer with
  | none => (none, budget)
  | some peer =>
    match budget.tryAcquire peer now with
    | (.ok (), budget) => (none, budget)
    | (.error retryAfter, budget) => (some retryAfter, budget)

/-! ## Routes -/

structure ClientVersion where
  major : Nat
  minor : Nat
  patch : Option Nat
  deriving DecidableEq

def ClientVersion.display (version : ClientVersion) : String :=
  match version.patch with
  | some patch => toString version.major ++ "." ++ toString version.minor ++ "." ++ toString patch
  | none => toString version.major ++ "." ++ toString version.minor

inductive SubscriptionFormat where
  | singBox
  | singBoxFull
  | singBoxVersion (version : ClientVersion)
  | clash
  | clashLegacy (version : ClientVersion)
  | uri
  | base64Uri
  | shadowrocket
  deriving DecidableEq

inductive SubscriptionRoute where
  | format (format : SubscriptionFormat)
  | qr (format : SubscriptionFormat)
  | index
  deriving DecidableEq

def clashLegacyVersion : ClientVersion := ⟨1, 18, none⟩

/-- What the profile registry says of one sing-box version. -/
structure SingBoxVersionProfile where
  version : ClientVersion
  supportsAnytls : Bool

def allSingBoxVersionProfiles : List SingBoxVersionProfile :=
  [⟨⟨1, 10, none⟩, false⟩, ⟨⟨1, 11, none⟩, false⟩, ⟨⟨1, 12, none⟩, true⟩, ⟨⟨1, 13, none⟩, true⟩,
    ⟨⟨1, 14, none⟩, true⟩, ⟨⟨1, 14, some 4⟩, true⟩]

namespace SubscriptionFormat

def hasCompatibleNodes (format : SubscriptionFormat) (config : DeploymentConfig) : Bool :=
  let supportsAnytls := match format with
    | .singBoxVersion version =>
      (allSingBoxVersionProfiles.find? (·.version = version)).any (·.supportsAnytls)
    | .clashLegacy _ => false
    | _ => true
  config.enabledProtocols.any fun protocol => supportsAnytls || protocol ≠ .anytls

def pathName : SubscriptionFormat → String
  | .singBox => "sing-box.json"
  | .singBoxFull => "sing-box-full.json"
  | .singBoxVersion version => "sing-box-" ++ version.display ++ ".json"
  | .clash => "clash.yaml"
  | .clashLegacy version => "clash-" ++ version.display ++ ".yaml"
  | .uri => "uri"
  | .base64Uri => "uri.txt"
  | .shadowrocket => "shadowrocket.txt"

def artifactName : SubscriptionFormat → String
  | .singBox => "subscription-sing-box.json"
  | .singBoxFull => "subscription-sing-box-full.json"
  | .singBoxVersion version => "subscription-sing-box-" ++ version.display ++ ".json"
  | .clash => "subscription-clash.yaml"
  | .clashLegacy version => "subscription-clash-" ++ version.display ++ ".yaml"
  | .uri => "subscription-uri.txt"
  | .base64Uri => "subscription-base64-uri.txt"
  | .shadowrocket => "subscription-shadowrocket.txt"

def contentType : SubscriptionFormat → String
  | .singBox | .singBoxFull | .singBoxVersion _ => "application/json; charset=utf-8"
  | .clash | .clashLegacy _ => "application/yaml; charset=utf-8"
  | .uri | .base64Uri | .shadowrocket => "text/plain; charset=utf-8"

/-- What a QR code of the subscription URL says; the encoder of URL forms comes
from a library. -/
def qrPayload (byteSerialize : String → String) (subscriptionUrl : String) :
    SubscriptionFormat → String
  | .singBox => "sing-box://import-remote-profile?url=" ++ byteSerialize subscriptionUrl ++
      "#sing-box"
  | .singBoxFull => "sing-box://import-remote-profile?url=" ++ byteSerialize subscriptionUrl ++
      "#sing-box-full"
  | .singBoxVersion version => "sing-box://import-remote-profile?url=" ++
      byteSerialize subscriptionUrl ++ "#sing-box-" ++ version.display
  | _ => subscriptionUrl

end SubscriptionFormat

def stripSuffix (suffix cs : List Char) : Option (List Char) :=
  (stripPrefix suffix.reverse cs.reverse).map List.reverse

def parseClientVersion (text : List Char) : Option ClientVersion :=
  match splitChar '.' text with
  | [major, minor] => do
    let major ← parseUnsigned 255 major
    let minor ← parseUnsigned 255 minor
    return ⟨major, minor, none⟩
  | [major, minor, patch] => do
    let major ← parseUnsigned 255 major
    let minor ← parseUnsigned 255 minor
    let patch ← parseUnsigned 255 patch
    return ⟨major, minor, some patch⟩
  | _ => none

def parseVersionedPath (segment : List Char) : Option SubscriptionFormat :=
  match (stripPrefix "sing-box-".toList segment).bind (stripSuffix ".json".toList) with
  | some version => do
    let version ← parseClientVersion version
    if allSingBoxVersionProfiles.any (·.version = version) then some (.singBoxVersion version)
    else none
  | none =>
    match (stripPrefix "clash-".toList segment).bind (stripSuffix ".yaml".toList) with
    | some version => do
      let version ← parseClientVersion version
      if version = clashLegacyVersion then some (.clashLegacy version) else none
    | none => none

def parseFormatPath (segment : List Char) : Option SubscriptionFormat :=
  if segment = "sing-box.json".toList then some .singBox
  else if segment = "sing-box-full.json".toList then some .singBoxFull
  else if segment = "clash.yaml".toList then some .clash
  else if segment = "uri".toList then some .uri
  else if segment = "uri.txt".toList then some .base64Uri
  else if segment = "shadowrocket.txt".toList then some .shadowrocket
  else parseVersionedPath segment

/-- The credential and the route a path names. -/
def parseRoute (target : String) : Option (String × SubscriptionRoute) :=
  if '?' ∈ target.toList then none
  else do
    let rest ← stripPrefix "/sub/".toList target.toList
    match splitChar '/' rest with
    | credential :: segment :: parts =>
      if segment = "index".toList then
        if parts = [] then some (String.ofList credential, .index) else none
      else if segment = "qr".toList then
        match parts with
        | [] => none
        | format :: parts => do
          let format ← parseFormatPath format
          if parts = [] then some (String.ofList credential, .qr format) else none
      else do
        let format ← parseFormatPath segment
        if parts = [] then some (String.ofList credential, .format format) else none
    | _ => none

/-! ## Responses -/

inductive Method where
  | get
  | head
  | other (name : String)
  deriving DecidableEq

structure HttpRequest where
  method : Method
  path : String
  query : Option String

structure HttpResponse where
  status : Nat
  headers : List (String × String)
  body : Bytes
  deriving DecidableEq

/-- A deployment as one request meets it: its files, the clocks, and what the
libraries make of texts. -/
structure SubscriptionHost where
  config : DeploymentConfig
  artifact : String → Except String Bytes
  report : Except TrafficError TrafficReport
  /-- The overview page for the links of one credential. -/
  indexPage : String → Except String String
  renderSvg : String → Except String String
  byteSerialize : String → String
  isIpv6Addr : String → Bool
  instant : Nat
  now : Int
  readAt : Int

def throttledHttpResponse (retryAfter : Nat) : HttpResponse where
  status := 429
  headers := [("Retry-After", toString (min (retryAfter / 1000000000 + 1) Machine.maxU64)),
    ("Content-Type", "text/plain; charset=utf-8"), ("Cache-Control", "no-store"),
    ("X-Content-Type-Options", "nosniff"), ("Connection", "close")]
  body := []

def methodNotAllowedHttpResponse : HttpResponse where
  status := 405
  headers := [("Allow", "GET, HEAD"), ("Cache-Control", "no-store"), ("Connection", "close")]
  body := []

def notFoundHttpResponse : HttpResponse where
  status := 404
  headers := [("Cache-Control", "no-store"), ("Connection", "close")]
  body := []

def unavailableHttpResponse : HttpResponse where
  status := 503
  headers := [("Cache-Control", "no-store"), ("Connection", "close")]
  body := []

def contentHttpResponse (contentType body : String) : HttpResponse where
  status := 200
  headers := [("Content-Type", contentType), ("Cache-Control", "no-store"),
    ("X-Content-Type-Options", "nosniff"), ("Connection", "close")]
  body := bytes body

def profileUpdateIntervalHours : Nat := 24

def subscriptionUserinfo (traffic : TrafficReport) : String :=
  let usage := "upload=" ++ toString traffic.received ++ "; download=" ++
    toString traffic.transmitted
  let trailer := "; expire=" ++ toString traffic.nextReset ++ "; profile-update-interval=" ++
    toString profileUpdateIntervalHours
  if 0 < traffic.monthlyTrafficLimit then
    usage ++ "; total=" ++ toString traffic.monthlyTrafficLimit ++ trailer
  else usage ++ trailer

namespace SubscriptionHost

variable (s : SubscriptionHost)

/-- Every protocol has generated artifacts. -/
def ensureSubscriptionNodes : Except String Unit :=
  if s.config.enabledProtocols = [] then
    .error "no subscription-capable Managed protocol is enabled"
  else .ok ()

def uriHost (host : String) : String := if s.isIpv6Addr host then "[" ++ host ++ "]" else host

def urlPrefix : String :=
  match s.config.subscriptionMode with
  | .ipFallback =>
    "http://" ++ s.uriHost s.config.subscriptionHost ++ ":" ++ toString (s.config.httpPort.getD 0)
  | .direct | .externalProxy => "https://" ++ s.uriHost s.config.subscriptionHost

/-- The URL of a format for one credential. -/
def formatUrlWithCredential (credential : String) (format : SubscriptionFormat) :
    Except String String := do
  s.ensureSubscriptionNodes
  if ¬ format.hasCompatibleNodes s.config then
    .error ("client compatibility: " ++ format.pathName ++ " 不支持当前启用的节点协议")
  else
    .ok (s.urlPrefix ++ "/sub/" ++ credential ++ "/" ++ format.pathName)

def qrHttpResponse (credential : String) (format : SubscriptionFormat) : HttpResponse :=
  match (s.formatUrlWithCredential credential format).bind fun url =>
      s.renderSvg (format.qrPayload s.byteSerialize url) with
  | .ok body => contentHttpResponse "image/svg+xml" body
  | .error _ => unavailableHttpResponse

def indexHttpResponse (credential : String) : HttpResponse :=
  match s.indexPage credential with
  | .ok body => contentHttpResponse "text/html; charset=utf-8" body
  | .error _ => unavailableHttpResponse

/-- The stored artifact, after a second look at the credential. -/
def readAuthorized (credential : String) (format : SubscriptionFormat) : Except String String := do
  s.ensureSubscriptionNodes
  if ¬ credentialMatches s.config credential s.readAt then
    .error "invalid subscription credential"
  else if ¬ format.hasCompatibleNodes s.config then
    .error ("client compatibility: " ++ format.pathName)
  else do
    let contents ← s.artifact format.artifactName
    match fromUtf8 contents with
    | some text => .ok text
    | none => .error "subscription artifact is unavailable: the stored subscription artifact is not valid UTF-8"

def formatHttpResponse (credential : String) (format : SubscriptionFormat) : HttpResponse :=
  match s.readAuthorized credential format with
  | .error _ => unavailableHttpResponse
  | .ok body =>
    let response := contentHttpResponse format.contentType body
    match s.report with
    | .ok traffic =>
      { response with
        headers := response.headers ++ [("subscription-userinfo", subscriptionUserinfo traffic)] }
    | .error _ => response

/-- What the request spends, and whether its address has to wait. There is no
budget behind an external proxy. -/
def charge (peer : Option IpAddr) (budget : IpBudget) : Option Nat × IpBudget :=
  if s.config.subscriptionMode ≠ .externalProxy then throttled peer s.instant budget
  else (none, budget)

/-- The answer to a request that is not throttled. -/
def answer (request : HttpRequest) : HttpResponse :=
  if request.method ≠ .get ∧ request.method ≠ .head then methodNotAllowedHttpResponse
  else if request.query.isSome then notFoundHttpResponse
  else
    match parseRoute request.path with
    | none => notFoundHttpResponse
    | some (credential, route) =>
      if ¬ credentialMatches s.config credential s.now then notFoundHttpResponse
      else
        match route with
        | .index => s.indexHttpResponse credential
        | .qr format =>
          if ¬ format.hasCompatibleNodes s.config then notFoundHttpResponse
          else s.qrHttpResponse credential format
        | .format format =>
          if ¬ format.hasCompatibleNodes s.config then notFoundHttpResponse
          else s.formatHttpResponse credential format

def subscriptionHttpResponse (request : HttpRequest) (peer : Option IpAddr) (budget : IpBudget) :
    HttpResponse × IpBudget :=
  match s.charge peer budget with
  | (some retryAfter, budget) => (throttledHttpResponse retryAfter, budget)
  | (none, budget) => (s.answer request, budget)

/-- The response with the length of its body, as it goes out. -/
def withRepresentationLength (response : HttpResponse) : HttpResponse :=
  { response with
    headers := response.headers ++ [("content-length", toString response.body.length)] }

def serve (request : HttpRequest) (peer : Option IpAddr) (budget : IpBudget) :
    HttpResponse × IpBudget :=
  let (response, budget) := s.subscriptionHttpResponse request peer budget
  (withRepresentationLength response, budget)

/-- The path of the request names a route with a credential that is accepted. -/
def Authorized (request : HttpRequest) : Prop :=
  ∃ credential route, parseRoute request.path = some (credential, route) ∧
    credentialMatches s.config credential s.now = true

/-- The address of the request is out of budget. -/
def throttles (peer : Option IpAddr) (budget : IpBudget) : Bool := (s.charge peer budget).1.isSome

end SubscriptionHost

/-! ## The throttle -/

namespace IpBudget

/-- The wait is never shorter than a second and a token never takes longer, so
it says nothing about the debt of the address. -/
theorem tryAcquire_wait {peer : IpAddr} {now wait : Nat} {budget budget' : IpBudget}
    (h : budget.tryAcquire peer now = (.error wait, budget')) : wait = requestRefill := by
  unfold tryAcquire at h
  split at h
  · cases h
  · dsimp only at h
    split at h
    · injection h with h
      injection h with h
      rw [← h, requestRefill]
      omega
    · cases h

end IpBudget

theorem throttled_wait {peer : Option IpAddr} {now wait : Nat} {budget budget' : IpBudget}
    (h : throttled peer now budget = (some wait, budget')) : wait = requestRefill := by
  unfold throttled at h
  split at h
  · cases h
  · split at h
    · cases h
    · rename_i hacquire
      cases h
      exact IpBudget.tryAcquire_wait hacquire

namespace SubscriptionHost

variable {s s' : SubscriptionHost}

theorem charge_wait {peer : Option IpAddr} {wait : Nat} {budget budget' : IpBudget}
    (h : s.charge peer budget = (some wait, budget')) : wait = requestRefill := by
  unfold charge at h
  split at h
  · exact throttled_wait h
  · cases h

/-- The charge sees the mode, the clock and the address, and nothing else. -/
theorem charge_congr (hmode : s.config.subscriptionMode = s'.config.subscriptionMode)
    (hinstant : s.instant = s'.instant) (peer : Option IpAddr) (budget : IpBudget) :
    s.charge peer budget = s'.charge peer budget := by
  simp only [charge, hmode, hinstant]

/-- What a request costs is settled before it is read. -/
theorem serve_budget (request : HttpRequest) (peer : Option IpAddr) (budget : IpBudget) :
    (s.serve request peer budget).2 = (s.charge peer budget).2 := by
  simp only [serve, subscriptionHttpResponse]
  cases hcharge : s.charge peer budget with
  | mk wait budget' => cases wait <;> rfl

end SubscriptionHost

/-! ## Refusals -/

/-- The answer to whoever has no accepted credential. -/
def refusal (throttled : Bool) (method : Method) : HttpResponse :=
  SubscriptionHost.withRepresentationLength <|
    if throttled then throttledHttpResponse requestRefill
    else if method ≠ .get ∧ method ≠ .head then methodNotAllowedHttpResponse
    else notFoundHttpResponse

namespace SubscriptionHost

variable {s s' : SubscriptionHost}

/-- With or without a credential, a throttled request is answered before it is read. -/
theorem serve_throttled {peer : Option IpAddr} {budget : IpBudget}
    (h : s.throttles peer budget = true) (request : HttpRequest) :
    (s.serve request peer budget).1 = refusal true request.method := by
  obtain ⟨wait, hwait⟩ := Option.isSome_iff_exists.mp h
  have hcharge : s.charge peer budget = (some wait, (s.charge peer budget).2) :=
    Prod.ext hwait rfl
  simp only [serve, subscriptionHttpResponse]
  rw [hcharge, charge_wait hcharge]
  rfl

theorem serve_not_throttled {peer : Option IpAddr} {budget : IpBudget}
    (h : s.throttles peer budget = false) (request : HttpRequest) :
    (s.serve request peer budget).1 = withRepresentationLength (s.answer request) := by
  have hwait : (s.charge peer budget).1 = none := Option.not_isSome_iff_eq_none.mp (by
    rw [throttles] at h
    simp [h])
  have hcharge : s.charge peer budget = (none, (s.charge peer budget).2) := Prod.ext hwait rfl
  simp only [serve, subscriptionHttpResponse]
  rw [hcharge]

/-- Method, query, route and credential are all checked before the first look
at what is deployed. -/
theorem answer_unauthorized {request : HttpRequest} (h : ¬ s.Authorized request) :
    s.answer request =
      if request.method ≠ .get ∧ request.method ≠ .head then methodNotAllowedHttpResponse
      else notFoundHttpResponse := by
  unfold answer
  split
  · rfl
  · split
    · rfl
    · split
      · rfl
      · rename_i credential route hroute
        have hrejected : credentialMatches s.config credential s.now ≠ true := by
          intro haccepted
          exact h ⟨credential, route, hroute, haccepted⟩
        rw [if_pos hrejected]

theorem qrHttpResponse_status (credential : String) (format : SubscriptionFormat) :
    (s.qrHttpResponse credential format).status ≠ 429 := by
  unfold qrHttpResponse
  split <;> simp [contentHttpResponse, unavailableHttpResponse]

theorem indexHttpResponse_status (credential : String) :
    (s.indexHttpResponse credential).status ≠ 429 := by
  unfold indexHttpResponse
  split <;> simp [contentHttpResponse, unavailableHttpResponse]

theorem formatHttpResponse_status (credential : String) (format : SubscriptionFormat) :
    (s.formatHttpResponse credential format).status ≠ 429 := by
  unfold formatHttpResponse
  split
  · simp [unavailableHttpResponse]
  · dsimp only
    split <;> simp [contentHttpResponse]

/-- Every answer past the throttle has another status than its own. -/
theorem answer_status (request : HttpRequest) : (s.answer request).status ≠ 429 := by
  have hnotFound : notFoundHttpResponse.status ≠ 429 := by decide
  unfold answer
  split
  · decide
  · split
    · exact hnotFound
    · split
      · exact hnotFound
      · split
        · exact hnotFound
        · split
          · exact indexHttpResponse_status _
          · split
            · exact hnotFound
            · exact qrHttpResponse_status _ _
          · split
            · exact hnotFound
            · exact formatHttpResponse_status _ _

theorem serve_unauthorized {request : HttpRequest} (h : ¬ s.Authorized request)
    (peer : Option IpAddr) (budget : IpBudget) :
    (s.serve request peer budget).1 = refusal (s.throttles peer budget) request.method := by
  cases hthrottles : s.throttles peer budget with
  | true => exact serve_throttled hthrottles request
  | false =>
    rw [serve_not_throttled hthrottles, answer_unauthorized h]
    rfl

theorem serve_status (request : HttpRequest) (peer : Option IpAddr) (budget : IpBudget) :
    (s.serve request peer budget).1.status = 429 ↔ s.throttles peer budget = true := by
  cases hthrottles : s.throttles peer budget with
  | true =>
    rw [serve_throttled hthrottles]
    exact iff_of_true rfl rfl
  | false =>
    rw [serve_not_throttled hthrottles]
    exact iff_of_false (answer_status request) (by decide)

theorem throttles_congr (hmode : s.config.subscriptionMode = s'.config.subscriptionMode)
    (hinstant : s.instant = s'.instant) (peer : Option IpAddr) (budget : IpBudget) :
    s.throttles peer budget = s'.throttles peer budget := by
  rw [throttles, throttles, charge_congr hmode hinstant]

/-- Two requests leave the same budget, whatever either of them asks for. -/
theorem serve_budget_congr (hmode : s.config.subscriptionMode = s'.config.subscriptionMode)
    (hinstant : s.instant = s'.instant) (request request' : HttpRequest) (peer : Option IpAddr)
    (budget : IpBudget) :
    (s.serve request peer budget).2 = (s'.serve request' peer budget).2 := by
  rw [serve_budget, serve_budget, charge_congr hmode hinstant]

end SubscriptionHost

/-- Without an accepted credential the answer is a function of the throttle and
the method, whatever the deployment, its files and its other clocks are. The
throttle and what it spends are the same for every request, and show in the
status alone. -/
theorem refusals_uniform :
    (∀ (s : SubscriptionHost) (request : HttpRequest) (peer : Option IpAddr) (budget : IpBudget),
      ¬ s.Authorized request →
        (s.serve request peer budget).1 = refusal (s.throttles peer budget) request.method) ∧
    (∀ (s : SubscriptionHost) (request : HttpRequest) (peer : Option IpAddr) (budget : IpBudget),
      (s.serve request peer budget).1.status = 429 ↔ s.throttles peer budget = true) ∧
    ∀ (s s' : SubscriptionHost) (request request' : HttpRequest) (peer : Option IpAddr)
      (budget : IpBudget),
      s.config.subscriptionMode = s'.config.subscriptionMode → s.instant = s'.instant →
        s.throttles peer budget = s'.throttles peer budget ∧
        (s.serve request peer budget).2 = (s'.serve request' peer budget).2 ∧
        (s.throttles peer budget = true → request.method = request'.method →
          (s.serve request peer budget).1 = (s'.serve request' peer budget).1) := by
  refine ⟨?_, ?_, ?_⟩
  · intro s request peer budget hunauthorized
    exact SubscriptionHost.serve_unauthorized hunauthorized peer budget
  · intro s request peer budget
    exact SubscriptionHost.serve_status request peer budget
  · intro s s' request request' peer budget hmode hinstant
    have hthrottles := SubscriptionHost.throttles_congr hmode hinstant peer budget
    refine ⟨hthrottles, SubscriptionHost.serve_budget_congr hmode hinstant _ _ _ _, ?_⟩
    intro hthrottled hmethod
    rw [SubscriptionHost.serve_throttled hthrottled,
      SubscriptionHost.serve_throttled (hthrottles.symm.trans hthrottled), hmethod]

/-- A deployment with empty artifacts and no traffic to report. -/
def sampleHost : SubscriptionHost where
  config := sampleConfig
  artifact _ := .ok []
  report := .error .stateMissing
  indexPage _ := .ok ""
  renderSvg _ := .ok ""
  byteSerialize := id
  isIpv6Addr _ := false
  instant := 0
  now := 0
  readAt := 0

/-- A secret that is not served, once within the budget and once without any left. -/
theorem refusals_uniform_sample :
    (sampleHost.serve ⟨.get, "/sub/wrong/clash.yaml", none⟩ (some (.v4 1)) ⟨[]⟩).1 =
        refusal false .get ∧
      (sampleHost.serve ⟨.get, "/sub/wrong/clash.yaml", none⟩ (some (.v4 1))
        ⟨[(.v4 1, ⟨0, 0⟩)]⟩).1 = refusal true .get ∧
      (sampleHost.serve ⟨.get, "/sub/wrong/clash.yaml", none⟩ (some (.v4 1))
        ⟨[(.v4 1, ⟨0, 0⟩)]⟩).1.status = 429 := by
  have hunauthorized : ¬ sampleHost.Authorized ⟨.get, "/sub/wrong/clash.yaml", none⟩ := by
    rintro ⟨credential, route, hparse, hmatches⟩
    have hroute : parseRoute "/sub/wrong/clash.yaml" = some ("wrong", .format .clash) := by decide
    rw [hroute] at hparse
    cases hparse
    revert hmatches
    decide
  refine ⟨?_, ?_, ?_⟩
  · exact refusals_uniform.1 _ _ (some (.v4 1)) ⟨[]⟩ hunauthorized
  · exact refusals_uniform.1 _ _ (some (.v4 1)) ⟨[(.v4 1, ⟨0, 0⟩)]⟩ hunauthorized
  · exact (refusals_uniform.2.1 _ _ _ _).mpr (by decide)

/-! ## Probing over time -/

/-- One request and the deployment it meets. -/
structure Probe where
  host : SubscriptionHost
  request : HttpRequest
  peer : Option IpAddr

namespace Probe

def Unauthorized (probe : Probe) : Prop := ¬ probe.host.Authorized probe.request

/-- Two requests that arrive alike, to whatever deployment and path. -/
structure Alike (probe probe' : Probe) : Prop where
  mode : probe.host.config.subscriptionMode = probe'.host.config.subscriptionMode
  instant : probe.host.instant = probe'.host.instant
  peer : probe.peer = probe'.peer
  method : probe.request.method = probe'.request.method

end Probe

/-- The answers to requests that share one budget. -/
def serveAll : List Probe → IpBudget → List (Probe × HttpResponse)
  | [], _ => []
  | probe :: probes, budget =>
    let served := probe.host.serve probe.request probe.peer budget
    (probe, served.1) :: serveAll probes served.2

/-- Over any sequence of requests, whoever has no credential sees the same
answers from two deployments, whatever the other requests are. -/
theorem probes_indistinguishable {probes probes' : List Probe}
    (h : List.Forall₂ Probe.Alike probes probes') (budget : IpBudget) :
    List.Forall₂ (fun seen seen' : Probe × HttpResponse =>
        seen.1.Unauthorized → seen'.1.Unauthorized → seen.2 = seen'.2)
      (serveAll probes budget) (serveAll probes' budget) := by
  induction h generalizing budget with
  | nil => exact List.Forall₂.nil
  | @cons probe probe' probes probes' halike _ ih =>
    have hbudget := SubscriptionHost.serve_budget_congr halike.mode halike.instant probe.request
      probe'.request probe.peer budget
    rw [serveAll, serveAll, ← halike.peer, ← hbudget]
    refine List.Forall₂.cons ?_ (ih _)
    intro hunauthorized hunauthorized'
    dsimp only
    rw [SubscriptionHost.serve_unauthorized hunauthorized,
      SubscriptionHost.serve_unauthorized hunauthorized',
      SubscriptionHost.throttles_congr halike.mode halike.instant, halike.method]

end Sbctl
