import Sbctl.Validate
import Mathlib.Data.Nat.Bitwise

/-!
# Subscription credentials

A deployment accepts its default secret and the secrets of its named records,
each until it is revoked. The commands edit the flat list of records.
-/

namespace Sbctl
open Machine Text

/-! ## Matching -/

/-- Compares all bytes of the longer text, whatever was found before. -/
def constantTimeEq (left right : List UInt8) : Bool :=
  let different := (List.range (max left.length right.length)).foldl
    (fun different index =>
      different ||| ((left[index]?.getD 0) ^^^ (right[index]?.getD 0)).toNat)
    (left.length ^^^ right.length)
  different == 0

theorem foldl_or_eq_zero (f : Nat → Nat) (indices : List Nat) (different : Nat) :
    indices.foldl (fun different index => different ||| f index) different = 0 ↔
      different = 0 ∧ ∀ index ∈ indices, f index = 0 := by
  induction indices generalizing different with
  | nil => simp
  | cons index indices ih =>
    rw [List.foldl_cons, ih, Nat.or_eq_zero_iff]
    simp only [List.mem_cons, forall_eq_or_imp, and_assoc]

theorem constantTimeEq_iff (left right : List UInt8) :
    constantTimeEq left right = true ↔ left = right := by
  simp only [constantTimeEq, beq_iff_eq, foldl_or_eq_zero, Nat.xor_eq_zero_iff, List.mem_range]
  constructor
  · rintro ⟨hlen, hbytes⟩
    apply List.ext_getElem hlen
    intro i hi hi'
    have := hbytes i (by omega)
    rw [List.getElem?_eq_getElem hi, List.getElem?_eq_getElem hi'] at this
    exact UInt8.toNat_inj.mp (by simpa using this)
  · rintro rfl
    simp

def NamedCredential.isActive (entry : NamedCredential) (now : Int) : Bool :=
  entry.revokedAt.all (now < ·)

theorem NamedCredential.isActive_iff {entry : NamedCredential} {now : Int} :
    entry.isActive now = true ↔ ∀ expires, entry.revokedAt = some expires → now < expires := by
  unfold isActive
  cases entry.revokedAt <;> simp

/-- Whether a secret is served. Every record is compared. -/
def credentialMatches (config : DeploymentConfig) (provided : String) (now : Int) : Bool :=
  config.subscriptionCredentials.foldl
    (fun matched entry =>
      matched || (constantTimeEq (bytes provided) (bytes entry.credential) && entry.isActive now))
    (constantTimeEq (bytes provided) (bytes config.subscriptionCredential))

theorem foldl_or_eq_true {α : Type} (f : α → Bool) (entries : List α) (matched : Bool) :
    entries.foldl (fun matched entry => matched || f entry) matched = true ↔
      matched = true ∨ ∃ entry ∈ entries, f entry = true := by
  induction entries generalizing matched with
  | nil => simp
  | cons entry entries ih =>
    rw [List.foldl_cons, ih]
    simp only [Bool.or_eq_true, List.exists_mem_cons_iff, or_assoc]

theorem credentialMatches_iff {config : DeploymentConfig} {provided : String} {now : Int} :
    credentialMatches config provided now = true ↔
      provided = config.subscriptionCredential ∨ ∃ entry ∈ config.subscriptionCredentials,
        entry.credential = provided ∧ entry.isActive now = true := by
  have hbytes (a b : String) : constantTimeEq (bytes a) (bytes b) = true ↔ a = b := by
    rw [constantTimeEq_iff]
    exact ⟨bytes_injective, fun h => h ▸ rfl⟩
  simp only [credentialMatches, foldl_or_eq_true, Bool.and_eq_true, hbytes,
    eq_comm (a := provided)]

/-! ## Grace windows -/

def credentialError (message : String) : ConfigError := .stateContent message

/-- Reads a window such as `30m`, `2h` or `1d`. -/
def parseGrace (text : String) : Except String Int :=
  let cs := Text.trim text.toList
  match cs.getLast?.filter Text.isAsciiAlphabetic with
  | none => .error "时长需为非负数字加 s/m/h/d 单位"
  | some unit =>
    match Text.parseSigned minI64 maxI64 cs.dropLast with
    | none => .error "时长数字无效或过大"
    | some amount =>
      if amount < 0 then .error "宽限期不能为负"
      else
        match unitSeconds unit.toLower with
        | none => .error "时长单位需为 s/m/h/d"
        | some multiplier =>
          match checkedMulI64 amount multiplier with
          | none => .error "宽限期过大"
          | some seconds => .ok seconds

def graceSeconds : Option String → Except ConfigError Int
  | none => .ok 0
  | some grace => (parseGrace grace).mapError credentialError

theorem parseGrace_nonneg {text : String} {seconds : Int} (h : parseGrace text = .ok seconds) :
    0 ≤ seconds := by
  simp only [parseGrace] at h
  split at h
  · cases h
  split at h
  · cases h
  rename_i amount _
  split at h
  · cases h
  split at h
  · cases h
  rename_i multiplier _
  split at h
  · cases h
  rename_i hmul
  obtain rfl := Except.ok.inj h
  unfold checkedMulI64 at hmul
  split at hmul
  · obtain rfl := Option.some.inj hmul
    exact Int.mul_nonneg (by omega) (by omega)
  · cases hmul

theorem graceSeconds_nonneg {grace : Option String} {seconds : Int}
    (h : graceSeconds grace = .ok seconds) : 0 ≤ seconds := by
  cases grace with
  | none => exact (Except.ok.inj h).le
  | some text =>
    cases hp : parseGrace text with
    | error e => simp [graceSeconds, hp, Except.mapError] at h
    | ok s =>
      simp only [graceSeconds, hp, Except.mapError, Except.ok.injEq] at h
      exact h ▸ parseGrace_nonneg hp

def expiry (now seconds : Int) : Except ConfigError Int :=
  match checkedAddI64 now seconds with
  | none => .error (credentialError "宽限期到期时间溢出")
  | some expires => .ok expires

theorem expiry_ok {now seconds expires : Int} (h : expiry now seconds = .ok expires) :
    expires = now + seconds := by
  unfold expiry at h
  split at h
  · cases h
  · rename_i hadd
    rw [← Except.ok.inj h]
    exact checkedAddI64_eq_some hadd

/-! ## Commands -/

/-- What a command that changes credentials meets: the clock, the secret the
random source gives it, and whether the change can be committed. -/
structure Occasion where
  now : Int
  generated : Except ConfigError String
  commit : Except ConfigError Unit

/-- Changes the stored configuration, which must still be acceptable. -/
def credentialTransaction {α : Type} (lib : Libraries) (occasion : Occasion)
    (change : DeploymentConfig → Except ConfigError (DeploymentConfig × α))
    (config : DeploymentConfig) : Except ConfigError (DeploymentConfig × α) := do
  let changed ← change config
  validate lib changed.1
  occasion.commit
  pure changed

/-- Writes an entry over the first one of its name, or behind all others. -/
def putFirst (entry : NamedCredential) : List NamedCredential → List NamedCredential
  | [] => [entry]
  | existing :: rest =>
    if existing.name = entry.name then entry :: rest else existing :: putFirst entry rest

section
variable (lib : Libraries) (namedUrl : DeploymentConfig → String → Except ConfigError String)

def addCredential (occasion : Occasion) (name : String) (config : DeploymentConfig) :
    Except ConfigError (DeploymentConfig × String) :=
  if name.toList.all Text.isWhitespace ∨ name.toList.any Text.isControl then
    .error (credentialError "设备名不能为空或含控制字符")
  else if name = "default" then
    .error (credentialError "名称 default 保留给部署默认凭据；请换一个设备名")
  else credentialTransaction lib occasion (fun config => do
    if config.subscriptionCredentials.any
        fun entry => entry.name = name && entry.isActive occasion.now then
      .error (credentialError ("已存在生效中的凭据 " ++ lib.debugString name))
    else do
      let credential ← occasion.generated
      let entry : NamedCredential := { name, credential, revokedAt := none }
      let url ← namedUrl config entry.credential
      pure ({ config with
        subscriptionCredentials := putFirst entry config.subscriptionCredentials }, url)) config

/-- The earlier of an expiry already promised and a new one. -/
def earlierExpiry (revokedAt : Option Int) (expires : Int) : Int :=
  match revokedAt with
  | none => expires
  | some old => min old expires

def revokeCredential (occasion : Occasion) (name : String) (grace : Option String)
    (config : DeploymentConfig) : Except ConfigError (DeploymentConfig × Int) := do
  let window ← graceSeconds grace
  credentialTransaction lib occasion (fun config => do
    let namedDefault := config.subscriptionCredentials.any
      fun entry => entry.name = "default" && entry.isActive occasion.now
    if name = "default" ∧ ¬ namedDefault then
      .error (credentialError "默认凭据不能吊销；用 sbctl credential rotate 轮换它")
    else do
      let expires ← expiry occasion.now window
      let affected (entry : NamedCredential) : Bool :=
        entry.name = name && entry.isActive occasion.now
      if ¬ config.subscriptionCredentials.any affected then
        .error (credentialError
          ("没有生效中的凭据 " ++ lib.debugString name ++ "（sbctl credential list 可查）"))
      else
        pure ({ config with
          subscriptionCredentials := config.subscriptionCredentials.map fun entry =>
            if affected entry then
              { entry with revokedAt := some (earlierExpiry entry.revokedAt expires) }
            else entry }, window)) config

def rotateSubscriptionCredential (occasion : Occasion) (config : DeploymentConfig) :
    Except ConfigError (DeploymentConfig × Unit) :=
  credentialTransaction lib occasion (fun config => do
    let credential ← occasion.generated
    pure ({ config with subscriptionCredential := credential }, ())) config

/-- The record a rotation replaces: the live one of the name or, without one,
the first that still serves. -/
def rotatedIndex (name : String) (now : Int) (entries : List NamedCredential) : Option Nat :=
  (entries.findIdx? fun entry => entry.name = name && entry.revokedAt = none).or
    (entries.findIdx? fun entry => entry.name = name && entry.isActive now)

def rotatedEntry (name : String) (now : Int) (entries : List NamedCredential) :
    Option (Nat × NamedCredential) :=
  (rotatedIndex name now entries).bind fun index => entries[index]?.map fun old => (index, old)

def rotateNamed (occasion : Occasion) (name : String) (window : Int) (config : DeploymentConfig) :
    Except ConfigError (DeploymentConfig × String × Option Int) :=
  credentialTransaction lib occasion (fun config => do
    let expires ← expiry occasion.now window
    match rotatedEntry name occasion.now config.subscriptionCredentials with
    | none => .error (credentialError
        ("没有生效中的凭据 " ++ lib.debugString name ++ "（sbctl credential list 可查）"))
    | some (index, old) => do
      let retired := { old with revokedAt := some (earlierExpiry old.revokedAt expires) }
      let entries := if 0 < window then config.subscriptionCredentials ++ [retired]
        else config.subscriptionCredentials
      let fresh ← occasion.generated
      let url ← namedUrl config fresh
      pure ({ config with
        subscriptionCredentials :=
          entries.set index { old with credential := fresh, revokedAt := none } }, url,
        if 0 < window then some (earlierExpiry old.revokedAt expires - occasion.now)
        else none)) config

/-- A rotation of the default secret, or of a named one when a name is given. -/
def rotateCredential (occasion : Occasion) (name grace : Option String)
    (config : DeploymentConfig) : Except ConfigError DeploymentConfig := do
  let window ← graceSeconds grace
  match name with
  | none =>
    if 0 < window then
      .error (credentialError "默认凭据不支持宽限期；使用 --name 轮换设备凭据")
    else (rotateSubscriptionCredential lib occasion config).map (·.1)
  | some name => (rotateNamed lib namedUrl occasion name window config).map (·.1)

inductive CredentialCommand where
  | add (name : String)
  | revoke (name : String) (grace : Option String)
  | rotate (name grace : Option String)
  deriving DecidableEq, Repr

/-- Runs a command, and returns the configuration it stores. -/
def runCredential (occasion : Occasion) (config : DeploymentConfig) :
    CredentialCommand → Except ConfigError DeploymentConfig
  | .add name => (addCredential lib namedUrl occasion name config).map (·.1)
  | .revoke name grace => (revokeCredential lib occasion name grace config).map (·.1)
  | .rotate name grace => rotateCredential lib namedUrl occasion name grace config

end

end Sbctl
