import Sbctl.ModeSwitch
import Sbctl.Wizard
import Sbctl.Lib.JsonText
import Sbctl.Lib.Uri
import Sbctl.Lib.Wire

/-!
# Mail reports

A report leaves the host through curl, which is given a file of options and a
file with the mail. Both are written from a configuration that has been checked.

* `mail_read`: curl reads the options that were meant, and the mail reads as its
  header fields and its body, whatever the configured texts are.
-/

namespace Sbctl

open Text Wire
open Json (quote backslash)

structure EmailConfig where
  smtpHost : String
  smtpPort : UInt16
  implicitTls : Bool
  username : String
  password : String
  «from» : String
  «to» : String
  dailyReport : Bool
  includeSubscription : Bool
  resetReminderHours : UInt32
  deriving DecidableEq

namespace EmailConfig

def default : EmailConfig where
  smtpHost := "smtp.example.com"
  smtpPort := 465
  implicitTls := true
  username := "admin@example.com"
  password := "CHANGE_ME"
  «from» := "admin@example.com"
  «to» := "admin@example.com"
  dailyReport := true
  includeSubscription := false
  resetReminderHours := 24

/-- A bare mailbox: no display name, no list, no control characters. -/
def mailboxIsValid (lib : Libraries) (address : String) : Bool :=
  acmeEmailIsValid lib address &&
    !address.toList.any (fun c => c ∈ ['<', '>', ',', ';', quote, backslash]) &&
    !address.toList.any isControl

def validate (lib : Libraries) (config : EmailConfig) : Except String Unit :=
  if ¬ Wizard.hostnameIsValid config.smtpHost ∨ config.smtpPort = 0 then .error "SMTP 主机或端口无效"
  else if ¬ [config.«from», config.«to»].all (mailboxIsValid lib) then
    .error "发件人 / 收件人必须是单个邮箱地址"
  else if config.username = "" ∨
      config.username.toList.any (fun c => c ∈ ['\r', '\n', Char.ofNat 0, ':']) ∨
      config.password = "" ∨ config.password = "CHANGE_ME" ∨
      config.password.toList.any (fun c => c ∈ ['\r', '\n', Char.ofNat 0]) then
    .error "请设置有效 SMTP 用户名和授权密码"
  else if 744 < config.resetReminderHours then .error "刷新提醒范围为 0–744 小时（0 关闭）"
  else .ok ()

end EmailConfig

/-! ## The mail -/

def subject (reminder : Bool) : String :=
  if reminder then "sbctl VPS 状态与账期刷新提醒" else "sbctl VPS 状态与流量报告"

/-- The mail with a body; `date` is the time of sending as mail spells it. -/
def message (config : EmailConfig) (body : String) (reminder : Bool) (date : String) : List Char :=
  let wrapped := crlf.intercalate (chunks 76 (Base64.encode .standard (bytes body)))
  "From: ".toList ++ config.«from».toList ++ "\r\nTo: ".toList ++ config.«to».toList ++
    "\r\nSubject: =?UTF-8?B?".toList ++ Base64.encode .standard (bytes (subject reminder)) ++
    "?=\r\nDate: ".toList ++ date.toList ++
    "\r\nMIME-Version: 1.0\r\nContent-Type: text/plain; charset=UTF-8\r\nContent-Transfer-Encoding: base64\r\n\r\n".toList ++
    wrapped ++ "\r\n".toList

/-! ## The options of curl -/

def replaceChar (c : Char) (by' : List Char) (cs : List Char) : List Char :=
  cs.flatMap fun d => if d = c then by' else [d]

def quoted (value : List Char) : List Char :=
  quote :: (replaceChar quote [backslash, quote]
    (replaceChar backslash [backslash, backslash] value) ++ [quote])

def smtpUrl (config : EmailConfig) : List Char :=
  (if config.implicitTls then "smtps" else "smtp").toList ++ "://".toList ++
    config.smtpHost.toList ++ ':' :: Nat.toDigits 10 config.smtpPort.toNat

def smtpUser (config : EmailConfig) : List Char :=
  config.username.toList ++ ':' :: config.password.toList

/-- The file of options that sends the mail in the file `mail`. -/
def curlOptions (config : EmailConfig) (mail : String) : List Char :=
  "url = ".toList ++ quoted (smtpUrl config) ++ "\nuser = ".toList ++ quoted (smtpUser config) ++
    "\nmail-from = ".toList ++ quoted config.«from».toList ++ "\nmail-rcpt = ".toList ++
    quoted config.«to».toList ++ "\nupload-file = ".toList ++ quoted mail.toList ++
    "\nssl-reqd\nconnect-timeout = 15\nmax-time = 45\nsilent\nshow-error\n".toList

/-- What the host makes of a delivery: the name of the file the mail lies in, the
time as mail spells it, and how curl ends on its options and the mail. -/
structure MailHost where
  mailFile : Except String String
  date : String
  curl : List Char → List Char → Except String Unit

/-- What curl is to be given: its options and the mail. -/
def handed (lib : Libraries) (host : MailHost) (config : EmailConfig) (body : String)
    (reminder : Bool) : Except String (List Char × List Char) := do
  config.validate lib
  let file ← host.mailFile
  return (curlOptions config file, message config body reminder host.date)

/-- Sends a mail. Gives what curl has sent. -/
def deliver (lib : Libraries) (host : MailHost) (config : EmailConfig) (body : String)
    (reminder : Bool) : Except String (List Char) := do
  let (options, mail) ← handed lib host config body reminder
  host.curl options mail
  return mail

/-! ## What curl reads -/

def isBlank (c : Char) : Bool := c == ' ' || c == '\t'

def unescaped : Char → Char
  | 't' => '\t'
  | 'n' => '\n'
  | 'r' => '\r'
  | 'v' => Char.ofNat 0x0B
  | c => c

/-- The text up to the closing quote. -/
def unquote : List Char → List Char
  | [] => []
  | [c] => if c = quote ∨ c = backslash then [] else [c]
  | c :: d :: rest =>
    if c = quote then []
    else if c = backslash then unescaped d :: unquote rest
    else c :: unquote (d :: rest)

def nameEnds (c : Char) : Bool := isBlank c || c == '=' || c == ':'

/-- An option and its parameter, on a line that is no comment. -/
def readOption (line : List Char) : Option (List Char × Option (List Char)) :=
  let line := line.dropWhile isBlank
  if line = [] ∨ line.head? = some '#' then none
  else
    let name := line.takeWhile (!nameEnds ·)
    match (line.dropWhile (!nameEnds ·)).dropWhile nameEnds with
    | [] => some (name, none)
    | c :: rest =>
      if c = quote then some (name, some (unquote rest))
      else some (name, some ((c :: rest).takeWhile (!isBlank ·)))

def readOptions (text : List Char) : List (List Char × Option (List Char)) :=
  (splitChar '\n' text).filterMap readOption

/-- Everything that a delivery means to tell curl. -/
def meantOptions (config : EmailConfig) (mail : String) : List (List Char × Option (List Char)) :=
  [("url".toList, some (smtpUrl config)), ("user".toList, some (smtpUser config)),
    ("mail-from".toList, some config.«from».toList), ("mail-rcpt".toList, some config.«to».toList),
    ("upload-file".toList, some mail.toList), ("ssl-reqd".toList, none),
    ("connect-timeout".toList, some "15".toList), ("max-time".toList, some "45".toList),
    ("silent".toList, none), ("show-error".toList, none)]

/-- A text in an encoded word of a header field. -/
def readWord (value : List Char) : Option String := do
  let rest ← stripPrefix "=?UTF-8?B?".toList value
  let encoded ← stripPrefix "=?".toList rest.reverse
  let decoded ← Base64.decode .standard encoded.reverse
  fromUtf8 decoded

def readBody (lines : List (List Char)) : Option String :=
  (Base64.decode .standard lines.flatten).bind fromUtf8

/-! ## What a checked configuration keeps out -/

/-- What no text of a checked configuration has in it. -/
structure EmailConfig.Plain (config : EmailConfig) : Prop where
  host : ∀ c ∈ config.smtpHost.toList, Uri.isNameChar c = true
  username : '\n' ∉ config.username.toList ∧ ':' ∉ config.username.toList
  password : '\n' ∉ config.password.toList
  «from» : ∀ c ∈ config.«from».toList, isControl c = false
  «to» : ∀ c ∈ config.«to».toList, isControl c = false

theorem isNameChar_hostname {value : String} (h : Wizard.hostnameIsValid value = true) :
    ∀ c ∈ value.toList, Uri.isNameChar c = true := by
  intro c hmem
  have hok : validateHostname "hostname" value = .ok () := by
    unfold Wizard.hostnameIsValid at h
    cases hv : validateHostname "hostname" value with
    | error e => rw [hv] at h; cases h
    | ok u => rfl
  obtain ⟨-, -, hparts⟩ := not_not.mp (rejectIf_ok.mp hok)
  rw [← join_splitChar '.' value.toList] at hmem
  rcases mem_join hmem with rfl | ⟨part, hpart, hc⟩
  · decide
  · obtain ⟨-, -, -, -, hall⟩ := hparts part hpart
    have hletter := List.all_eq_true.mp hall c hc
    rcases Bool.or_eq_true_iff.mp hletter with halnum | hhyphen
    · simp [Uri.isNameChar, isUnreserved, halnum]
    · rw [beq_iff_eq.mp hhyphen]
      decide

theorem EmailConfig.plain {lib : Libraries} {config : EmailConfig}
    (h : config.validate lib = .ok ()) : config.Plain := by
  unfold EmailConfig.validate at h
  split at h
  · cases h
  · rename_i hhost
    split at h
    · cases h
    · rename_i hmailboxes
      split at h
      · cases h
      · rename_i hcredentials
        simp only [not_or, Bool.not_eq_true, List.any_eq_false] at hcredentials
        obtain ⟨-, husername, -, -, hpassword⟩ := hcredentials
        have hcontrol : ∀ address ∈ [config.«from», config.«to»],
            ∀ c ∈ address.toList, isControl c = false := by
          intro address haddress c hc
          have hvalid := List.all_eq_true.mp (not_not.mp hmailboxes) address haddress
          simp only [mailboxIsValid, Bool.and_eq_true, Bool.not_eq_true', List.any_eq_false] at hvalid
          exact Bool.not_eq_true _ ▸ hvalid.2 c hc
        constructor
        · exact isNameChar_hostname (not_not.mp (not_or.mp hhost).1)
        · exact ⟨fun hc => absurd (husername _ hc) (by decide),
            fun hc => absurd (husername _ hc) (by decide)⟩
        · exact fun hc => absurd (hpassword _ hc) (by decide)
        · exact hcontrol _ (by simp)
        · exact hcontrol _ (by simp)

theorem notMem_of_control {cs : List Char} {c : Char} (h : ∀ d ∈ cs, isControl d = false)
    (hc : isControl c = true) : c ∉ cs := by
  intro hmem
  rw [h c hmem] at hc
  cases hc

/-! ## The options are read as they are meant -/

def escaped (d : Char) : List Char :=
  if d = quote then [backslash, quote] else if d = backslash then [backslash, backslash] else [d]

theorem quoted_eq (value : List Char) : quoted value = quote :: (value.flatMap escaped ++ [quote]) := by
  have hescaped : ∀ d, (if d = backslash then [backslash, backslash] else [d]).flatMap
      (fun e => if e = quote then [backslash, quote] else [e]) = escaped d := by
    intro d
    unfold escaped
    by_cases hq : d = quote
    · subst hq
      rfl
    · by_cases hb : d = backslash
      · subst hb
        rfl
      · simp [hq, hb]
  rw [quoted, replaceChar, replaceChar, List.flatMap_assoc]
  simp only [hescaped]

theorem unquote_escaped (value rest : List Char) :
    unquote (value.flatMap escaped ++ quote :: rest) = value := by
  induction value with
  | nil => cases rest <;> rfl
  | cons c cs ih =>
    rw [List.flatMap_cons, List.append_assoc]
    by_cases hq : c = quote
    · subst hq
      change unescaped quote :: unquote (cs.flatMap escaped ++ quote :: rest) = _
      rw [ih]
      rfl
    · by_cases hb : c = backslash
      · subst hb
        change unescaped backslash :: unquote (cs.flatMap escaped ++ quote :: rest) = _
        rw [ih]
        rfl
      · have hplain : escaped c = [c] := by rw [escaped, if_neg hq, if_neg hb]
        obtain ⟨d, more, htail⟩ : ∃ d more, cs.flatMap escaped ++ quote :: rest = d :: more :=
          List.exists_cons_of_ne_nil (by simp)
        rw [hplain, List.singleton_append, htail, unquote, if_neg hq, if_neg hb, ← htail, ih]

theorem notMem_quoted {value : List Char} (h : '\n' ∉ value) : '\n' ∉ quoted value := by
  rw [quoted_eq]
  intro hmem
  rcases List.mem_cons.mp hmem with hquote | hmem
  · exact absurd hquote (by decide)
  · rcases List.mem_append.mp hmem with hmem | hquote
    · obtain ⟨d, hd, hc⟩ := List.mem_flatMap.mp hmem
      unfold escaped at hc
      split at hc
      · exact absurd hc (by decide)
      · split at hc
        · exact absurd hc (by decide)
        · exact h (List.mem_singleton.mp hc ▸ hd)
    · exact absurd hquote (by decide)

/-- A line with a quoted parameter. -/
theorem readOption_quoted {name : List Char} (hname : ∀ c ∈ name, nameEnds c = false)
    (hne : name ≠ []) (hcomment : name.head? ≠ some '#') (value : List Char) :
    readOption (name ++ " = ".toList ++ quoted value) = some (name, some value) := by
  have hstart : (name ++ " = ".toList ++ quoted value).dropWhile isBlank =
      name ++ " = ".toList ++ quoted value := by
    cases name with
    | nil => exact absurd rfl hne
    | cons c cs =>
      have hc := hname c List.mem_cons_self
      simp only [nameEnds, Bool.or_eq_false_iff] at hc
      rw [List.cons_append, List.cons_append, List.dropWhile_cons_of_neg (by simp [hc.1])]
  have hkeep : ∀ c ∈ name, (!nameEnds c) = true := fun c hc => by rw [hname c hc]; rfl
  have htake : (name ++ " = ".toList ++ quoted value).takeWhile (!nameEnds ·) = name := by
    rw [List.append_assoc, List.takeWhile_append_of_pos hkeep]
    exact List.append_nil name
  have hdrop : (name ++ " = ".toList ++ quoted value).dropWhile (!nameEnds ·) =
      " = ".toList ++ quoted value := by
    rw [List.append_assoc, List.dropWhile_append_of_pos hkeep]
    rfl
  have hskip : (" = ".toList ++ quoted value).dropWhile nameEnds = quoted value := rfl
  have hhead : (name ++ " = ".toList ++ quoted value).head? = name.head? := by
    cases name with
    | nil => exact absurd rfl hne
    | cons c cs => rfl
  have hfull : name ++ " = ".toList ++ quoted value ≠ [] := by simp [quoted]
  rw [readOption, hstart]
  dsimp only
  rw [if_neg (by rw [hhead]; exact not_or.mpr ⟨hfull, hcomment⟩), htake, hdrop, hskip, quoted_eq]
  dsimp only
  rw [if_pos rfl, unquote_escaped]

theorem curlOptions_lines (config : EmailConfig) (mail : String) :
    curlOptions config mail = Text.join '\n'
      ["url".toList ++ " = ".toList ++ quoted (smtpUrl config),
        "user".toList ++ " = ".toList ++ quoted (smtpUser config),
        "mail-from".toList ++ " = ".toList ++ quoted config.«from».toList,
        "mail-rcpt".toList ++ " = ".toList ++ quoted config.«to».toList,
        "upload-file".toList ++ " = ".toList ++ quoted mail.toList,
        "ssl-reqd".toList, "connect-timeout = 15".toList, "max-time = 45".toList,
        "silent".toList, "show-error".toList, []] := by
  have hurl : "url = ".toList = "url".toList ++ " = ".toList := by decide
  have huser : "\nuser = ".toList = '\n' :: ("user".toList ++ " = ".toList) := by decide
  have hfrom : "\nmail-from = ".toList = '\n' :: ("mail-from".toList ++ " = ".toList) := by decide
  have hrcpt : "\nmail-rcpt = ".toList = '\n' :: ("mail-rcpt".toList ++ " = ".toList) := by decide
  have hfile : "\nupload-file = ".toList = '\n' :: ("upload-file".toList ++ " = ".toList) := by decide
  have hrest : "\nssl-reqd\nconnect-timeout = 15\nmax-time = 45\nsilent\nshow-error\n".toList =
      '\n' :: Text.join '\n' ["ssl-reqd".toList, "connect-timeout = 15".toList, "max-time = 45".toList,
        "silent".toList, "show-error".toList, []] := by decide
  unfold curlOptions
  simp only [hurl, huser, hfrom, hrcpt, hfile, hrest, Text.join, List.append_assoc, List.cons_append]

theorem notMem_smtpUrl {config : EmailConfig} (h : config.Plain) : '\n' ∉ smtpUrl config := by
  have hscheme : '\n' ∉ (if config.implicitTls then "smtps" else "smtp").toList ++ "://".toList := by
    cases config.implicitTls <;> decide
  rw [smtpUrl, List.append_assoc]
  intro hmem
  rcases List.mem_append.mp hmem with hmem | hmem
  · exact hscheme hmem
  · rcases List.mem_append.mp hmem with hmem | hmem
    · exact absurd (h.host _ hmem) (by decide)
    · rcases List.mem_cons.mp hmem with hcolon | hmem
      · exact absurd hcolon (by decide)
      · exact notMem_toDigits (by decide) hmem

theorem notMem_smtpUser {config : EmailConfig} (h : config.Plain) : '\n' ∉ smtpUser config := by
  rw [smtpUser]
  intro hmem
  rcases List.mem_append.mp hmem with hmem | hmem
  · exact h.username.1 hmem
  · rcases List.mem_cons.mp hmem with hcolon | hmem
    · exact absurd hcolon (by decide)
    · exact h.password hmem

theorem readOptions_curlOptions {config : EmailConfig} (h : config.Plain) {mail : String}
    (hmail : '\n' ∉ mail.toList) :
    readOptions (curlOptions config mail) = meantOptions config mail := by
  have hfrom := notMem_quoted (notMem_of_control h.from (c := '\n') (by decide))
  have hto := notMem_quoted (notMem_of_control h.to (c := '\n') (by decide))
  have hline {name value : List Char} (hname : '\n' ∉ name) (hvalue : '\n' ∉ quoted value) :
      '\n' ∉ name ++ " = ".toList ++ quoted value := by
    rw [List.append_assoc]
    intro hmem
    rcases List.mem_append.mp hmem with hmem | hmem
    · exact hname hmem
    · rcases List.mem_append.mp hmem with hmem | hmem
      · exact absurd hmem (by decide)
      · exact hvalue hmem
  have hsplit : splitChar '\n' (curlOptions config mail) =
      ["url".toList ++ " = ".toList ++ quoted (smtpUrl config),
        "user".toList ++ " = ".toList ++ quoted (smtpUser config),
        "mail-from".toList ++ " = ".toList ++ quoted config.«from».toList,
        "mail-rcpt".toList ++ " = ".toList ++ quoted config.«to».toList,
        "upload-file".toList ++ " = ".toList ++ quoted mail.toList,
        "ssl-reqd".toList, "connect-timeout = 15".toList, "max-time = 45".toList,
        "silent".toList, "show-error".toList, []] := by
    rw [curlOptions_lines]
    refine splitChar_join (List.cons_ne_nil _ _) ?_
    simp only [List.forall_mem_cons]
    exact ⟨hline (by decide) (notMem_quoted (notMem_smtpUrl h)),
      hline (by decide) (notMem_quoted (notMem_smtpUser h)), hline (by decide) hfrom,
      hline (by decide) hto, hline (by decide) (notMem_quoted hmail), by decide, by decide,
      by decide, by decide, by decide, by decide, nofun⟩
  have hread (name value : List Char)
      (hname : name.all (!nameEnds ·) = true ∧ name ≠ [] ∧ name.head? ≠ some '#') :
      readOption (name ++ " = ".toList ++ quoted value) = some (name, some value) := by
    refine readOption_quoted (fun c hc => ?_) hname.2.1 hname.2.2 value
    exact Bool.not_eq_true' _ ▸ List.all_eq_true.mp hname.1 c hc
  have hword : readOption "ssl-reqd".toList = some ("ssl-reqd".toList, none) ∧
      readOption "connect-timeout = 15".toList = some ("connect-timeout".toList, some "15".toList) ∧
      readOption "max-time = 45".toList = some ("max-time".toList, some "45".toList) ∧
      readOption "silent".toList = some ("silent".toList, none) ∧
      readOption "show-error".toList = some ("show-error".toList, none) ∧
      readOption [] = none := by decide
  rw [readOptions, hsplit, meantOptions]
  simp only [List.filterMap_cons, List.filterMap_nil, hread "url".toList _ (by decide),
    hread "user".toList _ (by decide), hread "mail-from".toList _ (by decide),
    hread "mail-rcpt".toList _ (by decide), hread "upload-file".toList _ (by decide), hword]

/-! ## The mail is read as it is meant -/

def meantFields (config : EmailConfig) (reminder : Bool) (date : String) :
    List (List Char × List Char) :=
  [("From".toList, config.«from».toList), ("To".toList, config.«to».toList),
    ("Subject".toList, "=?UTF-8?B?".toList ++
      (Base64.encode .standard (bytes (subject reminder)) ++ "?=".toList)),
    ("Date".toList, date.toList), ("MIME-Version".toList, "1.0".toList),
    ("Content-Type".toList, "text/plain; charset=UTF-8".toList),
    ("Content-Transfer-Encoding".toList, "base64".toList)]

/-- The lines of a body; an empty one is an empty line. -/
def bodyLines (body : String) : List (List Char) :=
  match chunks 76 (Base64.encode .standard (bytes body)) with
  | [] => [[]]
  | pieces => pieces

theorem notMem_encode (c : Char) (hc : Base64.isSymbol .standard c = false) (encoded : List UInt8) :
    c ∉ Base64.encode .standard encoded := by
  intro hmem
  rw [Base64.isSymbol_of_mem .standard hmem] at hc
  cases hc

theorem flatten_bodyLines (body : String) :
    (bodyLines body).flatten = Base64.encode .standard (bytes body) := by
  have hflatten := flatten_chunks (by decide : 0 < 76) (Base64.encode .standard (bytes body))
  unfold bodyLines
  split
  · rename_i hnil
    rw [← hflatten, hnil]
    rfl
  · exact hflatten

theorem wrapped_lines (body : String) :
    crlf.intercalate (chunks 76 (Base64.encode .standard (bytes body))) ++ crlf =
      (bodyLines body).flatMap (· ++ crlf) := by
  unfold bodyLines
  split
  · rename_i hnil
    rw [hnil]
    rfl
  · rename_i hne
    exact intercalate_flatMap crlf hne

theorem message_lines (config : EmailConfig) (body : String) (reminder : Bool) (date : String) :
    message config body reminder date =
      ((meantFields config reminder date).map printField).flatMap (· ++ crlf) ++
        (crlf ++ (bodyLines body).flatMap (· ++ crlf)) := by
  have hfrom : "From: ".toList = "From".toList ++ [':', ' '] := by decide
  have hto : "\r\nTo: ".toList = crlf ++ ("To".toList ++ [':', ' ']) := by decide
  have hsubject : "\r\nSubject: =?UTF-8?B?".toList =
      crlf ++ ("Subject".toList ++ (':' :: ' ' :: "=?UTF-8?B?".toList)) := by decide
  have hdate : "?=\r\nDate: ".toList = "?=".toList ++ (crlf ++ ("Date".toList ++ [':', ' '])) := by
    decide
  have hrest : "\r\nMIME-Version: 1.0\r\nContent-Type: text/plain; charset=UTF-8\r\nContent-Transfer-Encoding: base64\r\n\r\n".toList =
      crlf ++ (printField ("MIME-Version".toList, "1.0".toList) ++ (crlf ++
        (printField ("Content-Type".toList, "text/plain; charset=UTF-8".toList) ++ (crlf ++
          (printField ("Content-Transfer-Encoding".toList, "base64".toList) ++ (crlf ++ crlf)))))) := by
    decide
  have hlast : "\r\n".toList = crlf := by decide
  unfold message
  simp only [hfrom, hto, hsubject, hdate, hrest, hlast, meantFields, List.map_cons, List.map_nil,
    List.flatMap_cons, List.flatMap_nil, printField, List.append_assoc, List.cons_append,
    List.nil_append, List.append_nil, ← wrapped_lines]

theorem readMessage_message {config : EmailConfig} (h : config.Plain) (body : String)
    (reminder : Bool) {date : String} (hdate : '\r' ∉ date.toList) :
    readMessage (message config body reminder date) =
      some (meantFields config reminder date, bodyLines body) := by
  have hcr : isControl '\r' = true := by decide
  have hencoded := notMem_encode '\r' (by decide)
  have hprint {name value : List Char} (hname : '\r' ∉ name) (hvalue : '\r' ∉ value) :
      '\r' ∉ printField (name, value) := by
    intro hmem
    rcases List.mem_append.mp hmem with hmem | hmem
    · exact hname hmem
    · rcases List.mem_cons.mp hmem with hcolon | hmem
      · exact absurd hcolon (by decide)
      · rcases List.mem_cons.mp hmem with hspace | hmem
        · exact absurd hspace (by decide)
        · exact hvalue hmem
  have hsubject : '\r' ∉ "=?UTF-8?B?".toList ++
      (Base64.encode .standard (bytes (subject reminder)) ++ "?=".toList) := by
    intro hmem
    rcases List.mem_append.mp hmem with hmem | hmem
    · exact absurd hmem (by decide)
    · rcases List.mem_append.mp hmem with hmem | hmem
      · exact hencoded _ hmem
      · exact absurd hmem (by decide)
  rw [message_lines]
  apply readMessage_print
  · simp only [meantFields, List.forall_mem_cons]
    exact ⟨by decide, by decide, by decide, by decide, by decide, by decide, by decide, nofun⟩
  · simp only [meantFields, List.forall_mem_cons]
    exact ⟨hprint (by decide) (notMem_of_control h.from hcr),
      hprint (by decide) (notMem_of_control h.to hcr), hprint (by decide) hsubject,
      hprint (by decide) hdate, by decide, by decide, by decide, nofun⟩
  · intro line hline hmem
    refine hencoded (bytes body) ?_
    rw [← flatten_bodyLines]
    exact List.mem_flatten.mpr ⟨line, hline, hmem⟩

theorem readBody_bodyLines (body : String) : readBody (bodyLines body) = some body := by
  rw [readBody, flatten_bodyLines, Base64.decode_encode, Option.bind_some, fromUtf8_bytes]

theorem readWord_encoded (s : String) :
    readWord ("=?UTF-8?B?".toList ++ (Base64.encode .standard (bytes s) ++ "?=".toList)) =
      some s := by
  have hreverse : (Base64.encode .standard (bytes s) ++ "?=".toList).reverse =
      "=?".toList ++ (Base64.encode .standard (bytes s)).reverse := by
    rw [List.reverse_append]
    rfl
  rw [readWord, stripPrefix_append]
  simp only [Option.bind_eq_bind, Option.bind_some]
  rw [hreverse, stripPrefix_append]
  simp only [Option.bind_some, List.reverse_reverse, Base64.decode_encode, fromUtf8_bytes]

theorem length_bodyLines {body : String} {line : List Char} (h : line ∈ bodyLines body) :
    line.length ≤ 76 := by
  unfold bodyLines at h
  split at h
  · rw [List.mem_singleton.mp h]
    exact Nat.zero_le _
  · exact length_of_mem_chunks h

/-! ## Deliveries -/

theorem handed_ok {lib : Libraries} {host : MailHost} {config : EmailConfig} {body : String}
    {reminder : Bool} {options mail : List Char} :
    handed lib host config body reminder = .ok (options, mail) ↔
      config.validate lib = .ok () ∧ ∃ file, host.mailFile = .ok file ∧
        options = curlOptions config file ∧ mail = message config body reminder host.date := by
  constructor
  · intro h
    obtain ⟨_, hvalid, h⟩ := bind_ok.mp h
    obtain ⟨file, hfile, h⟩ := bind_ok.mp h
    cases h
    exact ⟨hvalid, file, hfile, rfl, rfl⟩
  · rintro ⟨hvalid, file, hfile, rfl, rfl⟩
    simp only [handed, hvalid, hfile, bind, Except.bind]
    rfl

theorem deliver_ok {lib : Libraries} {host : MailHost} {config : EmailConfig} {body : String}
    {reminder : Bool} {mail : List Char} :
    deliver lib host config body reminder = .ok mail ↔
      ∃ options, handed lib host config body reminder = .ok (options, mail) ∧
        host.curl options mail = .ok () := by
  constructor
  · intro h
    obtain ⟨⟨options, sent⟩, hhanded, h⟩ := bind_ok.mp h
    obtain ⟨_, hcurl, h⟩ := bind_ok.mp h
    cases h
    exact ⟨options, hhanded, hcurl⟩
  · rintro ⟨options, hhanded, hcurl⟩
    simp only [deliver, hhanded, hcurl, bind, Except.bind]
    rfl

/-- The server as its URL names it. -/
def smtpParts (config : EmailConfig) (port : List Char) : Uri.Parts where
  scheme := (if config.implicitTls then "smtps" else "smtp").toList
  userinfo := none
  host := .name config.smtpHost.toList
  port := some port
  path := []
  query := none
  fragment := none

theorem read_smtpUrl {config : EmailConfig} (h : config.Plain) :
    Uri.read (smtpUrl config) =
      some (smtpParts config (Nat.toDigits 10 config.smtpPort.toNat)) := by
  generalize hdigits : Nat.toDigits 10 config.smtpPort.toNat = port
  have hport : port.all Uri.isPortChar = true := by
    rw [← hdigits, List.all_eq_true]
    intro c hc
    rw [Uri.isPortChar, isDigit_of_mem hc]
    rfl
  have hwellFormed : (smtpParts config port).WellFormed := by
    constructor
    case scheme => cases hscheme : config.implicitTls <;> simp only [smtpParts, hscheme] <;> decide
    case host => exact Uri.valid_literal h.host (by decide)
    case port =>
      intro digits hsome
      cases hsome
      exact hport
    case path =>
      have hempty : Uri.valid Uri.isPathChar [] = true := by decide
      exact ⟨hempty, .inl rfl⟩
    all_goals exact fun _ hnone => by cases hnone
  have htext : smtpUrl config = (smtpParts config port).text := by
    rw [smtpUrl, hdigits]
    simp [smtpParts, Uri.Parts.text, Uri.Parts.authority, Uri.Host.text]
  rw [htext, Uri.read_text hwellFormed]

/-- A host whose temporary files and dates are of one line. -/
structure MailHost.Proper (host : MailHost) : Prop where
  mailFile : ∀ file, host.mailFile = .ok file → '\n' ∉ file.toList
  date : '\r' ∉ host.date.toList

/-- What curl and a reader of the mail make of what curl is given. -/
structure MailRead (host : MailHost) (config : EmailConfig) (body : String) (reminder : Bool)
    (options mail : List Char) : Prop where
  /-- curl reads the options that were meant and no others. -/
  options : ∃ file, host.mailFile = .ok file ∧ readOptions options = meantOptions config file
  server : ∃ port, Uri.read (smtpUrl config) = some (smtpParts config port) ∧
    digitsFrom 0 port = some config.smtpPort.toNat
  user : splitOnce ':' (smtpUser config) = some (config.username.toList, config.password.toList)
  /-- The mail has the fields that were meant and no others, and the body. -/
  fields : ∃ lines, readMessage mail = some (meantFields config reminder host.date, lines) ∧
    readBody lines = some body ∧ ∀ line ∈ lines, line.length ≤ 76
  subject : ∃ word, (meantFields config reminder host.date).lookup "Subject".toList = some word ∧
    readWord word = some (subject reminder)

/-- No configured text and no body escapes from its place in what curl is given,
and a mail is sent exactly if curl takes it. -/
theorem mail_read {lib : Libraries} {host : MailHost} (hhost : host.Proper) (config : EmailConfig)
    (body : String) (reminder : Bool) :
    (∀ options mail, handed lib host config body reminder = .ok (options, mail) →
      MailRead host config body reminder options mail) ∧
    ∀ mail, deliver lib host config body reminder = .ok mail ↔
      ∃ options, handed lib host config body reminder = .ok (options, mail) ∧
        host.curl options mail = .ok () := by
  refine ⟨fun options mail h => ?_, fun mail => deliver_ok⟩
  obtain ⟨hvalid, file, hfile, rfl, rfl⟩ := handed_ok.mp h
  have hplain := EmailConfig.plain hvalid
  constructor
  · exact ⟨file, hfile, readOptions_curlOptions hplain (hhost.mailFile file hfile)⟩
  · exact ⟨_, read_smtpUrl hplain, digitsFrom_toDigits _⟩
  · exact splitOnce_append hplain.username.2 _
  · exact ⟨bodyLines body, readMessage_message hplain body reminder hhost.date,
      readBody_bodyLines body, fun line hline => length_bodyLines hline⟩
  · exact ⟨_, rfl, readWord_encoded _⟩

def sampleEmail : EmailConfig :=
  { EmailConfig.default with password := "\"x\\", resetReminderHours := 12 }

def sampleMailHost : MailHost where
  mailFile := .ok "/tmp/.tmpA1b2C3"
  date := "Fri, 9 Oct 2026 17:00:00 +0000"
  curl _ _ := .ok ()

theorem mail_read_sample : sampleMailHost.Proper ∧ ∃ options mail,
    handed sampleLibraries sampleMailHost sampleEmail "中文\n" true = .ok (options, mail) ∧
      MailRead sampleMailHost sampleEmail "中文\n" true options mail := by
  have hproper : sampleMailHost.Proper := by
    constructor
    · intro file hfile
      cases hfile
      decide
    · decide
  have hvalid : sampleEmail.validate sampleLibraries = .ok () := by decide
  have hhanded : handed sampleLibraries sampleMailHost sampleEmail "中文\n" true =
      .ok (_, _) := handed_ok.mpr ⟨hvalid, "/tmp/.tmpA1b2C3", rfl, rfl, rfl⟩
  exact ⟨hproper, _, _, hhanded, (mail_read hproper sampleEmail "中文\n" true).1 _ _ hhanded⟩

end Sbctl
