import ArxRuna.Library.JsonText
import ArxRuna.Sharing.RemotePath
namespace ArxRuna.Sharing.SessionConf
open Library.Texts Library.JsonText RemotePath

-- The session configuration, line by line. JSON inside a line is read by serde_json.
abbrev Conf := List Text
abbrev ReadJson := Text → Option Json

def isWhitespace (c : Char) : Bool :=
  let n := c.toNat
  (9 ≤ n ∧ n ≤ 13) ∨ n = 32 ∨ n = 0x85 ∨ n = 0xA0 ∨ n = 0x1680 ∨ (0x2000 ≤ n ∧ n ≤ 0x200A) ∨
    n = 0x2028 ∨ n = 0x2029 ∨ n = 0x202F ∨ n = 0x205F ∨ n = 0x3000

def trim (text : Text) : Text := ((text.dropWhile isWhitespace).reverse.dropWhile isWhitespace).reverse

def header? (trimmed : Text) : Option Text :=
  if ['['].isPrefixOf trimmed && [']'].isSuffixOf trimmed then some (trimmed.drop 1).dropLast else none

def entry? (trimmed : Text) : Option (Text × Text) :=
  (splitOnce '=' trimmed).map fun halves => (trim halves.1,trim halves.2)

-- Of several fields with one name the last one counts.
def jsonGet (name : String) : Json → Option Json
  | .object fields => (fields.reverse.find? (·.1 = name)).map (·.2)
  | _ => none

structure B2Scan where
  inTarget : Bool
  isB2 : Bool := false
  account : Option Text := none
  key : Option Text := none

def B2Scan.keys (scan : B2Scan) : Option (Text × Text) := do
  let account ← scan.account
  let key ← scan.key
  if scan.inTarget && scan.isB2 then some (account,key) else none

def B2Scan.read (scan : B2Scan) (trimmed : Text) : B2Scan :=
  match entry? trimmed with
  | none => scan
  | some (k,v) =>
    if scan.inTarget = false then scan
    else if k = ['t','y','p','e'] then (if v = ['b','2'] then {scan with isB2 := true} else scan)
    else if k = ['a','c','c','o','u','n','t'] then {scan with account := some v}
    else if k = ['k','e','y'] then {scan with key := some v}
    else scan

def scanB2ApiKeys (remoteName : Text) : B2Scan → Conf → Option (Text × Text)
  | scan,[] => scan.keys
  | scan,line :: rest =>
    match header? (trim line) with
    | some name =>
      match scan.keys with
      | some keys => some keys
      | none => scanB2ApiKeys remoteName {inTarget := name = remoteName} rest
    | none =>
      let next := scan.read (trim line)
      match next.keys with
      | some keys => some keys
      | none => scanB2ApiKeys remoteName next rest

def parseB2ApiKeysForRemote (conf : Conf) (remoteName : Text) : Option (Text × Text) :=
  scanB2ApiKeys remoteName {inTarget := false} conf

-- Unlike the parser above this one takes no name: it wants `bucket` too, and reads
-- account, key and bucket only below the `type` line of their section.
structure B2Section where
  inB2Section : Bool := false
  account : Option Text := none
  key : Option Text := none
  bucket : Option Text := none

def B2Section.credentials (scan : B2Section) : Option (Text × Text × Text) := do
  let account ← scan.account
  let key ← scan.key
  let bucket ← scan.bucket
  if scan.inB2Section then some (account,key,bucket) else none

def B2Section.read (scan : B2Section) (trimmed : Text) : B2Section :=
  match entry? trimmed with
  | none => scan
  | some (k,v) =>
    if k = ['t','y','p','e'] then (if v = ['b','2'] then {scan with inB2Section := true} else scan)
    else if scan.inB2Section = false then scan
    else if k = ['a','c','c','o','u','n','t'] then {scan with account := some v}
    else if k = ['k','e','y'] then {scan with key := some v}
    else if k = ['b','u','c','k','e','t'] then {scan with bucket := some v}
    else scan

def scanB2Credentials : B2Section → Conf → Option (Text × Text × Text)
  | _,[] => none
  | scan,line :: rest =>
    match header? (trim line) with
    | some _ => scanB2Credentials {} rest
    | none =>
      let next := scan.read (trim line)
      match next.credentials with
      | some found => some found
      | none => scanB2Credentials next rest

def parseB2CredentialsFromConf (conf : Conf) : Option (Text × Text × Text) := scanB2Credentials {} conf

structure GdriveOauth where
  clientId : Text
  clientSecret : Text
  refreshToken : String
  rootFolderId : Option Text

structure GdriveScan where
  inTarget : Bool
  isDrive : Bool := false
  clientId : Option Text := none
  clientSecret : Option Text := none
  tokenJson : Option Text := none
  rootFolderId : Option Text := none

variable (readJson : ReadJson)

def buildGdriveResult (scan : GdriveScan) : Option GdriveOauth := do
  let token ← scan.tokenJson
  let value ← readJson token
  let refresh ← jsonGet "refresh_token" value
  let refreshToken ← refresh.text?
  pure ⟨scan.clientId.getD [],scan.clientSecret.getD [],refreshToken,scan.rootFolderId⟩

def GdriveScan.result (scan : GdriveScan) : Option GdriveOauth :=
  if scan.inTarget && scan.isDrive then buildGdriveResult readJson scan else none

def GdriveScan.read (scan : GdriveScan) (trimmed : Text) : GdriveScan :=
  match entry? trimmed with
  | none => scan
  | some (k,v) =>
    if scan.inTarget = false then scan
    else if k = ['t','y','p','e'] then (if v = ['d','r','i','v','e'] then {scan with isDrive := true} else scan)
    else if k = ['c','l','i','e','n','t','_','i','d'] then {scan with clientId := some v}
    else if k = ['c','l','i','e','n','t','_','s','e','c','r','e','t'] then {scan with clientSecret := some v}
    else if k = ['t','o','k','e','n'] then {scan with tokenJson := some v}
    else if k = ['r','o','o','t','_','f','o','l','d','e','r','_','i','d'] then (if v = [] then scan else {scan with rootFolderId := some v})
    else scan

def scanGdriveOauth (remoteName : Text) : GdriveScan → Conf → Option GdriveOauth
  | scan,[] => scan.result readJson
  | scan,line :: rest =>
    match header? (trim line) with
    | some name =>
      match scan.result readJson with
      | some oauth => some oauth
      | none => scanGdriveOauth remoteName {inTarget := name = remoteName} rest
    | none => scanGdriveOauth remoteName (scan.read (trim line)) rest

def parseGdriveOauthFromConf (conf : Conf) (remoteName : Text) : Option GdriveOauth :=
  scanGdriveOauth readJson remoteName {inTarget := false} conf

def scanGdriveToken (remoteName : Text) : Bool → Option Text → Conf → Option Text
  | _,token,[] => token
  | inTarget,token,line :: rest =>
    match header? (trim line) with
    | some name => if inTarget then token else scanGdriveToken remoteName (name = remoteName) token rest
    | none =>
      match entry? (trim line) with
      | some (k,v) => scanGdriveToken remoteName inTarget (if inTarget ∧ k = ['t','o','k','e','n'] then some v else token) rest
      | none => scanGdriveToken remoteName inTarget token rest

def parseGdriveAccessTokenFromConf (conf : Conf) (remoteName : Text) : Option String := do
  let token ← scanGdriveToken remoteName false none conf
  let value ← readJson token
  let access ← jsonGet "access_token" value
  access.text?

end ArxRuna.Sharing.SessionConf
