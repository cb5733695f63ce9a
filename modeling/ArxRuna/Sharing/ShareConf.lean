import ArxRuna.Library.Ini
import ArxRuna.Library.JsonCompact
import ArxRuna.Sharing.Endpoint
namespace ArxRuna.Sharing.ShareConf
open Library.Texts Library.JsonText Library.Ini Library.JsonCompact RemotePath SessionConf Rows Endpoint

-- A share is fetched once to be downloaded, and its receipt is written afterwards.
inductive Purpose where
  | download
  | receipt
  deriving DecidableEq

def b2Type : Text := ['b','2']

def driveType : Text := ['d','r','i','v','e']

def typeKey : Text := ['t','y','p','e']

def accountKey : Text := ['a','c','c','o','u','n','t']

def keyKey : Text := ['k','e','y']

def scopeKey : Text := ['s','c','o','p','e']

def serviceAccountKey : Text :=
  ['s','e','r','v','i','c','e','_','a','c','c','o','u','n','t','_','c','r','e','d','e','n','t','i','a','l','s']

def rootFolderKey : Text := ['r','o','o','t','_','f','o','l','d','e','r','_','i','d']

def readonlyScope : Text := ['d','r','i','v','e','.','r','e','a','d','o','n','l','y']

def confLine (key value : Text) : Text := key ++ [' ','=',' '] ++ value ++ ['\n']

-- The two format strings, as `build_b2_share_transport` and `receipt_conf_b2`, and
-- `build_gdrive_share_transport` and `receipt_conf_gdrive` share them.
def b2ConfContent (remote keyId appKey : Text) : Text :=
  '[' :: remote ++ [']','\n'] ++ confLine typeKey b2Type ++ confLine accountKey keyId ++ confLine keyKey appKey

def gdriveConfContent (remote scope saJsonCompact folderId : Text) : Text :=
  '[' :: remote ++ [']','\n'] ++ confLine typeKey driveType ++ confLine scopeKey scope ++
    confLine serviceAccountKey saJsonCompact ++ confLine rootFolderKey folderId

-- `from_str` of serde_json, then `to_string`.
variable (fromStr : Text → Option Value)

def compact (raw : Text) : Option Text := (fromStr raw).map Value.print

def b2Remote : Purpose → Text
  | .download => shareDownload
  | .receipt => shareReceipt

def driveRemote : Purpose → Text
  | .download => shareDriveDownload
  | .receipt => shareReceipt

-- Reading a share is enough to download it; the receipt has to be written.
def driveScope : Purpose → Text
  | .download => readonlyScope
  | .receipt => driveType

def b2ShareConf (purpose : Purpose) (endpoint : Json) : Option Text := do
  let keyId ← textField "key_id" endpoint
  let appKey ← textField "application_key" endpoint
  let _ ← textField "bucket" endpoint
  let _ ← textField "path_prefix" endpoint
  pure (b2ConfContent (b2Remote purpose) keyId appKey)

def gdriveShareConf (purpose : Purpose) (endpoint : Json) : Option Text := do
  let folderId ← textField "folder_id" endpoint
  let saJsonRaw ← textField "sa_credentials_json" endpoint
  let saJsonCompact ← compact fromStr saJsonRaw
  pure (gdriveConfContent (driveRemote purpose) (driveScope purpose) saJsonCompact folderId)

-- The text that is written before rclone runs; without one nothing is fetched with
-- the sender's credentials and no receipt is written.
def confContent (purpose : Purpose) (endpoint : Json) : Option Text := do
  let provider ← stringField "provider" endpoint
  if provider = "b2" then b2ShareConf purpose endpoint
  else if provider = "drive" then gdriveShareConf fromStr purpose endpoint
  else none

-- What the text is meant to say: one remote, its keys and the endpoint's values. The
-- credentials of the service account count as JSON, not as text.
def b2Stanza (remote keyId appKey : Text) : Stanza :=
  ⟨remote,[⟨typeKey,b2Type⟩,⟨accountKey,keyId⟩,⟨keyKey,appKey⟩]⟩

def gdriveStanza (remote scope saJsonCompact folderId : Text) : Stanza :=
  ⟨remote,[⟨typeKey,driveType⟩,⟨scopeKey,scope⟩,⟨serviceAccountKey,saJsonCompact⟩,⟨rootFolderKey,folderId⟩]⟩

def intended (purpose : Purpose) (endpoint : Json) : Option Stanza := do
  let provider ← stringField "provider" endpoint
  if provider = "b2" then
    let keyId ← textField "key_id" endpoint
    let appKey ← textField "application_key" endpoint
    pure (b2Stanza (b2Remote purpose) keyId appKey)
  else if provider = "drive" then
    let folderId ← textField "folder_id" endpoint
    let saJsonRaw ← textField "sa_credentials_json" endpoint
    let saJsonCompact ← compact fromStr saJsonRaw
    pure (gdriveStanza (driveRemote purpose) (driveScope purpose) saJsonCompact folderId)
  else none

-- Reading by lines, with the white space that `str::trim` drops.
def readConf (text : Text) : List Entry × List Stanza := Library.Ini.read isWhitespace text

-- One section with the intended keys, each once, or no text at all.
def Confined (purpose : Purpose) (endpoint : Json) : Prop :=
  ∀ conf, confContent fromStr purpose endpoint = some conf →
    ∃ stanza, intended fromStr purpose endpoint = some stanza ∧ (stanza.entries.map (·.key)).Nodup ∧
      readConf conf = ([],[stanza])

-- The strings of the endpoint that a line has to carry as they are, once the fields
-- the builder asks for are there.
def FitsLines (endpoint : Json) : Prop :=
  ∀ provider, stringField "provider" endpoint = some provider →
    (provider = "b2" → ∀ keyId appKey bucket pathPrefix, textField "key_id" endpoint = some keyId →
      textField "application_key" endpoint = some appKey → textField "bucket" endpoint = some bucket →
      textField "path_prefix" endpoint = some pathPrefix → OneLine isWhitespace keyId ∧ OneLine isWhitespace appKey) ∧
    (provider = "drive" → ∀ folderId saJsonRaw saJsonCompact, textField "folder_id" endpoint = some folderId →
      textField "sa_credentials_json" endpoint = some saJsonRaw → compact fromStr saJsonRaw = some saJsonCompact →
      OneLine isWhitespace folderId)

theorem reads_like_parsers (line : Text) : readLine isWhitespace line =
    match header? (SessionConf.trim line) with
    | some name => .header name
    | none =>
      match entry? (SessionConf.trim line) with
      | some found => .entry ⟨found.1,found.2⟩
      | none => .other := by
  unfold readLine header? entry?
  dsimp only
  have same : Library.Ini.trim isWhitespace = SessionConf.trim := rfl
  rw [same]
  split
  · rfl
  · cases splitOnce '=' (SessionConf.trim line) <;> rfl

theorem b2_conf_render (remote keyId appKey : Text) :
    b2ConfContent remote keyId appKey = (b2Stanza remote keyId appKey).render := by
  simp [b2ConfContent,b2Stanza,Stanza.render,renderEntries,Entry.line,confLine]

theorem gdrive_conf_render (remote scope saJsonCompact folderId : Text) :
    gdriveConfContent remote scope saJsonCompact folderId =
      (gdriveStanza remote scope saJsonCompact folderId).render := by
  simp [gdriveConfContent,gdriveStanza,Stanza.render,renderEntries,Entry.line,confLine]

theorem fixed_keys : ∀ key ∈ [typeKey,accountKey,keyKey,scopeKey,serviceAccountKey,rootFolderKey],
    PlainKey isWhitespace key := by
  simp only [List.forall_mem_cons]
  refine ⟨⟨?_,?_,?_⟩,⟨?_,?_,?_⟩,⟨?_,?_,?_⟩,⟨?_,?_,?_⟩,⟨?_,?_,?_⟩,⟨?_,?_,?_⟩,List.forall_mem_nil _⟩
  all_goals decide

theorem fixed_values : ∀ value ∈ [b2Type,driveType,readonlyScope], OneLine isWhitespace value := by
  simp only [List.forall_mem_cons]
  refine ⟨?_,?_,?_,List.forall_mem_nil _⟩
  all_goals decide

theorem compact_one_line {fromStr : Text → Option Value} (found : compact fromStr raw = some text) :
    OneLine isWhitespace text := by
  obtain ⟨value,_,rfl⟩ := Option.map_eq_some_iff.mp found
  have all : edgeChars.all (fun c => isWhitespace c = false) = true := by decide
  have edges : ∀ c ∈ edgeChars, isWhitespace c = false :=
    fun c member => of_decide_eq_true (List.all_eq_true.mp all c member)
  constructor
  · intro member
    have := print_printable value _ member
    revert this
    decide
  · apply trim_ends
    · intro filled
      exact edges _ (print_head value)
    · intro filled
      exact edges _ (print_last value)

theorem b2_stanza_reads (named : '\n' ∉ remote) :
    readConf (b2ConfContent remote keyId appKey) = ([],[b2Stanza remote keyId appKey]) ↔
      OneLine isWhitespace keyId ∧ OneLine isWhitespace appKey := by
  have plain : ∀ entry ∈ (b2Stanza remote keyId appKey).entries, PlainKey isWhitespace entry.key := by
    simp only [b2Stanza,List.forall_mem_cons]
    exact ⟨fixed_keys _ (by simp),fixed_keys _ (by simp),fixed_keys _ (by simp),List.forall_mem_nil _⟩
  rw [b2_conf_render,readConf,read_render rfl rfl rfl rfl named plain]
  simp only [b2Stanza,List.forall_mem_cons]
  have fixed := fixed_values b2Type (by simp)
  constructor
  · rintro ⟨_,account,key,_⟩
    exact ⟨account,key⟩
  · rintro ⟨account,key⟩
    exact ⟨fixed,account,key,List.forall_mem_nil _⟩

theorem gdrive_stanza_reads {fromStr : Text → Option Value} (named : '\n' ∉ remote) (fits : OneLine isWhitespace scope)
    (found : compact fromStr raw = some saJsonCompact) :
    readConf (gdriveConfContent remote scope saJsonCompact folderId) =
      ([],[gdriveStanza remote scope saJsonCompact folderId]) ↔ OneLine isWhitespace folderId := by
  have plain : ∀ entry ∈ (gdriveStanza remote scope saJsonCompact folderId).entries,
      PlainKey isWhitespace entry.key := by
    simp only [gdriveStanza,List.forall_mem_cons]
    exact ⟨fixed_keys _ (by simp),fixed_keys _ (by simp),fixed_keys _ (by simp),fixed_keys _ (by simp),
      List.forall_mem_nil _⟩
  rw [gdrive_conf_render,readConf,read_render rfl rfl rfl rfl named plain]
  simp only [gdriveStanza,List.forall_mem_cons]
  have fixed := fixed_values driveType (by simp)
  constructor
  · rintro ⟨_,_,_,folder,_⟩
    exact folder
  · intro folder
    exact ⟨fixed,fits,compact_one_line found,folder,List.forall_mem_nil _⟩

theorem remotes_whole (purpose : Purpose) : '\n' ∉ b2Remote purpose ∧ '\n' ∉ driveRemote purpose := by
  cases purpose <;> decide

theorem scope_fits (purpose : Purpose) : OneLine isWhitespace (driveScope purpose) := by
  cases purpose
  · exact fixed_values readonlyScope (by simp)
  · exact fixed_values driveType (by simp)

theorem b2_keys (remote keyId appKey : Text) : ((b2Stanza remote keyId appKey).entries.map (·.key)).Nodup := by
  simp only [b2Stanza,List.map_cons,List.map_nil]
  decide

theorem gdrive_keys (remote scope saJsonCompact folderId : Text) :
    ((gdriveStanza remote scope saJsonCompact folderId).entries.map (·.key)).Nodup := by
  simp only [gdriveStanza,List.map_cons,List.map_nil]
  decide

theorem b2_share_conf : b2ShareConf purpose endpoint = some conf ↔ ∃ keyId appKey bucket pathPrefix,
    textField "key_id" endpoint = some keyId ∧ textField "application_key" endpoint = some appKey ∧
    textField "bucket" endpoint = some bucket ∧ textField "path_prefix" endpoint = some pathPrefix ∧
    conf = b2ConfContent (b2Remote purpose) keyId appKey := by
  simp only [b2ShareConf,Option.bind_eq_bind,Option.bind_eq_some_iff,Option.pure_def,Option.some.injEq]
  constructor
  · rintro ⟨keyId,id,appKey,key,bucket,there,pathPrefix,below,rfl⟩
    exact ⟨keyId,appKey,bucket,pathPrefix,id,key,there,below,rfl⟩
  · rintro ⟨keyId,appKey,bucket,pathPrefix,id,key,there,below,rfl⟩
    exact ⟨keyId,id,appKey,key,bucket,there,pathPrefix,below,rfl⟩

theorem gdrive_share_conf {fromStr : Text → Option Value} : gdriveShareConf fromStr purpose endpoint = some conf ↔
    ∃ folderId saJsonRaw saJsonCompact, textField "folder_id" endpoint = some folderId ∧
      textField "sa_credentials_json" endpoint = some saJsonRaw ∧ compact fromStr saJsonRaw = some saJsonCompact ∧
      conf = gdriveConfContent (driveRemote purpose) (driveScope purpose) saJsonCompact folderId := by
  simp only [gdriveShareConf,Option.bind_eq_bind,Option.bind_eq_some_iff,Option.pure_def,Option.some.injEq]
  constructor
  · rintro ⟨folderId,folder,raw,given,text,found,rfl⟩
    exact ⟨folderId,raw,text,folder,given,found,rfl⟩
  · rintro ⟨folderId,raw,text,folder,given,found,rfl⟩
    exact ⟨folderId,folder,raw,given,text,found,rfl⟩

theorem b2_confined_iff (purpose : Purpose) (provided : stringField "provider" endpoint = some "b2") :
    Confined fromStr purpose endpoint ↔ ∀ keyId appKey bucket pathPrefix, textField "key_id" endpoint = some keyId →
      textField "application_key" endpoint = some appKey → textField "bucket" endpoint = some bucket →
      textField "path_prefix" endpoint = some pathPrefix →
      OneLine isWhitespace keyId ∧ OneLine isWhitespace appKey := by
  have content : confContent fromStr purpose endpoint = b2ShareConf purpose endpoint := by
    simp [confContent,provided]
  unfold Confined
  rw [content]
  constructor
  · intro confined keyId appKey bucket pathPrefix id key there below
    obtain ⟨stanza,meant,_,reads⟩ := confined _ (b2_share_conf.mpr ⟨keyId,appKey,bucket,pathPrefix,id,key,there,below,rfl⟩)
    have same : b2Stanza (b2Remote purpose) keyId appKey = stanza := by
      simpa [intended,provided,id,key] using meant
    rw [← same] at reads
    exact (b2_stanza_reads (remotes_whole purpose).1).mp reads
  · intro fits conf written
    obtain ⟨keyId,appKey,bucket,pathPrefix,id,key,there,below,rfl⟩ := b2_share_conf.mp written
    refine ⟨b2Stanza (b2Remote purpose) keyId appKey,?_,b2_keys _ _ _,?_⟩
    · simp [intended,provided,id,key]
    · apply (b2_stanza_reads (remotes_whole purpose).1).mpr
      exact fits keyId appKey bucket pathPrefix id key there below

theorem gdrive_confined_iff (purpose : Purpose) (provided : stringField "provider" endpoint = some "drive") :
    Confined fromStr purpose endpoint ↔ ∀ folderId saJsonRaw saJsonCompact, textField "folder_id" endpoint = some folderId →
      textField "sa_credentials_json" endpoint = some saJsonRaw → compact fromStr saJsonRaw = some saJsonCompact →
      OneLine isWhitespace folderId := by
  have content : confContent fromStr purpose endpoint = gdriveShareConf fromStr purpose endpoint := by
    simp [confContent,provided]
  unfold Confined
  rw [content]
  constructor
  · intro confined folderId raw text folder given found
    obtain ⟨stanza,meant,_,reads⟩ := confined _ (gdrive_share_conf.mpr ⟨folderId,raw,text,folder,given,found,rfl⟩)
    have same : gdriveStanza (driveRemote purpose) (driveScope purpose) text folderId = stanza := by
      simpa [intended,provided,folder,given,found] using meant
    rw [← same] at reads
    exact (gdrive_stanza_reads (remotes_whole purpose).2 (scope_fits purpose) found).mp reads
  · intro fits conf written
    obtain ⟨folderId,raw,text,folder,given,found,rfl⟩ := gdrive_share_conf.mp written
    refine ⟨gdriveStanza (driveRemote purpose) (driveScope purpose) text folderId,?_,gdrive_keys _ _ _ _,?_⟩
    · simp [intended,provided,folder,given,found]
    · apply (gdrive_stanza_reads (remotes_whole purpose).2 (scope_fits purpose) found).mpr
      exact fits folderId raw text folder given found

-- The text says what the endpoint means exactly if the strings that go into it fit
-- their lines. Nothing rejects those that do not.
theorem share_conf_confined_iff (fromStr : Text → Option Value) (purpose : Purpose) (endpoint : Json) :
    Confined fromStr purpose endpoint ↔ FitsLines fromStr endpoint := by
  unfold FitsLines
  cases provided : stringField "provider" endpoint with
  | none =>
    have content : confContent fromStr purpose endpoint = none := by simp [confContent,provided]
    simp [Confined,content]
  | some provider =>
    simp only [Option.some.injEq,forall_eq']
    by_cases b2 : provider = "b2"
    · subst b2
      rw [b2_confined_iff fromStr purpose provided]
      simp
    · by_cases drive : provider = "drive"
      · subst drive
        rw [gdrive_confined_iff fromStr purpose provided]
        simp
      · have content : confContent fromStr purpose endpoint = none := by simp [confContent,provided,b2,drive]
        simp [Confined,content,b2,drive]

-- An identifier with a line break opens a section of its own, and a second `key`
-- takes the place of the endpoint's.
def brokenEndpoint : Json :=
  .object [("provider",.text "b2"),("bucket",.text "vault"),("path_prefix",.text "shared/1/"),
    ("key_id",json (['k','\n','k','e','y',' ','=',' ','x','\n','[','s',']'])),("application_key",.text "secret")]

theorem broken_endpoint_injects : (confContent (fun _ => none) .download brokenEndpoint).map readConf =
      some ([],[⟨shareDownload,[⟨typeKey,b2Type⟩,⟨accountKey,['k']⟩,⟨keyKey,['x']⟩]⟩,
        ⟨['s'],[⟨keyKey,['s','e','c','r','e','t']⟩]⟩]) ∧
    ¬ Confined (fun _ => none) .download brokenEndpoint := by
  refine ⟨by decide +kernel,fun confined => ?_⟩
  have provided : stringField "provider" brokenEndpoint = some "b2" := by decide +kernel
  have broken := ((b2_confined_iff _ _ provided).mp confined ['k','\n','k','e','y',' ','=',' ','x','\n','[','s',']']
    ['s','e','c','r','e','t'] ['v','a','u','l','t'] ['s','h','a','r','e','d','/','1','/'] (by decide +kernel)
    (by decide +kernel) (by decide +kernel) (by decide +kernel)).1.1
  exact broken (by decide)

end ArxRuna.Sharing.ShareConf
