import ArxRuna.Library.Ini
import ArxRuna.Library.Lines
import ArxRuna.Sharing.SessionConf
namespace ArxRuna.Sharing.Sections
open Library.Ini Library.Lines Library.JsonText RemotePath SessionConf

def B2Scan.put (scan : B2Scan) (entry : Entry) : B2Scan :=
  if scan.inTarget = false then scan
  else if entry.key = ['t','y','p','e'] then (if entry.value = ['b','2'] then {scan with isB2 := true} else scan)
  else if entry.key = ['a','c','c','o','u','n','t'] then {scan with account := some entry.value}
  else if entry.key = ['k','e','y'] then {scan with key := some entry.value}
  else scan

-- The first prefix of the entries that holds both keys and the type decides.
def b2From : B2Scan → List Entry → Option (Text × Text)
  | scan,[] => scan.keys
  | scan,entry :: rest =>
    match (B2Scan.put scan entry).keys with
    | some keys => some keys
    | none => b2From (B2Scan.put scan entry) rest

def b2Keys (entries : List Entry) : Option (Text × Text) := b2From {inTarget := true} entries

def GdriveScan.put (scan : GdriveScan) (entry : Entry) : GdriveScan :=
  if scan.inTarget = false then scan
  else if entry.key = ['t','y','p','e'] then
    (if entry.value = ['d','r','i','v','e'] then {scan with isDrive := true} else scan)
  else if entry.key = ['c','l','i','e','n','t','_','i','d'] then {scan with clientId := some entry.value}
  else if entry.key = ['c','l','i','e','n','t','_','s','e','c','r','e','t'] then {scan with clientSecret := some entry.value}
  else if entry.key = ['t','o','k','e','n'] then {scan with tokenJson := some entry.value}
  else if entry.key = ['r','o','o','t','_','f','o','l','d','e','r','_','i','d'] then
    (if entry.value = [] then scan else {scan with rootFolderId := some entry.value})
  else scan

-- The last entry of each key counts.
def gdriveOauth (readJson : ReadJson) (entries : List Entry) : Option GdriveOauth :=
  (entries.foldl GdriveScan.put {inTarget := true}).result readJson

-- The first section of this name for which there is an answer.
def firstOf {α : Type} (answer : List Entry → Option α) (remoteName : Text) (stanzas : List Stanza) : Option α :=
  (stanzas.filter (·.name = remoteName)).findSome? fun stanza => answer stanza.entries

-- Both readers see the same lines.
theorem read_line (line : Text) : readLine isWhitespace line =
    match header? (SessionConf.trim line) with
    | some name => .header name
    | none => match entry? (SessionConf.trim line) with
      | some (k,v) => .entry ⟨k,v⟩
      | none => .other := by
  have same : Library.Ini.trim isWhitespace line = SessionConf.trim line := rfl
  unfold readLine header? entry?
  rw [same]
  dsimp only
  split
  · rfl
  · cases Library.Texts.splitOnce '=' (SessionConf.trim line) with
    | none => rfl
    | some halves => rfl

theorem b2_read (scan : B2Scan) (trimmed : Text) : scan.read trimmed =
    match entry? trimmed with
    | some (k,v) => B2Scan.put scan ⟨k,v⟩
    | none => scan := by
  unfold B2Scan.read B2Scan.put
  cases entry? trimmed with
  | none => rfl
  | some halves => rfl

theorem gdrive_read (scan : GdriveScan) (trimmed : Text) : scan.read trimmed =
    match entry? trimmed with
    | some (k,v) => GdriveScan.put scan ⟨k,v⟩
    | none => scan := by
  unfold GdriveScan.read GdriveScan.put
  cases entry? trimmed with
  | none => rfl
  | some halves => rfl

theorem b2_elsewhere {scan : B2Scan} (elsewhere : scan.inTarget = false) (entries : List Entry) : b2From scan entries = none := by
  have none : scan.keys = .none := by
    unfold B2Scan.keys
    cases scan.account with
    | none => rfl
    | some account =>
      cases scan.key with
      | none => rfl
      | some key => simp [elsewhere]
  induction entries with
  | nil => exact none
  | cons entry rest ih =>
    have still : B2Scan.put scan entry = scan := if_pos elsewhere
    rw [b2From,still,none]
    exact ih

theorem first_cons {α : Type} (answer : List Entry → Option α) (remoteName : Text) (stanza : Stanza) (rest : List Stanza) :
    firstOf answer remoteName (stanza :: rest) =
      if stanza.name = remoteName then (answer stanza.entries).or (firstOf answer remoteName rest)
      else firstOf answer remoteName rest := by
  unfold firstOf
  by_cases named : stanza.name = remoteName
  · simp only [List.filter_cons,named,decide_true,if_true,List.findSome?_cons]
    cases answer stanza.entries <;> rfl
  · simp [named]

theorem scan_b2 {scan : B2Scan} (pending : scan.keys = none) (conf : Conf) (remoteName : Text) :
    scanB2ApiKeys remoteName scan conf = (b2From scan (readLines isWhitespace conf).1).or
      (firstOf b2Keys remoteName (readLines isWhitespace conf).2) := by
  induction conf generalizing scan with
  | nil =>
    rw [scanB2ApiKeys,readLines,b2From,pending]
    rfl
  | cons line rest ih =>
    rw [scanB2ApiKeys,readLines]
    dsimp only
    rw [read_line]
    cases header : header? (SessionConf.trim line) with
    | some name =>
      dsimp only
      rw [pending,b2From,pending,first_cons]
      by_cases named : name = remoteName
      · rw [if_pos named,Option.none_or,ih rfl]
        simp [named,b2Keys]
      · rw [if_neg named,Option.none_or,ih rfl,b2_elsewhere (by simp [named])]
        rfl
    | none =>
      dsimp only
      rw [b2_read]
      cases entry : entry? (SessionConf.trim line) with
      | none =>
        dsimp only
        rw [pending]
        exact ih pending
      | some halves =>
        dsimp only
        rw [b2From]
        cases next : (B2Scan.put scan ⟨halves.1,halves.2⟩).keys with
        | some keys => rfl
        | none => exact ih next

-- The keys of a remote are those of the first section of its name that holds keys.
theorem parse_b2 (conf : Conf) (remoteName : Text) : parseB2ApiKeysForRemote conf remoteName =
    firstOf b2Keys remoteName (readLines isWhitespace conf).2 := by
  rw [parseB2ApiKeysForRemote,scan_b2 rfl,b2_elsewhere rfl]
  rfl

theorem gdrive_elsewhere {scan : GdriveScan} (readJson : ReadJson) (elsewhere : scan.inTarget = false) (entries : List Entry) :
    (entries.foldl GdriveScan.put scan).result readJson = none := by
  induction entries with
  | nil => simp [GdriveScan.result,elsewhere]
  | cons entry rest ih =>
    have still : GdriveScan.put scan entry = scan := if_pos elsewhere
    rw [List.foldl_cons,still]
    exact ih

theorem scan_gdrive (readJson : ReadJson) (scan : GdriveScan) (conf : Conf) (remoteName : Text) :
    scanGdriveOauth readJson remoteName scan conf =
      (((readLines isWhitespace conf).1.foldl GdriveScan.put scan).result readJson).or
        (firstOf (gdriveOauth readJson) remoteName (readLines isWhitespace conf).2) := by
  induction conf generalizing scan with
  | nil =>
    rw [scanGdriveOauth,readLines,List.foldl_nil]
    exact (Option.or_none).symm
  | cons line rest ih =>
    rw [scanGdriveOauth,readLines]
    dsimp only
    rw [read_line]
    cases header : header? (SessionConf.trim line) with
    | some name =>
      dsimp only
      rw [List.foldl_nil,first_cons]
      cases scan.result readJson with
      | some oauth => rfl
      | none =>
        dsimp only
        by_cases named : name = remoteName
        · rw [if_pos named,Option.none_or,ih]
          simp [named,gdriveOauth]
        · rw [if_neg named,Option.none_or,ih,gdrive_elsewhere readJson (by simp [named])]
          rfl
    | none =>
      dsimp only
      rw [gdrive_read]
      cases entry : entry? (SessionConf.trim line) with
      | none => exact ih scan
      | some halves => exact ih _

theorem parse_gdrive (readJson : ReadJson) (conf : Conf) (remoteName : Text) :
    parseGdriveOauthFromConf readJson conf remoteName =
      firstOf (gdriveOauth readJson) remoteName (readLines isWhitespace conf).2 := by
  rw [parseGdriveOauthFromConf,scan_gdrive,gdrive_elsewhere readJson rfl]
  rfl

end ArxRuna.Sharing.Sections
