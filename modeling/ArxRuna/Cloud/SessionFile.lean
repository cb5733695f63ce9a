import ArxRuna.Cloud.Destinations
import ArxRuna.Cloud.Drivers
import ArxRuna.Cloud.Stanza
import ArxRuna.Library.Blocks
import ArxRuna.Sharing.Sections
namespace ArxRuna.Cloud.SessionFile
open Destinations Stanza Transport Library.Blocks Library.Ini Library.Lines Library.Template Store.Tables Sharing.Sections
open Drivers (storageText)
open Sharing.RemotePath (Text)
open Sharing.SessionConf (ReadJson GdriveOauth isWhitespace parseB2ApiKeysForRemote parseGdriveOauthFromConf)

def mapStorageError (error : StorageError) : CloudTransportError := .other (storageText error)

structure DestinationSessionConfig where
  label : Text
  destinationType : Text
  bucket : Text
  pathPrefix : Text
  rcloneConfigBlob : Text
  isPrimary : Bool
  backupMode : Option Text

-- The remote is named after the label. The identifier is fresh, the time is the table's.
def destinationFromConfig (toLowercase : Text → Text) (destinationId : Text) (createdAt : Int)
    (config : DestinationSessionConfig) : DestinationSessionRow where
  destinationId
  label := config.label
  destinationType :=
    if ["cloud","s3","b2","rclone"].any (·.toList = config.destinationType) then .cloud
    else if "external_drive".toList = config.destinationType then .externalDrive
    else .localPath
  rcloneRemoteName := (toLowercase config.label).map fun c => if c = ' ' then '_' else c
  rcloneConfigBlob := config.rcloneConfigBlob
  bucket := config.bucket
  pathPrefix := config.pathPrefix
  isPrimary := config.isPrimary
  backupMode := config.backupMode.bind fun mode =>
    if "mirror".toList = mode then some .mirror else if "accumulating".toList = mode then some .accumulating else none
  createdAt
  deviceId := none

def localText : Text := ['\n','t','y','p','e',' ','=',' ','l','o','c','a','l','\n']

def stanzaOf (session : DestinationSessionRow) : Except CloudTransportError Text :=
  match session.destinationType with
  | .cloud =>
    (validateSingleRemoteStanza session.rcloneConfigBlob session.rcloneRemoteName).mapError mapStorageError
  | .externalDrive => .ok (header session.rcloneRemoteName ++ localText)
  | .localPath => .ok (header session.rcloneRemoteName ++ localText)

def endLine (text : Text) : Text := if text.getLast? = some '\n' then text else text ++ ['\n']

def appendStanza (concatenated : Text) (session : DestinationSessionRow) : Except CloudTransportError Text := do
  let begun := if concatenated = [] then concatenated else endLine concatenated
  let stanza ← stanzaOf session
  pure (endLine (begun ++ stanza))

-- The directory, the stored rows and the file as they answer.
structure BuildEnv where
  createDirAll : Except CloudTransportError Unit
  listDestinationSessions : Except StorageError Rows
  writeOwnerOnly : Text → Except StorageError Unit

def buildSessionRcloneConf (env : BuildEnv) : Except CloudTransportError Text := do
  env.createDirAll
  let sessions ← env.listDestinationSessions.mapError mapStorageError
  let concatenated ← sessions.foldlM appendStanza []
  (env.writeOwnerOnly concatenated).mapError mapStorageError
  pure concatenated

def stored (sessions : Rows) : BuildEnv := ⟨.ok (),.ok sessions,fun _ => .ok ()⟩

-- What a destination is configured with: the settings of its blob, wherever they stand.
def settings (session : DestinationSessionRow) : List Entry :=
  match session.destinationType with
  | .cloud => entriesOf isWhitespace ((lines session.rcloneConfigBlob).filter (! isHeader ·))
  | .externalDrive => [⟨['t','y','p','e'],['l','o','c','a','l']⟩]
  | .localPath => [⟨['t','y','p','e'],['l','o','c','a','l']⟩]

def sectionOf (session : DestinationSessionRow) : Stanza := ⟨session.rcloneRemoteName,settings session⟩

variable (readJson : ReadJson)

-- What the session file is to hold.
structure Serves (sessions : Rows) (file : Text) : Prop where
  built : buildSessionRcloneConf (stored sessions) = .ok file
  sections : Library.Ini.read isWhitespace file = ([],sessions.map sectionOf)
  b2 : ∀ session ∈ sessions,
    parseB2ApiKeysForRemote (lines file) session.rcloneRemoteName = b2Keys (settings session)
  gdrive : ∀ session ∈ sessions,
    parseGdriveOauthFromConf readJson (lines file) session.rcloneRemoteName = gdriveOauth readJson (settings session)

def Fits (session : DestinationSessionRow) : Prop :=
  match session.destinationType with
  | .cloud => ∃ before line after old, OneHeader session.rcloneConfigBlob before line after old ∧
      Pinnable before after old session.rcloneRemoteName ∧ OneSection isWhitespace before after
  | .externalDrive => '\n' ∉ session.rcloneRemoteName
  | .localPath => '\n' ∉ session.rcloneRemoteName

structure Apart (sessions : Rows) : Prop where
  b2 : ∀ session ∈ sessions, ∀ other ∈ sessions, session.rcloneRemoteName = other.rcloneRemoteName →
    b2Keys (settings session) = b2Keys (settings other)
  gdrive : ∀ session ∈ sessions, ∀ other ∈ sessions, session.rcloneRemoteName = other.rcloneRemoteName →
    gdriveOauth readJson (settings session) = gdriveOauth readJson (settings other)

variable {session : DestinationSessionRow} {sessions : Rows} {text file : Text}

theorem whole_text (text : Text) : text ++ ['\n'] = ended (text.splitOn '\n') := by
  obtain ⟨line,rest,rfl,free,whole⟩ := text_tails text
  rw [split_tails free whole,ended_tails]

theorem stanza_ends (made : stanzaOf session = .ok text) : ∃ front, text = front ++ ['\n'] := by
  unfold stanzaOf at made
  have local_ends : header session.rcloneRemoteName ++ localText =
      (header session.rcloneRemoteName ++ localText.dropLast) ++ ['\n'] := by simp [localText]
  cases kind : session.destinationType with
  | cloud =>
    rw [kind] at made
    dsimp only at made
    unfold validateSingleRemoteStanza at made
    split at made
    · cases made
    · split at made
      · cases made
      · split at made
        · cases made
        · cases made
          exact ⟨_,rfl⟩
  | externalDrive =>
    rw [kind] at made
    cases made
    exact ⟨_,local_ends⟩
  | localPath =>
    rw [kind] at made
    cases made
    exact ⟨_,local_ends⟩

def linesFor (session : DestinationSessionRow) : List Text :=
  match stanzaOf session with
  | .ok text => text.dropLast.splitOn '\n'
  | .error _ => []

theorem lines_for (made : stanzaOf session = .ok text) : text = ended (linesFor session) ∧ Whole (linesFor session) := by
  unfold linesFor
  rw [made]
  obtain ⟨front,rfl⟩ := stanza_ends made
  dsimp only
  rw [List.dropLast_concat]
  exact ⟨whole_text front,split_whole front⟩

theorem end_ended (above : List Text) (filled : above ≠ []) : endLine (ended above) = ended above := by
  induction above using List.reverseRecOn with
  | nil => exact absurd rfl filled
  | append_singleton above line =>
    unfold endLine
    rw [ended_append,ended_cons,ended_nil,if_pos]
    simp

theorem append_made (above : List Text) (made : stanzaOf session = .ok text) :
    appendStanza (ended above) session = .ok (ended (above ++ linesFor session)) := by
  have begun : (if ended above = [] then ended above else endLine (ended above)) = ended above := by
    cases above with
    | nil => rfl
    | cons line rest =>
      rw [end_ended _ (List.cons_ne_nil line rest)]
      exact ite_self _
  have filled : above ++ linesFor session ≠ [] := by
    unfold linesFor
    rw [made]
    exact List.append_ne_nil_of_right_ne_nil _ (List.splitOn_ne_nil _ _)
  have joined : endLine (ended above ++ text) = ended (above ++ linesFor session) := by
    rw [(lines_for made).1,← ended_append,end_ended _ filled]
  unfold appendStanza
  rw [begun,made]
  exact congrArg Except.ok joined

theorem append_failed (concatenated : Text) (failed : stanzaOf session = .error error) :
    appendStanza concatenated session = .error error := by
  unfold appendStanza
  rw [failed]
  rfl

theorem appended_iff (above : List Text) : sessions.foldlM appendStanza (ended above) = .ok file ↔
    (∀ session ∈ sessions, ∃ text, stanzaOf session = .ok text) ∧ file = ended (above ++ sessions.flatMap linesFor) := by
  induction sessions generalizing above with
  | nil =>
    rw [List.foldlM_nil,List.flatMap_nil,List.append_nil]
    constructor
    · rintro ⟨⟩
      exact ⟨by simp,rfl⟩
    · rintro ⟨_,rfl⟩
      rfl
  | cons session rest ih =>
    rw [List.foldlM_cons,List.forall_mem_cons]
    cases made : stanzaOf session with
    | error error =>
      rw [append_failed _ made]
      simp [Bind.bind,Except.bind]
    | ok text =>
      rw [append_made above made]
      have next := ih (above ++ linesFor session)
      rw [List.append_assoc,← List.flatMap_cons] at next
      simpa [Bind.bind,Except.bind] using next

theorem built_iff : buildSessionRcloneConf (stored sessions) = .ok file ↔
    (∀ session ∈ sessions, ∃ text, stanzaOf session = .ok text) ∧ file = ended (sessions.flatMap linesFor) := by
  rw [← List.nil_append (sessions.flatMap linesFor),← appended_iff []]
  change (sessions.foldlM appendStanza []).bind Except.ok = .ok file ↔ sessions.foldlM appendStanza [] = .ok file
  cases sessions.foldlM appendStanza [] <;> rfl

theorem header_read (name : Text) : readLine isWhitespace (header name) = .header name :=
  read_header_line opens_seen closes_seen name

section Cloud
variable {blob name old line out : Text} {before after : List Text}

theorem settings_cloud (kind : session.destinationType = .cloud)
    (one : OneHeader session.rcloneConfigBlob before line after old) :
    settings session = entriesOf isWhitespace (before ++ after) := by
  obtain ⟨shown,named,_,all⟩ := one.around
  have others := (filter_around (map_plain one.above) named (linesOf_plain one.below)).2
  unfold settings
  rw [kind]
  dsimp only
  rw [all,others,entries_append,entries_append,entries_strips (by decide),entries_linesOf (by decide)]

theorem laid_read (one : OneHeader blob before line after old) (named : Named name) :
    Library.Ini.read isWhitespace (laid before after (header name)) = readLines isWhitespace (before ++ header name :: after) := by
  have lower : readLines isWhitespace (header name :: settle isWhitespace (after.dropWhile (white isWhitespace))) =
      readLines isWhitespace (header name :: after) := by
    rw [readLines,read_settle,read_dropWhile,← readLines]
  have closed : (readLines isWhitespace (header name :: after)).1 = [] := by rw [read_cons_header (header_read name)]
  rw [laid_ended,read_ended (one.laid_whole (named_whole named)),read_append (by rw [lower,closed]),lower,
    ← read_append closed,read_above before closed]

theorem cloud_read (kind : session.destinationType = .cloud)
    (one : OneHeader session.rcloneConfigBlob before line after old)
    (fits : Pinnable before after old session.rcloneRemoteName) :
    (∃ text, stanzaOf session = .ok text) ∧ readLines isWhitespace (linesFor session) =
      readLines isWhitespace (before ++ header session.rcloneRemoteName :: after) := by
  have made : stanzaOf session = .ok (laid before after (header session.rcloneRemoteName)) := by
    unfold stanzaOf
    rw [kind]
    dsimp only
    rw [one.written fits.verbatim]
    rfl
  obtain ⟨text,whole⟩ := lines_for made
  refine ⟨⟨_,made⟩,?_⟩
  rw [← read_ended whole,← text]
  exact laid_read one fits.named

end Cloud

theorem local_read (kind : session.destinationType ≠ .cloud) (free : '\n' ∉ session.rcloneRemoteName) :
    (∃ text, stanzaOf session = .ok text) ∧ readLines isWhitespace (linesFor session) = ([],[sectionOf session]) := by
  have made : stanzaOf session = .ok (ended [header session.rcloneRemoteName,['t','y','p','e',' ','=',' ','l','o','c','a','l']]) := by
    have same : header session.rcloneRemoteName ++ localText =
        ended [header session.rcloneRemoteName,['t','y','p','e',' ','=',' ','l','o','c','a','l']] := by simp [localText]
    unfold stanzaOf
    cases found : session.destinationType with
    | cloud => exact absurd found kind
    | externalDrive => exact congrArg Except.ok same
    | localPath => exact congrArg Except.ok same
  have own : settings session = [⟨['t','y','p','e'],['l','o','c','a','l']⟩] := by
    unfold settings
    cases found : session.destinationType with
    | cloud => exact absurd found kind
    | externalDrive => rfl
    | localPath => rfl
  have whole : Whole [header session.rcloneRemoteName,['t','y','p','e',' ','=',' ','l','o','c','a','l']] := by
    unfold Whole header
    simp [free]
  have entry : readLine isWhitespace ['t','y','p','e',' ','=',' ','l','o','c','a','l'] =
      .entry ⟨['t','y','p','e'],['l','o','c','a','l']⟩ := rfl
  obtain ⟨text,all⟩ := lines_for made
  refine ⟨⟨_,made⟩,?_⟩
  rw [← read_ended all,← text,read_ended whole,read_cons_header (header_read _),read_cons_entry entry,sectionOf,own]
  rfl

theorem first_same {α : Type} (answer : List Entry → Option α) (sessions : Rows) :
    (∀ session ∈ sessions, firstOf answer session.rcloneRemoteName (sessions.map sectionOf) = answer (settings session)) ↔
      ∀ session ∈ sessions, ∀ other ∈ sessions, session.rcloneRemoteName = other.rcloneRemoteName →
        answer (settings session) = answer (settings other) := by
  constructor
  · intro first session member other there same
    rw [← first session member,← first other there,same]
  · intro agree session member
    have all : ∀ found ∈ (sessions.map sectionOf).filter (·.name = session.rcloneRemoteName),
        answer found.entries = answer (settings session) := by
      intro found kept
      rw [List.mem_filter,List.mem_map] at kept
      obtain ⟨⟨other,there,rfl⟩,named⟩ := kept
      exact agree other there session member (of_decide_eq_true named)
    have filled : sectionOf session ∈ (sessions.map sectionOf).filter (·.name = session.rcloneRemoteName) := by
      rw [List.mem_filter]
      exact ⟨List.mem_map_of_mem member,decide_eq_true rfl⟩
    unfold firstOf
    cases shown : (sessions.map sectionOf).filter (·.name = session.rcloneRemoteName) with
    | nil =>
      rw [shown] at filled
      cases filled
    | cons found rest =>
      rw [shown,List.forall_mem_cons] at all
      rw [List.findSome?_cons]
      cases value : answer found.entries with
      | some keys => rw [← all.1,value]
      | none =>
        dsimp only
        rw [← all.1,value,List.findSome?_eq_none_iff]
        intro other there
        rw [all.2 other there,← all.1,value]

theorem fits_read (fits : Fits session) :
    (∃ text, stanzaOf session = .ok text) ∧ readLines isWhitespace (linesFor session) = ([],[sectionOf session]) := by
  by_cases kind : session.destinationType = .cloud
  · unfold Fits at fits
    rw [kind] at fits
    obtain ⟨before,line,after,old,one,pinnable,only⟩ := fits
    obtain ⟨made,shown⟩ := cloud_read kind one pinnable
    refine ⟨made,?_⟩
    rw [shown,(section_iff (header_read _)).mpr only,sectionOf,settings_cloud kind one]
  · apply local_read kind
    unfold Fits at fits
    split at fits
    · rename_i same
      exact absurd same kind
    · exact fits
    · exact fits

theorem fits_of (kind : session.destinationType = .cloud)
    (one : OneHeader session.rcloneConfigBlob before line after old)
    (pinnable : Pinnable before after old session.rcloneRemoteName)
    (shown : readLines isWhitespace (linesFor session) = ([],[sectionOf session])) : Fits session := by
  unfold Fits
  rw [kind]
  refine ⟨before,line,after,old,one,pinnable,?_⟩
  rw [← section_iff (header_read session.rcloneRemoteName),← (cloud_read kind one pinnable).2,shown,sectionOf,
    settings_cloud kind one]

-- What the normaliser promises of its result, with the section headers that the
-- readers of the file see.
structure Pins (blob name out : Text) : Prop where
  one_header : (lines out).filter (isSection isWhitespace) = [header name]
  others : (lines out).filter (! isSection isWhitespace ·) = (lines blob).filter (! isSection isWhitespace ·)
  settled : validateSingleRemoteStanza out name = .ok out

def Alone (before after : List Text) : Prop := ∀ other ∈ before ++ after, isSection isWhitespace other = false

section Pins
variable {blob name old line out : Text} {before after shown : List Text}

theorem header_section (line : Text) (found : isHeader line = true) : isSection isWhitespace line = true := by
  obtain ⟨name,named⟩ := Option.isSome_iff_exists.mp found
  obtain ⟨_,spaces,behind,space,clear,rfl⟩ := name_iff.mp named
  unfold isSection
  rw [read_around space clear,header_read]

theorem same_headers (shown : List Text) (many : (shown.filter isHeader).length = shown.countP (isSection isWhitespace)) :
    shown.filter (isSection isWhitespace) = shown.filter isHeader ∧
      shown.filter (! isSection isWhitespace ·) = shown.filter (! isHeader ·) := by
  have below : (shown.filter isHeader).Sublist (shown.filter (isSection isWhitespace)) :=
    List.monotone_filter_right shown header_section
  have same : shown.filter isHeader = shown.filter (isSection isWhitespace) := by
    apply below.eq_of_length
    rw [many,List.countP_eq_length_filter]
  refine ⟨same.symm,List.filter_congr ?_⟩
  intro other member
  congr 1
  rw [Bool.eq_iff_iff]
  constructor
  · intro section_line
    have kept : other ∈ shown.filter isHeader := same ▸ List.mem_filter.mpr ⟨member,section_line⟩
    exact (List.mem_filter.mp kept).2
  · exact header_section other

theorem lines_count (text : Text) :
    (lines text).countP (isSection isWhitespace) = (text.splitOn '\n').countP (isSection isWhitespace) := by
  rw [← section_count,← section_count,read_lines (by decide)]
  rfl

theorem alone_iff : (before ++ after).countP (isSection isWhitespace) = 0 ↔ Alone before after := by
  rw [List.countP_eq_zero]
  simp [Alone]

theorem one_count (found : isHeader line = true) : (before ++ line :: after).countP (isSection isWhitespace) =
    (before ++ after).countP (isSection isWhitespace) + 1 := by
  rw [List.countP_append,List.countP_append,List.countP_cons,header_section line found]
  simp only [if_true]
  omega

theorem headed_once (one : OneHeader blob before line after old) : ∃ shown,
    headerName shown = some old ∧ (lines blob).filter isHeader = [shown] := by
  obtain ⟨shown,found,named,all⟩ := one.around
  refine ⟨shown,named,?_⟩
  rw [all,(filter_around (map_plain one.above) found (linesOf_plain one.below)).1]

theorem blob_headers (one : OneHeader blob before line after old) (alone : Alone before after) :
    (lines blob).filter (! isSection isWhitespace ·) = (lines blob).filter (! isHeader ·) := by
  obtain ⟨shown,_,headed⟩ := headed_once one
  have named : isHeader line = true := by rw [isHeader,one.named]; rfl
  apply (same_headers (lines blob) _).2
  rw [headed,lines_count,one.split,one_count named,alone_iff.mpr alone]
  rfl

theorem laid_count (one : OneHeader blob before line after old) (named : Named name) :
    (lines (laid before after (header name))).countP (isSection isWhitespace) =
      (before ++ after).countP (isSection isWhitespace) + 1 := by
  rw [lines_count,← section_count,← one_count (header_line named),← section_count,← laid_read one named]
  rfl

theorem pins_of (one : OneHeader blob before line after old) (fits : Pinnable before after old name)
    (alone : Alone before after) (ok : validateSingleRemoteStanza blob name = .ok out) : Pins blob name out := by
  have matched := matched_of one fits ok
  have same : out = laid before after (header name) := by
    rw [one.written fits.verbatim] at ok
    exact (Except.ok.inj ok).symm
  have headers := same_headers (lines out) (by
    rw [matched.one_header,same,laid_count one fits.named,alone_iff.mpr alone]
    rfl)
  refine ⟨?_,?_,matched.settled⟩
  · rw [headers.1,matched.one_header]
  · rw [headers.2,matched.others,blob_headers one alone]

theorem pins_headed (pins : Pins blob name out) : (lines out).filter isHeader = [header name] := by
  obtain ⟨before,line,after,old,one⟩ := validate_header pins.settled
  obtain ⟨shown,named,headed⟩ := headed_once one
  have member : shown ∈ (lines out).filter isHeader := by
    rw [headed]
    exact List.mem_singleton_self shown
  obtain ⟨inside,found⟩ := List.mem_filter.mp member
  have kept : shown ∈ (lines out).filter (isSection isWhitespace) :=
    List.mem_filter.mpr ⟨inside,header_section shown found⟩
  rw [pins.one_header,List.mem_singleton] at kept
  rw [headed,kept]

theorem pinnable_of_pins (one : OneHeader blob before line after old)
    (ok : validateSingleRemoteStanza blob name = .ok out) (pins : Pins blob name out) :
    Pinnable before after old name ∧ Alone before after := by
  have headed := pins_headed pins
  have verbatim := headed_verbatim one ok headed pins.settled
  have same : out = laid before after (header name) := by
    rw [one.written verbatim] at ok
    exact (Except.ok.inj ok).symm
  have alone : Alone before after := by
    have count := laid_count one (headed_named headed)
    rw [← same,List.countP_eq_length_filter,pins.one_header] at count
    exact alone_iff.mp (Nat.succ.inj count).symm
  have headers := same_headers (lines out) (by
    rw [headed,List.countP_eq_length_filter,pins.one_header])
  refine ⟨pinnable_of one ok ⟨headed,?_,pins.settled⟩,alone⟩
  rw [← headers.2,pins.others,blob_headers one alone]

-- The normaliser keeps its promise for a blob and a name exactly when the name is
-- written as it is and the header stands tidily among lines that begin no section.
theorem pins_iff (blob name : Text) :
    (∀ out, validateSingleRemoteStanza blob name = .ok out → Pins blob name out) ↔
      ∀ before line after old, OneHeader blob before line after old →
        Pinnable before after old name ∧ Alone before after := by
  constructor
  · intro pins before line after old one
    exact pinnable_of_pins one (validate_one one name) (pins _ (validate_one one name))
  · intro fits out ok
    obtain ⟨before,line,after,old,one⟩ := validate_header ok
    obtain ⟨pinnable,alone⟩ := fits before line after old one
    exact pins_of one pinnable alone ok

theorem section_alone (only : OneSection isWhitespace before after) : Alone before after := by
  intro other member
  unfold isSection
  rcases List.mem_append.mp member with above | below
  · rw [only.silent other above]
  · cases found : readLine isWhitespace other with
    | header name => exact absurd found (only.headless other below name)
    | entry entry => rfl
    | other => rfl

end Pins

def Pinned (session : DestinationSessionRow) : Prop :=
  session.destinationType = .cloud → ∀ out,
    validateSingleRemoteStanza session.rcloneConfigBlob session.rcloneRemoteName = .ok out →
      Pins session.rcloneConfigBlob session.rcloneRemoteName out

theorem fits_pinned (fits : Fits session) : Pinned session := by
  intro kind out ok
  unfold Fits at fits
  rw [kind] at fits
  obtain ⟨before,line,after,old,one,pinnable,only⟩ := fits
  exact pins_of one pinnable (section_alone only) ok

-- A destination whose stanza is made and pinned begins a section, and its settings are all there.
theorem pinned_read (pinned : Pinned session) (made : stanzaOf session = .ok text)
    (free : '\n' ∉ session.rcloneRemoteName) :
    (readLines isWhitespace (linesFor session)).2 ≠ [] ∧
      entriesOf isWhitespace (linesFor session) = settings session ∧
      (readLines isWhitespace (linesFor session) = ([],[sectionOf session]) → Fits session) := by
  by_cases kind : session.destinationType = .cloud
  · have valid : ∃ out, validateSingleRemoteStanza session.rcloneConfigBlob session.rcloneRemoteName = .ok out := by
      unfold stanzaOf at made
      rw [kind] at made
      dsimp only at made
      cases found : validateSingleRemoteStanza session.rcloneConfigBlob session.rcloneRemoteName with
      | ok out => exact ⟨out,rfl⟩
      | error error =>
        rw [found] at made
        cases made
    obtain ⟨out,valid⟩ := valid
    obtain ⟨before,line,after,old,one⟩ := validate_header valid
    have pinnable := (pinnable_of_pins one valid (pinned kind out valid)).1
    have shown := (cloud_read kind one pinnable).2
    have closed : (readLines isWhitespace (header session.rcloneRemoteName :: after)).1 = [] := by
      rw [read_cons_header (header_read _)]
    refine ⟨?_,?_,fits_of kind one pinnable⟩
    · rw [shown,read_append closed,read_cons_header (header_read _)]
      exact List.append_ne_nil_of_right_ne_nil _ (List.cons_ne_nil _ _)
    · rw [settings_cloud kind one,← entries_read,shown,entries_read,entries_append,entries_append]
      congr 1
      unfold entriesOf
      rw [List.filterMap_cons_none]
      unfold entryOf
      rw [header_read]
  · have shown := (local_read kind free).2
    refine ⟨?_,?_,?_⟩
    · rw [shown]
      exact List.cons_ne_nil _ _
    · rw [← entries_read,shown]
      exact List.append_nil _
    · intro _
      unfold Fits
      cases found : session.destinationType with
      | cloud => exact absurd found kind
      | externalDrive => exact free
      | localPath => exact free

theorem file_lines (each : ∀ session ∈ sessions, ∃ text, stanzaOf session = .ok text) :
    Whole (sessions.flatMap linesFor) := by
  intro line member
  obtain ⟨session,there,inside⟩ := List.mem_flatMap.mp member
  obtain ⟨text,made⟩ := each session there
  exact (lines_for made).2 line inside

-- The sections of the file are those of the destinations exactly if every destination fits.
theorem sections_iff (pinned : ∀ session ∈ sessions, Pinned session)
    (built : buildSessionRcloneConf (stored sessions) = .ok file) :
    Library.Ini.read isWhitespace file = ([],sessions.map sectionOf) ↔ ∀ session ∈ sessions, Fits session := by
  obtain ⟨each,rfl⟩ := built_iff.mp built
  rw [read_ended (file_lines each)]
  constructor
  · intro sections
    have free : ∀ session ∈ sessions, '\n' ∉ session.rcloneRemoteName := by
      intro session member
      have names : ∀ found ∈ (readLines isWhitespace (sessions.flatMap linesFor)).2, '\n' ∉ found.name :=
        read_names (file_lines each)
      rw [sections] at names
      exact names (sectionOf session) (List.mem_map_of_mem member)
    have known : ∀ session ∈ sessions, _ := fun session member =>
      (each session member).elim fun text made => pinned_read (pinned session member) made (free session member)
    have single := (read_parts_iff (fun session member => (known session member).1)
      fun session member => (known session member).2.1).mp sections
    intro session member
    exact (known session member).2.2 (single session member)
  · intro fits
    exact read_parts fun session member => (fits_read (fits session member)).2

-- With the sections in place the parsers answer for every destination
-- exactly if destinations of one name have the same credentials.
theorem parsers_iff (sections : Library.Ini.read isWhitespace file = ([],sessions.map sectionOf)) :
    ((∀ session ∈ sessions,
        parseB2ApiKeysForRemote (lines file) session.rcloneRemoteName = b2Keys (settings session)) ∧
      ∀ session ∈ sessions, parseGdriveOauthFromConf readJson (lines file) session.rcloneRemoteName =
        gdriveOauth readJson (settings session)) ↔ Apart readJson sessions := by
  have shown : readLines isWhitespace (lines file) = ([],sessions.map sectionOf) :=
    (read_lines (by decide) file).trans sections
  have b2 := first_same b2Keys sessions
  have gdrive := first_same (gdriveOauth readJson) sessions
  simp only [parse_b2,parse_gdrive,shown]
  rw [b2,gdrive]
  exact ⟨fun both => ⟨both.1,both.2⟩,fun apart => ⟨apart.b2,apart.gdrive⟩⟩

theorem serves_iff (sessions : Rows) :
    ((∀ session ∈ sessions, Pinned session) ∧ ∃ file, Serves readJson sessions file) ↔
      (∀ session ∈ sessions, Fits session) ∧ Apart readJson sessions := by
  constructor
  · rintro ⟨pinned,file,serves⟩
    exact ⟨(sections_iff pinned serves.built).mp serves.sections,
      (parsers_iff readJson serves.sections).mp ⟨serves.b2,serves.gdrive⟩⟩
  · rintro ⟨fits,apart⟩
    have pinned : ∀ session ∈ sessions, Pinned session := fun session member => fits_pinned (fits session member)
    have built : buildSessionRcloneConf (stored sessions) = .ok (ended (sessions.flatMap linesFor)) :=
      built_iff.mpr ⟨fun session member => (fits_read (fits session member)).1,rfl⟩
    have sections := (sections_iff pinned built).mpr fits
    obtain ⟨b2,gdrive⟩ := (parsers_iff readJson sections).mpr apart
    exact ⟨pinned,_,built,sections,b2,gdrive⟩

-- The normaliser pins a name, and the session file serves its destinations,
-- exactly for the names and blobs that are pinnable, one section each and apart.
theorem session_file_serves (readJson : ReadJson) :
    (∀ blob name, (∀ out, validateSingleRemoteStanza blob name = .ok out → Pins blob name out) ↔
      ∀ before line after old, OneHeader blob before line after old →
        Pinnable before after old name ∧ Alone before after) ∧
    ∀ sessions : Rows, ((∀ session ∈ sessions, Pinned session) ∧ ∃ file, Serves readJson sessions file) ↔
      (∀ session ∈ sessions, Fits session) ∧ Apart readJson sessions :=
  ⟨pins_iff,serves_iff readJson⟩

def costConfig : DestinationSessionConfig where
  label := ['C','o','s','t',' ','$','1']
  destinationType := ['c','l','o','u','d']
  bucket := []
  pathPrefix := []
  rcloneConfigBlob := ['[','x',']','\n','t','y','p','e',' ','=',' ','b','2','\n']
  isPrimary := true
  backupMode := none

def costRow : DestinationSessionRow := destinationFromConfig (·.map Char.toLower) [] 0 costConfig

theorem cost_unpinned :
    costRow.rcloneRemoteName = ['c','o','s','t','_','$','1'] ∧
      validateSingleRemoteStanza costRow.rcloneConfigBlob costRow.rcloneRemoteName =
        .ok ['[','c','o','s','t','_','x',']','\n','t','y','p','e',' ','=',' ','b','2','\n'] ∧
      ¬ Pinned costRow := by
  have named : costRow.rcloneRemoteName = ['c','o','s','t','_','$','1'] := by decide
  have made : validateSingleRemoteStanza costRow.rcloneConfigBlob costRow.rcloneRemoteName =
      .ok ['[','c','o','s','t','_','x',']','\n','t','y','p','e',' ','=',' ','b','2','\n'] := by decide +kernel
  refine ⟨named,made,?_⟩
  intro pinned
  have pins := pinned rfl _ made
  have one := pins.one_header
  rw [named] at one
  revert one
  decide +kernel

end ArxRuna.Cloud.SessionFile
