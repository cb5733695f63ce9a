import ArxRuna.Sharing.Address
import ArxRuna.Sharing.Revocation
namespace ArxRuna.Sharing.Withdrawal
open Library.Aead Library.Fallible Library.Interrupt Crypto RemotePath SessionConf Provider Rows Endpoint Revocation

section Effect
variable {owner : Owner} {w w' : World} {share : ShareRecord} {shareId : Uuid} {now : Int}

def World.without (w : World) (gone : List Object) : World := {w with cloud := w.cloud.filter (·.1 ∉ gone)}

theorem deleteBlob_done (deleted : deleteBlob owner path fate w = (.done (),w')) :
    ∃ object, owner.transport.objectAt owner.drive path = some object ∧ w' = w.erase object := by
  unfold deleteBlob at deleted
  cases here : owner.transport.objectAt owner.drive path with
  | none =>
    rw [here] at deleted
    simp at deleted
  | some object =>
    rw [here] at deleted
    refine ⟨object,rfl,?_⟩
    cases fate <;> simp [done_bind] at deleted
    exact deleted.2.symm

theorem deleteBlob_absent (deleted : deleteBlob owner path fate w = (.failed .notFound,w')) :
    w' = w ∧ ∀ object, owner.transport.objectAt owner.drive path = some object → object ∉ w.objects := by
  unfold deleteBlob at deleted
  cases here : owner.transport.objectAt owner.drive path with
  | none =>
    rw [here] at deleted
    cases deleted
  | some object =>
    rw [here] at deleted
    dsimp only at deleted
    rw [bind_inspect] at deleted
    by_cases present : object ∈ w.objects
    · rw [bind_required present] at deleted
      cases fate <;> cases deleted
    · rw [bind_refused present] at deleted
      cases deleted
      refine ⟨rfl,?_⟩
      intro other same
      cases same
      exact present

theorem without_absent (absent : object ∉ w.objects) (gone : List Object) :
    World.without w (object :: gone) = World.without w gone := by
  unfold World.without
  congr 1
  apply List.filter_congr
  intro entry member
  have other : entry.1 ≠ object := fun same => absent (same ▸ List.mem_map_of_mem member)
  simp [other]

theorem without_erase (object : Object) (gone : List Object) :
    World.without (w.erase object) gone = World.without w (object :: gone) := by
  unfold World.without World.erase
  rw [List.filter_filter]
  congr 1
  apply List.filter_congr
  intro entry _
  simp only [List.mem_cons,not_or]
  by_cases first : entry.1 = object <;> simp [first]

theorem deleteBlobs_done (deleted : deleteBlobs owner fates index paths w = (.done (),w')) :
    w' = World.without w (paths.filterMap (owner.transport.objectAt owner.drive)) := by
  induction paths generalizing index w with
  | nil =>
    simp only [deleteBlobs,done_pure] at deleted
    simp [World.without,deleted.2]
  | cons path rest ih =>
    rw [deleteBlobs,done_bind] at deleted
    obtain ⟨report,middle,first,later⟩ := deleted
    rcases done_settle.mp first with ⟨_,rfl,done⟩ | ⟨failure,rfl,failed⟩
    · obtain ⟨object,here,rfl⟩ := deleteBlob_done done
      rw [ih later,without_erase,List.filterMap_cons_some here]
    · cases failure <;> simp at later
      obtain ⟨rfl,absent⟩ := deleteBlob_absent failed
      rw [ih later]
      cases here : owner.transport.objectAt owner.drive path with
      | none => rw [List.filterMap_cons_none here]
      | some object => rw [List.filterMap_cons_some here,without_absent (absent object here)]

theorem onTables_done {update : SharingTables → Except SharingError SharingTables}
    (done : onTables update w = (.done (),w')) : ∃ tables, update w.tables = .ok tables ∧ w' = {w with tables := tables} := by
  simp only [onTables,done_bind,done_inspect,done_demand,done_change] at done
  obtain ⟨_,_,⟨rfl,rfl⟩,tables,_,⟨updated,rfl⟩,rfl⟩ := done
  exact ⟨tables,updated,rfl⟩

def removedObjects (owner : Owner) (w : World) (share : ShareRecord) : List Object :=
  if isLast w.tables share then
    (listShared owner w share.fileShareId).filterMap (owner.transport.objectAt owner.drive)
  else []

def markRevoked (shareId : Uuid) (now : Int) (row : ShareRecord) : ShareRecord :=
  if row.shareId = shareId then {row with revokedAt := some now} else row

-- Everything that a successful revocation does.
structure Revoked (owner : Owner) (share : ShareRecord) (now : Int) (w w' : World) : Prop where
  vault : w'.vault = w.vault
  keys : w'.keys = w.keys
  permissions : w'.permissions = w.permissions
  cloud : w'.cloud = w.cloud.filter (·.1 ∉ removedObjects owner w share)
  shares : w'.tables.shares = w.tables.shares.map (markRevoked share.shareId now)
  fileShares : w'.tables.fileShares = if isLast w.tables share then
    w.tables.fileShares.filter (·.fileShareId ≠ share.fileShareId) else w.tables.fileShares

theorem marked_revoked (marked : SharingTables.setShareRevokedAt tables shareId now = .ok tables') :
    tables'.shares = tables.shares.map (markRevoked shareId now) ∧ tables'.fileShares = tables.fileShares := by
  simp only [SharingTables.setShareRevokedAt,bind_ok,ensure_ok,pure_ok] at marked
  obtain ⟨_,_,_,_,rfl⟩ := marked
  exact ⟨rfl,rfl⟩

theorem revokeShare_done (revoked : revokeShare owner fates shareId now w = (.done (),w')) :
    ∃ share, w.tables.getShare shareId = .ok share ∧ share.revokedAt = none ∧ share.shareId = shareId ∧
      Revoked owner share now w w' := by
  simp only [revokeShare,done_bind,done_inspect,done_demand,done_require,done_meet] at revoked
  obtain ⟨_,_,⟨rfl,rfl⟩,share,_,⟨found,rfl⟩,_,_,⟨active,rfl⟩,_,deleted,removal,_,_,⟨_,rfl⟩,_,marked,marking,ending⟩ := revoked
  have named := (found_share found).2
  refine ⟨share,found,active,named,?_⟩
  obtain ⟨tables,updated,rfl⟩ := onTables_done marking
  rw [done_whenever] at removal ending
  cases last : isLast w.tables share with
  | true =>
    have listed := removal.1 last
    simp only [done_bind,done_meet] at listed
    obtain ⟨_,_,⟨_,rfl⟩,deletion⟩ := listed
    cases deleteBlobs_done deletion
    obtain ⟨shares,fileShares⟩ := marked_revoked updated
    have dropped := ending.1 last
    simp only [done_bind,done_meet,done_change] at dropped
    obtain ⟨_,_,⟨_,rfl⟩,rfl⟩ := dropped
    refine ⟨rfl,rfl,rfl,?_,?_,?_⟩
    · simp only [removedObjects,last,if_true]
      rfl
    · rw [named]
      exact shares
    · rw [last,if_pos rfl]
      exact congrArg (List.filter _) fileShares
  | false =>
    cases removal.2 last
    cases ending.2 last
    obtain ⟨shares,fileShares⟩ := marked_revoked updated
    refine ⟨rfl,rfl,rfl,?_,?_,?_⟩
    · simp [removedObjects,last]
    · rw [named]
      exact shares
    · rw [last]
      exact fileShares

end Effect

-- A credential works while the provider has not withdrawn it, and then opens the
-- objects in its scope.
def works (w : World) : Option Credential → Prop
  | some (.key keyId) => (w.keys keyId).isSome
  | some (.permission permissionId folderId) => (w.permissions permissionId folderId).isSome
  | none => False

def opens (drive : Drive) (w : World) (recorded : Option Credential) (object : Object) : Prop :=
  object ∈ w.objects ∧ match recorded with
    | some (.key keyId) => ∃ key, w.keys keyId = some key ∧ key.scope.covers drive object
    | some (.permission permissionId folderId) =>
      (w.permissions permissionId folderId).isSome ∧ (Scope.drive folderId).covers drive object
    | none => False

def otherActive (w : World) (share other : ShareRecord) : Prop :=
  other ∈ w.tables.shares ∧ other.active = true ∧ other.shareId ≠ share.shareId

-- The share's credential opens at most what another active share opens, and the
-- credentials of the other active shares still work.
structure WithdrawsExactly (drive : Drive) (share : ShareRecord) (w w' : World) : Prop where
  withdrawn : ∀ object, opens drive w' (credential share) object →
    ∃ other, otherActive w' share other ∧ opens drive w' (credential other) object
  kept : ∀ other, otherActive w share other → works w (credential other) → works w' (credential other)

-- The cleanup acts for the account that issued the credential, and is answered.
def Reaches (owner : Owner) (answered : Bool) (w : World) : Option Credential → Prop
  | some (.key keyId) => answered = true ∧ ∃ key, w.keys keyId = some key ∧ b2CleanupAccount owner = some key.account
  | some (.permission permissionId folderId) =>
    answered = true ∧ ∃ account, w.permissions permissionId folderId = some account ∧
      gdriveCleanupAccount owner = some account
  | none => False

structure WithdrawalFits (owner : Owner) (answered : Bool) (share : ShareRecord) (w : World) : Prop where
  alone : Reaches owner answered w (credential share) →
    ∀ other, otherActive w share other → credential other ≠ credential share
  covered : ¬ Reaches owner answered w (credential share) → ∀ object, opens owner.drive w (credential share) object →
    object ∉ removedObjects owner w share →
    ∃ other, otherActive w share other ∧ opens owner.drive w (credential other) object

section Law
variable {owner : Owner} {answered : Bool} {w w' : World} {share : ShareRecord} {now : Int} {recorded : Option Credential}

theorem cleanup_missed (missed : ¬ Reaches owner answered w recorded) : cleanup owner answered recorded w = w := by
  cases recorded with
  | none => rfl
  | some found =>
    cases found with
    | key keyId =>
      simp only [cleanup,cleanupB2ShareKey,b2DeleteKey]
      split
      · rename_i account acts
        split
        · rename_i reply
          split
          · rename_i issued
            obtain ⟨key,known,same⟩ := Option.map_eq_some_iff.mp issued
            exact absurd ⟨reply,key,known,by rw [acts,same]⟩ missed
          · rfl
        · rfl
      · rfl
    | permission permissionId folderId =>
      simp only [cleanup,cleanupGdriveSharePermission,gdriveDeletePermission]
      split
      · rename_i account acts
        split
        · rename_i reply
          split
          · rename_i issued
            exact absurd ⟨reply,account,issued,acts⟩ missed
          · rfl
        · rfl
      · rfl

theorem cleanup_works (reached : Reaches owner answered w recorded) (other : Option Credential) :
    works (cleanup owner answered recorded w) other ↔ works w other ∧ other ≠ recorded := by
  cases recorded with
  | none => exact reached.elim
  | some found =>
    cases found with
    | key keyId =>
      obtain ⟨reply,key,known,acts⟩ := reached
      have after : cleanup owner answered (some (.key keyId)) w = w.dropKey keyId := by
        simp [cleanup,cleanupB2ShareKey,b2DeleteKey,acts,reply,known]
      rw [after]
      cases other with
      | none => simp [works]
      | some other =>
        cases other with
        | key id => by_cases same : id = keyId <;> simp [works,World.dropKey,same]
        | permission => simp [works,World.dropKey]
    | permission permissionId folderId =>
      obtain ⟨reply,account,known,acts⟩ := reached
      have after : cleanup owner answered (some (.permission permissionId folderId)) w =
          w.dropPermission permissionId folderId := by
        simp [cleanup,cleanupGdriveSharePermission,gdriveDeletePermission,acts,reply,known]
      rw [after]
      cases other with
      | none => simp [works]
      | some other =>
        cases other with
        | key => simp [works,World.dropPermission]
        | permission id place =>
          by_cases same : id = permissionId ∧ place = folderId
          · simp [works,World.dropPermission,same]
          · simp only [works,World.dropPermission,if_neg same]
            simp [same]

theorem opens_works (opened : opens drive w recorded object) : works w recorded := by
  obtain ⟨_,granted⟩ := opened
  cases recorded with
  | none => exact granted
  | some found =>
    cases found with
    | key => obtain ⟨key,known,_⟩ := granted; simp [works,known]
    | permission => exact granted.1

theorem reaches_works (reached : Reaches owner answered w recorded) : works w recorded := by
  cases recorded with
  | none => exact reached
  | some found =>
    cases found with
    | key => obtain ⟨_,key,known,_⟩ := reached; simp [works,known]
    | permission => obtain ⟨_,account,known,_⟩ := reached; simp [works,known]

theorem revoked_reaches (revoked : Revoked owner share now w w') :
    Reaches owner answered w' recorded ↔ Reaches owner answered w recorded := by
  cases recorded with
  | none => exact Iff.rfl
  | some found => cases found <;> simp [Reaches,revoked.keys,revoked.permissions]

theorem revoked_works (revoked : Revoked owner share now w w') : works w' recorded ↔ works w recorded := by
  cases recorded with
  | none => exact Iff.rfl
  | some found => cases found <;> simp [works,revoked.keys,revoked.permissions]

theorem revoked_objects (revoked : Revoked owner share now w w') :
    object ∈ w'.objects ↔ object ∈ w.objects ∧ object ∉ removedObjects owner w share := by
  simp only [World.objects,revoked.cloud,List.mem_map,List.mem_filter]
  constructor
  · rintro ⟨entry,⟨member,left⟩,same⟩
    exact ⟨⟨entry,member,same⟩,by simpa [same] using left⟩
  · rintro ⟨⟨entry,member,same⟩,left⟩
    exact ⟨entry,⟨member,by simpa [same] using left⟩,same⟩

theorem revoked_opens (revoked : Revoked owner share now w w') : opens drive w' recorded object ↔
    opens drive w recorded object ∧ object ∉ removedObjects owner w share := by
  have granted : ∀ P : Prop, (object ∈ w'.objects ∧ P) ↔
      (object ∈ w.objects ∧ P) ∧ object ∉ removedObjects owner w share := by
    intro P
    rw [revoked_objects revoked]
    tauto
  cases recorded with
  | none => exact granted False
  | some found => cases found <;> simp only [opens,revoked.keys,revoked.permissions] <;> exact granted _

theorem revoked_others (revoked : Revoked owner share now w w') : otherActive w' share other ↔ otherActive w share other := by
  unfold otherActive
  rw [revoked.shares,List.mem_map]
  constructor
  · rintro ⟨⟨row,member,same⟩,active,different⟩
    by_cases own : row.shareId = share.shareId
    · rw [markRevoked,if_pos own] at same
      rw [← same] at different
      exact absurd own different
    · rw [markRevoked,if_neg own] at same
      exact ⟨same ▸ member,active,different⟩
  · rintro ⟨member,active,different⟩
    exact ⟨⟨other,member,by rw [markRevoked,if_neg different]⟩,active,different⟩

end Law

-- After the command returns Ok the law holds exactly if the cleanup reached the
-- issuer and the credential is the share's alone, or it did not and what the
-- credential still opens is open to another active share.
theorem revoke_withdraws_iff (owner : Owner) (fates : RevokeFates) (shareId : Uuid) (now : Int) (w w' : World)
    (share : ShareRecord) (found : w.tables.getShare shareId = .ok share)
    (revoked : revokeShareCommand owner fates shareId now w = (.done (),w')) :
    WithdrawsExactly owner.drive share w w' ↔ WithdrawalFits owner fates.answered share w := by
  simp only [revokeShareCommand,done_bind,done_inspect,done_change] at revoked
  obtain ⟨_,_,⟨rfl,rfl⟩,_,middle,done,rfl⟩ := revoked
  obtain ⟨row,same,_,_,effect⟩ := revokeShare_done done
  cases found.symm.trans same
  rw [found]
  by_cases reached : Reaches owner fates.answered w (credential share)
  · have works_after := cleanup_works ((revoked_reaches effect).mpr reached)
    constructor
    · intro law
      refine ⟨?_,fun missed => absurd reached missed⟩
      intro _ other active equal
      have before : works w (credential other) := by
        rw [equal]
        exact reaches_works reached
      exact ((works_after _).mp (law.kept other active before)).2 equal
    · intro fits
      refine ⟨?_,?_⟩
      · intro object opened
        exact absurd rfl ((works_after _).mp (opens_works opened)).2
      · intro other active before
        exact (works_after _).mpr ⟨(revoked_works effect).mpr before,fits.alone reached other active⟩
  · rw [cleanup_missed (fun there => reached ((revoked_reaches effect).mp there))]
    constructor
    · intro law
      refine ⟨fun there => absurd there reached,?_⟩
      intro _ object opened left
      obtain ⟨other,active,shared⟩ := law.withdrawn object ((revoked_opens effect).mpr ⟨opened,left⟩)
      exact ⟨other,(revoked_others effect).mp active,((revoked_opens effect).mp shared).1⟩
    · intro fits
      refine ⟨?_,?_⟩
      · intro object opened
        obtain ⟨before,left⟩ := (revoked_opens effect).mp opened
        obtain ⟨other,active,shared⟩ := fits.covered reached object before left
        exact ⟨other,(revoked_others effect).mpr active,(revoked_opens effect).mpr ⟨shared,left⟩⟩
      · intro other active before
        exact (revoked_works effect).mpr before

-- One file shared with two contacts on Drive: the second grant of the same folder
-- to the same service account gave the same permission id.
def tokenText : Text := "\x7b\"access_token\":\"a\",\"refresh_token\":\"r\"\x7d".toList

def driveOwner : Owner :=
  {readJson := fun text => if text = tokenText then
      some (.object [("access_token",.text "a"),("refresh_token",.text "r")]) else none,
   drive := Address.emptyDrive,transport := ⟨['g',':'],.drive none⟩,
   sessionConf := some [['[','g',']'],['t','y','p','e',' ','=',' ','d','r','i','v','e'],
     ['t','o','k','e','n',' ','=',' '] ++ tokenText],
   b2Account := fun _ _ => none,refreshToken := fun _ => none,tokenAccount := fun token => if token = "a" then some 1 else none}

def smoothRevocation : RevokeFates := ⟨.goes,fun _ => .goes,.goes,.goes,true⟩

def recipientShare (shareId contactId : Uuid) : ShareRecord :=
  shareRecord ⟨5,contactId,none,1000⟩ shareId 7 (some "anyone") (some "folder")

def twoRecipients : World :=
  {vault := ⟨⟨[],[],[],[],[],⟨0,0,none,131072,true,none⟩⟩,fun _ _ => none,fun _ => none⟩,tables := ⟨[recipientShare 1 11,recipientShare 2 12],[]⟩,cloud := [],
   keys := fun _ => none,
   permissions := fun id folder => if id = "anyone" ∧ folder = ['f','o','l','d','e','r'] then some 1 else none}

theorem shared_permission_withdraws_iff :
    WithdrawsExactly driveOwner.drive (recipientShare 1 11) twoRecipients
      (revokeShareCommand driveOwner smoothRevocation 1 2000 twoRecipients).2 ↔
    WithdrawalFits driveOwner true (recipientShare 1 11) twoRecipients :=
  revoke_withdraws_iff driveOwner smoothRevocation 1 2000 twoRecipients _ (recipientShare 1 11) rfl rfl

theorem shared_permission_withdrawn :
    (revokeShareCommand driveOwner smoothRevocation 1 2000 twoRecipients).1 = .done () ∧
    ¬ WithdrawsExactly driveOwner.drive (recipientShare 1 11) twoRecipients
      (revokeShareCommand driveOwner smoothRevocation 1 2000 twoRecipients).2 := by
  refine ⟨by rfl,?_⟩
  intro law
  have member : otherActive twoRecipients (recipientShare 1 11) (recipientShare 2 12) :=
    ⟨by simp [twoRecipients],rfl,by decide⟩
  have before : works twoRecipients (credential (recipientShare 2 12)) := by
    change (twoRecipients.permissions "anyone" ['f','o','l','d','e','r']).isSome = true
    rfl
  have still := law.kept (recipientShare 2 12) member before
  change ((revokeShareCommand driveOwner smoothRevocation 1 2000 twoRecipients).2.permissions "anyone"
    ['f','o','l','d','e','r']).isSome = true at still
  revert still
  decide

end ArxRuna.Sharing.Withdrawal
