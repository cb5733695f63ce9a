import ArxRuna.Cloud.Transport
import ArxRuna.Library.Texts
import Mathlib.Data.Char
import Mathlib.Data.List.Infix
import Mathlib.Data.List.Lex
namespace ArxRuna.Sharing.RemotePath
open Library.Texts Library.Fallible Crypto Cloud.Transport

-- Remote paths are split, joined and trimmed, so a text is its characters. The
-- byte order of UTF-8 is the order of the characters.
abbrev Text := List Char

def hexText : Nat → Nat → Text
  | 0,_ => []
  | width + 1,value => hexText width (value / 16) ++ [Nat.digitChar (value % 16)]

-- The hyphenated form: groups of 8, 4, 4, 4 and 12 digits.
def hyphenated (id : Uuid) : Text :=
  hexText 8 (id / 16 ^ 24) ++ '-' :: (hexText 4 (id / 16 ^ 20) ++ '-' :: (hexText 4 (id / 16 ^ 16) ++
    '-' :: (hexText 4 (id / 16 ^ 12) ++ '-' :: hexText 12 id)))

def isControl (c : Char) : Bool := c.toNat < 32 ∨ (127 ≤ c.toNat ∧ c.toNat < 160)

def allowed (c : Char) : Bool := c.isAlphanum || c == '.' || c == '_' || c == '/' || c == '-'

def contains (needle text : Text) : Bool := text.tails.any fun tail => needle.isPrefixOf tail

def rejectedPath (reason : String) : CloudTransportError := .other ("remote path rejected: " ++ reason)

def rejectedRoot (reason : String) : CloudTransportError := .other ("remote root rejected: " ++ reason)

def validateRemotePath (remotePath : Text) : Except CloudTransportError Text := do
  ensure (remotePath ≠ []) (rejectedPath "path is empty")
  ensure (['/'].isPrefixOf remotePath = false) (rejectedPath "absolute paths are not allowed")
  ensure (contains ['.','.'] remotePath = false) (rejectedPath "parent traversal is not allowed")
  ensure (remotePath.any isControl = false) (rejectedPath "control characters are not allowed")
  ensure (remotePath.all allowed) (rejectedPath "only [a-zA-Z0-9._/-] is allowed")
  pure remotePath

def validateRemotePrefix (remotePrefix : Text) : Except CloudTransportError Text :=
  if remotePrefix = [] then pure remotePrefix else validateRemotePath remotePrefix

def validateRemoteName (remoteName : Text) : Except CloudTransportError Text := do
  ensure (remoteName ≠ []) (rejectedRoot "remote_name is empty")
  ensure (remoteName.any isControl = false) (rejectedRoot "remote_name contains control characters")
  ensure ((remoteName.head?.any Char.isAlphanum &&
      remoteName.all fun c => c.isAlphanum || c == '.' || c == '_' || c == '-') = true)
    (rejectedRoot "remote_name must match [a-zA-Z0-9][a-zA-Z0-9._-]*")
  pure remoteName

def validateRemoteRootComponent (label : String) (value : Text) (allowEmpty : Bool) :
    Except CloudTransportError Text :=
  if value = [] ∧ allowEmpty then pure value
  else do
    ensure (value ≠ []) (rejectedRoot (label ++ " is empty"))
    ensure (value.any isControl = false) (rejectedRoot (label ++ " contains control characters"))
    ensure (['/'].isPrefixOf value = false ∧ ['/'].isSuffixOf value = false)
      (rejectedRoot (label ++ " must not start or end with '/'"))
    ensure (contains ['/','/'] value = false) (rejectedRoot (label ++ " must not contain empty path segments"))
    ensure (contains ['.','.'] value = false) (rejectedRoot (label ++ " must not contain parent traversal"))
    ensure (':' ∉ value) (rejectedRoot (label ++ " must not contain ':'"))
    ensure ('\\' ∉ value) (rejectedRoot (label ++ " must not contain '\\\\'"))
    ensure (value.all allowed) (rejectedRoot (label ++ " contains disallowed characters"))
    pure value

def rootPath (bucket pathPrefix : Text) : Text :=
  if pathPrefix = [] then bucket
  else if bucket = [] then pathPrefix
  else bucket ++ '/' :: pathPrefix

def composeRemoteRoot (remoteName bucket pathPrefix : Text) : Except CloudTransportError Text := do
  let remoteName ← validateRemoteName remoteName
  let bucket ← validateRemoteRootComponent "bucket" bucket true
  let pathPrefix ← validateRemoteRootComponent "path_prefix" pathPrefix true
  pure (remoteName ++ ':' :: rootPath bucket pathPrefix)

theorem hexText_digits (width value : Nat) : ∀ c ∈ hexText width value, c.isAlphanum = true := by
  induction width generalizing value with
  | zero =>
    intro c member
    cases member
  | succ width ih =>
    intro c member
    rcases List.mem_append.mp member with front | last
    · exact ih _ c front
    · rw [List.mem_singleton.mp last]
      have small : value % 16 < 16 := Nat.mod_lt _ (by decide)
      have all : ∀ n < 16, (Nat.digitChar n).isAlphanum = true := by decide
      exact all _ small

theorem hyphenated_digits (id : Uuid) : ∀ c ∈ hyphenated id, c.isAlphanum = true ∨ c = '-' := by
  intro c member
  simp only [hyphenated,List.mem_append,List.mem_cons] at member
  have digits := fun width value => hexText_digits width value c
  grind

theorem hyphenated_whole (id : Uuid) : '/' ∉ hyphenated id := by
  intro member
  rcases hyphenated_digits id _ member with digit | same
  · revert digit
    decide
  · revert same
    decide

theorem hyphenated_filled (id : Uuid) : hyphenated id ≠ [] := by
  unfold hyphenated
  simp

theorem lt_front {a b c d : Text} (long : a.length = b.length) (below : a < b) : a ++ c < b ++ d := by
  induction a generalizing b with
  | nil =>
    rw [List.length_eq_zero_iff.mp long.symm] at below
    exact absurd below (lt_irrefl _)
  | cons x rest ih =>
    cases b with
    | nil => cases long
    | cons y other =>
      rcases List.cons_lt_cons_iff.mp below with small | ⟨rfl,small⟩
      · exact List.cons_lt_cons_iff.mpr (.inl small)
      · exact List.cons_lt_cons_iff.mpr (.inr ⟨rfl,ih (Nat.succ.inj long) small⟩)

theorem hexText_length (width value : Nat) : (hexText width value).length = width := by
  induction width generalizing value with
  | zero => rfl
  | succ width ih => rw [hexText,List.length_append,ih]; rfl

theorem hexText_same (same : a % 16 ^ width = b % 16 ^ width) : hexText width a = hexText width b := by
  induction width generalizing a b with
  | zero => rfl
  | succ width ih =>
    rw [Nat.pow_succ',Nat.mod_mul,Nat.mod_mul] at same
    rw [hexText,hexText,ih (show a / 16 % 16 ^ width = b / 16 % 16 ^ width by omega),show a % 16 = b % 16 by omega]

theorem hexText_lt (below : a % 16 ^ width < b % 16 ^ width) : hexText width a < hexText width b := by
  induction width generalizing a b with
  | zero => omega
  | succ width ih =>
    rw [Nat.pow_succ',Nat.mod_mul,Nat.mod_mul] at below
    rw [hexText,hexText]
    by_cases front : a / 16 % 16 ^ width < b / 16 % 16 ^ width
    · exact lt_front (by rw [hexText_length,hexText_length]) (ih front)
    · have rising : ∀ m < 16, ∀ n < 16, m < n → Nat.digitChar m < Nat.digitChar n := by decide
      rw [hexText_same (show a / 16 % 16 ^ width = b / 16 % 16 ^ width by omega)]
      refine List.append_left_lt (List.cons_lt_cons_iff.mpr (.inl ?_))
      exact rising _ (Nat.mod_lt _ (by decide)) _ (Nat.mod_lt _ (by decide)) (by omega)

theorem group_lt {c d : Text} (below : a % 16 ^ width < b % 16 ^ width ∨ a % 16 ^ width = b % 16 ^ width ∧ c < d) :
    hexText width a ++ '-' :: c < hexText width b ++ '-' :: d := by
  rcases below with front | ⟨same,back⟩
  · exact lt_front (by rw [hexText_length,hexText_length]) (hexText_lt front)
  · rw [hexText_same same]
    exact List.append_left_lt (List.cons_lt_cons_iff.mpr (.inr ⟨rfl,back⟩))

theorem hyphenated_lt {a b : Nat} (fits : b < 2 ^ 128) (below : a < b) : hyphenated a < hyphenated b := by
  delta hyphenated
  by_cases first : a / 16 ^ 24 % 16 ^ 8 < b / 16 ^ 24 % 16 ^ 8
  · exact group_lt (.inl first)
  have first' : a / 16 ^ 24 % 16 ^ 8 = b / 16 ^ 24 % 16 ^ 8 := by omega
  refine group_lt (.inr ⟨first',?_⟩)
  by_cases second : a / 16 ^ 20 % 16 ^ 4 < b / 16 ^ 20 % 16 ^ 4
  · exact group_lt (.inl second)
  have second' : a / 16 ^ 20 % 16 ^ 4 = b / 16 ^ 20 % 16 ^ 4 := by omega
  refine group_lt (.inr ⟨second',?_⟩)
  by_cases third : a / 16 ^ 16 % 16 ^ 4 < b / 16 ^ 16 % 16 ^ 4
  · exact group_lt (.inl third)
  have third' : a / 16 ^ 16 % 16 ^ 4 = b / 16 ^ 16 % 16 ^ 4 := by omega
  refine group_lt (.inr ⟨third',?_⟩)
  by_cases fourth : a / 16 ^ 12 % 16 ^ 4 < b / 16 ^ 12 % 16 ^ 4
  · exact group_lt (.inl fourth)
  have fourth' : a / 16 ^ 12 % 16 ^ 4 = b / 16 ^ 12 % 16 ^ 4 := by omega
  refine group_lt (.inr ⟨fourth',?_⟩)
  have last : a % 16 ^ 12 < b % 16 ^ 12 := by omega
  exact hexText_lt last

theorem hyphenated_le {a b : Nat} (fits : a < 2 ^ 128) (fits' : b < 2 ^ 128) :
    hyphenated a ≤ hyphenated b ↔ a ≤ b := by
  constructor
  · intro under
    by_contra above
    exact absurd (hyphenated_lt fits (by omega)) (not_lt.mpr under)
  · intro under
    rcases Nat.lt_or_eq_of_le under with below | rfl
    · exact (hyphenated_lt fits' below).le
    · exact le_rfl



theorem hyphenated_inj {a b : Nat} (fits : a < 2 ^ 128) (fits' : b < 2 ^ 128) (same : hyphenated a = hyphenated b) : a = b :=
  Nat.le_antisymm ((hyphenated_le fits fits').mp same.le) ((hyphenated_le fits' fits).mp same.ge)

-- Unfolding it on a variable never ends in a text.
attribute [irreducible] hyphenated

theorem allowed_bounds (fine : allowed c = true) : 33 ≤ c.toNat ∧ c.toNat < 127 := by
  delta allowed Char.isAlphanum Char.isAlpha Char.isUpper Char.isLower Char.isDigit at fine
  simp only [Bool.or_eq_true,Bool.and_eq_true,decide_eq_true_eq,beq_iff_eq,UInt32.le_iff_toNat_le,ge_iff_le] at fine
  change (((((((65 ≤ c.toNat ∧ c.toNat ≤ 90) ∨ (97 ≤ c.toNat ∧ c.toNat ≤ 122)) ∨
    (48 ≤ c.toNat ∧ c.toNat ≤ 57)) ∨ c = '.') ∨ c = '_') ∨ c = '/') ∨ c = '-') at fine
  rcases fine with (((alphanumeric | rfl) | rfl) | rfl) | rfl
  · omega
  all_goals decide

theorem dots_apart {text : Text} (pair : contains ['.','.'] text = true) : 2 ≤ text.count '.' := by
  simp only [contains,List.any_eq_true,List.isPrefixOf_iff_prefix] at pair
  obtain ⟨tail,member,front⟩ := pair
  have inside := (front.sublist.trans ((List.mem_tails tail text).mp member).sublist).count_le '.'
  simpa using inside

theorem validated {text : Text} (filled : text ≠ []) (relative : ['/'].isPrefixOf text = false)
    (dots : text.count '.' ≤ 1) (fine : ∀ c ∈ text, allowed c = true) : validateRemotePath text = .ok text := by
  have apart : contains ['.','.'] text = false := by
    rw [Bool.eq_false_iff]
    intro pair
    have two := dots_apart pair
    omega
  have printable : text.any isControl = false := by
    rw [List.any_eq_false]
    intro c member
    have bounds := allowed_bounds (fine c member)
    simp only [isControl,decide_eq_true_eq]
    omega
  have all : text.all allowed = true := List.all_eq_true.mpr fine
  simp only [validateRemotePath,bind_ok,ensure_ok,pure_ok]
  exact ⟨(),filled,(),relative,(),apart,(),printable,(),all,trivial⟩

theorem validateRemotePath_ok (accepted : validateRemotePath remotePath = .ok checked) : checked = remotePath := by
  simp only [validateRemotePath,bind_ok,ensure_ok,pure_ok] at accepted
  grind

theorem component_ok (accepted : validateRemoteRootComponent label value true = .ok checked) :
    checked = value ∧ ':' ∉ value ∧ ['/'].isPrefixOf value = false ∧ ['/'].isSuffixOf value = false := by
  unfold validateRemoteRootComponent at accepted
  split at accepted
  · rename_i absent
    cases accepted
    rw [absent.1]
    simp
  · simp only [bind_ok,ensure_ok,pure_ok] at accepted
    grind

theorem remoteName_ok (accepted : validateRemoteName remoteName = .ok checked) :
    checked = remoteName ∧ ':' ∉ remoteName := by
  simp only [validateRemoteName,bind_ok,ensure_ok,pure_ok,Bool.and_eq_true,List.all_eq_true] at accepted
  obtain ⟨_,_,_,_,_,shape,same⟩ := accepted
  refine ⟨same.symm,?_⟩
  intro member
  exact absurd (shape.2 _ member) (by decide)

theorem segments_root (bucket pathPrefix : Text) :
    segments '/' (rootPath bucket pathPrefix) = segments '/' bucket ++ segments '/' pathPrefix := by
  unfold rootPath
  split
  · simp [*]
  · split
    · simp [*]
    · exact segments_append bucket pathPrefix

-- An accepted remote root splits at its first colon into the remote's name and the
-- path, and the path names the pieces of the bucket and of the prefix.
theorem composed_root (composed : composeRemoteRoot remoteName bucket pathPrefix = .ok root) :
    root = remoteName ++ ':' :: rootPath bucket pathPrefix ∧
    splitOnce ':' root = some (remoteName,rootPath bucket pathPrefix) := by
  simp only [composeRemoteRoot,bind_ok,pure_ok] at composed
  obtain ⟨name,named,front,first,back,second,rfl⟩ := composed
  obtain ⟨rfl,plain⟩ := remoteName_ok named
  obtain ⟨rfl,_⟩ := component_ok first
  obtain ⟨rfl,_⟩ := component_ok second
  exact ⟨rfl,splitOnce_first plain⟩

end ArxRuna.Sharing.RemotePath
