import ArxRuna.Sharing.RemotePath
import Mathlib.Data.List.TakeWhile
namespace ArxRuna.Cloud.Locations
open Library.Texts Library.Fallible Cloud.Transport Sharing.RemotePath

inductive Scheme where
  | https
  | http
  deriving DecidableEq, Repr

def Scheme.text : Scheme → Text
  | .https => ['h','t','t','p','s',':','/','/']
  | .http => ['h','t','t','p',':','/','/']

def stripPrefix (front text : Text) : Option Text :=
  if front.isPrefixOf text then some (text.drop front.length) else none

def splitScheme (endpoint : Text) : Option (Scheme × Text) :=
  ((stripPrefix Scheme.https.text endpoint).map fun rest => (.https,rest)).or
    ((stripPrefix Scheme.http.text endpoint).map fun rest => (.http,rest))

def rejectedEndpoint (reason : String) : CloudTransportError := .other ("cloud endpoint rejected: " ++ reason)

def extractAuthorityHost (authority : Text) : Except CloudTransportError Text :=
  if ['['].isPrefixOf authority then
    match splitOnce ']' authority with
    | none => .error (rejectedEndpoint "invalid IPv6 host")
    | some (front,_) => .ok (front.drop 1)
  else .ok (((splitOnce ':' authority).map (·.1)).getD authority)

def localhost : Text := ['l','o','c','a','l','h','o','s','t']

def loopbackLiteral : Text := [':',':','1']

def loopbackPrefix : Text := ['1','2','7','.']

def isLocalDevelopmentHost (host : Text) : Bool :=
  host.map Char.toLower = localhost || host = loopbackLiteral || loopbackPrefix.isPrefixOf host

def validateEndpointUrlWithPolicy (endpoint : Text) (localDevHttpOverrideEnabled : Bool) :
    Except CloudTransportError Unit :=
  if endpoint = [] then pure ()
  else do
    ensure (endpoint.any isControl = false) (rejectedEndpoint "endpoint contains control characters")
    ensure ('?' ∉ endpoint ∧ '#' ∉ endpoint) (rejectedEndpoint "query and fragment are not allowed")
    let split ← given (splitScheme endpoint) (rejectedEndpoint
      "endpoint must start with https:// (or local-dev http:// with explicit opt-in)")
    ensure (split.2 ≠ []) (rejectedEndpoint "endpoint host is required")
    let authority := split.2.takeWhile (· ≠ '/')
    ensure (authority ≠ []) (rejectedEndpoint "endpoint host is required")
    ensure ('@' ∉ authority) (rejectedEndpoint "userinfo is not allowed in endpoint")
    let authorityHost ← extractAuthorityHost authority
    ensure (authorityHost ≠ []) (rejectedEndpoint "endpoint host is required")
    ensure (split.1 = .http → localDevHttpOverrideEnabled = true ∧ isLocalDevelopmentHost authorityHost = true)
      (rejectedEndpoint ("http:// is disabled by default; only local-development endpoints are allowed when " ++
        "ARX_RUNA_ALLOW_LOCAL_DEV_HTTP_ENDPOINTS=1"))
    let path := split.2.dropWhile (· ≠ '/')
    ensure (path = [] ∨ path = ['/']) (rejectedEndpoint "endpoint path is not allowed")

def remoteTarget (remoteRoot remotePath : Text) : Text := remoteRoot ++ '/' :: trimStart '/' remotePath

-- What an endpoint is meant to be: the generic syntax of a URL without user
-- information, path, query and fragment.
def nameChar (c : Char) : Bool :=
  c.isAlphanum || ['-','.','_','~','!','$','&','\'','(',')','*','+',',',';','=','%'].contains c

def isHex (c : Char) : Bool := c.isDigit || ('a' ≤ c.toLower && c.toLower ≤ 'f')

def isOctet (piece : Text) : Bool :=
  piece ≠ [] && piece.length ≤ 3 && piece.all Char.isDigit && (piece.length = 1 || piece.head? ≠ some '0') &&
    piece.foldl (fun value c => 10 * value + (c.toNat - 48)) 0 < 256

def isIpv4 (text : Text) : Bool := (text.splitOn '.').length = 4 && (text.splitOn '.').all isOctet

def isGroup (piece : Text) : Bool := 1 ≤ piece.length && piece.length ≤ 4 && piece.all isHex

-- How many 16-bit groups the pieces stand for; an IPv4 address may be the last one.
def groups : List Text → Option Nat
  | [] => some 0
  | [piece] => if isIpv4 piece then some 2 else if isGroup piece then some 1 else none
  | piece :: rest => if isGroup piece then (groups rest).map (· + 1) else none

def splitPair : Text → Option (Text × Text)
  | ':' :: ':' :: rest => some ([],rest)
  | c :: rest => (splitPair rest).map fun halves => (c :: halves.1,halves.2)
  | [] => none

def half (text : Text) : Option Nat := if text = [] then some 0 else groups (text.splitOn ':')

def isIpv6 (text : Text) : Bool :=
  text.all (fun c => isHex c || c = ':' || c = '.') &&
    match splitPair text with
    | none => half text = some 8
    | some (front,back) => '.' ∉ front ∧ (half front).any fun a => (half back).any fun b => a + b ≤ 7

inductive Host : Text → Prop where
  | name (filled : host ≠ []) (named : host.all nameChar = true) : Host host
  | literal (address : isIpv6 inside = true) : Host ('[' :: (inside ++ [']']))

def isPort (text : Text) : Bool := text = [] || (text.head? = some ':' && (text.drop 1).all Char.isDigit)

def Loopback (host : Text) : Prop :=
  host.map Char.toLower = localhost ∨ host = '[' :: (loopbackLiteral ++ [']']) ∨
    loopbackPrefix.isPrefixOf host = true ∧ isIpv4 host = true

def Located (localDevHttpOverrideEnabled : Bool) (endpoint : Text) : Prop :=
  ∃ scheme host port slash, endpoint = Scheme.text scheme ++ (host ++ port ++ slash) ∧ Host host ∧
    isPort port = true ∧ (slash = [] ∨ slash = ['/']) ∧
    (scheme = .http → localDevHttpOverrideEnabled = true ∧ Loopback host)

-- The kinds of authority the hand-made splitting misreads are those left out here.
def readable (scheme : Scheme) (authority : Text) : Bool :=
  if ['['].isPrefixOf authority then
    match splitOnce ']' authority with
    | none => false
    | some (front,after) =>
      isIpv6 (front.drop 1) && isPort after && (scheme = .https || front.drop 1 = loopbackLiteral)
  else
    match splitOnce ':' authority with
    | none => authority.all nameChar && (scheme = .https || !loopbackPrefix.isPrefixOf authority || isIpv4 authority)
    | some (host,digits) =>
      host.all nameChar && digits.all Char.isDigit &&
        (scheme = .https || !loopbackPrefix.isPrefixOf host || isIpv4 host)

def authorityOf (endpoint : Text) : Option (Scheme × Text) :=
  (splitScheme endpoint).map fun split => (split.1,split.2.takeWhile (· ≠ '/'))

variable {scheme : Scheme} {host authority : Text}

theorem name_plain (named : nameChar c = true) : c ≠ '/' ∧ c ≠ ':' ∧ c ≠ '[' := by
  refine ⟨?_,?_,?_⟩ <;> rintro rfl <;> revert named <;> decide

theorem address_plain (address : isIpv6 inside = true) : ∀ c ∈ inside, c ≠ '/' ∧ c ≠ ']' := by
  intro c member
  unfold isIpv6 at address
  have fine := List.all_eq_true.mp (Bool.and_eq_true_iff.mp address).1 c member
  refine ⟨?_,?_⟩ <;> rintro rfl <;> revert fine <;> decide

theorem host_plain (host : Host text) : '/' ∉ text := by
  intro member
  cases host with
  | name filled named => exact (name_plain (List.all_eq_true.mp named '/' member)).1 rfl
  | literal address =>
    rcases List.mem_cons.mp member with same | member
    · revert same
      decide
    · rcases List.mem_append.mp member with inner | last
      · exact (address_plain address '/' inner).1 rfl
      · revert last
        decide

theorem port_plain (port : isPort text = true) : '/' ∉ text := by
  intro member
  cases text with
  | nil => cases member
  | cons c rest =>
    simp only [isPort,reduceCtorEq,decide_false,Bool.false_or,List.head?_cons,Option.some.injEq,List.drop_one,
      List.tail_cons,Bool.and_eq_true,decide_eq_true_eq] at port
    rcases List.mem_cons.mp member with same | member
    · rw [port.1] at same
      revert same
      decide
    · have digit := List.all_eq_true.mp port.2 '/' member
      revert digit
      decide

theorem split_text (split : splitScheme endpoint = some (scheme,rest)) : endpoint = scheme.text ++ rest := by
  unfold splitScheme stripPrefix at split
  rcases Option.or_eq_some_iff.mp split with found | ⟨_,found⟩ <;>
    obtain ⟨tail,cut,same⟩ := Option.map_eq_some_iff.mp found <;> cases same <;> split at cut <;> cases cut
  all_goals
    rename_i front
    obtain ⟨tail,rfl⟩ := List.isPrefixOf_iff_prefix.mp front
    rw [List.drop_left]

theorem text_split (scheme : Scheme) (rest : Text) : splitScheme (scheme.text ++ rest) = some (scheme,rest) := by
  cases scheme <;> rfl

-- An authority that is a host with at most a port, and for plain text a loopback one.
def Addressed (scheme : Scheme) (authority : Text) : Prop :=
  ∃ host port, authority = host ++ port ∧ Host host ∧ isPort port = true ∧ (scheme = .http → Loopback host)

theorem local_name (colonless : ':' ∉ host) (inside : isLocalDevelopmentHost host = true) :
    host.map Char.toLower = localhost ∨ loopbackPrefix.isPrefixOf host = true := by
  simp only [isLocalDevelopmentHost,Bool.or_eq_true,decide_eq_true_eq] at inside
  rcases inside with (name | rfl) | front
  · exact .inl name
  · exact absurd (by decide : ':' ∈ loopbackLiteral) colonless
  · exact .inr front

theorem named_loopback (named : host.all nameChar = true) (loopback : Loopback host) :
    loopbackPrefix.isPrefixOf host = false ∨ isIpv4 host = true := by
  rcases loopback with name | rfl | ⟨_,address⟩
  · left
    rw [Bool.eq_false_iff]
    intro front
    obtain ⟨rest,rfl⟩ := List.isPrefixOf_iff_prefix.mp front
    cases name
  · revert named
    decide
  · exact .inr address

theorem literal_loopback (loopback : Loopback ('[' :: (inside ++ [']']))) : inside = loopbackLiteral := by
  rcases loopback with name | same | ⟨front,_⟩
  · cases name
  · exact List.append_cancel_right (List.cons.inj same).2
  · cases front

theorem bracketed_iff (split : splitOnce ']' ('[' :: tail) = some (front,after)) :
    Addressed scheme ('[' :: tail) ↔ (isIpv6 (front.drop 1) && isPort after &&
      (scheme = .https || front.drop 1 = loopbackLiteral)) = true := by
  obtain ⟨whole,free⟩ := splitOnce_parts split
  simp only [Bool.and_eq_true,Bool.or_eq_true,decide_eq_true_eq]
  constructor
  · rintro ⟨host,port,same,shape,numbered,near⟩
    cases shape with
    | name filled named =>
      obtain ⟨c,rest,rfl⟩ := List.exists_cons_of_ne_nil filled
      obtain ⟨rfl,_⟩ := List.cons.inj same
      revert named
      simp [nameChar]
    | @literal inside address =>
      have shut : ']' ∉ '[' :: inside := by
        rw [List.mem_cons,not_or]
        exact ⟨by decide,fun member => (address_plain address ']' member).2 rfl⟩
      have again := splitOnce_first (b := port) shut
      have lined : '[' :: tail = '[' :: inside ++ ']' :: port := by
        rw [same]
        simp
      rw [lined,again] at split
      cases split
      refine ⟨⟨address,numbered⟩,?_⟩
      cases scheme with
      | https => exact .inl rfl
      | http => exact .inr (literal_loopback (near rfl))
  · rintro ⟨⟨address,numbered⟩,loopback⟩
    cases front with
    | nil => cases whole
    | cons c inside =>
      obtain ⟨rfl,same⟩ := List.cons.inj whole
      refine ⟨'[' :: (inside ++ [']']),after,?_,.literal address,numbered,fun plain => ?_⟩
      · rw [same]
        simp
      · rcases loopback with secure | literal
        · rw [plain] at secure
          cases secure
        · right
          left
          rw [← literal]
          rfl

theorem splitOnce_free {text : Text} (free : c ∉ text) : splitOnce c text = none := by
  cases split : splitOnce c text with
  | none => rfl
  | some halves =>
    exact absurd (by rw [(splitOnce_parts (a := halves.1) (b := halves.2) split).1]; simp) free

theorem split_port (colonless : ':' ∉ host) (numbered : isPort port = true) :
    port = [] ∧ splitOnce ':' (host ++ port) = none ∨
      ∃ digits, port = ':' :: digits ∧ digits.all Char.isDigit = true ∧
        splitOnce ':' (host ++ port) = some (host,digits) := by
  cases port with
  | nil =>
    rw [List.append_nil]
    exact .inl ⟨rfl,splitOnce_free colonless⟩
  | cons c digits =>
    right
    simp only [isPort,reduceCtorEq,decide_false,Bool.false_or,List.head?_cons,Option.some.injEq,List.drop_one,
      List.tail_cons,Bool.and_eq_true,decide_eq_true_eq] at numbered
    obtain ⟨rfl,digital⟩ := numbered
    exact ⟨digits,rfl,digital,splitOnce_first colonless⟩

theorem named_colonless (named : host.all nameChar = true) : ':' ∉ host := by
  intro member
  exact (name_plain (List.all_eq_true.mp named ':' member)).2.1 rfl

-- Where the prefix test lets a name pass, only a loopback address is meant.
theorem prefix_iff (named : host.all nameChar = true)
    (near : scheme = .http → isLocalDevelopmentHost host = true) :
    (scheme = .http → Loopback host) ↔
      (scheme = .https || !loopbackPrefix.isPrefixOf host || isIpv4 host) = true := by
  cases scheme with
  | https => simp
  | http =>
    simp only [reduceCtorEq,decide_false,Bool.false_or,Bool.or_eq_true,Bool.not_eq_true',forall_const]
    refine ⟨named_loopback named,fun apart => ?_⟩
    rcases local_name (named_colonless named) (near rfl) with name | front
    · exact .inl name
    · rcases apart with off | address
      · rw [front] at off
        cases off
      · exact .inr (.inr ⟨front,address⟩)

theorem unbracketed (shape : Host host) (plain : ['['].isPrefixOf (host ++ port) = false) :
    host ≠ [] ∧ host.all nameChar = true := by
  cases shape with
  | name filled named => exact ⟨filled,named⟩
  | literal address => cases plain

theorem named_iff (plain : ['['].isPrefixOf authority = false) (extracted : extractAuthorityHost authority = .ok host)
    (filled : host ≠ []) (near : scheme = .http → isLocalDevelopmentHost host = true) :
    Addressed scheme authority ↔ readable scheme authority = true := by
  unfold extractAuthorityHost at extracted
  rw [plain] at extracted
  unfold readable
  rw [plain]
  cases split : splitOnce ':' authority with
  | none =>
    rw [split] at extracted
    cases extracted
    simp only [Bool.false_eq_true,if_false,Bool.and_eq_true]
    constructor
    · rintro ⟨host,port,rfl,shape,numbered,looped⟩
      obtain ⟨_,named⟩ := unbracketed shape plain
      rcases split_port (named_colonless named) numbered with ⟨rfl,_⟩ | ⟨digits,_,_,other⟩
      · rw [List.append_nil] at near ⊢
        exact ⟨named,(prefix_iff named near).mp looped⟩
      · rw [split] at other
        cases other
    · rintro ⟨named,apart⟩
      exact ⟨authority,[],(List.append_nil _).symm,.name filled named,rfl,(prefix_iff named near).mpr apart⟩
  | some halves =>
    obtain ⟨front,digits⟩ := halves
    rw [split] at extracted
    cases extracted
    simp only [Bool.false_eq_true,if_false,Bool.and_eq_true]
    constructor
    · rintro ⟨host,port,rfl,shape,numbered,looped⟩
      obtain ⟨_,named⟩ := unbracketed shape plain
      rcases split_port (named_colonless named) numbered with ⟨_,other⟩ | ⟨_,_,digital,other⟩
      · rw [split] at other
        cases other
      · rw [split] at other
        cases other
        exact ⟨⟨named,digital⟩,(prefix_iff named near).mp looped⟩
    · rintro ⟨⟨named,digital⟩,apart⟩
      refine ⟨front,':' :: digits,(splitOnce_parts split).1,.name filled named,?_,(prefix_iff named near).mpr apart⟩
      simpa [isPort] using digital

theorem addressed_iff (extracted : extractAuthorityHost authority = .ok host)
    (filled : host ≠ []) (near : scheme = .http → isLocalDevelopmentHost host = true) :
    Addressed scheme authority ↔ readable scheme authority = true := by
  cases plain : ['['].isPrefixOf authority with
  | false => exact named_iff plain extracted filled near
  | true =>
    obtain ⟨tail,rfl⟩ := List.isPrefixOf_iff_prefix.mp plain
    unfold extractAuthorityHost at extracted
    rw [plain] at extracted
    unfold readable
    rw [plain]
    cases split : splitOnce ']' (['['] ++ tail) with
    | none =>
      rw [split] at extracted
      cases extracted
    | some halves => exact bracketed_iff split

theorem accepted_parts {endpoint : Text} (accepted : validateEndpointUrlWithPolicy endpoint enabled = .ok ())
    (filled : endpoint ≠ []) :
    ∃ scheme rest host, splitScheme endpoint = some (scheme,rest) ∧
      extractAuthorityHost (rest.takeWhile (· ≠ '/')) = .ok host ∧ host ≠ [] ∧
      (scheme = .http → enabled = true ∧ isLocalDevelopmentHost host = true) ∧
      (rest.dropWhile (· ≠ '/') = [] ∨ rest.dropWhile (· ≠ '/') = ['/']) := by
  unfold validateEndpointUrlWithPolicy at accepted
  rw [if_neg filled] at accepted
  simp only [bind_ok,ensure_ok,given_ok] at accepted
  obtain ⟨_,_,_,_,⟨scheme,rest⟩,split,_,_,_,_,_,_,host,extracted,_,named,_,policy,path⟩ := accepted
  exact ⟨scheme,rest,host,split,extracted,named,policy,path⟩

theorem takeWhile_plain {text rest : Text} (plain : '/' ∉ text) :
    (text ++ '/' :: rest).takeWhile (· ≠ '/') = text ∧ text.takeWhile (· ≠ '/') = text := by
  have all : ∀ c ∈ text, (c ≠ '/' : Bool) = true := by
    intro c member
    rw [decide_eq_true_eq]
    rintro rfl
    exact plain member
  constructor
  · rw [List.takeWhile_append_of_pos all]
    simp
  · exact List.takeWhile_eq_self_iff.mpr all

-- An accepted endpoint is what it is meant to be exactly where the splitting reads
-- its authority right.
theorem located_iff {endpoint : Text} (accepted : validateEndpointUrlWithPolicy endpoint enabled = .ok ())
    (filled : endpoint ≠ []) :
    Located enabled endpoint ↔ ∃ scheme authority, authorityOf endpoint = some (scheme,authority) ∧
      readable scheme authority = true := by
  obtain ⟨scheme,rest,host,split,extracted,named,policy,path⟩ := accepted_parts accepted filled
  have addressed := addressed_iff extracted named fun plain => (policy plain).2
  have parted : authorityOf endpoint = some (scheme,rest.takeWhile (· ≠ '/')) := by
    rw [authorityOf,split]
    rfl
  constructor
  · rintro ⟨scheme',host',port,slash,whole,shape,numbered,slashed,looped⟩
    have again := text_split scheme' (host' ++ port ++ slash)
    rw [← whole,split] at again
    cases again
    have plain : '/' ∉ host' ++ port := by
      rw [List.mem_append,not_or]
      exact ⟨host_plain shape,port_plain numbered⟩
    have cut : (host' ++ port ++ slash).takeWhile (· ≠ '/') = host' ++ port := by
      rcases slashed with rfl | rfl
      · rw [List.append_nil]
        have parts : (host' ++ port ++ '/' :: []).takeWhile (· ≠ '/') = host' ++ port ∧
            (host' ++ port).takeWhile (· ≠ '/') = host' ++ port := takeWhile_plain plain
        exact parts.2
      · exact (takeWhile_plain plain).1
    rw [cut] at addressed parted
    exact ⟨_,_,parted,addressed.mp ⟨host',port,rfl,shape,numbered,fun plain => (looped plain).2⟩⟩
  · rintro ⟨scheme',authority,same,reading⟩
    rw [parted] at same
    cases same
    obtain ⟨host',port,whole,shape,numbered,looped⟩ := addressed.mpr reading
    refine ⟨scheme,host',port,rest.dropWhile (· ≠ '/'),?_,shape,numbered,path,
      fun plain => ⟨(policy plain).1,looped plain⟩⟩
    rw [← whole,List.takeWhile_append_dropWhile]
    exact split_text split

def names (path : Text) : List Text := (segments '/' path).filter (· ≠ ['.'])

def Below (remoteName bucket pathPrefix target : Text) : Prop :=
  ∃ path inner, splitOnce ':' target = some (remoteName,path) ∧ ['.','.'] ∉ segments '/' path ∧ inner ≠ [] ∧
    names path = names bucket ++ names pathPrefix ++ inner

theorem piece_inside {text : Text} : ∀ piece ∈ text.splitOn '/', piece <:+: text := by
  have parts : (∀ piece ∈ text.splitOn '/', piece <:+: text) ∧
      ∀ piece, (text.splitOn '/').head? = some piece → piece <+: text := by
    induction text with
    | nil => simp
    | cons c rest ih =>
      rw [List.splitOn_cons_eq_if_modifyHead]
      split
      · refine ⟨fun piece member => ?_,fun piece first => ?_⟩
        · rcases List.mem_cons.mp member with rfl | later
          · exact List.nil_infix
          · exact List.infix_cons (ih.1 piece later)
        · cases first
          exact List.nil_prefix
      · obtain ⟨first,later,split⟩ := List.exists_cons_of_ne_nil (List.splitOn_ne_nil '/' rest)
        rw [split] at ih ⊢
        have front : c :: first <+: c :: rest := List.cons_prefix_cons.mpr ⟨rfl,ih.2 first rfl⟩
        refine ⟨fun piece member => ?_,fun piece head => ?_⟩
        · rcases List.mem_cons.mp member with rfl | member
          · exact front.isInfix
          · exact List.infix_cons (ih.1 piece (List.mem_cons_of_mem _ member))
        · cases head
          exact front
  exact parts.1

theorem dots_absent {text : Text} (apart : contains ['.','.'] text = false) : ['.','.'] ∉ segments '/' text := by
  intro member
  obtain ⟨front,back,whole⟩ := piece_inside _ (List.mem_filter.mp member).1
  rw [contains,List.any_eq_false] at apart
  refine apart (['.','.'] ++ back) ((List.mem_tails _ _).mpr ⟨front,?_⟩) rfl
  rw [← whole,List.append_assoc]

theorem component_dots (accepted : validateRemoteRootComponent label value true = .ok checked) :
    ['.','.'] ∉ segments '/' value := by
  unfold validateRemoteRootComponent at accepted
  split at accepted
  · rename_i absent
    rw [absent.1]
    simp
  · simp only [bind_ok,ensure_ok,pure_ok] at accepted
    obtain ⟨_,_,_,_,_,_,_,_,_,apart,_⟩ := accepted
    exact dots_absent apart

theorem path_dots (accepted : validateRemotePath remotePath = .ok checked) : ['.','.'] ∉ segments '/' remotePath := by
  simp only [validateRemotePath,bind_ok,ensure_ok,pure_ok] at accepted
  obtain ⟨_,_,_,_,_,apart,_⟩ := accepted
  exact dots_absent apart

-- The target of an accepted path lies strictly below the root exactly if the path
-- names something.
theorem below_iff (composed : composeRemoteRoot remoteName bucket pathPrefix = .ok root)
    (accepted : validateRemotePath remotePath = .ok checked) :
    Below remoteName bucket pathPrefix (remoteTarget root remotePath) ↔ names remotePath ≠ [] := by
  obtain ⟨rfl,split⟩ := composed_root composed
  obtain ⟨_,colonless⟩ := splitOnce_parts split
  have target : splitOnce ':' (remoteTarget (remoteName ++ ':' :: rootPath bucket pathPrefix) remotePath) =
      some (remoteName,rootPath bucket pathPrefix ++ '/' :: trimStart '/' remotePath) := by
    rw [remoteTarget,List.append_assoc,List.cons_append]
    exact splitOnce_first colonless
  have pieces : segments '/' (rootPath bucket pathPrefix ++ '/' :: trimStart '/' remotePath) =
      segments '/' bucket ++ segments '/' pathPrefix ++ segments '/' remotePath := by
    rw [segments_append,segments_root,segments_trimStart]
  have named : names (rootPath bucket pathPrefix ++ '/' :: trimStart '/' remotePath) =
      names bucket ++ names pathPrefix ++ names remotePath := by
    simp only [names,pieces,List.filter_append]
  constructor
  · rintro ⟨path,inner,same,_,filled,listed⟩
    rw [target] at same
    cases same
    rw [named,List.append_cancel_left_eq] at listed
    rw [listed]
    exact filled
  · intro filled
    refine ⟨_,names remotePath,target,?_,filled,named⟩
    simp only [composeRemoteRoot,bind_ok,pure_ok] at composed
    obtain ⟨_,_,_,first,_,second,_⟩ := composed
    rw [pieces,List.mem_append,List.mem_append,not_or,not_or]
    exact ⟨⟨component_dots first,component_dots second⟩,path_dots accepted⟩

theorem confined_iff (localDevHttpOverrideEnabled : Bool) (endpoint remoteName bucket pathPrefix remotePath : Text) :
    (validateEndpointUrlWithPolicy endpoint localDevHttpOverrideEnabled = .ok () → endpoint ≠ [] →
      (Located localDevHttpOverrideEnabled endpoint ↔
        ∃ scheme authority, authorityOf endpoint = some (scheme,authority) ∧ readable scheme authority = true)) ∧
    ∀ root checked, composeRemoteRoot remoteName bucket pathPrefix = .ok root →
      validateRemotePath remotePath = .ok checked →
        (Below remoteName bucket pathPrefix (remoteTarget root remotePath) ↔ names remotePath ≠ []) :=
  ⟨located_iff,fun _ _ => below_iff⟩

def secureEndpoint : Text := Scheme.https.text ++ ['s','3','.','e','x',':','4','4','3','/']

theorem confined_iff_secure :
    (Located false secureEndpoint ↔
      ∃ scheme authority, authorityOf secureEndpoint = some (scheme,authority) ∧ readable scheme authority = true) ∧
    (Below ['r'] ['b'] ['p'] (remoteTarget ['r',':','b','/','p'] ['x']) ↔ names ['x'] ≠ []) := by
  obtain ⟨endpoint,target⟩ := confined_iff false secureEndpoint ['r'] ['b'] ['p'] ['x']
  exact ⟨endpoint (by decide +kernel) (by decide),target _ ['x'] (by decide +kernel) (by decide +kernel)⟩

def spoofedLoopback : Text := Scheme.http.text ++ (loopbackPrefix ++ ['e','v','i','l','.','c','o','m'])

def bracketedTail : Text := Scheme.http.text ++ '[' :: (loopbackLiteral ++ ']' :: ['e','v','i','l','.','c','o','m'])

-- A name that starts like a loopback address, a name after a loopback literal, and a
-- path that names the root itself.
theorem confinement_missed :
    (validateEndpointUrlWithPolicy spoofedLoopback true = .ok () ∧ ¬ Located true spoofedLoopback) ∧
    (validateEndpointUrlWithPolicy bracketedTail true = .ok () ∧ ¬ Located true bracketedTail) ∧
    composeRemoteRoot ['r'] ['b'] ['p'] = .ok ['r',':','b','/','p'] ∧ validateRemotePath ['.'] = .ok ['.'] ∧
    ¬ Below ['r'] ['b'] ['p'] (remoteTarget ['r',':','b','/','p'] ['.']) := by
  have spoofed : validateEndpointUrlWithPolicy spoofedLoopback true = .ok () := by
    decide +kernel
  have bracketed : validateEndpointUrlWithPolicy bracketedTail true = .ok () := by
    decide +kernel
  have composed : composeRemoteRoot ['r'] ['b'] ['p'] = .ok ['r',':','b','/','p'] := by
    decide +kernel
  have dot : validateRemotePath ['.'] = .ok ['.'] := by
    decide +kernel
  refine ⟨⟨spoofed,fun located => ?_⟩,⟨bracketed,fun located => ?_⟩,composed,dot,fun below => ?_⟩
  · obtain ⟨scheme,authority,same,reading⟩ := (located_iff spoofed (by decide)).mp located
    cases same
    revert reading
    decide +kernel
  · obtain ⟨scheme,authority,same,reading⟩ := (located_iff bracketed (by decide)).mp located
    cases same
    revert reading
    decide +kernel
  · exact (below_iff composed dot).mp below (by decide +kernel)

end ArxRuna.Cloud.Locations
