import Atlaso.Library.Outcomes
import Atlaso.Library.TextFields

/-!
The applied manifest of the ESXi boot service, and what it says about one host.

MAC addresses are compared in two normal forms; on the addresses that `normalize_mac`
accepts, the key of the boot artifacts determines the address.
-/

namespace Atlaso.NetworkBoot.AppliedBoot

open Library Outcomes TextFields

/-! ### MAC addresses -/

/-- `[0-9a-f]`. -/
def isLowerHex (c : Char) : Bool :=
  (0x30 ≤ c.toNat && c.toNat ≤ 0x39) || (0x61 ≤ c.toNat && c.toNat ≤ 0x66)

/-- `MAC_PATTERN`. -/
def isMac : List Char → Bool
  | [a, b, ':', c, d, ':', e, f, ':', g, h, ':', i, j, ':', k, l] =>
    [a, b, c, d, e, f, g, h, i, j, k, l].all isLowerHex
  | _ => false

def isDottedMac : List Char → Bool
  | [a, b, c, d, '.', e, f, g, h, '.', i, j, k, l] =>
    [a, b, c, d, e, f, g, h, i, j, k, l].all isLowerHex
  | _ => false

/-- `value.strip().lower().replace("-", ":")`. Outside ASCII no letter has a hexadecimal
digit as its lower case. -/
def cleanMac (value : String) : List Char :=
  (strip value.toList).map fun c => if c = '-' then ':' else c.toLower

/-- The all-zero and the broadcast address. -/
def isReserved (compact : List Char) : Bool :=
  compact = List.replicate 12 '0' || compact = List.replicate 12 'f'

def normalizeMac (value : String) : Except String String :=
  let raw := cleanMac value
  if raw = [] then .ok ""
  else if isMac raw = false then .error "MAC address must contain six hexadecimal octets."
  else if isReserved (raw.filter (· ≠ ':')) then
    .error "MAC address must not be all-zero or broadcast."
  else .ok (String.ofList raw)

/-- The twelve digits of an address in one of the accepted spellings. -/
def compactMac (raw : List Char) : Option (List Char) :=
  let raw := if raw.take 3 = ['0', '1', ':'] ∧ isMac (raw.drop 3) then raw.drop 3 else raw
  if isMac raw then some (raw.filter (· ≠ ':'))
  else if raw.length = 12 ∧ raw.all isLowerHex then some raw
  else if isDottedMac raw then some (raw.filter (· ≠ '.'))
  else none

/-- `int(compact[:2], 16) & 1`. -/
def isGroupAddress (compact : List Char) : Bool :=
  ['1', '3', '5', '7', '9', 'b', 'd', 'f'].contains (compact.getD 1 '0')

def octetPairs : List Char → List (List Char)
  | first :: second :: rest => [first, second] :: octetPairs rest
  | _ => []

def normalizePxeMac (value : String) : String :=
  match compactMac (cleanMac value) with
  | none => ""
  | some compact =>
    if isReserved compact || isGroupAddress compact then ""
    else String.ofList (['0', '1', '-'] ++ ['-'].intercalate (octetPairs compact))

theorem lower_hex_kept {c : Char} (digit : isLowerHex c = true) :
    isWhitespace c = false ∧ c ≠ '-' ∧ c ≠ ':' ∧ c.toLower = c := by
  have small : ∀ code < 0x67, isLowerHex (Char.ofNat code) = true →
      isWhitespace (Char.ofNat code) = false ∧ Char.ofNat code ≠ '-' ∧ Char.ofNat code ≠ ':' ∧
        (Char.ofNat code).toLower = Char.ofNat code := by
    decide
  have bound : c.toNat < 0x67 := by
    simp only [isLowerHex, Bool.or_eq_true, Bool.and_eq_true, decide_eq_true_eq] at digit
    omega
  have known := small c.toNat bound
  rw [Char.ofNat_toNat] at known
  exact known digit

/-- The characters of an address are twelve digits in pairs. -/
theorem is_mac_shape {text : List Char} (mac : isMac text = true) :
    ∃ a b c d e f g h i j k l, text =
      [a, b, ':', c, d, ':', e, f, ':', g, h, ':', i, j, ':', k, l] ∧
        ∀ digit ∈ [a, b, c, d, e, f, g, h, i, j, k, l], isLowerHex digit = true := by
  unfold isMac at mac
  split at mac
  · exact ⟨_, _, _, _, _, _, _, _, _, _, _, _, rfl, List.all_eq_true.mp mac⟩
  · cases mac

theorem clean_mac_of_is_mac {text : List Char} (mac : isMac text = true) :
    cleanMac (String.ofList text) = text := by
  obtain ⟨a, b, c, d, e, f, g, h, i, j, k, l, shape, digits⟩ := is_mac_shape mac
  have characters : ∀ c ∈ text, isWhitespace c = false ∧ c ≠ '-' ∧ c.toLower = c := by
    intro c inside
    by_cases separator : c = ':'
    · subst separator
      decide
    · have digit : isLowerHex c = true := by
        refine digits c ?_
        rw [shape] at inside
        simp only [List.mem_cons, separator, false_or, List.not_mem_nil, or_false] at inside ⊢
        exact inside
      obtain ⟨blank, dash, -, lower⟩ := lower_hex_kept digit
      exact ⟨blank, dash, lower⟩
  rw [cleanMac, String.toList_ofList, strip_plain fun c inside => (characters c inside).1]
  refine (List.map_congr_left fun c inside => ?_).trans (List.map_id text)
  obtain ⟨-, dash, lower⟩ := characters c inside
  simp [dash, lower]

theorem normalize_mac_ok {value mac : String} (normalized : normalizeMac value = .ok mac)
    (nonempty : mac ≠ "") :
    cleanMac value = mac.toList ∧ isMac mac.toList = true := by
  unfold normalizeMac at normalized
  simp only at normalized
  split_ifs at normalized with blank shape reserved
  · cases normalized
    exact absurd rfl nonempty
  · cases normalized
    exact ⟨String.toList_ofList.symm, by simpa using shape⟩

/-- The key depends on the normal form only. -/
theorem normalize_pxe_mac_normalized {value mac : String}
    (normalized : normalizeMac value = .ok mac) : normalizePxeMac mac = normalizePxeMac value := by
  by_cases empty : mac = ""
  · subst empty
    unfold normalizeMac at normalized
    simp only at normalized
    split_ifs at normalized with blank shape reserved
    · rw [normalizePxeMac, normalizePxeMac, blank]
      rfl
    · have none : cleanMac value = [] := by
        simpa using congrArg String.toList (Except.ok.inj normalized)
      exact absurd none blank
  · obtain ⟨clean, shape⟩ := normalize_mac_ok normalized empty
    have again : cleanMac mac = mac.toList := by
      simpa using clean_mac_of_is_mac shape
    rw [normalizePxeMac, normalizePxeMac, again, clean]

theorem compact_of_is_mac {text : List Char} (mac : isMac text = true) :
    compactMac text = some (text.filter (· ≠ ':')) := by
  obtain ⟨a, b, c, d, e, f, g, h, i, j, k, l, rfl, -⟩ := is_mac_shape mac
  have short : isMac ([a, b, ':', c, d, ':', e, f, ':', g, h, ':', i, j, ':', k, l].drop 3) =
      false := rfl
  simp only [compactMac, short, Bool.false_eq_true, and_false, if_false, mac, if_true]

/-- An address has one key, and the key of a usable address no other address. -/
theorem normalize_pxe_mac_injective {first second left right : String}
    (one : normalizeMac left = .ok first) (two : normalizeMac right = .ok second)
    (same : normalizePxeMac first = normalizePxeMac second) (usable : normalizePxeMac first ≠ "") :
    first = second := by
  have filled : ∀ {value mac : String}, normalizeMac value = .ok mac → normalizePxeMac mac ≠ "" →
      isMac mac.toList = true := by
    intro value mac normalized nonempty
    refine (normalize_mac_ok normalized ?_).2
    rintro rfl
    exact nonempty rfl
  have written : ∀ mac : String, isMac mac.toList = true → normalizePxeMac mac ≠ "" →
      (normalizePxeMac mac).toList = ['0', '1', '-'] ++
        ['-'].intercalate (octetPairs (mac.toList.filter (· ≠ ':'))) := by
    intro mac shape nonempty
    have clean : cleanMac mac = mac.toList := by simpa using clean_mac_of_is_mac shape
    unfold normalizePxeMac at nonempty ⊢
    rw [clean, compact_of_is_mac shape] at nonempty ⊢
    simp only at nonempty ⊢
    split_ifs at nonempty ⊢
    · exact absurd rfl nonempty
    · exact String.toList_ofList
  have shapeOne := filled one usable
  have shapeTwo := filled two (same ▸ usable)
  have texts := (written first shapeOne usable).symm.trans
    ((congrArg String.toList same).trans (written second shapeTwo (same ▸ usable)))
  obtain ⟨a, b, c, d, e, f, g, h, i, j, k, l, left, leftDigits⟩ := is_mac_shape shapeOne
  obtain ⟨a', b', c', d', e', f', g', h', i', j', k', l', right, rightDigits⟩ :=
    is_mac_shape shapeTwo
  have plain : ∀ digits : List Char, (∀ digit ∈ digits, isLowerHex digit = true) →
      ∀ digit ∈ digits, digit ≠ ':' :=
    fun digits all digit inside => (lower_hex_kept (all digit inside)).2.2.1
  have leftPlain := plain _ leftDigits
  have rightPlain := plain _ rightDigits
  simp only [List.forall_mem_cons, List.not_mem_nil, false_implies, implies_true,
    and_true] at leftPlain rightPlain
  apply String.ext
  rw [left, right] at texts ⊢
  simpa [leftPlain, rightPlain, octetPairs, List.intercalate, List.intersperse] using texts

/-! ### The applied manifest -/

structure Boot where
  consoleAuthorizationRequired : Option Bool
  deriving DecidableEq, Repr

def Boot.required (boot : Boot) : Bool := boot.consoleAuthorizationRequired.getD true

/-- Rows of the manifest; an identifier that is no integer is `none`. -/
structure AppliedHost where
  id : Option Int
  enabled : Bool
  (hostname macAddress ipAddress : String)
  kickstartId : Option Int
  installerIsoPath : String
  hostVariables : List (String × String)
  deriving DecidableEq, Repr

structure AppliedArtifact where
  hostId : Option Int
  isDefault : Bool
  kickstartId : Option Int
  (macKey imageHttpUrl : String)
  deriving DecidableEq, Repr

structure AppliedKickstart where
  id : Option Int
  enabled : Bool
  (content contentHash : String)
  deriving DecidableEq, Repr

structure Manifest where
  boot : Boot
  hosts : List AppliedHost
  artifacts : List AppliedArtifact
  kickstarts : List AppliedKickstart
  deriving DecidableEq, Repr

/-- The saved Host Reference; `hostVariables` is what `host_variables` reads from it. -/
structure EsxiPxeHost where
  enabled : Bool
  (hostname macAddress ipAddress : String)
  kickstartId : Option Int
  installerIsoPath : String
  hostVariables : List (String × String)
  deriving DecidableEq, Repr

/-- What `urllib.parse.urlsplit` says of an address; reading an invalid port raises. -/
structure SplitUrl where
  (scheme hostname username password : String)
  port : Except String (Option Nat)

/-- Digests and text functions of Python. `signature key message` is the unpadded URL-safe
Base64 text of the HMAC-SHA-256. -/
structure Platform where
  sha256 : String → String
  signature : String → String → String
  lower : String → String
  urlsplit : String → Except String SplitUrl
  secretKey : String

variable (platform : Platform)

def artifactListenerOrigin (artifact : AppliedArtifact) : Except String String := do
  let parsed ← platform.urlsplit artifact.imageHttpUrl
  if parsed.scheme ≠ "http" ∨ parsed.hostname = "" ∨ parsed.username ≠ "" ∨
      parsed.password ≠ "" then
    .error "Applied ESXi listener binding is invalid."
  else
    let port ← parsed.port
    let host :=
      if parsed.hostname.toList.contains ':' then "[" ++ parsed.hostname ++ "]"
      else parsed.hostname
    .ok ("http://" ++ platform.lower host ++ ":" ++ toString ((port.filter (· ≠ 0)).getD 80))

def sameItems (left right : List (String × String)) : Bool :=
  left.all right.contains && right.all left.contains

/-- The saved row exists and is the applied one. -/
def isApplied (current : Option EsxiPxeHost) (host : AppliedHost) : Except String Bool :=
  match current with
  | none => .ok false
  | some current =>
    if current.enabled = false ∨ current.hostname ≠ host.hostname then .ok false
    else do
      let mac ← normalizeMac current.macAddress
      let applied ← normalizeMac host.macAddress
      .ok (mac = applied && current.ipAddress = host.ipAddress &&
        current.kickstartId = host.kickstartId &&
          current.installerIsoPath = host.installerIsoPath &&
            sameItems current.hostVariables host.hostVariables)

structure Context where
  host : AppliedHost
  artifact : AppliedArtifact
  kickstart : AppliedKickstart
  boot : Boot
  deriving DecidableEq, Repr

def isRevision (text : String) : Bool := text.toList.length = 64 && text.toList.all isLowerHex

def appliedKickstart (manifest : Manifest) (host : AppliedHost) (artifact : AppliedArtifact) :
    Except String AppliedKickstart :=
  match manifest.kickstarts.find? (fun kickstart =>
    kickstart.enabled ∧ kickstart.id.isSome ∧ kickstart.id = host.kickstartId) with
  | none => .error "Applied ESXi Kickstart state is unavailable."
  | some kickstart =>
    let revision := platform.lower kickstart.contentHash
    if artifact.kickstartId ≠ host.kickstartId then
      .error "Applied ESXi Kickstart state is unavailable."
    else if isRevision revision ∧ platform.sha256 kickstart.content = revision then .ok kickstart
    else .error "Applied ESXi Kickstart revision is invalid."

def hostContext (manifest : Manifest) (current : Option EsxiPxeHost) (host : AppliedHost)
    (artifact : AppliedArtifact) : Except String Context := do
  let same ← isApplied current host
  if same = false then
    .error ("The ESXi Host Reference differs from applied state; " ++
      "review and apply it before authorizing boot.")
  else
    let kickstart ← appliedKickstart platform manifest host artifact
    let mac ← normalizeMac host.macAddress
    if normalizePxeMac mac ≠ artifact.macKey then
      .error "Applied ESXi host binding is invalid."
    else .ok ⟨host, artifact, kickstart, manifest.boot⟩

def appliedEsxiBootContext (applied : Option Manifest) (current : Option EsxiPxeHost)
    (hostId : Int) : Except String Context :=
  match applied with
  | none => .error "Applied ESXi Network Boot state is unavailable."
  | some manifest =>
    match manifest.hosts.find? (fun host => host.id = some hostId),
      manifest.artifacts.find? (fun artifact =>
        artifact.isDefault = false ∧ artifact.hostId = some hostId) with
    | some host, some artifact =>
      if host.enabled = false then
        .error "Enabled applied ESXi host state is unavailable."
      else hostContext platform manifest current host artifact
    | _, _ => .error "Enabled applied ESXi host state is unavailable."

variable {platform}

structure Describes (manifest : Manifest) (hostId : Int) (context : Context) : Prop where
  host : context.host ∈ manifest.hosts
  identified : context.host.id = some hostId
  enabled : context.host.enabled = true
  artifact : context.artifact ∈ manifest.artifacts
  artifactHost : context.artifact.hostId = some hostId
  kickstart : context.kickstart ∈ manifest.kickstarts
  kickstartId : context.kickstart.id = context.host.kickstartId
  numbered : context.kickstart.id.isSome
  boot : context.boot = manifest.boot
  mac : ∃ mac, normalizeMac context.host.macAddress = .ok mac

theorem applied_kickstart_found {manifest : Manifest} {host : AppliedHost}
    {artifact : AppliedArtifact} {kickstart : AppliedKickstart}
    (found : appliedKickstart platform manifest host artifact = .ok kickstart) :
    kickstart ∈ manifest.kickstarts ∧ kickstart.id.isSome ∧ kickstart.id = host.kickstartId := by
  unfold appliedKickstart at found
  split at found
  · cases found
  · rename_i row rowFound
    simp only at found
    split_ifs at found
    cases found
    have matching := List.find?_some rowFound
    simp only [decide_eq_true_eq] at matching
    exact ⟨List.mem_of_find?_eq_some rowFound, matching.2⟩

theorem context_describes {applied : Option Manifest} {current : Option EsxiPxeHost}
    {hostId : Int} {context : Context}
    (found : appliedEsxiBootContext platform applied current hostId = .ok context) :
    ∃ manifest, applied = some manifest ∧ Describes manifest hostId context := by
  unfold appliedEsxiBootContext at found
  cases applied with
  | none => cases found
  | some manifest =>
    refine ⟨manifest, rfl, ?_⟩
    simp only at found
    split at found
    · rename_i host artifact hostFound artifactFound
      split_ifs at found with disabled
      obtain ⟨same, -, found⟩ := bind_ok_iff.mp found
      split_ifs at found
      obtain ⟨kickstart, kickstartFound, found⟩ := bind_ok_iff.mp found
      obtain ⟨mac, normalized, found⟩ := bind_ok_iff.mp found
      split_ifs at found
      cases found
      obtain ⟨inside, numbered, kickstartId⟩ := applied_kickstart_found kickstartFound
      have ownArtifact := List.find?_some artifactFound
      simp only [decide_eq_true_eq] at ownArtifact
      exact {
        host := List.mem_of_find?_eq_some hostFound
        identified := by simpa using List.find?_some hostFound
        enabled := by simpa using disabled
        artifact := List.mem_of_find?_eq_some artifactFound
        artifactHost := ownArtifact.2
        kickstart := inside
        kickstartId := kickstartId
        numbered := numbered
        boot := rfl
        mac := ⟨mac, normalized⟩ }
    · cases found

end Atlaso.NetworkBoot.AppliedBoot
