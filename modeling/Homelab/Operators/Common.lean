import Homelab.Api.Server

namespace Homelab

open Json (Object)

/-! # Shared API and SSH primitives of the operators -/

/-- What an executor finds in its surroundings: `os.environ`, its private
temporary directory, its checkout and the hash functions it uses. -/
structure Environment where
  environ : List (String × String)
  directory : String
  checkout : String
  recursionLimit : Nat
  sha256 : List UInt8 → String
  digest : Json → String

def Environment.lookup (env : Environment) (name : String) : Except Exn String :=
  match env.environ.find? (fun entry => entry.1 == name) with
  | some entry => .ok entry.2
  | none => .error (keyError name)

def Environment.lookupOr (env : Environment) (name default : String) : String :=
  match env.lookup name with
  | .ok value => value
  | .error _ => default

/-! ## Boundary values -/

def jsonObject (value : Json) (context : String) : Except Exn Object :=
  match value with
  | .obj fields => .ok fields
  | _ => .error (.error "ValueError" (context ++ " must be a JSON mapping"))

def jsonString (value : Json) (context : String) : Except Exn String :=
  match value with
  | .str text => .ok text
  | _ => .error (.error "ValueError" (context ++ " must be a string"))

theorem jsonObject_ok {document : Json} {context : String} {fields : Object}
    (read : jsonObject document context = .ok fields) : document = .obj fields := by
  cases document with
  | obj found =>
      cases read
      rfl
  | _ => cases read

theorem jsonString_ok {document : Json} {context text : String}
    (read : jsonString document context = .ok text) : document = .str text := by
  cases document with
  | str found =>
      cases read
      rfl
  | _ => cases read

/-! ## Texts -/

/-- A statement about the characters of a text is decided along the text, not over all characters. -/
instance (priority := high) textDecidable {holds : Char → Prop} [DecidablePred holds] (text : List Char) :
    Decidable (∀ char ∈ text, holds char) :=
  List.decidableBAll holds text

def isAlphanumeric (char : Char) : Bool := char.isAlpha || char.isDigit

/-- `re.fullmatch` of one or more characters of a class. -/
def fullmatchPlus (allowed : Char → Bool) (text : String) : Bool :=
  text ≠ "" && text.toList.all allowed

/-- `char.isspace()` -/
def isWhitespace (char : Char) : Bool :=
  let code := char.toNat
  (9 ≤ code && code ≤ 13) || (28 ≤ code && code ≤ 32) || code == 133 || code == 160 || code == 5760 ||
    (8192 ≤ code && code ≤ 8202) || code == 8232 || code == 8233 || code == 8239 || code == 8287 || code == 12288

/-- The nonempty fields between runs of whitespace. -/
def fieldsOf : List Char → List Char → List String
  | [], [] => []
  | [], word => [String.ofList word.reverse]
  | char :: rest, word =>
      if isWhitespace char then
        if word.isEmpty then fieldsOf rest [] else String.ofList word.reverse :: fieldsOf rest []
      else fieldsOf rest (char :: word)

def splitFields (text : String) : List String := fieldsOf text.toList []

/-- The first field ends at the first blank. -/
theorem fieldsOf_word {word rest : List Char} {blank : Char} (plain : ∀ char ∈ word, isWhitespace char = false)
    (isBlank : isWhitespace blank = true) (read : List Char) (nonempty : read ≠ [] ∨ word ≠ []) :
    fieldsOf (word ++ blank :: rest) read = String.ofList (read.reverse ++ word) :: fieldsOf rest [] := by
  induction word generalizing read with
  | nil =>
      have some' : read.isEmpty = false := by simpa using nonempty
      rw [List.nil_append, fieldsOf, if_pos isBlank, some', List.append_nil]
      rfl
  | cons char word ih =>
      obtain ⟨first, others⟩ := List.forall_mem_cons.mp plain
      rw [List.cons_append, fieldsOf, if_neg (by simp [first]), ih others _ (.inl (by simp))]
      simp

/-- `text.strip()` -/
def strip (text : String) : String :=
  String.ofList (((text.toList.dropWhile isWhitespace).reverse.dropWhile isWhitespace).reverse)

/-- Replace a nonempty part from left to right, after `skip` more characters. -/
def replaceFrom (part replacement : List Char) : Nat → List Char → List Char
  | _, [] => []
  | skip + 1, _ :: rest => replaceFrom part replacement skip rest
  | 0, char :: rest =>
      if part.isPrefixOf (char :: rest) then
        replacement ++ replaceFrom part replacement (part.length - 1) rest
      else char :: replaceFrom part replacement 0 rest

/-- `text.replace(part, replacement)` -/
def replaceText (part replacement text : String) : String :=
  String.ofList (replaceFrom part.toList replacement.toList 0 text.toList)

def safeShellCharacter (char : Char) : Bool :=
  isAlphanumeric char || "_@%+=:,./-".toList.contains char

/-- Quote one argument for a POSIX shell. -/
def shlexQuote (text : String) : String :=
  if text = "" then "''"
  else if text.toList.all safeShellCharacter then text
  else "'" ++ replaceText "'" "'\"'\"'" text ++ "'"

def shlexJoin (arguments : List String) : String := " ".intercalate (arguments.map shlexQuote)

/-! ## IP addresses -/

namespace IpAddress

def digitValue (char : Char) : Nat :=
  if char.isDigit then char.toNat - '0'.toNat
  else if 'a' ≤ char && char ≤ 'f' then char.toNat - 'a'.toNat + 10
  else char.toNat - 'A'.toNat + 10

def isHexDigit (char : Char) : Bool :=
  char.isDigit || ('a' ≤ char && char ≤ 'f') || ('A' ≤ char && char ≤ 'F')

def number (base : Nat) (text : String) : Nat :=
  text.toList.foldl (fun value char => base * value + digitValue char) 0

/-- Split at every occurrence of a separator; the result is never empty. -/
def splitAt (separator : Char) : List Char → List Char → List String
  | [], part => [String.ofList part.reverse]
  | char :: rest, part =>
      if char = separator then String.ofList part.reverse :: splitAt separator rest []
      else splitAt separator rest (char :: part)

def split (separator : Char) (text : String) : List String := splitAt separator text.toList []

def octet (text : String) : Option Nat := do
  guard (text ≠ "" && text.toList.all Char.isDigit && text.length ≤ 3)
  guard (text = "0" || !text.startsWith "0")
  guard (number 10 text ≤ 255)
  return number 10 text

def ipv4 (text : String) : Option (List Nat) := do
  let octets ← (split '.' text).mapM octet
  guard (octets.length = 4)
  return octets

def hextet (text : String) : Option Nat := do
  guard (text ≠ "" && text.toList.all isHexDigit && text.length ≤ 4)
  return number 16 text

/-- The last two hextets may be written as an IPv4 address. -/
def expandTail (parts : List String) : Option (List String) :=
  match parts.getLast? with
  | some last =>
      if last.toList.contains '.' then do
        let [a, b, c, d] ← ipv4 last | none
        let hex (value : Nat) := String.ofList (Nat.toDigits 16 value)
        return parts.dropLast ++ [hex (256 * a + b), hex (256 * c + d)]
      else some parts
  | none => none

def hextets (parts : List String) : Option (List Nat) := parts.mapM hextet

def trimEnds (parts : List String) : List String :=
  let front := if parts.head? = some "" then parts.drop 1 else parts
  if front.getLast? = some "" then front.dropLast else front

/-- The part of an address before and after its one `::`. -/
def ipv6Parts (parts : List String) : Option (List Nat) := do
  let inner := (parts.drop 1).dropLast
  guard (3 ≤ parts.length && parts.length ≤ 9)
  match inner.filter (· = "") with
  | [] =>
      guard (parts.length = 8)
      hextets parts
  | [_] =>
      let position := 1 + inner.findIdx (· = "")
      let before := parts.take position
      let after := parts.drop (position + 1)
      guard (before.head? ≠ some "" || before.length = 1)
      guard (after.getLast? ≠ some "" || after.length = 1)
      let high ← hextets (trimEnds before)
      let low ← hextets (trimEnds after)
      guard (high.length + low.length < 8)
      return high ++ List.replicate (8 - high.length - low.length) 0 ++ low
  | _ => none

def zeroRun : List Nat → Nat
  | 0 :: rest => zeroRun rest + 1
  | _ => 0

/-- Start and length of the first longest run of zero hextets. -/
def longestRun : Nat → List Nat → Nat × Nat
  | _, [] => (0, 0)
  | position, value :: rest =>
      let here := zeroRun (value :: rest)
      let later := longestRun (position + 1) rest
      if here ≠ 0 ∧ later.2 ≤ here then (position, here) else later

def showHextet (value : Nat) : String := String.ofList (Nat.toDigits 16 value)

def showIpv6 (values : List Nat) : String :=
  let (start, length) := longestRun 0 values
  if length ≤ 1 then ":".intercalate (values.map showHextet)
  else
    ":".intercalate ((values.take start).map showHextet) ++ "::" ++
      ":".intercalate ((values.drop (start + length)).map showHextet)

def ipv6 (text : String) : Option String :=
  match split '%' text with
  | [address] => do
      let values ← ipv6Parts (← expandTail (split ':' address))
      return showIpv6 values
  | [address, zone] => do
      guard (zone ≠ "")
      let values ← ipv6Parts (← expandTail (split ':' address))
      return showIpv6 values ++ "%" ++ zone
  | _ => none

end IpAddress

/-- Require a literal IP address, and normalize it. -/
def address (text : String) : Except Exn String :=
  match IpAddress.ipv4 text, IpAddress.ipv6 text with
  | some octets, _ => .ok (".".intercalate (octets.map toString))
  | none, some normal => .ok normal
  | none, none => .error (.error "ValueError" "does not appear to be an IPv4 or IPv6 address")

/-! ## Keys and trust -/

namespace Base64

def sextet (char : Char) : Option Nat :=
  if 'A' ≤ char ∧ char ≤ 'Z' then some (char.toNat - 'A'.toNat)
  else if 'a' ≤ char ∧ char ≤ 'z' then some (char.toNat - 'a'.toNat + 26)
  else if char.isDigit then some (char.toNat - '0'.toNat + 52)
  else if char = '+' then some 62
  else if char = '/' then some 63
  else none

/-- Decode padded text; unused bits of the last group must be zero. -/
def decodeGroups : List Char → Option (List UInt8)
  | [] => some []
  | [a, b, '=', '='] => do
      let high ← sextet a
      let low ← sextet b
      guard (low % 16 = 0)
      return [UInt8.ofNat (high * 4 + low / 16)]
  | [a, b, c, '='] => do
      let high ← sextet a
      let middle ← sextet b
      let low ← sextet c
      guard (low % 4 = 0)
      return [UInt8.ofNat (high * 4 + middle / 16), UInt8.ofNat (middle % 16 * 16 + low / 4)]
  | a :: b :: c :: d :: rest => do
      let first ← sextet a
      let second ← sextet b
      let third ← sextet c
      let fourth ← sextet d
      let tail ← decodeGroups rest
      return UInt8.ofNat (first * 4 + second / 16) :: UInt8.ofNat (second % 16 * 16 + third / 4) ::
        UInt8.ofNat (third % 4 * 64 + fourth) :: tail
  | _ => none

def decode (text : String) : Option (List UInt8) := decodeGroups text.toList

end Base64

def bytesOf (text : String) : List UInt8 := text.toList.map fun char => UInt8.ofNat char.toNat

def runtimeError (message : String) : Exn := .error "RuntimeError" message

/-- Validate and normalize an Ed25519 wire-format public key. -/
def publicKey (text : String) : Except Exn String :=
  match splitFields text with
  | "ssh-ed25519" :: encoded :: _ =>
      match Base64.decode encoded with
      | none => .error (.error "Error" "Invalid base64-encoded string")
      | some raw =>
          if raw.take 4 = [0, 0, 0, 11] ∧ (raw.drop 4).take 11 = bytesOf "ssh-ed25519" ∧
              (raw.drop 15).take 4 = [0, 0, 0, 32] ∧ raw.length = 51 then
            .ok ("ssh-ed25519 " ++ encoded)
          else .error (runtimeError "Invalid Ed25519 host key encoding")
  | _ => .error (runtimeError "An Ed25519 host key is required")

/-- The OpenSSH fingerprint of a validated public key. -/
def fingerprint (env : Environment) (text : String) : Except Exn String := do
  let key ← publicKey text
  match splitFields key with
  | [_, encoded] => return "SHA256:" ++ env.sha256 ((Base64.decode encoded).getD [])
  | _ => throw (.error "IndexError" "list index out of range")

/-- Bind SSH trust to a Server UID rather than a reusable IP or name. -/
def hostAlias (uid : String) : Except Exn String :=
  if fullmatchPlus (fun char => isAlphanumeric char || char == '-') uid then .ok ("server-" ++ uid)
  else .error (runtimeError "Invalid Server UID")

/-- The optional management address of a Server. -/
def managementAddress (status : Object) : Except Exn (Option String) := do
  let mapping (parent : Object) (field context : String) : Except Exn Object :=
    match parent.get? field with
    | none => .ok []
    | some (.obj fields) => .ok fields
    | some _ => .error (.error "ValueError" (context ++ " must be a JSON mapping"))
  let networking ← mapping status "networking" "networking"
  let management ← mapping networking "management" "management"
  let endpoint ← mapping management "address" "management address"
  match endpoint.get? "address" with
  | none => return none
  | some .null => return none
  | some (.str text) => return some text
  | some _ => throw (.error "ValueError" "management IP must be a string")

/-- Strict, non-forwarding SSH options for exactly one Server identity. -/
def sshArgs (env : Environment) (uid knownHosts checking : String) : Except Exn (List String) := do
  let hostKeyAlias ← hostAlias uid
  let certificate ← env.lookup "ANSIBLE_CERTIFICATE_FILE"
  let identity ← env.lookup "ANSIBLE_PRIVATE_KEY_FILE"
  return ["-o", "BatchMode=yes", "-o", "ConnectTimeout=15", "-o", "ConnectionAttempts=1", "-o",
    "IdentitiesOnly=yes", "-o", "IdentityAgent=none", "-o", "ForwardAgent=no", "-o",
    "UpdateHostKeys=no", "-o", "HashKnownHosts=no", "-o", "HostKeyAlgorithms=ssh-ed25519", "-o",
    "GlobalKnownHostsFile=/dev/null", "-o", "StrictHostKeyChecking=" ++ checking, "-o",
    "UserKnownHostsFile=" ++ knownHosts, "-o", "HostKeyAlias=" ++ hostKeyAlias, "-o",
    "CertificateFile=" ++ certificate, "-i", identity]

def sshSession (env : Environment) (uid host : String) (known : KnownHosts) (checking : String) :
    Except Exn Session := do
  return { arguments := ← sshArgs env uid known.path checking, host, known }

def isInfix (part : List Char) : List Char → Bool
  | [] => part.isEmpty
  | char :: rest => part.isPrefixOf (char :: rest) || isInfix part rest

/-- `part in text` -/
def occursIn (part text : String) : Bool := isInfix part.toList text.toList

/-- Authenticate one connection; returns the known_hosts file it leaves. -/
def sshProbe (env : Environment) (uid host : String) (known : KnownHosts)
    (checking : String := "yes") : Task KnownHosts := do
  let literal ← address host
  let session ← sshSession env uid literal known checking
  let login : Login ← Host.run (.login session)
  if login.returncode = 0 then return { known with content := login.known }
  else if occursIn "Host key verification failed" login.stderr ||
      occursIn "REMOTE HOST IDENTIFICATION HAS CHANGED" login.stderr then
    throw (.operator "HostIdentityMismatch"
      "SSH host identity changed; explicit recovery or reenrollment is required")
  else if occursIn "Permission denied" login.stderr then
    throw (.operator "ManagementAuthenticationFailed"
      "SSH management certificate authentication failed")
  else
    throw (.operator "SSHConnectionFailed"
      "SSH identity/authentication verification failed or the target is unreachable")

/-! ## Commands -/

/-- Kill the local process group of an interrupted command, then raise again. -/
def abandonCommand (failure : Exn) : Task Int := do
  tryCatch (Host.run .killGroup : Task Unit) fun
    | .os .processLookup => pure ()
    | other => throw other
  (Host.run .reap : Task Unit)
  throw failure

/-- Execute argv without a shell, with output copied into a private log.
`files` are the private documents that argv names. -/
def runCommand (argv : List String) (files : List (String × Json)) (diagnostic : String)
    (timeout : Nat) : Task Completed := do
  (Host.run (.writeText diagnostic "") : Task Unit)
  (Host.run (.spawn argv files) : Task Unit)
  (Host.run .startReader : Task Unit)
  let returncode ← tryCatch (Host.run (.wait timeout) : Task Int) abandonCommand
  let stdout : String ← (Host.run (.readText diagnostic) : Task String)
  return { returncode, stdout }

/-- Run Ansible with its standard output callback. -/
def runAnsible (argv : List String) (files : List (String × Json)) (diagnostic : String)
    (timeout : Nat) : Task Completed :=
  runCommand argv files diagnostic timeout

/-- `subprocess.check_output` of a program that must succeed. -/
def checkOutput (argv : List String) : Task String := do
  let completed : Completed ← (Host.run (.subprocess argv) : Task Completed)
  demand (completed.returncode = 0) .calledProcess
  return completed.stdout

/-! ## Inventories -/

def hostEntries (inventory : Object) : Except Exn (List (String × Json)) := do
  let groups ← inventory.mapM fun entry => do
    let group ← asObject entry.2
    member group "hosts"
  return groups.flatten

/-- Collect raw host variables, rejecting ambiguous management addresses. -/
def collectHosts : List (String × Json) → List (String × Object) → Except Exn (List (String × Object))
  | [], result => .ok result
  | (name, entry) :: rest, result => do
      let hostVars ← asObject entry
      match result.find? (fun known => known.1 == name) with
      | none => collectHosts rest (result ++ [(name, hostVars)])
      | some (_, known) =>
          demand (Json.Same (value known "ansible_host") (value hostVars "ansible_host"))
            (runtimeError "Conflicting inventory addresses")
          collectHosts rest (result.map fun entry =>
            if entry.1 = name then (name, entry.2.update hostVars) else entry)

def inventoryHosts (inventory : Object) : Except Exn (List (String × Object)) := do
  collectHosts (← hostEntries inventory) []

/-- Let Ansible resolve group inheritance and host-variable precedence. -/
def resolvedInventoryHosts (env : Environment) (inventory : Object) :
    Task (List (String × Object)) := do
  (Host.run (.writeJson (env.directory ++ "/operator-inventory/inventory.json") (.obj inventory)) : Task Unit)
  let output : Json ← (Host.run (.ansibleInventory (.obj inventory)) : Task Json)
  let document ← asObject output
  let facts ← itemObject document "_meta"
  let resolved ← itemObject facts "hostvars"
  let names ← inventoryHosts inventory
  let hosts ← (names.mapM fun entry => do
    let hostVars ← itemObject resolved entry.1
    return (entry.1, hostVars) : Except Exn (List (String × Object)))
  return hosts

def optionalInt (value : Option Int) : Json :=
  match value with
  | some value => .int value
  | none => .null

/-- `metadata["generation"]` -/
def generation (resource : Resource) : Except Exn Int :=
  match resource.metadata.generation with
  | some value => .ok value
  | none => .error (keyError "generation")

/-- Read the selected group's usable inventory; reject missing state. -/
def captureInventory (name : String) : Task (Resource × Object) := do
  let group ← Api.get .inventoryCaptureGroup name
  demand (!group.terminating) (runtimeError "Inventory capture group is terminating")
  let current ← generation group
  demand (Json.Same (value group.status "observedGeneration") (.int current))
    (runtimeError "Inventory capture group has not reconciled its current generation")
  match group.status.get? "inventory" with
  | some (.obj inventory) => return (group, inventory)
  | _ => throw (runtimeError "Inventory capture group has no resolved inventory")

end Homelab
