import Homelab.Operators.Base64
import Homelab.Operators.Configurations.Transport

namespace Homelab.RunnerTrust

open Json (Object)
open Interaction (Op Program)
open Provisioning (linesOf member_ok)
open Configurations (sshOption sshArgs_options)

/-! # The trusted hosts as a known_hosts file -/

/-- The fields of every line that is neither blank nor a comment. -/
def parseKnownHosts (text : String) : List (List String) :=
  ((linesOf text.toList []).map fun line => splitFields (String.ofList line)).filter fun fields =>
    fields.head?.any fun first => first.toList.head? ≠ some '#'

/-- The wire encoding of an Ed25519 key. -/
def wire (key : List UInt8) : List UInt8 := [0, 0, 0, 11] ++ bytesOf "ssh-ed25519" ++ [0, 0, 0, 32] ++ key

/-- The only text that decodes to the key. -/
def blobOf (key : List UInt8) : String := String.ofList (Base64.encodeGroups (wire key))

/-- The text is of this key, whatever its comment. -/
def EncodesKey (text : String) (key : List UInt8) : Prop :=
  ∃ blob comment, splitFields text = "ssh-ed25519" :: blob :: comment ∧ Base64.decode blob = some (wire key)

/-! ## Public keys -/

section PublicKeys

variable {text normal left right : String} {key raw : List UInt8}

theorem wire_length (sized : key.length = 32) : (wire key).length = 51 := by
  simp [wire, bytesOf, sized]

theorem wire_inj {other : List UInt8} (same : wire key = wire other) : key = other :=
  List.append_cancel_left same

/-- What the checks of the wire format accept. -/
theorem wire_ok (algorithmLength : raw.take 4 = [0, 0, 0, 11]) (algorithm : (raw.drop 4).take 11 = bytesOf "ssh-ed25519")
    (keyLength : (raw.drop 15).take 4 = [0, 0, 0, 32]) (sized : raw.length = 51) :
    raw = wire (raw.drop 19) ∧ (raw.drop 19).length = 32 := by
  constructor
  · have first := List.take_append_drop 4 raw
    have second := List.take_append_drop 11 (raw.drop 4)
    have third := List.take_append_drop 4 (raw.drop 15)
    rw [List.drop_drop] at second third
    rw [algorithmLength, ← second, algorithm, ← third, keyLength] at first
    exact first.symm.trans (by simp only [wire, List.append_assoc])
  · rw [List.length_drop, sized]

theorem blob_plain : ∀ char ∈ (blobOf key).toList, isWhitespace char = false := by
  intro char listed
  rw [blobOf, String.toList_ofList] at listed
  have range := Base64.encodeGroups_range listed
  cases blank : isWhitespace char with
  | false => rfl
  | true =>
      simp only [isWhitespace, Bool.or_eq_true, Bool.and_eq_true, beq_iff_eq, decide_eq_true_eq] at blank
      omega

theorem blob_decodes (key : List UInt8) : Base64.decode (blobOf key) = some (wire key) := by
  rw [Base64.decode, blobOf, String.toList_ofList, Base64.decode_encode]

theorem blob_unique {blob : String} (decoded : Base64.decode blob = some (wire key)) : blob = blobOf key :=
  Base64.decode_inj decoded (blob_decodes key)

theorem blob_ne_nil (key : List UInt8) : (blobOf key).toList ≠ [] := by
  intro empty
  have decoded := blob_decodes key
  rw [Base64.decode, empty] at decoded
  cases decoded

/-- A word ends a text. -/
theorem fieldsOf_last {word : List Char} (plain : ∀ char ∈ word, isWhitespace char = false) (read : List Char)
    (nonempty : read ≠ [] ∨ word ≠ []) : fieldsOf word read = [String.ofList (read.reverse ++ word)] := by
  induction word generalizing read with
  | nil =>
      cases read with
      | nil => simp at nonempty
      | cons char read =>
          rw [List.append_nil]
          rfl
  | cons char word ih =>
      obtain ⟨first, others⟩ := List.forall_mem_cons.mp plain
      rw [fieldsOf, if_neg (by simp [first]), ih others _ (.inl (by simp))]
      simp

theorem algorithm_plain : ∀ char ∈ "ssh-ed25519".toList, isWhitespace char = false := by decide

theorem splitFields_key (key : List UInt8) : splitFields ("ssh-ed25519 " ++ blobOf key) = ["ssh-ed25519", blobOf key] := by
  have text : ("ssh-ed25519 " ++ blobOf key).toList = "ssh-ed25519".toList ++ ' ' :: (blobOf key).toList := by
    rw [String.toList_append]
    rfl
  rw [splitFields, text, fieldsOf_word algorithm_plain (by decide) [] (.inr (by decide)),
    fieldsOf_last blob_plain [] (.inr (blob_ne_nil key))]
  simp

theorem publicKey_ok (accepted : publicKey text = .ok normal) :
    ∃ key : List UInt8, key.length = 32 ∧ EncodesKey text key ∧ normal = "ssh-ed25519 " ++ blobOf key := by
  unfold publicKey at accepted
  split at accepted
  · rename_i blob comment fields
    split at accepted
    · cases accepted
    · rename_i raw decoded
      split at accepted
      · rename_i shaped
        obtain ⟨algorithmLength, algorithm, keyLength, sized⟩ := shaped
        obtain ⟨encoded, keySized⟩ := wire_ok algorithmLength algorithm keyLength sized
        rw [encoded] at decoded
        rw [blob_unique decoded] at accepted
        exact ⟨raw.drop 19, keySized, ⟨blob, comment, fields, decoded⟩, (Except.ok.inj accepted).symm⟩
      · cases accepted
  · cases accepted

theorem publicKey_key (sized : key.length = 32) :
    publicKey ("ssh-ed25519 " ++ blobOf key) = .ok ("ssh-ed25519 " ++ blobOf key) := by
  have shaped : (wire key).take 4 = [0, 0, 0, 11] ∧ ((wire key).drop 4).take 11 = bytesOf "ssh-ed25519" ∧
      ((wire key).drop 15).take 4 = [0, 0, 0, 32] ∧ (wire key).length = 51 :=
    ⟨rfl, rfl, rfl, wire_length sized⟩
  rw [publicKey, splitFields_key]
  simp only [blob_decodes]
  rw [if_pos shaped]

theorem publicKey_idempotent (accepted : publicKey text = .ok normal) : publicKey normal = .ok normal := by
  obtain ⟨key, sized, _, rfl⟩ := publicKey_ok accepted
  exact publicKey_key sized

theorem encodesKey_unique {other : List UInt8} (first : EncodesKey text key) (second : EncodesKey text other) :
    key = other := by
  obtain ⟨blob, comment, fields, decoded⟩ := first
  obtain ⟨blob', comment', fields', decoded'⟩ := second
  cases fields.symm.trans fields'
  exact wire_inj (Option.some.inj (decoded.symm.trans decoded'))

/-- Accepted texts have one normal form exactly when they are of one key. -/
theorem publicKey_same {first second : String} (accepted : publicKey left = .ok first)
    (accepted' : publicKey right = .ok second) :
    first = second ↔ ∃ key, EncodesKey left key ∧ EncodesKey right key := by
  obtain ⟨key, _, encodes, rfl⟩ := publicKey_ok accepted
  obtain ⟨key', _, encodes', rfl⟩ := publicKey_ok accepted'
  constructor
  · intro same
    have blobs : blobOf key = blobOf key' := by
      apply String.toList_inj.mp
      have chars := congrArg String.toList same
      rw [String.toList_append, String.toList_append] at chars
      exact List.append_cancel_left chars
    have keys : key = key' := by
      have decoded := blob_decodes key
      rw [blobs, blob_decodes] at decoded
      exact wire_inj (Option.some.inj decoded).symm
    exact ⟨key, encodes, keys ▸ encodes'⟩
  · intro ⟨shared, isLeft, isRight⟩
    rw [encodesKey_unique encodes isLeft, encodesKey_unique encodes' isRight]

end PublicKeys

/-! ## Entries -/

/-- A line of three fields, for one Server and its managed key. -/
structure TrustedEntry (env : Environment) (server : Resource) (fields : List String) : Prop where
  key : ∃ key : List UInt8, key.length = 32 ∧ fields = ["server-" ++ server.uid, "ssh-ed25519", blobOf key] ∧
    Base64.decode (blobOf key) = some (wire key) ∧
    value (value server.status "hostSSH").fields "fingerprint" = .str ("SHA256:" ++ env.sha256 (wire key)) ∧
    value (value server.status "hostSSH").fields "installedFingerprint" = .str ("SHA256:" ++ env.sha256 (wire key))
  plain : ∀ field ∈ fields, field ≠ "" ∧ ∀ char ∈ field.toList, isWhitespace char = false
  hostKeyAlias : ∀ environment uid known checking arguments, sshArgs environment uid known checking = .ok arguments →
    (sshOption "HostKeyAlias" arguments = fields.head? ↔ uid = server.uid)

section Entries

variable {env : Environment} {name uid : String} {server : Resource}

theorem hostAlias_ok {hostKeyAlias : String} (accepted : hostAlias uid = .ok hostKeyAlias) :
    hostKeyAlias = "server-" ++ uid ∧ ∀ char ∈ uid.toList, (isAlphanumeric char || char == '-') = true := by
  unfold hostAlias at accepted
  split at accepted
  · rename_i plain
    rw [fullmatchPlus, Bool.and_eq_true] at plain
    exact ⟨(Except.ok.inj accepted).symm, List.all_eq_true.mp plain.2⟩
  · cases accepted

theorem alphanumeric_plain {char : Char} (allowed : (isAlphanumeric char || char == '-') = true) :
    isWhitespace char = false ∧ char ≠ '#' := by
  have range : 45 ≤ char.toNat ∧ char.toNat ≤ 122 := by
    have letters : isAlphanumeric char = (char.isUpper || char.isLower || char.isDigit) := rfl
    rw [letters, Bool.or_eq_true, Bool.or_eq_true, Bool.or_eq_true] at allowed
    obtain ((upper | lower) | digit) | hyphen := allowed
    · have bounds : 'A'.toNat ≤ char.toNat ∧ char.toNat ≤ 'Z'.toNat := of_decide_eq_true upper
      have first : 'A'.toNat = 65 := rfl
      have last : 'Z'.toNat = 90 := rfl
      omega
    · have bounds : 'a'.toNat ≤ char.toNat ∧ char.toNat ≤ 'z'.toNat := by
        obtain ⟨first, last⟩ := (Bool.and_eq_true _ _).mp lower
        exact ⟨of_decide_eq_true first, of_decide_eq_true last⟩
      have first : 'a'.toNat = 97 := rfl
      have last : 'z'.toNat = 122 := rfl
      omega
    · have bounds : '0'.toNat ≤ char.toNat ∧ char.toNat ≤ '9'.toNat := by
        rw [Char.isDigit, Bool.and_eq_true, decide_eq_true_eq, decide_eq_true_eq] at digit
        exact digit
      have first : '0'.toNat = 48 := rfl
      have last : '9'.toNat = 57 := rfl
      omega
    · rw [eq_of_beq hyphen]
      decide
  constructor
  · cases blank : isWhitespace char with
    | false => rfl
    | true =>
        simp only [isWhitespace, Bool.or_eq_true, Bool.and_eq_true, beq_iff_eq, decide_eq_true_eq] at blank
        omega
  · intro same
    rw [same] at range
    exact absurd range (by decide)

theorem alias_plain (accepted : hostAlias uid = .ok ("server-" ++ uid)) :
    ∀ char ∈ ("server-" ++ uid).toList, isWhitespace char = false := by
  obtain ⟨_, allowed⟩ := hostAlias_ok accepted
  intro char listed
  rw [String.toList_append, List.mem_append] at listed
  cases listed with
  | inl fixed =>
      have every : ∀ char ∈ "server-".toList, isWhitespace char = false := by decide
      exact every char fixed
  | inr inUid => exact (alphanumeric_plain (allowed char inUid)).1

theorem alias_inj {other : String} (same : "server-" ++ uid = "server-" ++ other) : uid = other := by
  apply String.toList_inj.mp
  have chars := congrArg String.toList same
  rw [String.toList_append, String.toList_append] at chars
  exact List.append_cancel_left chars

theorem hostTrust_ok {trusted : HostTrust} (made : hostTrust env name server = .ok trusted) :
    ∃ key : List UInt8, key.length = 32 ∧ hostAlias server.uid = .ok ("server-" ++ server.uid) ∧
      trusted.entry = "server-" ++ server.uid ++ " " ++ ("ssh-ed25519 " ++ blobOf key) ++ "\n" ∧
      value (value server.status "hostSSH").fields "fingerprint" = .str ("SHA256:" ++ env.sha256 (wire key)) ∧
      value (value server.status "hostSSH").fields "installedFingerprint" =
        .str ("SHA256:" ++ env.sha256 (wire key)) := by
  obtain ⟨_, _, made⟩ := bind_ok made
  obtain ⟨_, _, made⟩ := bind_ok made
  obtain ⟨_, _, made⟩ := bind_ok made
  obtain ⟨host, isHost, made⟩ := bind_ok made
  obtain ⟨_, _, made⟩ := bind_ok made
  obtain ⟨recorded, _, made⟩ := bind_ok made
  obtain ⟨normal, accepted, made⟩ := bind_ok made
  obtain ⟨print, isPrint, made⟩ := bind_ok made
  obtain ⟨_, checked, made⟩ := bind_ok made
  obtain ⟨hostKeyAlias, isAlias, made⟩ := bind_ok made
  cases made
  obtain ⟨key, sized, _, rfl⟩ := publicKey_ok accepted
  have printed : print = "SHA256:" ++ env.sha256 (wire key) := by
    obtain ⟨same, accepted', isPrint⟩ := bind_ok isPrint
    rw [publicKey_key sized] at accepted'
    cases accepted'
    rw [splitFields_key] at isPrint
    simp only [blob_decodes, Option.getD_some] at isPrint
    exact (Except.ok.inj isPrint).symm
  obtain ⟨named, _⟩ := hostAlias_ok isAlias
  subst named
  subst printed
  obtain ⟨desired, installed⟩ := Bool.and_eq_true_iff.mp (demand_ok checked)
  have fields := member_ok isHost
  have isDesired := (of_decide_eq_true desired).symm
  have isInstalled := of_decide_eq_true installed
  rw [isDesired] at isInstalled
  refine ⟨key, sized, isAlias, rfl, ?_, ?_⟩
  · rw [fields, isDesired]
  · rw [fields, Json.same_str.mp isInstalled]

/-! ## The file -/

/-- A trusted line is read back as its three fields. -/
theorem fields_entry (isAlias : hostAlias uid = .ok ("server-" ++ uid)) (key : List UInt8) :
    splitFields (String.ofList (("server-" ++ uid).toList ++ ' ' :: ("ssh-ed25519".toList ++ ' ' :: (blobOf key).toList))) =
      ["server-" ++ uid, "ssh-ed25519", blobOf key] := by
  rw [splitFields, String.toList_ofList, fieldsOf_word (alias_plain isAlias) (by decide) [] (.inr (by simp)),
    fieldsOf_word algorithm_plain (by decide) [] (.inr (by decide)), fieldsOf_last blob_plain [] (.inr (blob_ne_nil key))]
  simp only [List.reverse_nil, List.nil_append, String.ofList_toList]

theorem linesOf_line {line rest : List Char} (oneLine : '\n' ∉ line) (read : List Char) :
    linesOf (line ++ '\n' :: rest) read = (read.reverse ++ line) :: linesOf rest [] := by
  induction line generalizing read with
  | nil => rw [List.nil_append, linesOf, if_pos rfl, List.append_nil]
  | cons char line ih =>
      rw [List.mem_cons, not_or] at oneLine
      rw [List.cons_append, linesOf, if_neg (Ne.symm oneLine.1), ih oneLine.2]
      simp

/-- The fields of a trusted Server come before those of the rest. -/
theorem parseKnownHosts_entry (isAlias : hostAlias uid = .ok ("server-" ++ uid)) (key : List UInt8) (rest : String) :
    parseKnownHosts ("server-" ++ uid ++ " " ++ ("ssh-ed25519 " ++ blobOf key) ++ "\n" ++ rest) =
      ["server-" ++ uid, "ssh-ed25519", blobOf key] :: parseKnownHosts rest := by
  have text : ("server-" ++ uid ++ " " ++ ("ssh-ed25519 " ++ blobOf key) ++ "\n" ++ rest).toList =
      (("server-" ++ uid).toList ++ ' ' :: ("ssh-ed25519".toList ++ ' ' :: (blobOf key).toList)) ++ '\n' :: rest.toList := by
    simp only [String.toList_append, List.append_assoc]
    rfl
  have oneLine : '\n' ∉ ("server-" ++ uid).toList ++ ' ' :: ("ssh-ed25519".toList ++ ' ' :: (blobOf key).toList) := by
    have newline : isWhitespace '\n' ≠ false := by decide
    simp only [List.mem_append, List.mem_cons, not_or]
    exact ⟨fun listed => newline (alias_plain isAlias _ listed), by decide, by decide, by decide,
      fun listed => newline (blob_plain _ listed)⟩
  have first : "server-".toList = 's' :: "erver-".toList := rfl
  rw [parseKnownHosts, parseKnownHosts, text, linesOf_line oneLine, List.map_cons, List.reverse_nil, List.nil_append,
    fields_entry isAlias, List.filter_cons, if_pos]
  rw [List.head?_cons, Option.any_some, String.toList_append, first]
  rfl

theorem trusted_entry {trusted : HostTrust} (made : hostTrust env name server = .ok trusted) : ∃ fields,
    TrustedEntry env server fields ∧ ∀ rest, parseKnownHosts (trusted.entry ++ rest) = fields :: parseKnownHosts rest := by
  obtain ⟨key, sized, isAlias, entry, desired, installed⟩ := hostTrust_ok made
  refine ⟨["server-" ++ server.uid, "ssh-ed25519", blobOf key], ⟨?_, ?_, ?_⟩, fun rest => ?_⟩
  · exact ⟨key, sized, rfl, blob_decodes key, desired, installed⟩
  · intro field listed
    simp only [List.mem_cons, List.not_mem_nil, or_false] at listed
    obtain rfl | rfl | rfl := listed
    · refine ⟨fun empty => ?_, alias_plain isAlias⟩
      have chars := congrArg String.toList empty
      rw [String.toList_append] at chars
      cases chars
    · exact ⟨by decide, algorithm_plain⟩
    · exact ⟨fun empty => blob_ne_nil key (by rw [empty]; rfl), blob_plain⟩
  · intro environment uid known checking arguments made
    obtain ⟨hostKeyAlias, named, _, option⟩ := sshArgs_options made
    obtain ⟨rfl, _⟩ := hostAlias_ok named
    rw [option, List.head?_cons, Option.some.injEq]
    exact ⟨alias_inj, fun same => by rw [same]⟩
  · rw [entry]
    exact parseKnownHosts_entry isAlias key rest

theorem knownHosts_cons (first : HostTrust) (others : List HostTrust) :
    knownHosts (first :: others) = first.entry ++ knownHosts others := by
  rw [knownHosts, List.map_cons, String.join_cons]
  rfl

/-- One entry for each host, from the Server that was fetched for it. -/
theorem knownHosts_entries {events : Trace} {hosts : List (String × Object)} {trusted : List HostTrust}
    (made : List.Forall₂ (fun (host : String × Object) trust => (do
      let server ← Api.get .server host.1
      hostTrust env host.1 server : Task HostTrust).Reached events trust) hosts trusted) :
    ∃ servers, List.Forall₂ (fun (host : String × Object) (server : Resource) =>
        (⟨.get .server host.1, .ok server⟩ : Event) ∈ events) hosts servers ∧
      List.Forall₂ (TrustedEntry env) servers (parseKnownHosts (knownHosts trusted)) := by
  induction made with
  | nil => exact ⟨[], .nil, .nil⟩
  | cons fetched _ ih =>
      obtain ⟨servers, gets, entries⟩ := ih
      obtain ⟨server, got, checked⟩ := fetched.bind
      obtain ⟨fields, isEntry, parsed⟩ := trusted_entry checked.lifted
      rw [knownHosts_cons, parsed]
      exact ⟨server :: servers, .cons got.perform gets, .cons isEntry entries⟩

end Entries

/-- Whatever the API answers, the file has one entry for each host of the inventory, which accepts the key that the
Server has installed, under the alias of this Server only. -/
theorem trust_prepared {env : Environment} {inventory : Object} {events : Trace} {trusted : List HostTrust}
    (ran : (prepare env (Api.get .server) inventory).Ran events trusted) :
    (∃ hosts servers, inventoryHosts inventory = .ok hosts ∧
      List.Forall₂ (fun (host : String × Object) (server : Resource) =>
        (⟨.get .server host.1, .ok server⟩ : Event) ∈ events) hosts servers ∧
      List.Forall₂ (TrustedEntry env) servers (parseKnownHosts (knownHosts trusted))) ∧
    (∀ text normal, publicKey text = .ok normal → publicKey normal = .ok normal) ∧
    ∀ left right first second, publicKey left = .ok first → publicKey right = .ok second →
      (first = second ↔ ∃ key, EncodesKey left key ∧ EncodesKey right key) := by
  refine ⟨?_, fun text normal accepted => publicKey_idempotent accepted,
    fun left right first second accepted accepted' => publicKey_same accepted accepted'⟩
  obtain ⟨hosts, isHosts, each⟩ := ran.reached.check
  obtain ⟨servers, gets, entries⟩ := knownHosts_entries each.mapM
  exact ⟨hosts, servers, isHosts, gets, entries⟩

/-- The inventory of one group with one host. -/
def oneHost : Object := [("servers", .obj [("hosts", .obj [("node", .obj [])])])]

/-- The rehearsed Server is trusted with one entry. -/
theorem rehearsed_trust_prepared : ∃ trusted fields, parseKnownHosts (knownHosts trusted) = [fields] ∧
    TrustedEntry (Provisioning.Rehearsal.executor "group") Configurations.Rehearsal.server fields := by
  have facts : (match Op.eval (Configurations.Rehearsal.answer Configurations.Rehearsal.server.status)
      (prepare (Provisioning.Rehearsal.executor "group") (Api.get .server) oneHost) with
    | .ok _ => true
    | .error _ => false) = true := by decide +kernel
  split at facts
  · rename_i trusted evaluated
    have ran := Op.ran_eval _ evaluated
    obtain ⟨⟨hosts, servers, isHosts, gets, entries⟩, _, _⟩ := trust_prepared ran
    have single : inventoryHosts oneHost = .ok [("node", [])] := rfl
    cases single.symm.trans isHosts
    have reply : Configurations.Rehearsal.answer Configurations.Rehearsal.server.status (.get .server "node") =
        .ok Configurations.Rehearsal.server := rfl
    generalize isFile : parseKnownHosts (knownHosts trusted) = file at entries
    cases gets with
    | cons got none =>
        cases none
        have same := (Program.path_answered _ _ _ got).trans reply
        cases entries with
        | cons entry none =>
            cases none
            rw [Except.ok.inj same] at entry
            exact ⟨trusted, _, isFile, entry⟩
  · cases facts

end Homelab.RunnerTrust
