import Homelab.Api.Exact
import Homelab.Interaction.Keeping
import Homelab.Operators.Configurations.Transport
import Homelab.Operators.SshHostKeys.Reconcile

namespace Homelab.SshHostKeys

open Json (Object)
open Api (Seen Honest Exact seen_get seen_last)
open Configurations (sshOption sshArgs_options)
open Interaction (Op Action Contract Program)
open Provisioning (member_ok splitLines itemKey hostPrivateKey hostPrivateKey_secret runPlay isActive stageArgv
  scopedInventory ansibleHost)
open ServerOperation (operationProgress verifyOperation reservation acquire settle completeOperation completeAttempts
  completionFields)

/-! # When a host key is trusted -/

variable {env : Environment} {trace later : Trace}

/-- What is recorded about the host key of a Server. -/
def hostTrust (server : Resource) : Object := (value server.status "hostSSH").fields

/-- No key of the host is recorded yet. -/
structure Unenrolled (server : Resource) : Prop where
  unpinned : holds (hostTrust server) "bootstrapPublicKey" = false
  uninstalled : holds (hostTrust server) "installedKeyPairRef" = false

/-- A known_hosts file with these keys of one host. -/
def knownContent (name : String) (keys : List String) : String :=
  String.join (keys.eraseDups.map fun key => name ++ " " ++ key ++ "\n")

/-- A connection to the host of this Server. -/
structure Connects (uid checking : String) (session : Session) : Prop where
  checking : sshOption "StrictHostKeyChecking" session.arguments = some checking
  aliased : ∃ name, hostAlias uid = .ok name ∧ sshOption "HostKeyAlias" session.arguments = some name

/-- An unknown key is accepted only of a Server without any recorded key, and into an empty file. -/
def FirstContact (trace : Trace) (session : Session) : Prop :=
  ∃ server, Seen trace server ∧ Unenrolled server ∧ Connects server.uid "accept-new" session ∧
    session.known.content = ""

/-- The file has the accepted keys that are recorded for a Server, or its managed key alone. -/
def Listed (server : Resource) (content : String) : Prop :=
  ∃ name keys, hostAlias server.uid = .ok name ∧ content = knownContent name keys ∧
    (acceptedKeys (hostTrust server) = .ok keys ∨
      ∃ managed, itemKey (hostTrust server) "publicKey" = .ok managed ∧ keys = [managed])

/-- A strict connection with such a file, or with the file that such a connection left. -/
def StrictContact (trace : Trace) (session : Session) : Prop :=
  ∃ server, Seen trace server ∧ Connects server.uid "yes" session ∧
    (Listed server session.known.content ∨ ∃ earlier login,
      (⟨.host (.login earlier), .ok login⟩ : Event) ∈ trace ∧ Connects server.uid "yes" earlier ∧
      Listed server earlier.known.content ∧ session.known.content = login.known)

/-- The host of a Server was authenticated by a key that its record accepts, and the Server
still has the same identity and trust. -/
structure Authenticated (trace : Trace) (earlier server : Resource) : Prop where
  read : Seen trace earlier
  seen : Seen trace server
  same : Matches server earlier
  proven : ∃ session login name keys, (⟨.host (.login session), .ok login⟩ : Event) ∈ trace ∧ login.returncode = 0 ∧
    Connects earlier.uid "yes" session ∧ hostAlias earlier.uid = .ok name ∧
    acceptedKeys (hostTrust earlier) = .ok keys ∧ session.known.content = knownContent name keys

/-- The play is led to the host of the Server alone, over a strict connection. -/
def Addressed (env : Environment) (server : Resource) (files : List (String × Json)) : Prop :=
  ∃ literal name known arguments playVars, hostAlias server.uid = .ok name ∧
    sshArgs env server.uid known "yes" = .ok arguments ∧
    files = [("inventory.json", scopedInventory server.name
      (ansibleHost literal (shlexJoin arguments) [("host_key_alias", .str name)])), ("variables.json", .obj playVars)]

/-- What a pass writes about the host key of a Server, given what it has read. -/
inductive Records (resource : Resource) : Object → Prop
  | pin {key : String} (open' : Unenrolled resource) : Records resource (pinFields key)
  | install {fields : Object} {reference digest : Json} (distinct : (fields.map Prod.fst).Nodup)
      (unpins : fields.get? "bootstrapPublicKey" = some .null)
      (installs : fields.get? "installedKeyPairRef" = some reference) (named : reference.truthy = true)
      (desired : Json.Same reference (value (hostTrust resource) "keyPairRef")) :
      Records resource [("hostSSH", .obj fields), ("installedSSHTrustBundleDigest", digest)]
  | fail {failure : Exn} : Records resource [("hostSSH", .obj (failureFields failure))]

def Careful (env : Environment) (trace : Trace) : Request → Prop
  | .patchStatus resource status => Seen trace resource ∧ (resource.kind = .operation ∨
      resource.kind = .server ∧ Records resource status)
  | .host (.login session) => FirstContact trace session ∨ StrictContact trace session
  | .host (.fetch ..) => ∃ earlier server, Authenticated trace earlier server
  | .host (.spawn _ files) => ∃ earlier server, Authenticated trace earlier server ∧ Addressed env server files
  | _ => True

def careful (env : Environment) : Contract interface where
  guard := Careful env
  rely request reply := Honest request reply ∧ Exact request reply

/-! ## Requests without an effect on trust -/

/-- Readings, files of the pass, and local commands. -/
def Tame : Request → Prop
  | .get .. => True
  | .list .. => True
  | .create .. => True
  | .patchStatus .. => False
  | .host (.login _) => False
  | .host (.fetch ..) => False
  | .host (.spawn ..) => False
  | .host _ => True

theorem Tame.careful {request : Request} (tame : Tame request) (trace : Trace) : Careful env trace request := by
  cases request with
  | patchStatus => exact tame.elim
  | host call =>
      cases call with
      | login => exact tame.elim
      | fetch => exact tame.elim
      | spawn => exact tame.elim
      | _ => exact True.intro
  | _ => exact True.intro

theorem tame_keeps {α : Type} {body : Task α} (tame : body.Confined Tame) : body.Keeps (careful env) :=
  Op.Keeps.of_confined tame fun trace _ tame => tame.careful trace

/-- What a tame body has read is in the trace. -/
theorem tame_ran {α : Type} {body : Task α} (tame : body.Confined Tame) :
    body.Meets (careful env) trace
      (fun later value => ∃ events, Op.Added (careful env) Tame trace later events ∧ body.Ran events value)
      fun later _ => ∃ events, Op.Added (careful env) Tame trace later events :=
  tame.meets_ran fun later _ _ tame => tame.careful later

theorem get_tame (kind : Kind) (name : String) : (Api.get kind name).Confined Tame := .perform True.intro

theorem writeJson_tame (path : String) (document : Json) : (Host.run (.writeJson path document)).Confined Tame :=
  .perform True.intro

theorem writeText_tame (path text : String) : (Host.run (.writeText path text)).Confined Tame := .perform True.intro

theorem checkOutput_tame (argv : List String) : (checkOutput argv).Confined Tame :=
  .bind (.perform True.intro) fun _ => .check fun _ _ => .pure _

theorem verifyOperation_tame (target : Resource) : (verifyOperation target).Confined Tame :=
  .check fun _ _ => .check fun _ _ => .bind (get_tame .operation _) fun _ => .check fun _ _ => .pure _

theorem current_tame (snapshot : Resource) : (current snapshot).Confined Tame :=
  .bind (get_tame .server _) fun _ => .check fun _ _ => .pure _

theorem writeKnown_tame (server : Resource) (path : String) (keys : List String) :
    (writeKnown server path keys).Confined Tame :=
  .check fun _ _ => .bind (.perform True.intro) fun _ => .pure _

theorem Authenticated.mono {earlier server : Resource} (authenticated : Authenticated trace earlier server)
    (extended : trace <+: later) : Authenticated later earlier server := by
  obtain ⟨read, seen, same, session, login, name, keys, member, proven⟩ := authenticated
  exact ⟨read.mono extended, seen.mono extended, same, session, login, name, keys, extended.subset member, proven⟩

/-! ## The parts of a pass -/

/-- A fresh read is returned only if it matches the snapshot. -/
theorem current_meets (snapshot : Resource) :
    (current snapshot).Meets (careful env) trace
      (fun later server => Seen later server ∧ Matches server snapshot ∧ server.kind = .server) fun _ _ => True := by
  apply Op.meets_bind.mpr
  refine Op.meets_perform.mpr ⟨True.intro, fun server honest => ?_, fun _ _ => True.intro⟩
  exact Op.Meets.check (fun _ checked => ⟨seen_get .., checkCurrent_ok checked, honest.1.1⟩) fun _ => True.intro

/-- What is known about a connection that was authenticated. -/
structure Admitted (trace later : Trace) (uid checking : String) (known left : KnownHosts) : Prop where
  extended : trace <+: later
  session : ∃ session login, (⟨.host (.login session), .ok login⟩ : Event) ∈ later ∧ login.returncode = 0 ∧
    Connects uid checking session ∧ session.known = known ∧ left.content = login.known

theorem sshProbe_meets {uid host : String} {known : KnownHosts} {checking : String}
    (guarded : ∀ session, Connects uid checking session → session.known = known →
      Careful env trace (.host (.login session))) :
    (sshProbe env uid host known checking).Meets (careful env) trace
      (fun later left => Admitted trace later uid checking known left) fun _ _ => True := by
  refine Op.Meets.check (fun literal _ => Op.Meets.check (fun session made => ?_) fun _ => True.intro)
    fun _ => True.intro
  obtain ⟨arguments, isArguments, made⟩ := bind_ok made
  cases made
  obtain ⟨name, isAlias, strictness, aliased⟩ := sshArgs_options isArguments
  have connects : Connects uid checking { arguments, host := literal, known } := ⟨strictness, name, isAlias, aliased⟩
  apply Op.meets_bind.mpr
  refine Op.meets_perform.mpr ⟨guarded _ connects rfl, fun login _ => ?_, fun _ _ => True.intro⟩
  split
  · rename_i succeeded
    exact ⟨List.prefix_append _ _, _, login, by simp, succeeded, connects, rfl, rfl⟩
  · split
    · exact True.intro
    · split <;> exact True.intro

theorem operationProgress_keeps (target : Resource) (step : String) :
    (operationProgress target step).Keeps (careful env) := by
  intro trace
  have verified : (verifyOperation target).Meets (careful env) trace
      (fun later operation => Seen later operation ∧ operation.kind = .operation) fun _ _ => True := by
    refine Op.Meets.check (fun _ _ => Op.Meets.check (fun _ _ => ?_) fun _ => True.intro) fun _ => True.intro
    apply Op.meets_bind.mpr
    refine Op.meets_perform.mpr ⟨True.intro, fun operation honest => ?_, fun _ _ => True.intro⟩
    exact Op.Meets.check (fun _ _ => ⟨seen_get .., honest.1.1⟩) fun _ => True.intro
  refine verified.bind (fun later operation _ found => ?_) fun _ _ _ _ => True.intro
  apply Op.meets_bind.mpr
  refine Op.Meets.check (fun _ _ => ?_) fun _ => True.intro
  exact Op.meets_perform.mpr ⟨⟨found.1, .inl found.2⟩, fun _ _ => True.intro, fun _ _ => True.intro⟩

/-! ### First contact -/

/-- What a first contact returns is the Server as it was read, with the pinned key. -/
theorem pinFirstContact_meets {server : Resource} {host : String} (seen : Seen trace server)
    (unenrolled : Unenrolled server) :
    (pinFirstContact env server host).Meets (careful env) trace
      (fun later pinned => Seen later pinned ∧ ∃ latest key, Matches latest server ∧
        pinned.status = Json.mergeFields latest.status (pinFields key)) fun _ _ => True := by
  apply Op.meets_bind.mpr
  refine Op.meets_perform.mpr ⟨True.intro, fun _ _ => ?_, fun _ _ => True.intro⟩
  refine Op.Meets.bind (sshProbe_meets fun session connects known => .inl ?_) (fun later known admitted _ => ?_)
    fun _ _ _ _ => True.intro
  · exact ⟨server, seen.mono (List.prefix_append _ _), unenrolled, connects, by rw [known]⟩
  · refine Op.Meets.check (fun key _ => ?_) fun _ => True.intro
    refine (current_meets server).bind (fun later latest _ read => ?_) fun _ _ _ _ => True.intro
    refine Op.Meets.check (fun trust isTrust => Op.Meets.check (fun _ free => ?_) fun _ => True.intro)
      fun _ => True.intro
    obtain ⟨found, same, kind⟩ := read
    have open' : Unenrolled latest := by
      have facts := demand_ok free
      rw [← member_ok isTrust] at facts
      simp only [Bool.not_eq_true', Bool.or_eq_false_iff] at facts
      exact ⟨facts.1, facts.2⟩
    refine Op.Meets.check (fun _ _ => ?_) fun _ => True.intro
    refine Op.meets_perform.mpr ⟨⟨found, .inr ⟨kind, .pin open'⟩⟩, fun pinned honest => ?_, fun _ _ => True.intro⟩
    exact ⟨seen_last (List.mem_singleton.mpr rfl), latest, key, same, honest.2⟩

/-! ### Delivery -/

theorem hostPrivateKey_keeps {earlier server : Resource} (authenticated : Authenticated trace earlier server) :
    (hostPrivateKey env server).Meets (careful env) trace (fun _ _ => True) fun _ _ => True := by
  have meets : (hostPrivateKey env server).Meets (careful env) trace
      (fun later _ => Interaction.Extends (fun request => asksSecret request = true) trace later)
      fun later _ => Interaction.Extends (fun request => asksSecret request = true) trace later := by
    refine Op.Confined.meets (hostPrivateKey_secret env server) fun later request extends' asks => ?_
    cases request with
    | host call =>
        cases call with
        | fetch => exact ⟨earlier, server, authenticated.mono extends'.prefix⟩
        | _ => cases asks
    | get => exact True.intro
    | _ => cases asks
  exact meets.mono (fun _ _ _ _ => True.intro) fun _ _ _ _ => True.intro

theorem runAnsible_careful {earlier server : Resource} {argv : List String} {files : List (String × Json)}
    {diagnostic : String} {timeout : Nat} (authenticated : Authenticated trace earlier server)
    (addressed : Addressed env server files) :
    (runAnsible argv files diagnostic timeout).Meets (careful env) trace (fun _ _ => True) fun _ _ => True := by
  apply Op.meets_bind.mpr
  refine Op.meets_perform.mpr ⟨True.intro, fun _ _ => ?_, fun _ _ => True.intro⟩
  apply Op.meets_bind.mpr
  refine Op.meets_perform.mpr ⟨?_, fun _ _ => ?_, fun _ _ => True.intro⟩
  · exact ⟨earlier, server, authenticated.mono (List.prefix_append _ _), addressed⟩
  · have rest : Op.Confined Tame (do
        (Host.run .startReader : Task Unit)
        let returncode ← tryCatch (Host.run (.wait timeout) : Task Int) abandonCommand
        let stdout : String ← (Host.run (.readText diagnostic) : Task String)
        return ({ returncode, stdout } : Completed)) := by
      have calls (call : Host) (tame : Tame (.host call)) : (Host.run call).Confined Tame := .perform tame
      refine .bind (calls .startReader True.intro) fun _ => .bind (.tryCatch (calls (.wait timeout) True.intro) ?_)
        fun returncode => .bind (calls (.readText diagnostic) True.intro) fun _ => .pure _
      intro failure
      refine .bind (.tryCatch (calls .killGroup True.intro) fun other => ?_) fun _ =>
        .bind (calls .reap True.intro) fun _ => .throw _
      split
      · exact .pure _
      · exact .throw _
    exact tame_keeps rest _

theorem runPlay_careful {earlier server : Resource} {host : String} {known : KnownHosts} {play : String}
    {playVars : Object} (authenticated : Authenticated trace earlier server) :
    (runPlay env server host known play playVars).Meets (careful env) trace (fun _ _ => True) fun _ _ => True := by
  refine Op.Meets.check (fun literal _ => Op.Meets.check (fun name named => Op.Meets.check (fun arguments made => ?_)
    fun _ => True.intro) fun _ => True.intro) fun _ => True.intro
  refine (tame_keeps (writeJson_tame _ _) _).bind (fun first _ before _ => ?_) fun _ _ _ _ => True.intro
  refine (tame_keeps (writeJson_tame _ _) _).bind (fun second _ between _ => ?_) fun _ _ _ _ => True.intro
  refine Op.Meets.bind (runAnsible_careful (authenticated.mono (before.trans between))
    ⟨literal, name, known.path, arguments, playVars, named, made, rfl⟩) (fun _ result _ _ => ?_) fun _ _ _ _ => True.intro
  refine Op.Meets.check (fun _ _ => ?_) fun _ => True.intro
  exact Op.meets_ofExcept.mpr ⟨fun _ _ => True.intro, fun _ _ => True.intro⟩

/-- The file that is written has these keys. -/
theorem writeKnown_meets {server : Resource} {path : String} {keys : List String} :
    (writeKnown server path keys).Meets (careful env) trace
      (fun _ known => ∃ name, hostAlias server.uid = .ok name ∧ known.content = knownContent name keys)
      fun _ _ => True := by
  refine Op.Meets.check (fun name named => ?_) fun _ => True.intro
  apply Op.meets_bind.mpr
  exact Op.meets_perform.mpr ⟨True.intro, fun _ _ => ⟨name, named, rfl⟩, fun _ _ => True.intro⟩

/-- After the managed identity was delivered, the host is connected to by the managed key alone. -/
structure Delivered (trace : Trace) (earlier server : Resource) (known : KnownHosts) : Prop where
  authenticated : Authenticated trace earlier server
  left : ∃ session login, (⟨.host (.login session), .ok login⟩ : Event) ∈ trace ∧
    Connects earlier.uid "yes" session ∧ Listed earlier session.known.content ∧ known.content = login.known

theorem installKey_meets {earlier server : Resource} {host : String} {known : KnownHosts}
    (authenticated : Authenticated trace earlier server) :
    (installKey env server host (hostTrust earlier) known).Meets (careful env) trace
      (fun later left => Delivered later earlier server left) fun _ _ => True := by
  refine (hostPrivateKey_keeps authenticated).bind (fun _ privateKey first _ => ?_) fun _ _ _ _ => True.intro
  refine (tame_keeps (writeText_tame _ _) _).bind (fun _ _ second _ => ?_) fun _ _ _ _ => True.intro
  refine (tame_keeps (checkOutput_tame _) _).bind (fun _ derived third _ => ?_) fun _ _ _ _ => True.intro
  refine Op.Meets.check (fun derivedKey _ => Op.Meets.check (fun managed isManaged => Op.Meets.check (fun _ _ => ?_)
    fun _ => True.intro) fun _ => True.intro) fun _ => True.intro
  refine (tame_keeps (current_tame server) _).bind (fun _ _ fourth _ => ?_) fun _ _ _ _ => True.intro
  refine (operationProgress_keeps server _ _).bind (fun now _ fifth _ => ?_) fun _ _ _ _ => True.intro
  have still : Authenticated now earlier server :=
    authenticated.mono (first.trans (second.trans (third.trans (fourth.trans fifth))))
  refine (runPlay_careful still).bind (fun _ _ played _ => ?_) fun _ _ _ _ => True.intro
  refine (writeKnown_meets).bind (fun _ only written file => ?_) fun _ _ _ _ => True.intro
  obtain ⟨name, named, content⟩ := file
  have sameUid : server.uid = earlier.uid := authenticated.same.uid
  rw [sameUid] at named
  have listed : Listed earlier only.content := ⟨name, [managed], named, content, .inr ⟨managed, isManaged, rfl⟩⟩
  have reached := still.mono (played.trans written)
  rw [sameUid]
  refine (sshProbe_meets fun session connects same => .inr ?_).mono (fun final left _ admitted => ?_)
    fun _ _ _ _ => True.intro
  · exact ⟨earlier, reached.read, connects, .inl (same ▸ listed)⟩
  · obtain ⟨extended, session, login, member, _, connects, same, content⟩ := admitted
    exact ⟨reached.mono extended, session, login, member, connects, same ▸ listed, content⟩

theorem installTrust_meets {earlier server : Resource} {host : String} {known : KnownHosts}
    (delivered : Delivered trace earlier server known) :
    (installTrust env server host known).Meets (careful env) trace (fun _ _ => True) fun _ _ => True := by
  refine (operationProgress_keeps server _ _).bind (fun now _ first _ => ?_) fun _ _ _ _ => True.intro
  refine Op.Meets.check (fun _ _ => Op.Meets.check (fun _ _ => Op.Meets.check (fun _ _ => ?_)
    fun _ => True.intro) fun _ => True.intro) fun _ => True.intro
  refine (runPlay_careful (delivered.authenticated.mono first)).bind (fun _ _ played _ => ?_) fun _ _ _ _ => True.intro
  rw [show server.uid = earlier.uid from delivered.authenticated.same.uid]
  refine (sshProbe_meets fun session connects same => .inr ?_).bind (fun _ _ _ _ => True.intro) fun _ _ _ _ => True.intro
  have extended := first.trans played
  obtain ⟨session', login, member, before, listed, content⟩ := delivered.left
  refine ⟨earlier, (delivered.authenticated.mono extended).read, connects, .inr ⟨session', login, ?_⟩⟩
  exact ⟨extended.subset member, before, listed, by rw [same, content]⟩

/-! ### Reports -/

theorem observation_keeps {snapshot : Resource} {fields additional : Object} {pin : Json}
    (records : ∀ latest, Matches latest snapshot →
      Records latest (Object.update [("hostSSH", .obj fields)] additional)) :
    (observation snapshot fields pin additional).Keeps (careful env) := by
  unfold observation
  generalize 5 = attempts
  induction attempts with
  | zero => exact .throw _
  | succ attempts ih =>
      intro trace
      refine (current_meets snapshot).bind (fun later latest _ read => ?_) fun _ _ _ _ => True.intro
      obtain ⟨seen, same, kind⟩ := read
      refine Op.Meets.check (fun _ _ => ?_) fun _ => True.intro
      apply Op.meets_bind.mpr
      apply Op.meets_attempt.mpr
      refine Op.Meets.check (fun _ _ => Op.meets_perform.mpr ⟨⟨seen, .inr ⟨kind, records latest same⟩⟩,
        fun _ _ => True.intro, fun failure _ => ?_⟩) fun failure => ?_
      · dsimp only
        split
        · exact True.intro
        · exact ih _
        · exact True.intro
      · dsimp only
        split
        · exact True.intro
        · exact ih _
        · exact True.intro

/-! ## The pass over one Server -/

/-- The verified identity is what the record asks for, in the version that is patched. -/
theorem installedFields_records {earlier server latest : Resource} {fields : Object} {digest : Json}
    (desired : holds (hostTrust earlier) "keyPairRef" = true) (same : Matches server earlier)
    (made : installedFields server (hostTrust earlier) = .ok fields) (current : Matches latest server) :
    Records latest [("hostSSH", .obj fields), ("installedSSHTrustBundleDigest", digest)] := by
  obtain ⟨reference, isReference, made⟩ := bind_ok made
  obtain ⟨print, _, made⟩ := bind_ok made
  obtain ⟨observed, _, made⟩ := bind_ok made
  cases made
  have identity : "keyPairRef" ∈ IDENTITY := by decide
  have chain := (current.trust _ identity).trans (same.trust _ identity)
  refine .install (by simp) rfl (show _ = some reference from rfl) ?_ ?_
  · rw [← Provisioning.item_holds isReference]
    exact desired
  · have read : value (hostTrust earlier) "keyPairRef" = reference := by
      simp [value, item_ok isReference]
    rw [← read]
    exact chain.symm

theorem installManaged_meets {server : Resource} {host : String} (seen : Seen trace server)
    (desired : holds (hostTrust server) "keyPairRef" = true) :
    (installManaged env server host).Meets (careful env) trace (fun _ _ => True) fun _ _ => True := by
  refine Op.Meets.check (fun trust isTrust => Op.Meets.check (fun keys accepted => ?_) fun _ => True.intro)
    fun _ => True.intro
  obtain rfl : hostTrust server = trust := Provisioning.itemObject_fields isTrust
  refine (writeKnown_meets).bind (fun _ known written file => ?_) fun _ _ _ _ => True.intro
  obtain ⟨name, named, content⟩ := file
  have listed : Listed server known.content := ⟨name, keys, named, content, .inl accepted⟩
  refine (sshProbe_meets fun session connects same => .inr ?_).bind (fun _ left _ admitted => ?_)
    fun _ _ _ _ => True.intro
  · exact ⟨server, seen.mono written, connects, .inl (same ▸ listed)⟩
  refine (current_meets server).bind (fun now latest read found => ?_) fun _ _ _ _ => True.intro
  obtain ⟨extended, session, login, member, succeeded, connects, same, _⟩ := admitted
  have authenticated : Authenticated now server latest := by
    refine ⟨seen.mono (written.trans (extended.trans read)), found.1, found.2.1, session, login, name, keys, ?_⟩
    exact ⟨read.subset member, succeeded, connects, named, accepted, same ▸ content⟩
  refine (installKey_meets authenticated).bind (fun _ only _ delivered => ?_) fun _ _ _ _ => True.intro
  refine (installTrust_meets delivered).bind (fun _ _ _ _ => ?_) fun _ _ _ _ => True.intro
  refine Op.Meets.check (fun fields made => Op.Meets.check (fun digest _ => ?_) fun _ => True.intro) fun _ => True.intro
  refine Op.Meets.bind (observation_keeps (fun version current => ?_) _) (fun _ _ _ _ => True.intro)
    fun _ _ _ _ => True.intro
  exact installedFields_records desired found.2.1 made current

/-- A pinned Server is still asked for the same identity. -/
theorem hostTrust_pinned {latest pinned : Resource} {key : String}
    (written : pinned.status = Json.mergeFields latest.status (pinFields key)) :
    hostTrust pinned = Json.mergeFields (hostTrust latest) [("bootstrapPublicKey", .str key),
      ("phase", .str "BootstrapPinned"), ("reason", .str "FirstContactRecorded"),
      ("message", .str "First-contact host key recorded using TOFU")] := by
  rw [hostTrust, written, value, pinFields, Json.mergeFields_obj, Json.mergeFields_nil]
  simp [Json.fields, hostTrust, value]

theorem pinned_desired {server latest pinned : Resource} {key : String}
    (desired : holds (hostTrust server) "keyPairRef" = true) (same : Matches latest server)
    (written : pinned.status = Json.mergeFields latest.status (pinFields key)) :
    holds (hostTrust pinned) "keyPairRef" = true := by
  have kept : holds (hostTrust latest) "keyPairRef" = holds (hostTrust server) "keyPairRef" := by
    rw [holds_eq, holds_eq, ← Json.truthy_canonical,
      show (value (hostTrust latest) "keyPairRef").canonical = _ from same.trust _ (by decide), Json.truthy_canonical]
    rfl
  rw [hostTrust_pinned written, holds, Json.get?_mergeFields_of_not_mem _ _ (by simp), ← holds, kept, desired]

/-- Enrolment leaves a Server that the API has returned and that is asked for an identity. -/
theorem enrol_meets {server : Resource} {host : String} (seen : Seen trace server)
    (desired : holds (hostTrust server) "keyPairRef" = true) :
    (enrol env host).Meets (careful env) trace server
      (fun later _ state => Seen later state ∧ holds (hostTrust state) "keyPairRef" = true) fun _ _ _ => True := by
  apply Action.meets_bind.mpr
  apply Action.meets_load.mpr
  refine Action.Meets.check (fun trust isTrust => ?_) fun _ => True.intro
  obtain rfl : hostTrust server = trust := member_ok isTrust
  split
  · rename_i free
    simp only [Bool.and_eq_true, Bool.not_eq_true'] at free
    refine Action.Meets.run (pinFirstContact_meets seen ⟨free.1, free.2⟩) (fun later pinned _ found => ?_)
      fun _ _ _ _ => True.intro
    obtain ⟨present, latest, key, same, written⟩ := found
    exact Action.meets_store.mpr ⟨present, pinned_desired desired same written⟩
  · exact ⟨seen, desired⟩

theorem deferred_ok {server : Resource} (passed : deferred server = .ok false) :
    holds (hostTrust server) "keyPairRef" = true := by
  obtain ⟨provisioning, _, passed⟩ := bind_ok passed
  split at passed
  · cases passed
  · obtain ⟨trust, isTrust, passed⟩ := bind_ok passed
    obtain rfl : hostTrust server = trust := member_ok isTrust
    split at passed
    · cases passed
    · rename_i wanted
      simp only [Bool.or_eq_true, not_or, Bool.not_eq_true'] at wanted
      simpa using wanted.2

end Homelab.SshHostKeys
